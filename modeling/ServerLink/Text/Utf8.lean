import ServerLink.Power

/-!
# UTF-8

Bytes are read as characters one encoding at a time. Where the bytes encode no character, the
longest beginning of an encoding (one byte at least) counts as one piece that stands for nothing.
-/

namespace ServerLink.Text

/-- The bytes of a text. -/
def bytesOf (s : String) : List UInt8 := s.toUTF8.toList

/-- How many bytes follow a first byte, and the bounds of the first of them; none if no encoding
starts with it. -/
def lead? (b : UInt8) : Option (Nat × UInt8 × UInt8) :=
  if 0xC2 ≤ b ∧ b ≤ 0xDF then some (1, 0x80, 0xBF)
  else if b = 0xE0 then some (2, 0xA0, 0xBF)
  else if b = 0xED then some (2, 0x80, 0x9F)
  else if 0xE1 ≤ b ∧ b ≤ 0xEF then some (2, 0x80, 0xBF)
  else if b = 0xF0 then some (3, 0x90, 0xBF)
  else if 0xF1 ≤ b ∧ b ≤ 0xF3 then some (3, 0x80, 0xBF)
  else if b = 0xF4 then some (3, 0x80, 0x8F)
  else none

/-- Where a reader of bytes stands inside of an encoding: the bytes still to come, the bounds of
the next one, and the bits read so far. -/
structure Partial where
  left : Nat
  low : UInt8
  high : UInt8
  bits : Nat

/-- The pieces of bytes, of which some stand for a character. `inside` is the encoding begun. -/
def pieces (inside : Option Partial) : List UInt8 → List (Option Char)
  | [] => if inside.isSome then [none] else []
  | b :: bs =>
    match inside with
    | some p =>
      if p.low ≤ b ∧ b ≤ p.high then
        let bits := p.bits * 64 + b.toNat % 64
        if p.left ≤ 1 then some (Char.ofNat bits) :: pieces none bs
        else pieces (some ⟨p.left - 1, 0x80, 0xBF, bits⟩) bs
      else none :: first b bs
    | none => first b bs
where
  /-- A byte outside of an encoding. -/
  first (b : UInt8) (bs : List UInt8) : List (Option Char) :=
    if b < 0x80 then some (Char.ofNat b.toNat) :: pieces none bs
    else match lead? b with
      | some (n, low, high) => pieces (some ⟨n, low, high, b.toNat % 2 ^ (6 - n)⟩) bs
      | none => none :: pieces none bs

/-- The text that bytes encode, if all of them do. -/
def decode? (bs : List UInt8) : Option String :=
  ((pieces none bs).mapM id).map String.ofList

/-- The text that bytes encode, with a replacement character for each piece that encodes none. -/
def decodeLossy (bs : List UInt8) : String :=
  String.ofList ((pieces none bs).map (·.getD '\ufffd'))

end ServerLink.Text
