import ServerLink.Text.Quoted

/-!
# Parts of a text

A part of a text lies between two offsets, which count bytes of UTF-8. An offset inside a character
bounds no part.
-/

namespace ServerLink.Text

/-- An offset that lies inside a character, of which `first` is the offset. -/
structure OffsetError where
  /-- The offset is where the part ends, not where it starts. -/
  ends : Bool
  offset : Nat
  character : Char
  first : Nat
deriving DecidableEq, Repr

/-- The message of an error. A character that an offset can lie inside is no quote. -/
def OffsetError.message (e : OffsetError) : String :=
  (if e.ends then "end" else "start") ++ " byte index " ++ toString e.offset ++
    " is not a char boundary; it is inside '" ++ quotedChar e.character ++ "' (bytes " ++
    toString e.first ++ ".." ++ toString (e.first + e.character.utf8Size) ++ " of string)"

/-- The character that an offset lies inside, and its own offset. The characters given start at
`first`. -/
def around? (offset : Nat) : (first : Nat) → List Char → Option (Char × Nat)
  | _, [] => none
  | first, c :: cs =>
    if offset ≤ first then none
    else if offset < first + c.utf8Size then some (c, first)
    else around? offset (first + c.utf8Size) cs

/-- Fails for an offset inside a character. -/
def checkOffset (ends : Bool) (offset : Nat) (cs : List Char) : Except OffsetError Unit :=
  match around? offset 0 cs with
  | some (character, first) => .error { ends, offset, character, first }
  | none => .ok ()

/-- The characters without those that start before an offset. -/
def dropBytes : (offset : Nat) → List Char → List Char
  | _, [] => []
  | 0, cs => cs
  | n + 1, c :: cs => dropBytes (n + 1 - c.utf8Size) cs

/-- The characters that start before an offset. -/
def takeBytes : (offset : Nat) → List Char → List Char
  | _, [] => []
  | 0, _ => []
  | n + 1, c :: cs => c :: takeBytes (n + 1 - c.utf8Size) cs

/-- The part of a text from an offset on. -/
def partFrom (start : Nat) (cs : List Char) : Except OffsetError (List Char) :=
  (checkOffset false start cs).map fun _ => dropBytes start cs

/-- The part of a text from one offset to another. -/
def part (start stop : Nat) (cs : List Char) : Except OffsetError (List Char) := do
  let rest ← partFrom start cs
  checkOffset true stop cs
  return takeBytes (stop - start) rest

end ServerLink.Text
