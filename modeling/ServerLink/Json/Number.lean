import ServerLink.Binary64.Shortest

/-!
# Numbers of a document

An integer literal that fits 64 bits, signed or not, is that integer; every other literal is a
finite floating-point number. `Number.read?` reads a literal, `Number.text` writes one.
-/

namespace ServerLink.Json

/-- A whole number of at most 64 bits, or a finite floating-point number. -/
inductive Number where
  | integer (value : Int) (inRange : -2 ^ 63 ≤ value ∧ value < 2 ^ 64)
  | float (value : Binary64)
deriving DecidableEq

/-- The parts of a number literal, as the grammar has them. -/
structure Numeral where
  negative : Bool
  whole : List Char
  fraction : List Char
  exponentNegative : Bool
  exponent : List Char
deriving DecidableEq, Repr

namespace Numeral

/-- A run of digits and what follows it; `none` if there is no digit. -/
def digits? (cs : List Char) : Option (List Char × List Char) :=
  let ds := cs.takeWhile Char.isDigit
  if ds.isEmpty then none else some (ds, cs.dropWhile Char.isDigit)

/-- A fraction part, if a point opens one. -/
def fraction? : List Char → Option (List Char × List Char)
  | '.' :: cs => digits? cs
  | cs => some ([], cs)

/-- An exponent part, if its letter opens one: its sign, its digits, and what follows. -/
def exponent? : List Char → Option (Bool × List Char × List Char)
  | [] => some (false, [], [])
  | c :: cs =>
    if c = 'e' ∨ c = 'E' then
      match cs with
      | '-' :: ds => (digits? ds).map (true, ·)
      | '+' :: ds => (digits? ds).map (false, ·)
      | ds => (digits? ds).map (false, ·)
    else some (false, [], c :: cs)

/-- Reads a literal: an optional minus, digits without a needless zero in front, an optional
fraction, an optional exponent, and nothing more. -/
def ofChars? (cs : List Char) : Option Numeral := do
  let (negative, cs) := match cs with
    | '-' :: r => (true, r)
    | r => (false, r)
  let (whole, cs) ← digits? cs
  if whole.head? = some '0' ∧ whole.length ≠ 1 then failure
  let (fraction, cs) ← fraction? cs
  let (exponentNegative, exponent, cs) ← exponent? cs
  if cs.isEmpty then some { negative, whole, fraction, exponentNegative, exponent } else none

def value (ds : List Char) : Nat := ds.foldl (fun n d => 10 * n + (d.toNat - '0'.toNat)) 0

/-- Appends digits to a number for as long as it stays below `2 ^ 64`; also gives the digits that
were left. -/
def take64 (n : Nat) : List Char → Nat × List Char
  | [] => (n, [])
  | d :: ds =>
    let next := 10 * n + (d.toNat - '0'.toNat)
    if next < 2 ^ 64 then take64 next ds else (n, d :: ds)

/-- The number of a literal with a fraction, an exponent or too many digits: the digits that fit
64 bits, scaled by the power of ten that the others and the exponent leave. -/
def toFloat (l : Numeral) : Option Binary64 :=
  let (n, wholeLeft) := take64 0 l.whole
  let (n, fractionLeft) := take64 n l.fraction
  let shift : Int := wholeLeft.length + fractionLeft.length - l.fraction.length
  let exponent : Int := if l.exponentNegative then -(value l.exponent : Int) else value l.exponent
  (Binary64.ofDecimal n (shift + exponent)).map fun x => if l.negative then x.neg else x

end Numeral

namespace Number

/-- The integer, if it fits 64 bits. -/
def ofInt? (i : Int) : Option Number :=
  if h : -2 ^ 63 ≤ i ∧ i < 2 ^ 64 then some (.integer i h) else none

/-- The number of a natural number that fits 64 bits; a larger one is read modulo `2 ^ 64`. -/
def ofNat (n : Nat) : Number := .integer (n % 2 ^ 64 : Nat) (by omega)

/-- The number of a literal. A negative zero and a number beyond 64 bits are floating-point; one
beyond the largest finite number is no number. -/
def ofNumeral (l : Numeral) : Option Number :=
  if l.fraction.isEmpty ∧ l.exponent.isEmpty ∧ ¬ (l.negative ∧ l.whole = ['0']) then
    let n := (Numeral.take64 0 l.whole)
    match (if n.2.isEmpty then ofInt? (if l.negative then -(n.1 : Int) else n.1) else none) with
    | some i => some i
    | none => l.toFloat.map .float
  else l.toFloat.map .float

def read? (cs : List Char) : Option Number := Numeral.ofChars? cs >>= ofNumeral

/-- The number as an unsigned 64-bit integer. -/
def toNat? : Number → Option Nat
  | .integer i _ => if 0 ≤ i then some i.toNat else none
  | .float _ => none

/-- A document's decimals: positional from `0.00001` to below `10 ^ 16`, always with a point or
an exponent, whose sign is written. -/
def layout : Decimal.Layout :=
  { plainFrom := -5, plainTo := 15, wholeEnd := ".0", exponentUp := "e+", exponentDown := "e-" }

def floatText (x : Binary64) : String :=
  (if x.negative then "-" else "") ++ x.shortest.text layout

def text : Number → String
  | .integer i _ => toString i
  | .float x => floatText x

end Number

end ServerLink.Json
