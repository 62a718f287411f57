import ServerLink.Binary64
import ServerLink.Toml.Basic
import ServerLink.Toml.Strings

/-!
# TOML numbers and times

Only integers have a value here. A float or a time is read to see where it ends and whether it is
one: a float must not be infinite unless it says so or is negative, and a time must exist.
-/

namespace ServerLink.Toml

/-- The digits of a run, in which single underscores may separate digits. -/
def digitsAfter (isDigit : Char → Bool) : List Char → Read (List Char)
  | '_' :: d :: r =>
    if isDigit d then (digitsAfter isDigit r).map fun (ds, r) => (d :: ds, r) else none
  | ['_'] => none
  | d :: r =>
    if isDigit d then (digitsAfter isDigit r).map fun (ds, r) => (d :: ds, r) else some ([], d :: r)
  | [] => some ([], [])

/-- A run of at least one digit. -/
def digits (isDigit : Char → Bool) : List Char → Read (List Char)
  | d :: r =>
    if isDigit d then (digitsAfter isDigit r).map fun (ds, r) => (d :: ds, r) else none
  | [] => none

def sign : List Char → Bool × List Char
  | '-' :: r => (true, r)
  | '+' :: r => (false, r)
  | r => (false, r)

/-- Decimal digits without a needless zero in front. -/
def wholePart : List Char → Read (List Char)
  | '0' :: r => some (['0'], r)
  | r => digits Char.isDigit r

/-- A fraction, if a point opens one. -/
def fractionPart : List Char → Read (Option (List Char))
  | '.' :: r => (digits Char.isDigit r).map fun (ds, r) => (some ds, r)
  | r => some (none, r)

/-- An exponent, if its letter opens one: its sign and its digits. -/
def exponentPart : List Char → Read (Option (Bool × List Char))
  | 'e' :: r | 'E' :: r =>
    let (negative, r) := sign r
    (digits Char.isDigit r).map fun (ds, r) => (some (negative, ds), r)
  | r => some (none, r)

def valueOf (base : Nat) (ds : List Char) : Nat :=
  ds.foldl (fun n d => base * n + (Text.hexDigit? d).getD 0) 0

/-- A decimal with these digits around its point is beyond the largest finite number. Exponents of
more than five digits decide by their sign, unless all digits are zero. -/
def overflows (whole fraction : List Char) (exponent : Option (Bool × List Char)) : Bool :=
  let n := valueOf 10 (whole ++ fraction)
  let (negative, ds) := exponent.getD (false, [])
  let ds := ds.dropWhile (· = '0')
  if n = 0 then false
  else if 5 < ds.length then !negative
  else
    let e : Int := (if negative then -(valueOf 10 ds : Int) else valueOf 10 ds) - fraction.length
    if e < 0 then (Binary64.ofRatio false n (10 ^ (-e).toNat)).isNone
    else if 400 < e then true
    else (Binary64.ofRatio false (n * 10 ^ e.toNat) 1).isNone

/-- An integer in the range of 64 bits with a sign. -/
def integer? (i : Int) : Option Toml := if -2 ^ 63 ≤ i ∧ i < 2 ^ 63 then some (.integer i) else none

/-- An integer in a base that its first two characters name. -/
def inBase (base : Nat) (isDigit : Char → Bool) (r : List Char) : Option (Toml × List Char) := do
  let (ds, r) ← digits isDigit r
  return (← integer? (valueOf base ds), r)

/-- A number, from its sign or first character on. -/
def number : List Char → Option (Toml × List Char)
  | '0' :: 'x' :: r => inBase 16 (fun c => (Text.hexDigit? c).isSome) r
  | '0' :: 'o' :: r => inBase 8 (fun c => '0' ≤ c && c ≤ '7') r
  | '0' :: 'b' :: r => inBase 2 (fun c => c = '0' || c = '1') r
  | cs =>
    match sign cs with
    | (_, 'i' :: 'n' :: 'f' :: r) => some (.float, r)
    | (_, 'n' :: 'a' :: 'n' :: r) => some (.float, r)
    | (negative, r) => do
      let (whole, r) ← wholePart r
      let (fraction, r) ← fractionPart r
      let (exponent, r) ← exponentPart r
      if fraction.isNone ∧ exponent.isNone then
        return (← integer? (if negative then -(valueOf 10 whole : Int) else valueOf 10 whole), r)
      else if !negative ∧ overflows whole (fraction.getD []) exponent then none
      else return (.float, r)

/-- Exactly so many decimal digits, as a number in a range. -/
def fixedDigits (count low high : Nat) (cs : List Char) : Read Nat :=
  let ds := cs.take count
  let n := valueOf 10 ds
  if ds.length = count ∧ ds.all Char.isDigit ∧ low ≤ n ∧ n ≤ high then some (n, cs.drop count)
  else none

def expect (c : Char) : List Char → Option (List Char)
  | d :: r => if d = c then some r else none
  | [] => none

def daysInMonth (year month : Nat) : Nat :=
  if month = 2 then
    if year % 4 = 0 ∧ (year % 100 ≠ 0 ∨ year % 400 = 0) then 29 else 28
  else if month = 4 ∨ month = 6 ∨ month = 9 ∨ month = 11 then 30
  else 31

/-- A date, up to what follows it. -/
def date (cs : List Char) : Option (List Char) := do
  let (year, r) ← fixedDigits 4 0 9999 cs
  let (month, r) ← fixedDigits 2 1 12 (← expect '-' r)
  let (_, r) ← fixedDigits 2 1 (daysInMonth year month) (← expect '-' r)
  return r

/-- A time of day, up to what follows it. -/
def timeOfDay (cs : List Char) : Option (List Char) := do
  let (_, r) ← fixedDigits 2 0 23 cs
  let (_, r) ← fixedDigits 2 0 59 (← expect ':' r)
  let (_, r) ← fixedDigits 2 0 60 (← expect ':' r)
  match r with
  | '.' :: d :: r => if d.isDigit then some (r.dropWhile Char.isDigit) else some ('.' :: d :: r)
  | r => some r

/-- The text after the offset of a time, if there is one. -/
def offset : List Char → Option (List Char)
  | 'Z' :: r | 'z' :: r => some r
  | '+' :: r | '-' :: r => do
    let (_, r) ← fixedDigits 2 0 23 r
    let (_, r) ← fixedDigits 2 0 59 (← expect ':' r)
    return r
  | r => some r

/-- A date, a time of day, or both, up to what follows. A date with no time after it stands on its
own. -/
def readTime (cs : List Char) : Read Toml :=
  match date cs with
  | none => (timeOfDay cs).map fun r => (.time, r)
  | some r =>
    match r with
    | c :: t =>
      if c = 'T' ∨ c = 't' ∨ c = ' ' then
        match timeOfDay t with
        | some t => (offset t).map fun r => (.time, r)
        | none => some (.time, r)
      else some (.time, r)
    | [] => some (.time, [])

end ServerLink.Toml
