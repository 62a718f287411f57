import ServerLink.Power
import ServerLink.Text.Digit

/-!
# Server versions

A server states its version somewhere inside a longer text. The version is the first pair of digit
runs that a point joins; digits of any script make a run, but a number is read from ASCII digits
alone and fits 32 bits.
-/

namespace ServerLink

structure Version where
  major : Nat
  minor : Nat
deriving DecidableEq, Repr

namespace Version

/-- The digit runs on the two sides of the first point that stands between digits; `run` holds the
digits just passed, the latest first. -/
def firstPair (run : List Char) : List Char → Option (List Char × List Char)
  | [] => none
  | c :: cs =>
    if Text.isDigit c then firstPair (c :: run) cs
    else if c = '.' ∧ run ≠ [] ∧ (cs.head?.any Text.isDigit) then
      some (run.reverse, cs.takeWhile Text.isDigit)
    else firstPair [] cs

/-- The number that ASCII digits stand for, if it fits 32 bits. -/
def number? (digits : List Char) : Option Nat :=
  digits.foldl (fun n d => do
    let n := 10 * (← n) + (d.toNat - '0'.toNat)
    if d.isDigit ∧ n < 2 ^ 32 then some n else none) (some 0)

def ofText? (text : String) : Option Version := do
  let (major, minor) ← firstPair [] text.toList
  return { major := ← number? major, minor := ← number? minor }

/-- The version is at least `major.minor`. -/
def atLeast (v : Version) (major minor : Nat) : Bool :=
  major < v.major || (major = v.major && minor ≤ v.minor)

def text (v : Version) : String := toString v.major ++ "." ++ toString v.minor

end Version

end ServerLink
