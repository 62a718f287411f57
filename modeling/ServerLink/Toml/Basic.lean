/-!
# TOML values

What a TOML document holds. Numbers and times that no setting uses keep no more than their kind.
-/

namespace ServerLink

inductive Toml where
  | string (value : String)
  | integer (value : Int)
  | boolean (value : Bool)
  | float
  /-- A date, a time of day, or both. -/
  | time
  | array (items : List Toml)
  | table (entries : List (String × Toml))
deriving Inhabited

namespace Toml

def string? : Toml → Option String
  | .string s => some s
  | _ => none

def boolean? : Toml → Option Bool
  | .boolean b => some b
  | _ => none

/-- An integer that is no less than zero and below `bound`. -/
def natBelow? (bound : Nat) : Toml → Option Nat
  | .integer i => if 0 ≤ i ∧ i < bound then some i.toNat else none
  | _ => none

end Toml

end ServerLink
