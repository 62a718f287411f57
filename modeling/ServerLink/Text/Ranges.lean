/-!
# Sets of characters given by ranges of code points
-/

namespace ServerLink.Text

/-- The character's code point lies in one of the ranges, whose ends belong to them. -/
def within (ranges : List (Nat × Nat)) (c : Char) : Bool :=
  ranges.any fun r => r.1 ≤ c.toNat && c.toNat ≤ r.2

end ServerLink.Text
