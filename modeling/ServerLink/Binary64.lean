import ServerLink.Power

/-!
# Finite binary floating-point numbers of 64 bits

A number is a sign, a significand and a power of two in the one form the format allows, so two
numbers are equal exactly when their three parts are. Every operation is exact rational
arithmetic followed by one rounding, to the nearest number and on a tie to the even significand;
`none` stands for a result beyond the largest finite number.
-/

namespace ServerLink

/-- The significand fits 53 bits, and is below 52 bits only at the smallest exponent. -/
def Binary64.Canonical (significand : Nat) (exponent : Int) : Prop :=
  significand < 2 ^ 53 ∧ -1074 ≤ exponent ∧ exponent ≤ 971 ∧
    (2 ^ 52 ≤ significand ∨ exponent = -1074)

instance (s : Nat) (e : Int) : Decidable (Binary64.Canonical s e) := by
  unfold Binary64.Canonical; infer_instance

/-- The number `(-1) ^ negative * significand * 2 ^ exponent`. -/
structure Binary64 where
  negative : Bool
  significand : Nat
  exponent : Int
  canonical : Binary64.Canonical significand exponent
deriving DecidableEq

namespace Binary64

/-- Zero with the given sign. -/
def zero (negative : Bool) : Binary64 := ⟨negative, 0, -1074, by decide⟩

def isZero (x : Binary64) : Bool := x.significand == 0

/-- The number with the other sign. -/
def neg (x : Binary64) : Binary64 := { x with negative := !x.negative }

/-- The number with these parts, if they are in the form the format allows. -/
def ofParts? (negative : Bool) (significand : Nat) (exponent : Int) : Option Binary64 :=
  if h : Canonical significand exponent then some ⟨negative, significand, exponent, h⟩ else none

/-- A quotient rounded to the nearest whole number, a half going to the even neighbour. -/
def roundDiv (num den : Nat) : Nat :=
  let q := num / den
  let twice := 2 * (num % den)
  if twice < den then q else if den < twice then q + 1 else if q % 2 = 0 then q else q + 1

/-- The exponent at which `num / den` has a significand of 53 bits, but never below the
smallest one. -/
def exponentOf (num den : Nat) : Int :=
  let k : Int := (Nat.log2 num : Int) - Nat.log2 den
  let below := if 0 ≤ k then num < den * 2 ^ k.toNat else num * 2 ^ (-k).toNat < den
  max (-1074) (if below then k - 53 else k - 52)

/-- The number nearest to `num / den`; `none` when it would exceed the largest finite one. -/
def ofRatio (negative : Bool) (num den : Nat) : Option Binary64 :=
  if num = 0 ∨ den = 0 then some (zero negative)
  else
    let e := exponentOf num den
    let q := if 0 ≤ e then roundDiv num (den * 2 ^ e.toNat) else roundDiv (num * 2 ^ (-e).toNat) den
    if q = 2 ^ 53 then ofParts? negative (2 ^ 52) (e + 1) else ofParts? negative q e

/-- A number's magnitude as a fraction. -/
def ratio (x : Binary64) : Nat × Nat :=
  if 0 ≤ x.exponent then (x.significand * 2 ^ x.exponent.toNat, 1)
  else (x.significand, 2 ^ (-x.exponent).toNat)

/-- The number nearest to a natural number. -/
def ofNat (n : Nat) : Option Binary64 := ofRatio false n 1

/-- The rounded product. -/
def mul (x y : Binary64) : Option Binary64 :=
  ofRatio (x.negative ^^ y.negative) (x.ratio.1 * y.ratio.1) (x.ratio.2 * y.ratio.2)

/-- The rounded quotient; a zero divisor gives zero, and no caller has one. -/
def div (x y : Binary64) : Option Binary64 :=
  ofRatio (x.negative ^^ y.negative) (x.ratio.1 * y.ratio.2) (x.ratio.2 * y.ratio.1)

/-- The number nearest to a power of ten. -/
def pow10 (n : Nat) : Option Binary64 := ofNat (10 ^ n)

/-- The steps by which a number is scaled down through powers of ten no larger than `10 ^ 308`. -/
def scaleDown (x : Binary64) (places : Nat) : Option Binary64 :=
  if x.isZero then some x
  else if places ≤ 308 then do x.div (← pow10 places)
  else do scaleDown (← x.div (← pow10 308)) (places - 308)
termination_by places

/-- A decimal `significand * 10 ^ exponent` by two roundings, first of the significand and then of
the scaled result; past `10 ^ 308` only zero can be scaled up. -/
def ofDecimal (significand : Nat) (exponent : Int) : Option Binary64 := do
  let x ← ofNat significand
  if exponent < 0 then x.scaleDown (-exponent).toNat
  else if exponent ≤ 308 then x.mul (← pow10 exponent.toNat)
  else if x.isZero then some x
  else none

end Binary64

end ServerLink
