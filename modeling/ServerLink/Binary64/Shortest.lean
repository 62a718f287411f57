import ServerLink.Binary64

/-!
# The fewest decimal digits that read back

`Binary64.shortest` gives the digits and the decimal point of the shortest decimal that rounds to
a number, and the nearest of those to the number itself. `Layout` says how digits become text.
-/

namespace ServerLink

/-- The decimal `0.digits * 10 ^ point`. -/
structure Decimal where
  digits : List Char
  point : Int
deriving DecidableEq, Repr

namespace Binary64

/-- How many decimal digits a number has; one for zero. -/
def digitCount (n : Nat) : Nat := (Nat.toDigits 10 n).length

/-- The least `p` with `num / den < 10 ^ p`. -/
def pointOf (num den : Nat) : Int :=
  if den ≤ num then digitCount (num / den) else 1 - (digitCount ((den - 1) / num) : Int)

/-- A positive number and the ends of the interval that rounds to it, over one denominator. -/
structure Interval where
  low : Nat
  value : Nat
  high : Nat
  denominator : Nat
  /-- The ends belong to the interval: they tie, and the number's significand is even. -/
  closed : Bool

def interval (x : Binary64) : Interval :=
  let narrow := x.significand = 2 ^ 52 ∧ x.exponent ≠ -1074
  let low := if narrow then 4 * x.significand - 1 else 4 * x.significand - 2
  let e := x.exponent - 2
  let scale := if 0 ≤ e then 2 ^ e.toNat else 1
  { low := low * scale
    value := 4 * x.significand * scale
    high := (4 * x.significand + 2) * scale
    denominator := if 0 ≤ e then 1 else 2 ^ (-e).toNat
    closed := x.significand % 2 = 0 }

/-- The interval with its ends multiplied by `10 ^ (-step)`, so that the decimal grid of that step
becomes the whole numbers. -/
def Interval.onGrid (i : Interval) (step : Int) : Interval :=
  if 0 ≤ step then { i with denominator := i.denominator * 10 ^ step.toNat }
  else
    let f := 10 ^ (-step).toNat
    { i with low := i.low * f, value := i.value * f, high := i.high * f }

def Interval.contains (i : Interval) (n : Nat) : Bool :=
  let m := n * i.denominator
  if i.closed then i.low ≤ m && m ≤ i.high else i.low < m && m < i.high

/-- The whole number nearest to the value among its two neighbours inside the interval; of two
equally near the even one. -/
def Interval.pick (i : Interval) : Option Nat :=
  let below := i.value / i.denominator
  let rest := 2 * (i.value % i.denominator)
  let up := i.denominator < rest ∨ (rest = i.denominator ∧ below % 2 = 1)
  match i.contains below, i.contains (below + 1) with
  | true, true => some (if up then below + 1 else below)
  | true, false => some below
  | false, true => some (below + 1)
  | false, false => none

/-- The first grid, from one digit to `17`, with a point in the interval. -/
def shortestFrom (i : Interval) (point : Int) : (fuel count : Nat) → Option (Nat × Int)
  | 0, _ => none
  | fuel + 1, count =>
    match (i.onGrid (point - count)).pick with
    | some n => some (n, point - count)
    | none => shortestFrom i point fuel (count + 1)

/-- A whole number's decimal digits without the zeros at its end. -/
def significantDigits (n : Nat) : List Char :=
  ((Nat.toDigits 10 n).reverse.dropWhile (· == '0')).reverse

/-- The shortest decimal that reads back as the number's magnitude. -/
def shortest (x : Binary64) : Decimal :=
  if x.isZero then ⟨['0'], 1⟩
  else
    let i := x.interval
    match shortestFrom i (pointOf i.value i.denominator) 17 1 with
    | some (n, step) => ⟨significantDigits n, digitCount n + step⟩
    | none => ⟨['0'], 1⟩

end Binary64

/-- How the digits of a decimal are laid out as text. -/
structure Decimal.Layout where
  /-- Scientific exponents written without an exponent part, from the least to the greatest. -/
  plainFrom : Int
  plainTo : Int
  /-- What follows a whole number written without an exponent part. -/
  wholeEnd : String
  /-- What stands before the exponent, by its sign. -/
  exponentUp : String
  exponentDown : String

namespace Decimal

def zeros (n : Nat) : String := String.ofList (List.replicate n '0')

/-- A decimal without its sign. -/
def text (layout : Layout) (d : Decimal) : String :=
  let scientific := d.point - 1
  let count := d.digits.length
  if layout.plainFrom ≤ scientific ∧ scientific ≤ layout.plainTo then
    if d.point ≤ 0 then "0." ++ zeros (-d.point).toNat ++ String.ofList d.digits
    else if count ≤ d.point.toNat then
      String.ofList d.digits ++ zeros (d.point.toNat - count) ++ layout.wholeEnd
    else
      String.ofList (d.digits.take d.point.toNat) ++ "." ++ String.ofList (d.digits.drop d.point.toNat)
  else
    let fraction := d.digits.drop 1
    String.ofList (d.digits.take 1) ++ (if fraction.isEmpty then "" else "." ++ String.ofList fraction) ++
      (if scientific < 0 then layout.exponentDown else layout.exponentUp) ++
      toString scientific.natAbs

end Decimal

end ServerLink
