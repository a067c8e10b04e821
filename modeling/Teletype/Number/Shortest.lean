import Teletype.Number.Basic

/-!
# The fewest digits that read back

Among the decimals that round to a given number, the one with the fewest significant digits is its
written form, and among those with equally few digits the nearest to the number. The search walks
the grids of 1, 2, … 17 significant digits: if any point of a grid rounds back to the number, one of
the two grid points around the number does, so only those two are tried.

All of it is exact arithmetic on naturals. The decimals that round to `m * 2 ^ e` form an interval
whose ends lie half a step away; the ends belong to it when `m` is even.
-/

namespace Teletype.Number

/-- The decimal `figures * 10 ^ exponent`. -/
structure Decimal where
  figures : Nat
  exponent : Int
  deriving DecidableEq, Inhabited

/-- The decimals that round to one number, over a common denominator: the number itself, the two
ends, and whether the ends belong. -/
structure Basin where
  low : Nat
  value : Nat
  high : Nat
  den : Nat
  closed : Bool

/-- The basin of `m * 2 ^ e`. Below a power of two the lower neighbour is only half as far. -/
def basin (m : Nat) (e : Int) : Basin :=
  let low := if m = Nat.pow 2 storedBits ∧ leastExponent < e then 4 * m - 1 else 4 * m - 2
  let e := e - 2
  let up := Nat.pow 2 e.toNat
  { low := low * up, value := 4 * m * up, high := (4 * m + 2) * up,
    den := Nat.pow 2 (-e).toNat, closed := m % 2 = 0 }

/-- The basin measured in steps of `10 ^ exponent`. -/
def Basin.inSteps (b : Basin) (exponent : Int) : Basin :=
  let up := Nat.pow 10 (-exponent).toNat
  { b with low := b.low * up, value := b.value * up, high := b.high * up,
           den := b.den * Nat.pow 10 exponent.toNat }

/-- Whether `steps` whole steps lie in the basin. -/
def Basin.contains (b : Basin) (steps : Nat) : Bool :=
  let point := steps * b.den
  if b.closed then b.low ≤ point && point ≤ b.high else b.low < point && point < b.high

/-- The whole number of steps in the basin that is nearest to its value, if the basin has any; the
even one of two equally near. -/
def Basin.point? (b : Basin) : Option Nat :=
  let below := b.value / b.den
  match b.contains below, b.contains (below + 1) with
  | true, true => some (divNearest b.value b.den)
  | true, false => some below
  | false, true => some (below + 1)
  | false, false => none

/-- The count of decimal digits of the integer part of `num / den`, or, below one, minus the count
of zeros after the point: the `p` with `10 ^ (p - 1) ≤ num / den < 10 ^ p`. -/
def decimalPlace (num den : Nat) : Int :=
  if den ≤ num then (Nat.toDigits 10 (num / den)).length
  else -(climb num 400 0 : Int)
where
  /-- How many times `num` can grow tenfold and stay below a tenth of `den`. -/
  climb (num : Nat) : Nat → Nat → Nat
    | 0, places => places
    | fuel + 1, places =>
      if den ≤ num * 10 then places else climb (num * 10) fuel (places + 1)

/-- Tries the grid of `digits` significant digits, then finer ones. -/
def shortestFrom (b : Basin) (place : Int) : Nat → Nat → Decimal
  | 0, _ => ⟨0, 0⟩
  | fuel + 1, digits =>
    let exponent := place - digits
    match (b.inSteps exponent).point? with
    | some figures => ⟨figures, exponent⟩
    | none => shortestFrom b place fuel (digits + 1)

/-- Seventeen significant digits tell any two numbers apart. -/
def sufficientDigits : Nat := 17

/-- The shortest decimal that reads back as `m * 2 ^ e`, for positive `m`. -/
def shortest (m : Nat) (e : Int) : Decimal :=
  let b := basin m e
  shortestFrom b (decimalPlace b.value b.den) sufficientDigits 1

end Teletype.Number
