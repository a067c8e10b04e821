import Teletype.Number.Round

/-!
# Numbers

A number is a 64-bit binary fraction: a sign, a significand of at most 53 bits and a binary
exponent, with two infinities and one value that is not a number. It is kept as its bit pattern, so
that equality of numbers as *values* (negative zero apart from zero, the non-number equal to itself)
is equality in Lean. Comparison and arithmetic are those of `Float`; conversion from quotients and
from decimal figures is exact rounding by `divNearest`.
-/

namespace Teletype

/-- A 64-bit binary fraction, by its bit pattern. The non-number has only the pattern
`Number.nan`. -/
structure Number where
  bits : UInt64
  deriving DecidableEq, Inhabited

namespace Number

def nan : Number := ⟨0x7FF8000000000000⟩

def signBit : Nat := Nat.pow 2 63

/-- The bits of a significand that are stored; the leading one is implied. -/
def storedBits : Nat := significantBits - 1

/-- The binary exponent of the least positive number. -/
def leastExponent : Int := -1074

/-- The pattern of positive infinity: every exponent bit set. -/
def infinityBits : Nat := 2047 * Nat.pow 2 storedBits

/-- A number from the sign and the pattern of its magnitude; too large a magnitude is infinite. -/
def ofMagnitude (negative : Bool) (magnitude : Nat) : Number :=
  let magnitude := min magnitude infinityBits
  ⟨(if negative then signBit + magnitude else magnitude).toUInt64⟩

def infinity (negative : Bool) : Number := ofMagnitude negative infinityBits

def zero (negative : Bool) : Number := ofMagnitude negative 0

/-- The quotient `num / den / 2 ^ e`, as one of naturals. -/
def scaleDown (num den : Nat) (e : Int) : Nat × Nat :=
  if e < 0 then (num * Nat.pow 2 (-e).toNat, den) else (num, den * Nat.pow 2 e.toNat)

/-- The number nearest to `num / den`, with a sign; a magnitude of at least half a step above the
greatest finite number is infinite. -/
def ofRatio (negative : Bool) (num den : Nat) : Number :=
  if num = 0 then zero negative
  else
    let guess : Int := (num.log2 : Int) - (den.log2 : Int) - (storedBits : Int)
    let (n, d) := scaleDown num den guess
    let e := max leastExponent (if n / d < Nat.pow 2 storedBits then guess - 1 else guess)
    let (n, d) := scaleDown num den e
    ofMagnitude negative ((e - leastExponent).toNat * Nat.pow 2 storedBits + divNearest n d)

/-- Powers of ten past this one in either direction leave the range of numbers. -/
def decimalRange : Int := 400

/-- The number nearest to `figures * 10 ^ exponent`, with a sign. -/
def ofDecimal (negative : Bool) (figures : Nat) (exponent : Int) : Number :=
  if figures = 0 then zero negative
  else if exponent > decimalRange then infinity negative
  else if exponent + (figures.log2 : Int) + 1 < -decimalRange then zero negative
  else if exponent < 0 then ofRatio negative figures (Nat.pow 10 (-exponent).toNat)
  else ofRatio negative (figures * Nat.pow 10 exponent.toNat) 1

def ofNat (n : Nat) : Number := ofRatio false n 1

def toFloat (x : Number) : Float := Float.ofBits x.bits

/-- The number a machine number stands for: all of its non-numbers are `nan`. -/
def ofFloat (x : Float) : Number := if x.isNaN then nan else ⟨x.toBits⟩

def add (x y : Number) : Number := ofFloat (x.toFloat + y.toFloat)

def mul (x y : Number) : Number := ofFloat (x.toFloat * y.toFloat)

/-- Numeric equality: both zeros are equal, and the non-number equals nothing. -/
def numericEq (x y : Number) : Bool := x.toFloat == y.toFloat

/-- Numeric order; the non-number is less than nothing and nothing is less than it. -/
def lt (x y : Number) : Bool := x.toFloat < y.toFloat

def isNegative (x : Number) : Bool := decide (signBit ≤ x.bits.toNat)

def isZero (x : Number) : Bool := x.bits.toNat % signBit = 0

/-- A magnitude taken apart: `finite m e` stands for `m * 2 ^ e`. -/
inductive Magnitude where
  | notANumber
  | infinite
  | finite (significand : Nat) (exponent : Int)
  deriving DecidableEq

def magnitude (x : Number) : Magnitude :=
  let pattern := x.bits.toNat % signBit
  let exponent := pattern / Nat.pow 2 storedBits
  let stored := pattern % Nat.pow 2 storedBits
  if pattern = infinityBits then .infinite
  else if infinityBits < pattern then .notANumber
  else if exponent = 0 then .finite stored leastExponent
  else .finite (stored + Nat.pow 2 storedBits) (leastExponent + (exponent : Int) - 1)

/-- The integer a number is, if it is one that is kept exactly: at most `maxSafe` in magnitude and
not negative zero. -/
def toSafeInt? (x : Number) : Option Int :=
  if x.isZero && x.isNegative then none
  else match x.magnitude with
    | .finite m e =>
      let whole? : Option Nat :=
        if m = 0 then some 0
        else if 0 ≤ e then
          if e ≤ (significantBits : Int) then some (m * Nat.pow 2 e.toNat) else none
        else if m % Nat.pow 2 (-e).toNat = 0 then some (m / Nat.pow 2 (-e).toNat) else none
      match whole? with
      | some n =>
        if n ≤ maxSafe then some (if x.isNegative then -(n : Int) else (n : Int)) else none
      | none => none
    | _ => none

/-- Whether a number counts as true: neither zero nor the non-number. -/
def isTruthy (x : Number) : Bool := !x.isZero && x ≠ nan

end Number

end Teletype
