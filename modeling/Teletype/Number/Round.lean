/-!
# Rounding to nearest

Every number this library computes with is a binary fraction of 53 significant bits. This module
holds the one rounding rule behind all of them: the quotient of two naturals goes to the nearest
natural, and an exact half goes to the even neighbour. Nothing here knows how a number is stored.
-/

namespace Teletype.Number

/-- The quotient rounded to the nearest natural; an exact half goes to the even neighbour. -/
def divNearest (num den : Nat) : Nat :=
  let quotient := num / den
  let twice := 2 * (num % den)
  if twice < den then quotient
  else if den < twice then quotient + 1
  else if quotient % 2 = 0 then quotient
  else quotient + 1

/-- Rounding is exact where the division is. -/
theorem divNearest_one (n : Nat) : divNearest n 1 = n := by
  simp [divNearest, Nat.mod_one]

/-- How many significant bits a number keeps. -/
def significantBits : Nat := 53

/-- The natural number with 53 significant bits that is nearest to `n`. -/
def nearest (n : Nat) : Nat :=
  let dropped := n.log2 + 1 - significantBits
  divNearest n (Nat.pow 2 dropped) * Nat.pow 2 dropped

/-- The greatest number below which every natural number is kept exactly. -/
def maxSafe : Nat := Nat.pow 2 significantBits - 1

end Teletype.Number
