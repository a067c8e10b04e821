import Teletype.Number.Text

/-!
# Whole numbers read from text

The integers that every number of the library keeps exactly are those of magnitude at most
`maxSafe`. Reading one from text accepts an optional sign and decimal digits, nothing else, rounds
the integer they denote as any number is rounded, and then refuses what has left the safe range.
The sign is kept apart from the magnitude, so that minus zero is not zero.
-/

namespace Teletype.Number

structure Whole where
  negative : Bool
  magnitude : Nat
  deriving DecidableEq, Inhabited

namespace Whole

def toNumber (w : Whole) : Number := ofRatio w.negative w.magnitude 1

/-- The decimal text; minus zero is written as zero. -/
def text (w : Whole) : String :=
  let digits := Nat.toDigits 10 w.magnitude
  String.ofList (if w.negative && w.magnitude != 0 then '-' :: digits else digits)

def splitSign : List Char → Bool × List Char
  | '-' :: rest => (true, rest)
  | '+' :: rest => (false, rest)
  | cs => (false, cs)

/-- Reads an optional sign and at least one decimal digit; nothing that rounding may have moved is
accepted. -/
def ofText? (s : String) : Option Whole :=
  let (negative, digits) := splitSign s.toList
  if digits.isEmpty || !digits.all Char.isDigit then none
  else
    let magnitude := nearest (digitsValue digits)
    if magnitude ≤ maxSafe then some ⟨negative, magnitude⟩ else none

end Whole

end Teletype.Number
