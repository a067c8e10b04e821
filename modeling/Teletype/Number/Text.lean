import Teletype.Number.Shortest

/-!
# The written form of a number

A number is written with the fewest digits that read back. The digits stand in positional form
while the point lies at most twenty-one places to the right of the first digit and at most six
zeros behind the point; otherwise one digit stands before the point and a signed power of ten
follows. Negative zero is written as zero.
-/

namespace Teletype.Number

/-- Up to this many places before the point, a number is written out. -/
def placesBeforePoint : Int := 21

/-- Up to this many zeros behind the point, less one, a number is written out. -/
def zerosBehindPoint : Int := 6

/-- Digits with the point after the first `place` of them. -/
def layOut (digits : List Char) (place : Int) : List Char :=
  let count : Int := digits.length
  if count ≤ place ∧ place ≤ placesBeforePoint then
    digits ++ List.replicate (place - count).toNat '0'
  else if 0 < place ∧ place ≤ placesBeforePoint then
    digits.take place.toNat ++ '.' :: digits.drop place.toNat
  else if -zerosBehindPoint < place ∧ place ≤ 0 then
    '0' :: '.' :: (List.replicate (-place).toNat '0' ++ digits)
  else
    let power := place - 1
    let head := match digits with
      | [d] => [d]
      | d :: rest => d :: '.' :: rest
      | [] => []
    head ++ 'e' :: (if power < 0 then '-' else '+') :: Nat.toDigits 10 power.natAbs

/-- A decimal without trailing zeros among its figures. -/
def Decimal.layOut (d : Decimal) : List Char :=
  let digits := Nat.toDigits 10 d.figures
  let place := (digits.length : Int) + d.exponent
  Number.layOut (digits.reverse.dropWhile (· == '0')).reverse place

def text (x : Number) : String :=
  let sign := if x.isNegative then "-" else ""
  match x.magnitude with
  | .notANumber => "NaN"
  | .infinite => sign ++ "Infinity"
  | .finite m e => if m = 0 then "0" else sign ++ String.ofList (shortest m e).layOut

/-- The written form with the sign of zero kept. -/
def signedText (x : Number) : String :=
  if x.isZero && x.isNegative then "-0" else x.text

def digitsValue (digits : List Char) : Nat :=
  digits.foldl (fun n c => 10 * n + (c.toNat - '0'.toNat)) 0

/-- A decimal figure: optional fraction and exponent, digits required before the point and behind
it. The reading covers the whole text. -/
def ofFigures? (cs : List Char) : Option Number := do
  let (negative, cs) := match cs with
    | '-' :: rest => (true, rest)
    | cs => (false, cs)
  let whole := cs.takeWhile Char.isDigit
  let cs := cs.dropWhile Char.isDigit
  if whole.isEmpty then failure
  let (fraction, cs) ← match cs with
    | '.' :: rest =>
      let fraction := rest.takeWhile Char.isDigit
      if fraction.isEmpty then none else some (fraction, rest.dropWhile Char.isDigit)
    | cs => some ([], cs)
  let exponent ← match cs with
    | [] => some 0
    | mark :: rest =>
      if mark = 'e' ∨ mark = 'E' then
        let (negative, rest) := match rest with
          | '-' :: rest => (true, rest)
          | '+' :: rest => (false, rest)
          | rest => (false, rest)
        if rest.isEmpty || !rest.all Char.isDigit then none
        else
          let power : Int := digitsValue rest
          some (if negative then -power else power)
      else none
  return ofDecimal negative (digitsValue (whole ++ fraction)) (exponent - fraction.length)

/-- Reads a written form back, the names of the infinities and of the non-number included. -/
def ofText? (s : String) : Option Number :=
  match s with
  | "NaN" => some nan
  | "Infinity" => some (infinity false)
  | "-Infinity" => some (infinity true)
  | s => ofFigures? s.toList

end Teletype.Number
