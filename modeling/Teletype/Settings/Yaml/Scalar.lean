import Teletype.Settings.Json
import Teletype.Settings.Yaml.Instant

/-!
# The meaning of plain text

A text without quotes is null, a boolean, a number or a point in time if it is spelled like one, and
otherwise it is itself. Whole numbers are decimal, or to the base two, eight or sixteen; a number
too large to be kept is text.
-/

namespace Teletype.Settings.Yaml

def takeSign : List Char → Bool × List Char
  | '-' :: rest => (true, rest)
  | '+' :: rest => (false, rest)
  | cs => (false, cs)

/-- The value of one digit or more to a base. -/
def digits? (base : Nat) (cs : List Char) : Option Nat :=
  if cs.isEmpty then none
  else
    cs.foldlM (fun n c => do
      let d ← Json.hexDigit? c
      if d < base then return n * base + d else failure) 0

def finite? (x : Number) : Option Number := if x.magnitude = .infinite then none else some x

/-- A whole number. A single zero has no sign; longer runs of zeros keep theirs. -/
def whole? (cs : List Char) : Option Number := do
  let (negative, digits) := takeSign cs
  let n ← match digits with
    | '0' :: 'b' :: digits => digits? 2 digits
    | '0' :: 'o' :: digits => digits? 8 digits
    | '0' :: 'x' :: digits => digits? 16 digits
    | digits => digits? 10 digits
  finite? (.ofDecimal (negative && digits ≠ ['0']) n 0)

/-- A decimal figure in which the digits on one side of the point may be missing; without digits
before the point there is no sign. -/
def figure? (cs : List Char) : Option Number := do
  let (negative, digits) := takeSign cs
  let x ← match digits.takeWhile Char.isDigit, digits.dropWhile Char.isDigit with
    | [], '.' :: rest =>
      if cs = digits && rest.head?.any Char.isDigit then Number.ofFigures? ('0' :: digits) else none
    | [], _ => none
    | whole, '.' :: rest =>
      if rest.head?.any Char.isDigit then signed negative digits
      else if rest.head?.all (fun c => c = 'e' || c = 'E') then signed negative (whole ++ rest)
      else none
    | _, _ => signed negative digits
  finite? x
where
  signed (negative : Bool) (cs : List Char) : Option Number :=
    Number.ofFigures? (if negative then '-' :: cs else cs)

/-- The value of a plain text. Of a point in time nothing can be looked up: it is an empty record.
-/
def plainValue (cs : List Char) : Datum :=
  match String.ofList cs with
  | "~" | "null" | "Null" | "NULL" => .null
  | "true" | "True" | "TRUE" => .bool true
  | "false" | "False" | "FALSE" => .bool false
  | ".inf" | ".Inf" | ".INF" | "+.inf" | "+.Inf" | "+.INF" => .number (.infinity false)
  | "-.inf" | "-.Inf" | "-.INF" => .number (.infinity true)
  | ".nan" | ".NaN" | ".NAN" => .number .nan
  | s =>
    match (whole? cs).or (figure? cs) with
    | some x => .number x
    | none => if isInstant cs then .record [] else .text s

end Teletype.Settings.Yaml
