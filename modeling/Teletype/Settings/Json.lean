import Teletype.Datum

/-!
# Reading JSON

The standard notation: one value, blanks around it, nothing else. Of two members with one name the
later counts. A value takes at least one character, so the length of the text bounds the depth and
the number of steps.
-/

namespace Teletype.Settings.Json

def isSpace (c : Char) : Bool := c = ' ' || c = '\t' || c = '\n' || c = '\r'

def skip (cs : List Char) : List Char := cs.dropWhile isSpace

def hexDigit? (c : Char) : Option Nat :=
  if c.isDigit then some (c.toNat - '0'.toNat)
  else if 'a' ≤ c ∧ c ≤ 'f' then some (c.toNat - 'a'.toNat + 10)
  else if 'A' ≤ c ∧ c ≤ 'F' then some (c.toNat - 'A'.toNat + 10)
  else none

def hex4? (a b c d : Char) : Option Nat := do
  return (((← hexDigit? a) * 16 + (← hexDigit? b)) * 16 + (← hexDigit? c)) * 16 + (← hexDigit? d)

def escaped? (c : Char) : Option Char :=
  match c with
  | '"' => some '"'
  | '\\' => some '\\'
  | '/' => some '/'
  | 'b' => some '\x08'
  | 'f' => some '\x0c'
  | 'n' => some '\n'
  | 'r' => some '\r'
  | 't' => some '\t'
  | _ => none

/-- The rest of a string after its opening quote: its units, and what follows it. -/
def units? : List Char → Option (List Nat × List Char)
  | [] => none
  | '"' :: rest => some ([], rest)
  | '\\' :: 'u' :: a :: b :: c :: d :: rest => do
    let unit ← hex4? a b c d
    let (units, rest) ← units? rest
    return (unit :: units, rest)
  | '\\' :: c :: rest => do
    let c ← escaped? c
    let (units, rest) ← units? rest
    return (c.toNat :: units, rest)
  | c :: rest =>
    if c.toNat < 0x20 then none
    else do
      let (units, rest) ← units? rest
      return (c.toNat :: units, rest)

/-- The rest of a string after its opening quote: its characters, and what follows it. -/
def string? (cs : List Char) : Option (List Char × List Char) := do
  let (units, rest) ← units? cs
  return (Text.unitChars units, rest)

def isNumberChar (c : Char) : Bool :=
  c.isDigit || c = '-' || c = '+' || c = '.' || c = 'e' || c = 'E'

/-- A number: decimal figures, without a needless zero in front. -/
def number? (cs : List Char) : Option (Datum × List Char) := do
  let figures := cs.takeWhile isNumberChar
  let digits := match figures with
    | '-' :: digits => digits
    | digits => digits
  match digits with
  | '0' :: d :: _ => if d.isDigit then failure
  | _ => pure ()
  return (.number (← Number.ofFigures? figures), cs.dropWhile isNumberChar)

def word? (word : String) (value : Datum) (cs : List Char) : Option (Datum × List Char) :=
  if word.toList.isPrefixOf cs then some (value, cs.drop word.length) else none

mutual

/-- A value, from its first character on: the value, and what follows it. -/
def value? : Nat → List Char → Option (Datum × List Char)
  | 0, _ => none
  | fuel + 1, cs =>
    match cs with
    | '"' :: rest => do
      let (chars, rest) ← string? rest
      return (.text (String.ofList chars), rest)
    | '[' :: rest =>
      match skip rest with
      | ']' :: rest => some (.list [], rest)
      | rest => do
        let (items, rest) ← items? fuel rest
        return (.list items, rest)
    | '{' :: rest =>
      match skip rest with
      | '}' :: rest => some (.record [], rest)
      | rest => do
        let (fields, rest) ← members? fuel [] rest
        return (.record fields, rest)
    | 't' :: _ => word? "true" (.bool true) cs
    | 'f' :: _ => word? "false" (.bool false) cs
    | 'n' :: _ => word? "null" .null cs
    | _ => number? cs

/-- At least one item, to the end of the list. -/
def items? : Nat → List Char → Option (List Datum × List Char)
  | 0, _ => none
  | fuel + 1, cs => do
    let (item, rest) ← value? fuel cs
    match skip rest with
    | ']' :: rest => return ([item], rest)
    | ',' :: rest =>
      let (items, rest) ← items? fuel (skip rest)
      return (item :: items, rest)
    | _ => failure

/-- At least one member, to the end of the record; members seen before come along. -/
def members? : Nat → Fields → List Char → Option (Fields × List Char)
  | 0, _, _ => none
  | fuel + 1, fields, cs =>
    match cs with
    | '"' :: rest => do
      let (key, rest) ← string? rest
      match skip rest with
      | ':' :: rest =>
        let (value, rest) ← value? fuel (skip rest)
        let fields := Fields.add (String.ofList key) value fields
        match skip rest with
        | '}' :: rest => return (fields, rest)
        | ',' :: rest => members? fuel fields (skip rest)
        | _ => failure
      | _ => failure
    | _ => none

end

def read? (s : String) : Option Datum := do
  let cs := skip s.toList
  let (value, rest) ← value? (2 * cs.length + 1) cs
  if (skip rest).isEmpty then return value else failure

end Teletype.Settings.Json
