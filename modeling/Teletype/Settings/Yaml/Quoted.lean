import Teletype.Settings.Json
import Teletype.Settings.Yaml.Plain

/-!
# Text in quotes

Between single quotes only a quote is special: it is written twice. Between double quotes a
backslash starts an escape. A quoted text goes on over lines: blanks around a line end are dropped,
and the line ends are folded.
-/

namespace Teletype.Settings.Yaml

def isQuotable (c : Char) : Bool := c = '\t' || 0x20 ≤ c.toNat

/-- Whether only blanks stand before the end of the line. -/
def endsBlank (cs : List Char) : Bool := (cs.dropWhile isBlank).head?.any endsLine

/-- The rest of a text in single quotes, in at most so many steps: its characters, and the cursor
behind it. -/
def singleQuoted? : Nat → Cursor → Option (List Char × Cursor)
  | 0, _ => none
  | steps + 1, cur =>
    match cur.rest with
    | [] => none
    | c :: rest =>
      if c = quote then
        if rest.head? = some quote then do
          let (chars, stop) ← singleQuoted? steps (cur.advance 2)
          return (quote :: chars, stop)
        else some ([], cur.advance 1)
      else if endsBlank cur.rest then do
        let next := cur.skipInText
        let (chars, stop) ← singleQuoted? steps next
        return (fold (next.line - cur.line) ++ chars, stop)
      else if cur.isAtBoundary || !isQuotable c then none
      else do
        let (chars, stop) ← singleQuoted? steps (cur.advance 1)
        return (c :: chars, stop)

/-- The code that an escape of one character stands for. -/
def shortEscape? (c : Char) : Option Nat :=
  match c with
  | '0' => some 0x00
  | 'a' => some 0x07
  | 'b' => some 0x08
  | 't' | '\t' => some 0x09
  | 'n' => some 0x0A
  | 'v' => some 0x0B
  | 'f' => some 0x0C
  | 'r' => some 0x0D
  | 'e' => some 0x1B
  | ' ' | '"' | '/' | '\\' => some c.toNat
  | 'N' => some 0x85
  | '_' => some 0xA0
  | 'L' => some 0x2028
  | 'P' => some 0x2029
  | _ => none

/-- How many hexadecimal digits follow the letter of an escape. -/
def escapeWidth? (c : Char) : Option Nat :=
  match c with
  | 'x' => some 2
  | 'u' => some 4
  | 'U' => some 8
  | _ => none

/-- The units that a code stands for. An escape has room for 32 bits, and no code is refused: one
that fits into a unit is that unit, one with the highest bit set is the unit of its lowest bits, and
any other is two halves, of which the first is cut to a unit. -/
def codeUnits (code : Nat) : List Nat :=
  if code < 0x10000 || 0x80000000 ≤ code then [code % 0x10000]
  else [(0xD800 + (code - 0x10000) / 0x400) % 0x10000, 0xDC00 + (code - 0x10000) % 0x400]

/-- An escape behind its backslash: the units that it stands for, and how long it is. -/
def escape? : List Char → Option (List Nat × Nat)
  | [] => none
  | c :: rest =>
    match shortEscape? c with
    | some code => some ([code], 1)
    | none => do
      let width ← escapeWidth? c
      let digits := rest.take width
      if digits.length < width then failure
      let code ← digits.foldlM (fun n d => do return n * 16 + (← Json.hexDigit? d)) 0
      return (codeUnits code, width + 1)

/-- The rest of a text in double quotes, in at most so many steps: its codes and units, and the
cursor behind it. A backslash at the end of a line joins the next line to it. -/
def doubleQuoted? : Nat → Cursor → Option (List Nat × Cursor)
  | 0, _ => none
  | steps + 1, cur =>
    match cur.rest with
    | [] => none
    | '"' :: _ => some ([], cur.advance 1)
    | '\\' :: rest =>
      if rest.head?.any endsLine then doubleQuoted? steps (cur.advance 1).skipInText
      else do
        let (units, length) ← escape? rest
        let (codes, stop) ← doubleQuoted? steps (cur.advance (length + 1))
        return (units ++ codes, stop)
    | c :: _ =>
      if endsBlank cur.rest then do
        let next := cur.skipInText
        let (codes, stop) ← doubleQuoted? steps next
        return ((fold (next.line - cur.line)).map Char.toNat ++ codes, stop)
      else if cur.isAtBoundary || !isQuotable c then none
      else do
        let (codes, stop) ← doubleQuoted? steps (cur.advance 1)
        return (c.toNat :: codes, stop)

/-- A quoted text, from its first quote on, in at most so many steps. -/
def quotedText? (steps : Nat) (cur : Cursor) : Option (List Char × Cursor) :=
  if cur.rest.head? = some quote then singleQuoted? steps (cur.advance 1)
  else do
    let (codes, stop) ← doubleQuoted? steps (cur.advance 1)
    return (Text.unitChars codes, stop)

end Teletype.Settings.Yaml
