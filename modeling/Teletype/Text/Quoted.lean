/-!
# Quoted text

A text between double quotes, with everything in it escaped that could end the quotation or be taken
for something else than text: the quote, the backslash, and every character below the space. Five of
these have short escapes, the others are written with four hexadecimal digits. All else stands for
itself.
-/

namespace Teletype.Text.Quoted

def shortEscape? (c : Char) : Option Char :=
  match c with
  | '"' => some '"'
  | '\\' => some '\\'
  | '\x08' => some 'b'
  | '\x0c' => some 'f'
  | '\n' => some 'n'
  | '\r' => some 'r'
  | '\t' => some 't'
  | _ => none

/-- A hexadecimal digit, in lower case. -/
def hexDigit (n : Nat) : Char := Nat.digitChar (n % 16)

def escape (c : Char) : List Char :=
  match shortEscape? c with
  | some letter => ['\\', letter]
  | none =>
    if c.toNat < 0x20 then ['\\', 'u', '0', '0', hexDigit (c.toNat / 16), hexDigit c.toNat]
    else [c]

def encode (cs : List Char) : List Char := '"' :: (cs.flatMap escape ++ ['"'])

end Teletype.Text.Quoted

namespace Teletype.Text

def quoted (s : String) : String := String.ofList (Quoted.encode s.toList)

end Teletype.Text
