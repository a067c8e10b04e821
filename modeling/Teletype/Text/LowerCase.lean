/-!
# Lower and upper case

Case mapping for the letters of ASCII and of the Latin-1 block, the letters that names of
environment variables are made of. The lower-case letters of that block lie 32 places behind the
upper-case ones; the multiplication sign among the upper-case letters has no case.
-/

namespace Teletype.Text

/-- Whether a character is an upper-case letter of the Latin-1 block beyond ASCII. -/
def isLatinUpper (c : Char) : Bool := 0xC0 ≤ c.toNat && c.toNat ≤ 0xDE && c.toNat != 0xD7

/-- The lower-case form of a letter; other characters are left alone. -/
def lower (c : Char) : Char :=
  if c.isUpper || isLatinUpper c then Char.ofNat (c.toNat + 32) else c

/-- The upper-case form of an ASCII letter; other characters are left alone. -/
def upper (c : Char) : Char :=
  if c.isLower then Char.ofNat (c.toNat - 32) else c

end Teletype.Text
