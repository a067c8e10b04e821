/-!
# Blank text

The characters that count as blank: the space separators and line separators of Unicode, the
control characters that move the position, and the byte-order mark.
-/

namespace Teletype.Text

def isBlankChar (c : Char) : Bool :=
  (9 ≤ c.toNat && c.toNat ≤ 13) || c.toNat = 0x20 || c.toNat = 0xA0 || c.toNat = 0x1680 ||
  (0x2000 ≤ c.toNat && c.toNat ≤ 0x200A) || c.toNat = 0x2028 || c.toNat = 0x2029 ||
  c.toNat = 0x202F || c.toNat = 0x205F || c.toNat = 0x3000 || c.toNat = 0xFEFF

def isBlank (s : String) : Bool := s.toList.all isBlankChar

end Teletype.Text
