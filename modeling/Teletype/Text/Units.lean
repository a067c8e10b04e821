/-!
# Texts by their units

Host code holds a text as a sequence of units of sixteen bits. A character from U+10000 on has two,
the halves of a pair, and host code can take them apart. A half without the other one stands for no
character. Where a text leaves the host, each such half is replaced, so `Units.toText` loses them;
all other sequences are the units of one text (`Units.ofText`).
-/

namespace Teletype.Text

/-- A number from the range that is set apart for halves of pairs. -/
abbrev IsHalf (unit : Nat) : Prop := 0xD800 ≤ unit ∧ unit < 0xE000

/-- The first and the second half of a pair. -/
abbrev IsPair (high low : Nat) : Prop := 0xD800 ≤ high ∧ high < 0xDC00 ∧ 0xDC00 ≤ low ∧ low < 0xE000

/-- The characters that units stand for: two halves are one character, and half of a pair without
the other half is replaced. A number that is too large for a unit is that of a character. -/
def unitChars : List Nat → List Char
  | [] => []
  | [unit] => [single unit]
  | high :: low :: rest =>
    if IsPair high low then
      Char.ofNat (0x10000 + (high - 0xD800) * 0x400 + (low - 0xDC00)) :: unitChars rest
    else single high :: unitChars (low :: rest)
where
  /-- A unit on its own. -/
  single (unit : Nat) : Char := if IsHalf unit then '\uFFFD' else Char.ofNat unit

/-- A text as a sequence of units. -/
abbrev Units := List UInt16

/-- The units of a character. -/
def charUnits (c : Char) : Units :=
  if c.toNat < 0x10000 then [UInt16.ofNat c.toNat]
  else [UInt16.ofNat (0xD800 + (c.toNat - 0x10000) / 0x400),
    UInt16.ofNat (0xDC00 + (c.toNat - 0x10000) % 0x400)]

namespace Units

def ofText (text : String) : Units := text.toList.flatMap charUnits

/-- The text that leaves the host for these units. -/
def toText (units : Units) : String := String.ofList (unitChars (units.map UInt16.toNat))

/-- No half of a pair stands without the other. -/
def Paired : Units → Prop
  | [] => True
  | [unit] => ¬ IsHalf unit.toNat
  | high :: low :: rest =>
    if IsPair high.toNat low.toNat then Paired rest else ¬ IsHalf high.toNat ∧ Paired (low :: rest)

instance decidablePaired : DecidablePred Paired
  | [] => inferInstanceAs (Decidable True)
  | [unit] => inferInstanceAs (Decidable (¬ IsHalf unit.toNat))
  | high :: low :: rest =>
    have := decidablePaired rest
    have := decidablePaired (low :: rest)
    inferInstanceAs (Decidable (if IsPair high.toNat low.toNat then Paired rest
      else ¬ IsHalf high.toNat ∧ Paired (low :: rest)))

end Units

end Teletype.Text
