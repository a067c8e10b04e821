import Mathlib
import Teletype.Text.Units

/-!
# Texts and their units

The units of a text are paired, and they say which text it is (`Units.toText_ofText`). Units that
are paired are the units of a text (`Units.ofText_toText_iff`), so the halves that stand alone are
all that is lost where a text leaves the host. A newline or a carriage return is one unit and never
half of a pair, so the lines of a text are the same by its units and by its characters.
-/

namespace Teletype.Text

/-! ## One character -/

theorem not_isHalf_toNat (c : Char) : ¬ IsHalf c.toNat := by
  have hvalid : c.toNat < 0xD800 ∨ 0xDFFF < c.toNat ∧ c.toNat < 0x110000 := c.valid
  omega

theorem single_toNat (c : Char) : unitChars.single c.toNat = c := by
  rw [unitChars.single, if_neg (not_isHalf_toNat c), Char.ofNat_toNat]

/-- What is no half is decoded by itself. -/
theorem unitChars_cons {unit : Nat} (h : ¬ IsHalf unit) (rest : List Nat) :
    unitChars (unit :: rest) = unitChars.single unit :: unitChars rest := by
  cases rest with
  | nil => rfl
  | cons low rest =>
    have hpair : ¬ IsPair unit low := fun hpair => h ⟨hpair.1, by omega⟩
    rw [unitChars, if_neg hpair]

theorem toNat_unit {n : Nat} (h : n < 0x10000) : (UInt16.ofNat n).toNat = n := by
  rw [UInt16.toNat_ofNat']
  exact Nat.mod_eq_of_lt h

/-- A character has one unit, which is no half, or two, which are a pair and stand for it. -/
theorem charUnits_cases (c : Char) :
    (∃ u : UInt16, charUnits c = [u] ∧ u.toNat = c.toNat) ∨
    ∃ high low : UInt16, charUnits c = [high, low] ∧ IsPair high.toNat low.toNat ∧
      0x10000 + (high.toNat - 0xD800) * 0x400 + (low.toNat - 0xDC00) = c.toNat := by
  have hvalid : c.toNat < 0xD800 ∨ 0xDFFF < c.toNat ∧ c.toNat < 0x110000 := c.valid
  unfold charUnits
  split
  · next h => exact .inl ⟨_, rfl, toNat_unit h⟩
  · next h =>
    refine .inr ⟨_, _, rfl, ?_⟩
    rw [toNat_unit (by omega), toNat_unit (by omega)]
    omega

/-- The units of a character are decoded as that character. -/
theorem unitChars_charUnits_append (c : Char) (rest : List Nat) :
    unitChars ((charUnits c).map UInt16.toNat ++ rest) = c :: unitChars rest := by
  obtain ⟨u, hunits, hu⟩ | ⟨high, low, hunits, hpair, hc⟩ := charUnits_cases c
  · rw [hunits, List.map_singleton, hu, List.singleton_append, unitChars_cons (not_isHalf_toNat c),
      single_toNat]
  · rw [hunits, List.map_cons, List.map_singleton, List.cons_append, List.singleton_append,
      unitChars, if_pos hpair, hc, Char.ofNat_toNat]

/-- A unit that is no half is the unit of a character. -/
theorem charUnits_single {u : UInt16} (h : ¬ IsHalf u.toNat) :
    charUnits (unitChars.single u.toNat) = [u] := by
  have hlt : u.toNat < 0x10000 := u.toNat_lt
  have hvalid : u.toNat.isValidChar := by unfold Nat.isValidChar; omega
  rw [unitChars.single, if_neg h, charUnits, Char.toNat_ofNat, if_pos hvalid, if_pos hlt,
    UInt16.ofNat_toNat]

/-- A pair is the units of a character. -/
theorem charUnits_pair {high low : UInt16} (h : IsPair high.toNat low.toNat) :
    charUnits (Char.ofNat
      (0x10000 + (high.toNat - 0xD800) * 0x400 + (low.toNat - 0xDC00))) = [high, low] := by
  have hvalid : Nat.isValidChar
      (0x10000 + (high.toNat - 0xD800) * 0x400 + (low.toNat - 0xDC00)) := by
    unfold Nat.isValidChar
    omega
  have hhigh : 0xD800 + (0x10000 + (high.toNat - 0xD800) * 0x400 + (low.toNat - 0xDC00) - 0x10000) /
      0x400 = high.toNat := by omega
  have hlow : 0xDC00 + (0x10000 + (high.toNat - 0xD800) * 0x400 + (low.toNat - 0xDC00) - 0x10000) %
      0x400 = low.toNat := by omega
  rw [charUnits, Char.toNat_ofNat, if_pos hvalid, if_neg (by omega), hhigh, hlow,
    UInt16.ofNat_toNat, UInt16.ofNat_toNat]

namespace Units

/-! ## Texts -/

theorem ofText_ofList (cs : List Char) : ofText (String.ofList cs) = cs.flatMap charUnits := by
  rw [ofText, String.toList_ofList]

/-- **A text is told by its units.** -/
theorem toText_ofText (text : String) : (ofText text).toText = text := by
  have hchars : ∀ cs : List Char, unitChars ((cs.flatMap charUnits).map UInt16.toNat) = cs := by
    intro cs
    induction cs with
    | nil => rfl
    | cons c cs ih => rw [List.flatMap_cons, List.map_append, unitChars_charUnits_append, ih]
  rw [toText, ofText, hchars, String.ofList_toList]

/-- The units of a character keep paired what they stand in front of. -/
theorem paired_charUnits_append (c : Char) {rest : Units} (h : rest.Paired) :
    (charUnits c ++ rest).Paired := by
  obtain ⟨u, hunits, hu⟩ | ⟨high, low, hunits, hpair, -⟩ := charUnits_cases c
  · have hhalf : ¬ IsHalf u.toNat := hu ▸ not_isHalf_toNat c
    rw [hunits, List.singleton_append]
    cases rest with
    | nil => exact hhalf
    | cons low rest =>
      rw [Paired, if_neg fun hpair => hhalf ⟨hpair.1, by omega⟩]
      exact ⟨hhalf, h⟩
  · rw [hunits, List.cons_append, List.singleton_append, Paired, if_pos hpair]
    exact h

theorem paired_ofText (text : String) : (ofText text).Paired := by
  rw [ofText]
  induction text.toList with
  | nil => trivial
  | cons c cs ih => exact paired_charUnits_append c ih

/-- **Units are those of a text just if they are paired.** -/
theorem ofText_toText_iff {units : Units} : ofText units.toText = units ↔ units.Paired := by
  constructor
  · intro h
    exact h ▸ paired_ofText units.toText
  · intro h
    rw [toText, ofText_ofList]
    fun_induction Paired units with
    | case1 => rfl
    | case2 unit =>
      rw [List.map_singleton, unitChars, List.flatMap_singleton, charUnits_single h]
    | case3 high low rest hpair ih =>
      rw [List.map_cons, List.map_cons, unitChars, if_pos hpair, List.flatMap_cons,
        charUnits_pair hpair, ih h]
      rfl
    | case4 high low rest hpair ih =>
      rw [List.map_cons, unitChars_cons h.1, List.flatMap_cons, charUnits_single h.1, ih h.2]
      rfl

/-! ## One unit in a text -/

section

variable {u : UInt16} {c : Char}

theorem charUnits_ne_nil (c : Char) : charUnits c ≠ [] := by
  unfold charUnits
  split <;> exact List.cons_ne_nil _ _

theorem charUnits_of_toNat (h : u.toNat = c.toNat) : charUnits c = [u] := by
  have hlt : u.toNat < 0x10000 := u.toNat_lt
  rw [charUnits, ← h, if_pos hlt, UInt16.ofNat_toNat]

/-- What is the one unit of a character is no unit of another. -/
theorem mem_charUnits_iff (h : u.toNat = c.toNat) (d : Char) : u ∈ charUnits d ↔ c = d := by
  constructor
  · intro hm
    have hhalf : ¬ IsHalf u.toNat := h ▸ not_isHalf_toNat c
    obtain ⟨v, hunits, hv⟩ | ⟨high, low, hunits, hpair, -⟩ := charUnits_cases d
    · rw [hunits, List.mem_singleton] at hm
      exact Char.toNat_inj.1 (by rw [← h, hm, hv])
    · rw [hunits, List.mem_cons, List.mem_singleton] at hm
      rcases hm with rfl | rfl <;> exact absurd (by omega) hhalf
  · rintro rfl
    rw [charUnits_of_toNat h]
    exact List.mem_singleton_self u

theorem mem_ofText_iff (h : u.toNat = c.toNat) (text : String) :
    u ∈ ofText text ↔ c ∈ text.toList := by
  simp only [ofText, List.mem_flatMap, mem_charUnits_iff h, exists_eq_right']

theorem getLast?_charUnits_iff (h : u.toNat = c.toNat) (d : Char) :
    (charUnits d).getLast? = some u ↔ d = c := by
  constructor
  · intro hlast
    exact ((mem_charUnits_iff h d).1 (List.mem_of_getLast? hlast)).symm
  · rintro rfl
    rw [charUnits_of_toNat h, List.getLast?_singleton]

/-- A text ends with a character just if its units end with the unit of that character. -/
theorem singleton_suffix_ofText_iff (h : u.toNat = c.toNat) (text : String) :
    [u] <:+ ofText text ↔ [c] <:+ text.toList := by
  rw [List.singleton_suffix_iff_getLast?_eq_some, List.singleton_suffix_iff_getLast?_eq_some,
    ofText]
  rcases List.eq_nil_or_concat text.toList with hnil | ⟨front, d, hconcat⟩
  · rw [hnil]
    simp
  · obtain ⟨v, hv⟩ := Option.isSome_iff_exists.1 (List.getLast?_isSome.2 (charUnits_ne_nil d))
    have hlast := getLast?_charUnits_iff h d
    rw [hv] at hlast
    rw [hconcat, List.concat_eq_append, List.flatMap_append, List.flatMap_singleton,
      List.getLast?_append, hv, Option.some_or, List.getLast?_concat, hlast, Option.some_inj]

end

end Units

end Teletype.Text
