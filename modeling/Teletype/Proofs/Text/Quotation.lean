import Teletype.Proofs.Text.Units
import Teletype.Settings.Json
import Teletype.Text.Quoted

/-!
# Quoted text is read back

What stands between the quotes is read back character by character: each character is written in one
of three ways, by a short escape, by its number or as itself, and the reader takes exactly what was
written for it. So no two texts have one quotation. And no character of a quotation lies below the
space, whatever was quoted.
-/

namespace Teletype.Text.Quoted

open Settings

/-! ## The three ways to write a character -/

/-- The characters with a short escape, and its letter. -/
def shortEscapes : List (Char × Char) :=
  [('"', '"'), ('\\', '\\'), ('\x08', 'b'), ('\x0c', 'f'), ('\n', 'n'), ('\r', 'r'), ('\t', 't')]

theorem mem_shortEscapes {c letter : Char} (h : shortEscape? c = some letter) :
    (c, letter) ∈ shortEscapes := by
  unfold shortEscape? at h
  split at h <;> cases h <;> decide

/-- A character without a short escape ends no quotation and begins no escape. -/
theorem ne_of_shortEscape?_eq_none {c : Char} (h : shortEscape? c = none) : c ≠ '"' ∧ c ≠ '\\' := by
  constructor <;> rintro rfl <;> cases h

theorem escape_of_short {c letter : Char} (h : shortEscape? c = some letter) :
    escape c = ['\\', letter] := by
  simp only [escape, h]

theorem escape_of_lt {c : Char} (h : shortEscape? c = none) (hlt : c.toNat < 0x20) :
    escape c = ['\\', 'u', '0', '0', hexDigit (c.toNat / 16), hexDigit c.toNat] := by
  simp only [escape, h, hlt, if_true]

theorem escape_of_le {c : Char} (h : shortEscape? c = none) (hle : 0x20 ≤ c.toNat) :
    escape c = [c] := by
  simp only [escape, h, Nat.not_lt.2 hle, if_false]

/-! ## Reading back -/

theorem hex4?_hexDigit :
    ∀ n < 0x20, Json.hex4? '0' '0' (hexDigit (n / 16)) (hexDigit n) = some n := by
  decide

theorem escaped?_of_mem : ∀ p ∈ shortEscapes, Json.escaped? p.2 = some p.1 ∧ p.2 ≠ 'u' := by
  decide

section

variable {c letter : Char} {rest : List Char}

theorem units?_short (hread : Json.escaped? letter = some c) (hu : letter ≠ 'u') :
    Json.units? ('\\' :: letter :: rest) =
      (Json.units? rest).map fun (units, rest) => (c.toNat :: units, rest) := by
  rw [Json.units?, hread]
  · cases Json.units? rest <;> rfl
  · intro _ _ _ _ _ h
    exact absurd h hu

theorem units?_number {h₁ h₂ h₃ h₄ : Char} {n : Nat} (hread : Json.hex4? h₁ h₂ h₃ h₄ = some n) :
    Json.units? ('\\' :: 'u' :: h₁ :: h₂ :: h₃ :: h₄ :: rest) =
      (Json.units? rest).map fun (units, rest) => (n :: units, rest) := by
  rw [Json.units?, hread]
  cases Json.units? rest <;> rfl

theorem units?_plain (hquote : c ≠ '"') (hslash : c ≠ '\\') (hle : 0x20 ≤ c.toNat) :
    Json.units? (c :: rest) =
      (Json.units? rest).map fun (units, rest) => (c.toNat :: units, rest) := by
  rw [Json.units?, if_neg (Nat.not_lt.2 hle)]
  · cases Json.units? rest <;> rfl
  · exact hquote
  · intro _ _ _ _ _ h
    exact absurd h hslash
  · intro _ _ h
    exact absurd h hslash

end

/-- The reader takes exactly what was written for a character. -/
theorem units?_escape (c : Char) (rest : List Char) :
    Json.units? (escape c ++ rest) =
      (Json.units? rest).map fun (units, rest) => (c.toNat :: units, rest) := by
  cases hshort : shortEscape? c with
  | some letter =>
    obtain ⟨hread, hu⟩ := escaped?_of_mem _ (mem_shortEscapes hshort)
    rw [escape_of_short hshort]
    exact units?_short hread hu
  | none =>
    obtain ⟨hquote, hslash⟩ := ne_of_shortEscape?_eq_none hshort
    by_cases hlt : c.toNat < 0x20
    · rw [escape_of_lt hshort hlt]
      exact units?_number (hex4?_hexDigit _ hlt)
    · rw [escape_of_le hshort (by omega)]
      exact units?_plain hquote hslash (by omega)

theorem units?_flatMap_escape (cs rest : List Char) :
    Json.units? (cs.flatMap escape ++ '"' :: rest) = some (cs.map Char.toNat, rest) := by
  induction cs with
  | nil => rfl
  | cons c cs ih =>
    rw [List.flatMap_cons, List.append_assoc, units?_escape, ih]
    rfl

/-- A character is no half of a pair, so its number stands for it alone. -/
theorem unitChars_map_toNat (cs : List Char) : unitChars (cs.map Char.toNat) = cs := by
  induction cs with
  | nil => rfl
  | cons c cs ih => rw [List.map_cons, unitChars_cons (not_isHalf_toNat c), single_toNat, ih]

/-- **What was quoted is read back**, and what follows the quotation is left. -/
theorem string?_encode (cs rest : List Char) :
    Json.string? ((encode cs ++ rest).drop 1) = some (cs, rest) := by
  have hunits : Json.units? ((encode cs ++ rest).drop 1) = some (cs.map Char.toNat, rest) := by
    simpa [encode] using units?_flatMap_escape cs rest
  rw [Json.string?, hunits]
  exact congrArg (fun cs => some (cs, rest)) (unitChars_map_toNat cs)

/-! ## No control characters -/

theorem le_hexDigit (n : Nat) : 0x20 ≤ (hexDigit n).toNat := by
  have hdigit : ∀ k < 16, 0x20 ≤ (Nat.digitChar k).toNat := by decide
  exact hdigit (n % 16) (Nat.mod_lt n (by decide))

/-- Whatever is escaped, nothing below the space is written for it. -/
theorem le_of_mem_escape {c d : Char} (h : d ∈ escape c) : 0x20 ≤ d.toNat := by
  have hletter : ∀ p ∈ shortEscapes, 0x20 ≤ p.2.toNat := by decide
  cases hshort : shortEscape? c with
  | some letter =>
    simp only [escape_of_short hshort, List.mem_cons, List.not_mem_nil, or_false] at h
    rcases h with rfl | rfl
    · decide
    · exact hletter _ (mem_shortEscapes hshort)
  | none =>
    by_cases hlt : c.toNat < 0x20
    · simp only [escape_of_lt hshort hlt, List.mem_cons, List.not_mem_nil, or_false] at h
      rcases h with rfl | rfl | rfl | rfl | rfl | rfl
      · decide
      · decide
      · decide
      · decide
      · exact le_hexDigit _
      · exact le_hexDigit _
    · rw [escape_of_le hshort (by omega), List.mem_singleton] at h
      subst h
      omega

theorem le_of_mem_encode {cs : List Char} {d : Char} (h : d ∈ encode cs) : 0x20 ≤ d.toNat := by
  simp only [encode, List.mem_cons, List.mem_append, List.mem_flatMap, List.not_mem_nil,
    or_false] at h
  rcases h with rfl | ⟨c, _, hd⟩ | rfl
  · decide
  · exact le_of_mem_escape hd
  · decide

end Teletype.Text.Quoted

namespace Teletype.Text

/-- No two texts have one quotation. -/
theorem quoted_injective {s s' : String} (h : quoted s = quoted s') : s = s' := by
  have hencode : Quoted.encode s.toList = Quoted.encode s'.toList := String.ofList_injective h
  have hread := Quoted.string?_encode s.toList []
  rw [hencode, Quoted.string?_encode] at hread
  exact String.toList_inj.1 (congrArg Prod.fst (Option.some.inj hread)).symm

/-- No character of a quotation lies below the space. -/
theorem le_of_mem_quoted {s : String} {c : Char} (h : c ∈ (quoted s).toList) : 0x20 ≤ c.toNat := by
  rw [quoted, String.toList_ofList] at h
  exact Quoted.le_of_mem_encode h

end Teletype.Text
