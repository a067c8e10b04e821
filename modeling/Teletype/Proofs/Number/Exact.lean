import Mathlib.Algebra.Order.Field.Rat
import Mathlib.Tactic.FieldSimp
import Teletype.Number.Whole

/-!
# Whole numbers are read exactly

The test for the safe range looks at a number that was rounded already. Rounding leaves everything
in the range where it is and takes nothing into the range from above (`nearest_le_maxSafe_iff`): a
natural number of 54 bits or more keeps its highest bit when bits are dropped. So a text of any
length is accepted exactly if the integer it denotes lies in the range. And a magnitude of at most
53 bits becomes, shifted up to 53 bits, the significand of a binary fraction that has its value.
-/

namespace Teletype.Number

variable {n k : Nat} {negative : Bool}

/-! ## Rounding and the safe range -/

theorem maxSafe_eq : maxSafe = 2 ^ 53 - 1 := rfl

theorem div_le_divNearest (num den : Nat) : num / den ≤ divNearest num den := by
  rw [divNearest]
  split
  · exact Nat.le_refl _
  split
  · exact Nat.le_succ _
  split
  · exact Nat.le_refl _
  · exact Nat.le_succ _

/-- A number of at most 53 bits drops none of them. -/
theorem nearest_of_le (h : n ≤ maxSafe) : nearest n = n := by
  have hdropped : n.log2 + 1 - significantBits = 0 := by
    by_cases hzero : n = 0
    · subst hzero
      decide
    · have hlog : n.log2 < 53 := by
        rw [Nat.log2_lt hzero]
        rw [maxSafe_eq] at h
        omega
      have hbits : significantBits = 53 := rfl
      omega
  rw [nearest, hdropped]
  show divNearest n 1 * 1 = n
  rw [divNearest_one, Nat.mul_one]

/-- A number of more bits keeps the highest of them. -/
theorem maxSafe_lt_nearest (h : maxSafe < n) : maxSafe < nearest n := by
  rw [maxSafe_eq] at h
  have hne : n ≠ 0 := by omega
  have hlog : 53 ≤ n.log2 := by
    by_contra hsmall
    have hlt : n < 2 ^ 53 := (Nat.log2_lt hne).1 (by omega)
    omega
  obtain ⟨dropped, hdropped⟩ : ∃ dropped, n.log2 = 52 + dropped := ⟨n.log2 - 52, by omega⟩
  have hcut : n.log2 + 1 - significantBits = dropped := by
    have hbits : significantBits = 53 := rfl
    omega
  have hhighest : 2 ^ 52 * 2 ^ dropped ≤ n := by
    rw [← Nat.pow_add, ← hdropped]
    exact Nat.log2_self_le hne
  have hquotient : 2 ^ 52 ≤ divNearest n (2 ^ dropped) := calc
    2 ^ 52 ≤ n / 2 ^ dropped := (Nat.le_div_iff_mul_le (Nat.two_pow_pos dropped)).2 hhighest
    _ ≤ divNearest n (2 ^ dropped) := div_le_divNearest n (2 ^ dropped)
  have htwo : 2 ≤ 2 ^ dropped := Nat.pow_le_pow_right (Nat.le_succ 1) (by omega : 1 ≤ dropped)
  rw [nearest, hcut, maxSafe_eq]
  show 2 ^ 53 - 1 < divNearest n (2 ^ dropped) * 2 ^ dropped
  calc
    2 ^ 53 - 1 < 2 ^ 52 * 2 := by decide
    _ ≤ divNearest n (2 ^ dropped) * 2 ^ dropped := Nat.mul_le_mul hquotient htwo

/-- **No number comes into the safe range by rounding**, and none leaves it. -/
theorem nearest_le_maxSafe_iff (n : Nat) : nearest n ≤ maxSafe ↔ n ≤ maxSafe := by
  constructor
  · intro h
    by_contra hlarge
    exact absurd (maxSafe_lt_nearest (Nat.lt_of_not_le hlarge)) (Nat.not_lt_of_le h)
  · intro h
    rw [nearest_of_le h]
    exact h

/-! ## The value of a number -/

/-- The value of a magnitude, if it is finite. -/
def Magnitude.value? : Magnitude → Option ℚ
  | .finite significand exponent => some (significand * 2 ^ exponent)
  | _ => none

theorem toNat_bits_ofMagnitude {pattern : Nat} (h : pattern < infinityBits) (negative : Bool) :
    (ofMagnitude negative pattern).bits.toNat = (if negative then signBit else 0) + pattern := by
  have hfit : infinityBits + signBit < 2 ^ 64 := by decide
  rw [ofMagnitude, Nat.min_eq_left (Nat.le_of_lt h)]
  cases negative with
  | false =>
    show (UInt64.ofNat pattern).toNat = 0 + pattern
    rw [UInt64.toNat_ofNat', Nat.zero_add]
    exact Nat.mod_eq_of_lt (by omega)
  | true =>
    show (UInt64.ofNat (signBit + pattern)).toNat = signBit + pattern
    rw [UInt64.toNat_ofNat']
    exact Nat.mod_eq_of_lt (by omega)

theorem isNegative_ofMagnitude {pattern : Nat} (h : pattern < infinityBits) (negative : Bool) :
    (ofMagnitude negative pattern).isNegative = negative := by
  have hsmall : infinityBits < signBit := by decide
  rw [isNegative, toNat_bits_ofMagnitude h]
  cases negative with
  | false => exact decide_eq_false (by simp only [Bool.false_eq_true, if_false]; omega)
  | true => exact decide_eq_true (Nat.le_add_right signBit pattern)

/-- A pattern taken apart: behind the sign stand the exponent and then the stored bits. -/
theorem magnitude_ofMagnitude {exponent stored : Nat} (hexponent : 0 < exponent)
    (hfinite : exponent < 2047) (hstored : stored < 2 ^ 52) (negative : Bool) :
    (ofMagnitude negative (exponent * 2 ^ 52 + stored)).magnitude =
      .finite (stored + 2 ^ 52) (leastExponent + (exponent : Int) - 1) := by
  have hbits : Nat.pow 2 storedBits = 2 ^ 52 := rfl
  have hinfinity : infinityBits = 2047 * 2 ^ 52 := rfl
  have hsmall : infinityBits < signBit := by decide
  have hpattern : exponent * 2 ^ 52 + stored < infinityBits := by omega
  have hcut : (ofMagnitude negative (exponent * 2 ^ 52 + stored)).bits.toNat % signBit =
      exponent * 2 ^ 52 + stored := by
    rw [toNat_bits_ofMagnitude hpattern]
    cases negative with
    | false =>
      simp only [Bool.false_eq_true, if_false, Nat.zero_add]
      exact Nat.mod_eq_of_lt (by omega)
    | true =>
      simp only [if_true, Nat.add_mod_left]
      exact Nat.mod_eq_of_lt (by omega)
  have hdiv : (exponent * 2 ^ 52 + stored) / 2 ^ 52 = exponent := by omega
  have hmod : (exponent * 2 ^ 52 + stored) % 2 ^ 52 = stored := by omega
  simp only [magnitude, hcut, hbits, hdiv, hmod]
  rw [if_neg (by omega), if_neg (by omega), if_neg (by omega)]

/-- A natural number that is shifted up needs no denominator. -/
theorem scaleDown_one (n shift : Nat) : scaleDown n 1 (-(shift : Int)) = (n * 2 ^ shift, 1) := by
  rw [scaleDown]
  split
  · rw [neg_neg, Int.toNat_natCast]
    rfl
  · have hzero : shift = 0 := by omega
    subst hzero
    simp

/-- A natural number of at most 53 bits, shifted up until it has 53, is a significand. -/
theorem ofRatio_one {shift : Nat} (hlow : 2 ^ 52 ≤ n * 2 ^ shift) (hlog : n.log2 + shift = 52)
    (negative : Bool) :
    ofRatio negative n 1 = ofMagnitude negative ((1074 - shift) * 2 ^ 52 + n * 2 ^ shift) := by
  have hne : n ≠ 0 := by
    rintro rfl
    omega
  have hguess : (n.log2 : Int) - ((1 : Nat).log2 : Int) - (storedBits : Int) = -(shift : Int) := by
    have hone : (1 : Nat).log2 = 0 := by decide
    have hstored : storedBits = 52 := rfl
    omega
  have hbits : Nat.pow 2 storedBits = 2 ^ 52 := rfl
  have hleast : leastExponent = -1074 := rfl
  have hexponent : max leastExponent (-(shift : Int)) = -(shift : Int) := by omega
  have hplace : (-(shift : Int) - leastExponent).toNat = 1074 - shift := by omega
  simp only [ofRatio, if_neg hne, hguess, scaleDown_one, Nat.div_one, hbits,
    if_neg (Nat.not_lt_of_le hlow), hexponent, hplace, divNearest_one]

/-- **A whole number of the safe range is kept exactly**, with its sign, also that of zero. -/
theorem ofRatio_exact (h : n ≤ maxSafe) (negative : Bool) :
    (ofRatio negative n 1).isNegative = negative ∧
      (ofRatio negative n 1).magnitude.value? = some (n : ℚ) := by
  by_cases hzero : n = 0
  · subst hzero
    have hmagnitude : ∀ negative, (ofRatio negative 0 1).magnitude = .finite 0 leastExponent := by
      decide
    refine ⟨isNegative_ofMagnitude (by decide) negative, ?_⟩
    rw [hmagnitude, Magnitude.value?, Nat.cast_zero, zero_mul]
  · rw [maxSafe_eq] at h
    have hlog : n.log2 < 53 := (Nat.log2_lt hzero).2 (by omega)
    obtain ⟨shift, hshift⟩ : ∃ shift, n.log2 + shift = 52 := ⟨52 - n.log2, by omega⟩
    -- Shifted up, the number has its highest bit in the place that is not stored.
    have hlow : 2 ^ 52 ≤ n * 2 ^ shift := by
      rw [← hshift, Nat.pow_add]
      exact Nat.mul_le_mul_right _ (Nat.log2_self_le hzero)
    have hhigh : n * 2 ^ shift < 2 ^ 53 := by
      rw [show 53 = n.log2 + 1 + shift by omega, Nat.pow_add]
      exact Nat.mul_lt_mul_of_pos_right Nat.lt_log2_self (Nat.two_pow_pos shift)
    obtain ⟨stored, hstored⟩ := Nat.exists_eq_add_of_le hlow
    have hpattern : (1074 - shift) * 2 ^ 52 + n * 2 ^ shift =
        (1075 - shift) * 2 ^ 52 + stored := by omega
    have hfinite : (1075 - shift) * 2 ^ 52 + stored < infinityBits := by
      have hinfinity : infinityBits = 2047 * 2 ^ 52 := rfl
      omega
    rw [ofRatio_one hlow hshift, hpattern]
    refine ⟨isNegative_ofMagnitude hfinite negative, ?_⟩
    have hexponent : leastExponent + ((1075 - shift : Nat) : Int) - 1 = -(shift : Int) := by
      have hleast : leastExponent = -1074 := rfl
      omega
    have hsignificand : stored + 2 ^ 52 = n * 2 ^ shift := by omega
    rw [magnitude_ofMagnitude (by omega) (by omega) (by omega), hexponent, hsignificand,
      Magnitude.value?, Nat.cast_mul, Nat.cast_pow, Nat.cast_ofNat, zpow_neg, zpow_natCast]
    congr 1
    field_simp

/-! ## Reading -/

namespace Whole

/-- A text that is a sign, which may be missing, and then at least one decimal digit: whether the
sign is a minus, and the digits. -/
inductive Spells : List Char → Bool → List Char → Prop
  | plain {digits : List Char} : digits ≠ [] → (∀ c ∈ digits, c.isDigit = true) →
      Spells digits false digits
  | plus {digits : List Char} : digits ≠ [] → (∀ c ∈ digits, c.isDigit = true) →
      Spells ('+' :: digits) false digits
  | minus {digits : List Char} : digits ≠ [] → (∀ c ∈ digits, c.isDigit = true) →
      Spells ('-' :: digits) true digits

variable {cs digits : List Char} {s : String} {w : Whole}

theorem Spells.digits_ne_nil (h : Spells cs negative digits) : digits ≠ [] := by
  cases h <;> assumption

theorem Spells.isDigit (h : Spells cs negative digits) : ∀ c ∈ digits, c.isDigit = true := by
  cases h <;> assumption

/-- The sign is where it is looked for: a digit is none. -/
theorem splitSign_of_spells (h : Spells cs negative digits) :
    splitSign cs = (negative, digits) := by
  cases h with
  | plus => rfl
  | minus => rfl
  | plain hne hdigits =>
    obtain ⟨c, rest, rfl⟩ := List.exists_cons_of_ne_nil hne
    have hc : c.isDigit = true := hdigits c List.mem_cons_self
    rw [splitSign]
    · intro rest' hminus
      rw [(List.cons.inj hminus).1] at hc
      exact absurd hc (by decide)
    · intro rest' hplus
      rw [(List.cons.inj hplus).1] at hc
      exact absurd hc (by decide)

theorem spells_of_splitSign (h : splitSign cs = (negative, digits)) (hne : digits ≠ [])
    (hdigits : ∀ c ∈ digits, c.isDigit = true) : Spells cs negative digits := by
  rw [splitSign.eq_def] at h
  split at h
  · cases h
    exact .minus hne hdigits
  · cases h
    exact .plus hne hdigits
  · cases h
    exact .plain hne hdigits

/-- A text that spells a whole number is accepted if the number is in the safe range. -/
theorem ofText?_of_spells (h : Spells s.toList negative digits) :
    ofText? s = if Nat.ofDigitChars 10 digits 0 ≤ maxSafe then
      some ⟨negative, Nat.ofDigitChars 10 digits 0⟩ else none := by
  have hdigits : (digits.isEmpty || !digits.all Char.isDigit) = false := by
    rw [Bool.or_eq_false_iff, List.isEmpty_eq_false_iff, Bool.not_eq_false', List.all_eq_true]
    exact ⟨h.digits_ne_nil, h.isDigit⟩
  have hvalue : digitsValue digits = Nat.ofDigitChars 10 digits 0 := rfl
  simp only [ofText?, splitSign_of_spells h, hdigits, hvalue, nearest_le_maxSafe_iff,
    Bool.false_eq_true, if_false]
  split
  case isTrue hsafe => rw [nearest_of_le hsafe]
  case isFalse => rfl

/-- Nothing else is accepted. -/
theorem exists_spells_of_ofText? (h : ofText? s = some w) :
    ∃ negative digits, Spells s.toList negative digits := by
  cases hsplit : splitSign s.toList with
  | mk negative digits =>
    simp only [ofText?, hsplit] at h
    split at h
    case isTrue => cases h
    case isFalse hdigits =>
      have hspelled : digits ≠ [] ∧ ∀ c ∈ digits, c.isDigit = true := by simpa using hdigits
      exact ⟨negative, digits, spells_of_splitSign hsplit hspelled.1 hspelled.2⟩

/-- The decimal text of an integer is a minus for a negative one, and the digits of its
magnitude. -/
theorem spells_toString (z : Int) :
    Spells (toString z).toList (decide (z < 0)) (Nat.toDigits 10 z.natAbs) := by
  have hdigits : ∀ n, ∀ c ∈ Nat.toDigits 10 n, c.isDigit = true :=
    fun n c hc => Nat.isDigit_of_mem_toDigits (by decide) (by decide) hc
  cases z with
  | ofNat n =>
    have hsign : decide (Int.ofNat n < 0) = false :=
      decide_eq_false (Int.not_lt.2 (Int.natCast_nonneg n))
    have htext : (toString (Int.ofNat n)).toList = Nat.toDigits 10 n := by
      show (toString n).toList = _
      rw [Nat.toString_eq_ofList_toDigits, String.toList_ofList]
    rw [hsign, htext]
    exact .plain Nat.toDigits_ne_nil (hdigits n)
  | negSucc n =>
    have hsign : decide (Int.negSucc n < 0) = true := decide_eq_true (Int.negSucc_lt_zero n)
    have htext : (toString (Int.negSucc n)).toList = '-' :: Nat.toDigits 10 (n + 1) := by
      show ("-" ++ toString (n + 1)).toList = _
      rw [Nat.toString_eq_ofList_toDigits, String.toList_append]
      show '-' :: (String.ofList _).toList = _
      rw [String.toList_ofList]
    rw [hsign, htext]
    exact .minus Nat.toDigits_ne_nil (hdigits (n + 1))

/-- **A text is read as a whole number exactly if it spells one of the safe range, and then as that
one.** The spelling is a sign, if any, and decimal digits, of whatever count; the number that is
read has the sign that was written, also on zero, and exactly the value that the digits denote; and
no digits that denote more are taken for a number of the range. The decimal text of each integer of
the range is read as that integer. -/
theorem ofText?_exact :
    (∀ s w, ofText? s = some w ↔ ∃ digits, Spells s.toList w.negative digits ∧
      Nat.ofDigitChars 10 digits 0 = w.magnitude ∧ w.magnitude ≤ 2 ^ 53 - 1) ∧
    (∀ s w, ofText? s = some w → w.toNumber.isNegative = w.negative ∧
      w.toNumber.magnitude.value? = some (w.magnitude : ℚ)) ∧
    (∀ s negative digits, Spells s.toList negative digits →
      2 ^ 53 - 1 < Nat.ofDigitChars 10 digits 0 → ofText? s = none) ∧
    ∀ z : Int, z.natAbs ≤ 2 ^ 53 - 1 →
      ofText? (toString z) = some ⟨decide (z < 0), z.natAbs⟩ := by
  have hread : ∀ s w, ofText? s = some w ↔ ∃ digits, Spells s.toList w.negative digits ∧
      Nat.ofDigitChars 10 digits 0 = w.magnitude ∧ w.magnitude ≤ 2 ^ 53 - 1 := by
    intro s w
    constructor
    · intro h
      obtain ⟨negative, digits, hspells⟩ := exists_spells_of_ofText? h
      rw [ofText?_of_spells hspells] at h
      split at h
      case isTrue hsafe =>
        cases h
        exact ⟨digits, hspells, rfl, hsafe⟩
      case isFalse => cases h
    · rintro ⟨digits, hspells, hvalue, hsafe⟩
      rw [ofText?_of_spells hspells, hvalue]
      exact if_pos hsafe
  refine ⟨hread, fun s w h => ?_, fun s negative digits hspells hlarge => ?_, fun z hz => ?_⟩
  · obtain ⟨digits, -, -, hsafe⟩ := (hread s w).1 h
    exact ofRatio_exact hsafe w.negative
  · rw [ofText?_of_spells hspells]
    exact if_neg (Nat.not_le_of_lt hlarge)
  · rw [ofText?_of_spells (spells_toString z), Nat.ofDigitChars_ten_toDigits]
    exact if_pos hz

/-- The greatest number of the range is read, with needless zeros too, and the next ones are not,
though the second of them would be rounded; and minus zero keeps its sign. -/
theorem ofText?_exact_boundary :
    ofText? "+0009007199254740991" = some ⟨false, 9007199254740991⟩ ∧
      ofText? "9007199254740992" = none ∧ ofText? "-9007199254740993" = none ∧
      ofText? "-00" = some ⟨true, 0⟩ ∧
      ofText? (toString (-9007199254740991 : Int)) = some ⟨true, 9007199254740991⟩ := by
  obtain ⟨hread, -, hlarge, htext⟩ := ofText?_exact
  refine ⟨(hread _ _).2 ⟨"0009007199254740991".toList, ?_, by decide, by decide⟩,
    hlarge _ false "9007199254740992".toList ?_ (by decide),
    hlarge _ true "9007199254740993".toList ?_ (by decide),
    (hread _ _).2 ⟨"00".toList, ?_, by decide, by decide⟩, htext _ (by decide)⟩
  · exact .plus (by decide) (List.all_eq_true.1 (by decide))
  · exact .plain (by decide) (List.all_eq_true.1 (by decide))
  · exact .minus (by decide) (List.all_eq_true.1 (by decide))
  · exact .minus (by decide) (List.all_eq_true.1 (by decide))

end Whole

end Teletype.Number
