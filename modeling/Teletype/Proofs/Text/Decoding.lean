import Teletype.Text.Utf8

/-!
# Decoding undoes encoding

The bytes of a character take the decoder from between characters to between characters, and give
that character. The arithmetic is said on natural numbers: a lead byte is its class mark plus the
high bits, a later byte is `0x80` plus six bits. Since a cut changes nothing, the bytes of a text
give the text back in whatever pieces they come.
-/

namespace Teletype.Text.Decoder

/-! ## Single bytes -/

theorem step_start_one {n : Nat} (h : n < 0x80) :
    start.step (UInt8.ofNat n) = ([Char.ofNat n], .start) := by
  revert n
  decide

theorem step_start_two {n : Nat} (h : n < 0x20) (h' : 2 ≤ n) :
    start.step (UInt8.ofNat (n + 0xC0)) = ([], .inside 1 0x80 0xBF n) := by
  revert n
  decide

/-- After the least lead byte the next byte may not be low, after the one before the surrogates it
may not be high. -/
theorem step_start_three {n : Nat} (h : n < 0x10) :
    start.step (UInt8.ofNat (n + 0xE0)) =
      ([], .inside 2 (if n = 0 then 0xA0 else 0x80) (if n = 0xD then 0x9F else 0xBF) n) := by
  revert n
  decide

theorem step_start_four {n : Nat} (h : n < 5) :
    start.step (UInt8.ofNat (n + 0xF0)) =
      ([], .inside 3 (if n = 0 then 0x90 else 0x80) (if n = 4 then 0x8F else 0xBF) n) := by
  revert n
  decide

/-- A later byte adds six bits to the value. -/
theorem step_inside {owed value n : Nat} {low high : UInt8} (hn : n < 0x40)
    (hlow : low.toNat ≤ n + 0x80) (hhigh : n + 0x80 ≤ high.toNat) :
    step (.inside owed low high value) (UInt8.ofNat (n + 0x80)) =
      if owed = 1 then ([Char.ofNat (value * 64 + n)], .start)
      else ([], .inside (owed - 1) 0x80 0xBF (value * 64 + n)) := by
  have hbyte : (UInt8.ofNat (n + 0x80)).toNat = n + 0x80 :=
    UInt8.toNat_ofNat_of_lt (by show n + 0x80 < 256; omega)
  have hrange : low ≤ UInt8.ofNat (n + 0x80) ∧ UInt8.ofNat (n + 0x80) ≤ high := by
    rw [UInt8.le_iff_toNat_le, UInt8.le_iff_toNat_le, hbyte]
    exact ⟨hlow, hhigh⟩
  simp only [step, hrange, and_self, if_true, hbyte, Nat.add_sub_cancel]

/-- Where nothing but the range of the first byte is peculiar, a later byte lies in its range. -/
theorem step_tail {owed value n : Nat} (hn : n < 0x40) :
    step (.inside owed 0x80 0xBF value) (UInt8.ofNat (n + 0x80)) =
      if owed = 1 then ([Char.ofNat (value * 64 + n)], .start)
      else ([], .inside (owed - 1) 0x80 0xBF (value * 64 + n)) :=
  step_inside hn (by show 128 ≤ n + 128; omega) (by show n + 128 ≤ 191; omega)

/-! ## Runs of bytes -/

theorem feed_cons_of_silent {d d' : Decoder} {b : UInt8} (h : d.step b = ([], d'))
    (rest : List UInt8) : d.feed (b :: rest) = d'.feed rest := by
  simp only [feed, h, List.nil_append]

theorem feed_last {value n : Nat} (hn : n < 0x40) :
    (inside 1 0x80 0xBF value).feed [UInt8.ofNat (n + 0x80)] =
      ([Char.ofNat (value * 64 + n)], .start) := by
  simp only [feed, step_tail hn, if_true, List.append_nil]

theorem feed_one {a : Nat} (ha : a < 0x80) :
    start.feed [UInt8.ofNat a] = ([Char.ofNat a], start) := by
  simp only [feed, step_start_one ha, List.append_nil]

theorem feed_two {a b : Nat} (ha : a < 0x20) (ha' : 2 ≤ a) (hb : b < 0x40) :
    start.feed [UInt8.ofNat (a + 0xC0), UInt8.ofNat (b + 0x80)] =
      ([Char.ofNat (a * 64 + b)], start) := by
  rw [feed_cons_of_silent (step_start_two ha ha'), feed_last hb]

theorem feed_three {a b c : Nat} (ha : a < 0x10) (hb : b < 0x40) (hc : c < 0x40)
    (hleast : a = 0 → 0x20 ≤ b) (hsurrogate : a = 0xD → b < 0x20) :
    start.feed [UInt8.ofNat (a + 0xE0), UInt8.ofNat (b + 0x80), UInt8.ofNat (c + 0x80)] =
      ([Char.ofNat ((a * 64 + b) * 64 + c)], start) := by
  have hlow : (if a = 0 then 0xA0 else 0x80 : UInt8).toNat ≤ b + 0x80 := by
    split
    · next h => have := hleast h; show 160 ≤ b + 128; omega
    · show 128 ≤ b + 128; omega
  have hhigh : b + 0x80 ≤ (if a = 0xD then 0x9F else 0xBF : UInt8).toNat := by
    split
    · next h => have := hsurrogate h; show b + 128 ≤ 159; omega
    · show b + 128 ≤ 191; omega
  rw [feed_cons_of_silent (step_start_three ha), feed_cons_of_silent (step_inside hb hlow hhigh),
    feed_last hc]

theorem feed_four {a b c d : Nat} (ha : a < 5) (hb : b < 0x40) (hc : c < 0x40) (hd : d < 0x40)
    (hleast : a = 0 → 0x10 ≤ b) (hmost : a = 4 → b < 0x10) :
    start.feed [UInt8.ofNat (a + 0xF0), UInt8.ofNat (b + 0x80), UInt8.ofNat (c + 0x80),
        UInt8.ofNat (d + 0x80)] = ([Char.ofNat (((a * 64 + b) * 64 + c) * 64 + d)], start) := by
  have hlow : (if a = 0 then 0x90 else 0x80 : UInt8).toNat ≤ b + 0x80 := by
    split
    · next h => have := hleast h; show 144 ≤ b + 128; omega
    · show 128 ≤ b + 128; omega
  have hhigh : b + 0x80 ≤ (if a = 4 then 0x8F else 0xBF : UInt8).toNat := by
    split
    · next h => have := hmost h; show b + 128 ≤ 143; omega
    · show b + 128 ≤ 191; omega
  rw [feed_cons_of_silent (step_start_four ha), feed_cons_of_silent (step_inside hb hlow hhigh),
    feed_cons_of_silent (step_tail hc), feed_last hd]

/-- The bytes of a character give that character and leave the decoder between characters. -/
theorem feed_utf8EncodeChar (c : Char) :
    start.feed (String.utf8EncodeChar c) = ([c], start) := by
  have hvalid : c.toNat < 0xD800 ∨ 0xDFFF < c.toNat ∧ c.toNat < 0x110000 := c.valid
  have hc : ∀ n, n = c.toNat → Char.ofNat n = c := fun n h => h ▸ Char.ofNat_toNat c
  simp only [String.utf8EncodeChar, Char.toNat_val]
  split
  · rw [feed_one (by omega), hc _ rfl]
  split
  · rw [feed_two (by omega) (by omega) (by omega), hc _ (by omega)]
  split
  · rw [feed_three (by omega) (by omega) (by omega) (by omega) (by omega), hc _ (by omega)]
  · rw [feed_four (by omega) (by omega) (by omega) (by omega) (by omega) (by omega),
      hc _ (by omega)]

/-- **The bytes of a text give that text**, and no byte is held back behind them. -/
theorem feed_utf8 (text : String) : start.feed (utf8 text) = (text.toList, start) := by
  rw [utf8]
  induction text.toList with
  | nil => rfl
  | cons c cs ih =>
    rw [List.flatMap_cons, feed_append, feed_utf8EncodeChar]
    simp only [ih, List.singleton_append]

end Teletype.Text.Decoder
