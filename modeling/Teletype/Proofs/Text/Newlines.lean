import Mathlib
import Teletype.Proofs.Text.Decoding

/-!
# Newlines, byte by byte

A newline is one byte, and no other character's bytes hold that byte. So the newlines of a text can
be counted before it is decoded, in whatever pieces its bytes come: a decoder gives out a newline at
each newline byte and at no other (`count_newline_feed`), also while a character is unfinished. That
is an invariant of the decoder. A sequence of bytes is refused where it would spell a character in
more bytes than it takes, so what an unfinished character comes to lies behind the newline
(`PastNewline`).
-/

namespace Teletype.Text

def newlineByte : UInt8 := 0x0A

namespace Decoder

/-- An unfinished character comes to more than a newline, whichever bytes complete it. -/
def PastNewline : Decoder → Prop
  | .start => True
  | .inside _ low _ value =>
    0x80 ≤ low.toNat ∧ newlineByte.toNat < value * 64 + (low.toNat - 0x80)

instance : DecidablePred PastNewline
  | .start => inferInstanceAs (Decidable True)
  | .inside _ low _ value =>
    inferInstanceAs (Decidable (0x80 ≤ low.toNat ∧
      newlineByte.toNat < value * 64 + (low.toNat - 0x80)))

/-- A first byte gives out a newline if it is one, and begins nothing that can become one. -/
theorem lead_newline (b : UInt8) :
    (lead b).1.count '\n' = [b].count newlineByte ∧ (lead b).2.PastNewline := by
  obtain ⟨n, hn, rfl⟩ : ∃ n < 256, b = UInt8.ofNat n := ⟨b.toNat, b.toNat_lt, by simp⟩
  revert n
  decide +kernel

theorem ofNat_ne_newline {n : Nat} (h : newlineByte.toNat < n) : Char.ofNat n ≠ '\n' := by
  intro hn
  have hvalue : (Char.ofNat n).toNat = newlineByte.toNat := congrArg Char.toNat hn
  rw [Char.toNat_ofNat] at hvalue
  split at hvalue
  · omega
  · exact absurd hvalue (by decide)

/-- One byte gives out a newline if it is one. -/
theorem step_newline {d : Decoder} (h : d.PastNewline) (b : UInt8) :
    (d.step b).1.count '\n' = [b].count newlineByte ∧ (d.step b).2.PastNewline := by
  cases d with
  | start => exact lead_newline b
  | inside owed low high value =>
    obtain ⟨hlow, hpast⟩ := h
    rw [step]
    split
    case isTrue hrange =>
      -- A later byte is no newline, and the value it adds to grows.
      have hb : low.toNat ≤ b.toNat := UInt8.le_iff_toNat_le.1 hrange.1
      have hvalue : newlineByte.toNat < value * 64 + (b.toNat - 0x80) := by omega
      have hbyte : [b].count newlineByte = 0 := by
        refine List.count_eq_zero.2 fun hm => ?_
        obtain rfl := List.mem_singleton.1 hm
        exact absurd (Nat.le_trans hlow hb) (by decide)
      rw [hbyte]
      dsimp only
      split
      · refine ⟨List.count_eq_zero.2 fun hm => ?_, trivial⟩
        exact ofNat_ne_newline hvalue (List.mem_singleton.1 hm).symm
      · refine ⟨rfl, Nat.le_refl 0x80, ?_⟩
        show newlineByte.toNat < (value * 64 + (b.toNat - 0x80)) * 64 + 0
        omega
    case isFalse =>
      obtain ⟨hcount, hlead⟩ := lead_newline b
      refine ⟨?_, hlead⟩
      rw [List.count_cons_of_ne (by decide), hcount]

/-- **As many newlines come out as newline bytes went in**, wherever the bytes stop. -/
theorem count_newline_feed {d : Decoder} (h : d.PastNewline) (bytes : List UInt8) :
    (d.feed bytes).1.count '\n' = bytes.count newlineByte ∧ (d.feed bytes).2.PastNewline := by
  induction bytes generalizing d with
  | nil => exact ⟨rfl, h⟩
  | cons b rest ih =>
    obtain ⟨hcount, hpast⟩ := step_newline h b
    obtain ⟨hrest, hlast⟩ := ih hpast
    refine ⟨?_, hlast⟩
    rw [feed, List.count_append, hcount, hrest, ← List.count_append, List.singleton_append]

end Decoder

/-- A text has as many newlines as its bytes have newline bytes. -/
theorem count_newline_utf8 (text : String) :
    (utf8 text).count newlineByte = text.toList.count '\n' := by
  have hcount := (Decoder.count_newline_feed (d := .start) trivial (utf8 text)).1
  rw [Decoder.feed_utf8] at hcount
  exact hcount.symm

end Teletype.Text
