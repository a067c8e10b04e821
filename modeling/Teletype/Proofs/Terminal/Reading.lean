import Teletype.Proofs.Text.Decoding
import Teletype.Proofs.Text.Pieces
import Teletype.Terminal.Descriptor
import Teletype.Terminal.Steps

/-!
# Reading lines, however the bytes arrive

A source delivers certain bytes and then the end. `Owes` ties a reader and its source to the text
that the two have still to hand out: what is pending, and what the decoder makes of the bytes to
come. One call hands out the first piece of that text and owes the others, whatever was between:
cuts inside characters or line ends, reads that would block, or the end in either form.
-/

namespace Teletype

open Text

/-- The source delivers these bytes in pieces that are not empty, then the end; before any read
there may be reads that would block. What stands behind the end does not matter. -/
inductive Delivers : List Delivery → List UInt8 → Prop
  | exhausted : Delivers [] []
  | nothing {source : List Delivery} : Delivers (.bytes [] :: source) []
  | endFailure {f : Failure} {source : List Delivery} :
      f.code = some Device.endCode → Delivers (.failure f :: source) []
  | retry {f : Failure} {source : List Delivery} {bytes : List UInt8} :
      f.code = some Device.retryCode → Delivers source bytes → Delivers (.failure f :: source) bytes
  | chunk {chunk bytes : List UInt8} {source : List Delivery} :
      chunk ≠ [] → Delivers source bytes → Delivers (.bytes chunk :: source) (chunk ++ bytes)

/-- What is handed out of a piece: all of it, but for one carriage return at its end if such are
trimmed. -/
def LineOptions.handedOut (o : LineOptions) (piece : List Char) : List Char :=
  if o.trimCarriageReturn = true ∧ ['\r'] <:+ piece then piece.dropLast else piece

theorem LineOptions.clean_eq (o : LineOptions) (piece : List Char) :
    o.clean piece = String.ofList (o.handedOut piece) := by
  rw [clean, handedOut]
  simp only [Bool.and_eq_true, beq_iff_eq, List.singleton_suffix_iff_getLast?_eq_some]

/-- What a call gets for a piece, and what it gets when there is none left. -/
def LineOptions.answer (o : LineOptions) : Option (List Char) → Except Failure String
  | some piece => .ok (String.ofList (o.handedOut piece))
  | none =>
    match o.endOfInput with
    | .fail => .error .endOfInput
    | .empty => .ok ""

/-- The text that a reader and its source have still to hand out. -/
inductive Owes (source : List Delivery) (r : LineReader) : List Char → Prop
  | ended : r.ended = true → Owes source r r.pending
  | reading {bytes : List UInt8} {more : List Char} : r.ended = false → Delivers source bytes →
      r.decoder.feed bytes = (more, .start) → Owes source r (r.pending ++ more)

/-- A reader that was just opened on the bytes of a text owes that text. -/
theorem owes_of_delivers {source : List Delivery} {text : String}
    (h : Delivers source (utf8 text)) : Owes source {} text.toList := by
  have howes : Owes source {} ([] ++ text.toList) := .reading rfl h (Decoder.feed_utf8 text)
  exact howes

/-- A call handed out the first piece of the text, and what it left owes the others. -/
def HandsOut (o : LineOptions) (text : List Char)
    (result : Except Failure String × List Delivery × LineReader × Nat) : Prop :=
  result.1 = o.answer (pieces text).head? ∧
    ∃ rest, Owes result.2.1 result.2.2.1 rest ∧ pieces rest = (pieces text).tail

namespace LineReader

/-- What was cut off is a line without a newline, and the newline behind it is gone. -/
theorem eq_of_cutLine {cs line rest : List Char} (h : cutLine cs = some (line, rest)) :
    cs = line ++ '\n' :: rest ∧ '\n' ∉ line := by
  by_cases hm : '\n' ∈ cs
  · obtain ⟨line', rest', rfl, hline⟩ := List.eq_append_cons_of_mem hm
    rw [cutLine_append hline] at h
    cases h
    exact ⟨rfl, hline⟩
  · rw [cutLine_eq_none hm] at h
    cases h

theorem not_mem_of_cutLine {cs : List Char} (h : cutLine cs = none) : '\n' ∉ cs := by
  intro hm
  obtain ⟨line, rest, rfl, hline⟩ := List.eq_append_cons_of_mem hm
  rw [cutLine_append hline] at h
  cases h

/-- What is pending at the end is the last piece, if it is anything at all. -/
theorem lastLine_eq (o : LineOptions) {r : LineReader} (h : '\n' ∉ r.pending) :
    r.lastLine o = (o.answer (pieces r.pending).head?, { r with pending := [] }) ∧
      (pieces r.pending).tail = [] := by
  obtain ⟨decoder, pending, ended⟩ := r
  cases pending with
  | nil =>
    refine ⟨?_, rfl⟩
    rw [pieces_nil, List.head?_nil, lastLine, LineOptions.answer]
    cases o.endOfInput <;> rfl
  | cons c cs =>
    rw [pieces_of_not_mem h (List.cons_ne_nil c cs)]
    refine ⟨?_, rfl⟩
    rw [List.head?_cons, LineOptions.answer, ← o.clean_eq]
    rfl

end LineReader

namespace Device

open LineReader

variable {o : LineOptions} {source : List Delivery} {r : LineReader} {reads : Nat}

/-! ## One read at a time -/

theorem readFrom_of_line {line rest : List Char} (h : cutLine r.pending = some (line, rest)) :
    readFrom o source r reads =
      (.ok (o.clean line), source, { r with pending := rest }, reads) := by
  unfold readFrom
  rw [h]

theorem readFrom_of_ended (h : cutLine r.pending = none) (he : r.ended = true) :
    readFrom o source r reads = ((r.lastLine o).1, source, (r.lastLine o).2, reads) := by
  unfold readFrom
  simp only [h, he, if_true]

theorem readFrom_nil (h : cutLine r.pending = none) (he : r.ended = false) :
    readFrom o [] r reads = readFrom.finish o [] r (reads + 1) := by
  simp [readFrom, h, he]

theorem readFrom_nothing (h : cutLine r.pending = none) (he : r.ended = false) :
    readFrom o (.bytes [] :: source) r reads = readFrom.finish o source r (reads + 1) := by
  simp [readFrom, h, he]

theorem readFrom_chunk {chunk : List UInt8} (hne : chunk ≠ []) (h : cutLine r.pending = none)
    (he : r.ended = false) :
    readFrom o (.bytes chunk :: source) r reads =
      readFrom o source (r.feed chunk) (reads + 1) := by
  cases chunk with
  | nil => exact absurd rfl hne
  | cons b bs => simp [readFrom, h, he]

theorem readFrom_retry {f : Failure} (hf : f.code = some retryCode)
    (h : cutLine r.pending = none) (he : r.ended = false) :
    readFrom o (.failure f :: source) r reads = readFrom o source r (reads + 1) := by
  simp [readFrom, h, he, hf]

theorem readFrom_endFailure {f : Failure} (hf : f.code = some endCode)
    (h : cutLine r.pending = none) (he : r.ended = false) :
    readFrom o (.failure f :: source) r reads = readFrom.finish o source r (reads + 1) := by
  have hcodes : endCode ≠ retryCode := by decide
  simp [readFrom, h, he, hf, hcodes]

/-! ## One call -/

/-- A line taken from what is pending is taken from what is owed. -/
theorem owes_of_line {text line rest : List Char} (h : cutLine r.pending = some (line, rest))
    (howes : Owes source r text) :
    ∃ more, pieces text = line :: pieces more ∧ Owes source { r with pending := rest } more := by
  obtain ⟨hpending, hline⟩ := eq_of_cutLine h
  cases howes with
  | ended he =>
    refine ⟨rest, ?_, .ended he⟩
    rw [hpending, pieces_append_newline hline]
  | @reading bytes more he hsource hd =>
    refine ⟨rest ++ more, ?_, .reading he hsource hd⟩
    rw [hpending, List.append_assoc, List.cons_append, pieces_append_newline hline]

/-- Where a whole line is pending, it is the first piece of all that is owed; it remains to see to
the other readers. -/
theorem handsOut_of_no_line {text : List Char} (howes : Owes source r text)
    (hrest : cutLine r.pending = none → HandsOut o text (readFrom o source r reads)) :
    HandsOut o text (readFrom o source r reads) := by
  cases h : cutLine r.pending with
  | none => exact hrest h
  | some cut =>
    obtain ⟨line, rest⟩ := cut
    obtain ⟨more, hpieces, hmore⟩ := owes_of_line h howes
    rw [readFrom_of_line h]
    refine ⟨?_, more, hmore, ?_⟩
    · rw [hpieces, List.head?_cons, o.clean_eq]
      rfl
    · rw [hpieces, List.tail_cons]

/-- At the end the call hands out what is pending, if it is anything, and owes nothing. -/
theorem handsOut_of_lastLine (h : '\n' ∉ r.pending) (he : r.ended = true) :
    HandsOut o r.pending ((r.lastLine o).1, source, (r.lastLine o).2, reads) := by
  obtain ⟨hlast, htail⟩ := lastLine_eq o h
  rw [hlast]
  exact ⟨rfl, [], .ended he, by rw [htail, pieces_nil]⟩

/-- With no bytes to come the text that is owed is what is pending, and the end hands it out. -/
theorem handsOut_of_finish {more : List Char} (h : cutLine r.pending = none)
    (hd : r.decoder.feed [] = (more, .start)) :
    HandsOut o (r.pending ++ more) (readFrom.finish o source r reads) := by
  obtain ⟨hmore, hstart⟩ := Prod.mk.inj hd
  have hclose : r.close = { decoder := .start, pending := r.pending, ended := true } := by
    rw [LineReader.close, show r.decoder = .start from hstart, Decoder.flush, List.append_nil]
  rw [← hmore, List.append_nil, readFrom.finish, hclose]
  exact handsOut_of_lastLine (r := { decoder := .start, pending := r.pending, ended := true })
    (not_mem_of_cutLine h) rfl

/-- While bytes are to come, the call reads on until it has a line or the end. The induction is on
what is delivered: each read that brings bytes moves them into the reader and leaves the text that
is owed as it was. -/
theorem handsOut_of_delivers {bytes : List UInt8} (hsource : Delivers source bytes)
    {more : List Char} (he : r.ended = false) (hd : r.decoder.feed bytes = (more, .start)) :
    HandsOut o (r.pending ++ more) (readFrom o source r reads) := by
  induction hsource generalizing r more reads with
  | exhausted =>
    refine handsOut_of_no_line (.reading he .exhausted hd) fun h => ?_
    rw [readFrom_nil h he]
    exact handsOut_of_finish h hd
  | nothing =>
    refine handsOut_of_no_line (.reading he .nothing hd) fun h => ?_
    rw [readFrom_nothing h he]
    exact handsOut_of_finish h hd
  | endFailure hf =>
    refine handsOut_of_no_line (.reading he (.endFailure hf) hd) fun h => ?_
    rw [readFrom_endFailure hf h he]
    exact handsOut_of_finish h hd
  | retry hf hsource ih =>
    refine handsOut_of_no_line (.reading he (.retry hf hsource) hd) fun h => ?_
    rw [readFrom_retry hf h he]
    exact ih he hd
  | @chunk chunk bytes source hne hsource ih =>
    refine handsOut_of_no_line (.reading he (.chunk hne hsource) hd) fun h => ?_
    rw [Decoder.feed_append] at hd
    obtain ⟨hmore, hstart⟩ := Prod.mk.inj hd
    rw [readFrom_chunk hne h he, ← hmore, ← List.append_assoc]
    exact ih (r := r.feed chunk) he (Prod.ext rfl hstart)

/-- **One call hands out the first piece of what is owed**, and then the other pieces are owed. -/
theorem readFrom_handsOut {text : List Char} (h : Owes source r text) :
    HandsOut o text (readFrom o source r reads) := by
  cases h with
  | ended he =>
    refine handsOut_of_no_line (.ended he) fun h => ?_
    rw [readFrom_of_ended h he]
    exact handsOut_of_lastLine (not_mem_of_cutLine h) he
  | reading he hsource hd => exact handsOut_of_delivers hsource he hd

variable {V : Type}

/-- A call answers what its reading gave, and writes nothing. -/
theorem outcomeOf_readLine_of_eq {answer : Except Failure String} {left : List Delivery}
    {r' : LineReader} {reads' : Nat} (h : readFrom o source r reads = (answer, left, r', reads'))
    (written : Array String) :
    outcomeOf (readLine (V := V) o) ⟨source, reads, written, r⟩ =
      (answer.mapError .failure, ⟨left, reads', written, r'⟩) := by
  simp only [outcomeOf, readLine, h]
  cases answer <;> rfl

/-- A call on the device hands out the first piece of what is owed, leaves the others owed, and
writes nothing. -/
theorem outcomeOf_readLine {d : Device} {text : List Char} (h : Owes d.source d.reader text) :
    ∃ d' rest, outcomeOf (readLine (V := V) o) d =
        ((o.answer (pieces text).head?).mapError .failure, d') ∧
      Owes d'.source d'.reader rest ∧ pieces rest = (pieces text).tail ∧
      d'.written = d.written := by
  obtain ⟨source, reads, written, r⟩ := d
  have hfirst : HandsOut o text (readFrom o source r reads) := readFrom_handsOut h
  cases hcall : readFrom o source r reads with
  | mk answer left =>
    obtain ⟨source', r', reads'⟩ := left
    rw [hcall] at hfirst
    obtain ⟨hanswer, rest, howes, hrest⟩ := hfirst
    refine ⟨⟨source', reads', written, r'⟩, rest, ?_, howes, hrest, rfl⟩
    rw [← hanswer]
    exact outcomeOf_readLine_of_eq hcall written

/-! ## Any number of calls -/

/-- Calls in a row get the pieces that are owed, one each, and after them what the options say. -/
theorem outcomes_of_owes (n : Nat) {d : Device} {text : List Char}
    (h : Owes d.source d.reader text) :
    (inTurn outcomeOf (List.replicate n (readLine (V := V) o)) d).1 =
      (List.range n).map fun i => (o.answer (pieces text)[i]?).mapError .failure := by
  induction n generalizing d text with
  | zero => rfl
  | succ n ih =>
    obtain ⟨d', rest, hcall, howes, hrest, -⟩ := outcomeOf_readLine (V := V) (o := o) h
    have hothers := ih howes
    rw [List.replicate_succ, List.range_succ_eq_map, List.map_cons, List.map_map]
    simp only [inTurn, hcall, hothers, hrest, List.head?_eq_getElem?, List.getElem?_tail]
    rfl

/-- **The lines that are read do not depend on how their bytes arrive.** Whatever pieces the bytes
of a text come in, of any size, with whatever reads that would block between them, and in whichever
way the source ends: call number `i` on a newly opened reader gets piece number `i` of the text, and
a call for which there is no piece gets what the options say of the end. -/
theorem lines_of_delivery (o : LineOptions) (text : String) {source : List Delivery}
    (h : Delivers source (utf8 text)) (reads : Nat) (written : Array String) (n : Nat) :
    (inTurn outcomeOf (List.replicate n (readLine (V := V) o)) { source, reads, written }).1 =
      (List.range n).map fun i => (o.answer (pieces text.toList)[i]?).mapError .failure :=
  outcomes_of_owes n (owes_of_delivers h)

/-- Two lines, cut inside a character and inside a line end, with the end reported as a failure. -/
theorem lines_of_delivery_cut :
    let source : List Delivery :=
      [.failure { kind := .plain, message := "busy", code := some "EAGAIN" },
        .bytes [0xC3], .bytes [0xA9, 0x0D], .bytes [0x0A, 0x62],
        .failure { kind := .plain, message := "end", code := some "EOF" }]
    Delivers source (utf8 "é\r\nb") ∧
      (inTurn outcomeOf (List.replicate 3 (readLine (V := Empty) {})) { source }).1 =
        [.ok "é", .ok "b", .error (.failure .endOfInput)] := by
  intro source
  have hbytes : utf8 "é\r\nb" = [0xC3] ++ ([0xA9, 0x0D] ++ ([0x0A, 0x62] ++ [])) := by decide
  have hsource : Delivers source (utf8 "é\r\nb") := by
    rw [hbytes]
    refine .retry rfl (.chunk (by decide) (.chunk (by decide) (.chunk (by decide) ?_)))
    exact .endFailure rfl
  refine ⟨hsource, ?_⟩
  rw [lines_of_delivery {} "é\r\nb" hsource 0 #[] 3]
  rfl

end Device

end Teletype
