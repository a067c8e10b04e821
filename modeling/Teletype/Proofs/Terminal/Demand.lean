import Mathlib.Order.Bounds.Basic
import Teletype.Proofs.Terminal.Interruption
import Teletype.Proofs.Text.Newlines

/-!
# Reading on demand

A read waits until there is something to read. Where a person types the input, one read too many
keeps the program waiting for a line that it does not need. So a call for a line takes the shortest
front part of the source that has the line's newline, and nothing if that newline is there already.
Two counts carry the argument from call to call: what was taken has as many newlines as lines were
handed out and are pending, and any shorter part has fewer than were handed out (`Drawn`). At the
end a reader stands either in front of the read that reports it or behind that read, and behind it
it stays (`Stands`).
-/

namespace Teletype

open Text

namespace Delivery

/-- The bytes that a read brought, if it brought any. -/
def chunk? : Delivery → Option (List UInt8)
  | .bytes (b :: rest) => some (b :: rest)
  | _ => none

/-- The chunks among the deliveries, none of them empty. -/
def chunks (source : List Delivery) : List (List UInt8) := source.filterMap chunk?

/-- How many newlines the deliveries bring. -/
def newlines (source : List Delivery) : Nat := (chunks source).flatten.count newlineByte

/-- Whether a read reports the end of the input. -/
def isEnd : Delivery → Bool
  | .bytes chunk => chunk.isEmpty
  | .failure f => f.code = some Device.endCode

/-- The number of the read that reports the end, counted from one. A read behind the last delivery
reports it as well. -/
def readsToEnd (source : List Delivery) : Nat := source.findIdx isEnd + 1

variable {delivery : Delivery} {taken left source : List Delivery}

theorem chunks_append (taken left : List Delivery) :
    chunks (taken ++ left) = chunks taken ++ chunks left := List.filterMap_append

theorem newlines_append (taken left : List Delivery) :
    newlines (taken ++ left) = newlines taken + newlines left := by
  rw [newlines, chunks_append, List.flatten_append, List.count_append]
  rfl

theorem newlines_chunk (chunk : List UInt8) :
    newlines [.bytes chunk] = chunk.count newlineByte := by
  cases chunk with
  | nil => rfl
  | cons b rest =>
    show ([b :: rest] : List (List UInt8)).flatten.count newlineByte = _
    rw [List.flatten_singleton]

theorem readsToEnd_nil : readsToEnd [] = 1 := rfl

theorem readsToEnd_of_isEnd (h : delivery.isEnd = true) (source : List Delivery) :
    readsToEnd (delivery :: source) = 1 := by
  rw [readsToEnd, List.findIdx_cons, h]
  rfl

/-- Deliveries that do not report the end take one read each. -/
theorem readsToEnd_append (h : ∀ d ∈ taken, d.isEnd = false) (left : List Delivery) :
    readsToEnd (taken ++ left) = taken.length + readsToEnd left := by
  have hnone : taken.findIdx isEnd = taken.length := List.findIdx_eq_length_of_false h
  rw [readsToEnd, readsToEnd, List.findIdx_append, hnone, if_neg (Nat.lt_irrefl _)]
  omega

/-- What is needed of the deliveries is needed of their chunks: the chunks of the shortest front
part with so many newlines are the fewest with so many. -/
theorem isLeast_chunks {n : Nat} (hsource : source = taken ++ left)
    (h : IsLeast {k | n ≤ newlines (source.take k)} taken.length) :
    IsLeast {k | n ≤ ((chunks source).take k).flatten.count newlineByte}
      (chunks taken).length := by
  subst hsource
  obtain ⟨henough, hleast⟩ := h
  constructor
  · rw [Set.mem_ofPred_eq, chunks_append, List.take_left]
    rwa [Set.mem_ofPred_eq, List.take_left] at henough
  · intro k hk
    by_contra hshort
    have hlt : k < (chunks taken).length := Nat.lt_of_not_le hshort
    -- The first `k` chunks are those of a front part of what was taken, which is then all of it.
    have hcut : taken.filterMap chunk? = (chunks taken).take k ++ (chunks taken).drop k :=
      (List.take_append_drop k (chunks taken)).symm
    obtain ⟨front, back, htaken, hfront, hback⟩ := List.filterMap_eq_append_iff.1 hcut
    have hfirst : (chunks (taken ++ left)).take k = chunks front := by
      rw [chunks_append, List.take_append_of_le_length (Nat.le_of_lt hlt)]
      exact hfront.symm
    have hnewlines : n ≤ newlines ((taken ++ left).take front.length) := by
      rw [htaken, List.append_assoc, List.take_left, newlines, ← hfirst]
      exact hk
    have hlength : taken.length ≤ front.length := hleast hnewlines
    have hnil : back = [] := by
      rw [htaken, List.length_append] at hlength
      exact List.length_eq_zero_iff.1 (by omega)
    rw [hnil, List.filterMap_nil] at hback
    have hdropped := congrArg List.length hback
    rw [List.length_drop, List.length_nil] at hdropped
    omega

end Delivery

open Delivery

namespace Device

open LineReader

variable {o : LineOptions} {source taken left : List Delivery} {r r' : LineReader}
  {reads reads' n : Nat} {bytes : List UInt8} {d : Device}

/-! ## One call, while lines are to come -/

/-- A call took these deliveries: with what was pending they have one newline more than is pending
now, and nothing shorter has any. What is left delivers the other newlines. -/
structure TakesLine (source : List Delivery) (r : LineReader) (reads : Nat) (bytes : List UInt8)
    (result : Except Failure String × List Delivery × LineReader × Nat)
    (taken : List Delivery) : Prop where
  source_eq : source = taken ++ result.2.1
  reads_eq : result.2.2.2 = reads + taken.length
  delivers : ∃ rest, Delivers result.2.1 rest ∧
    bytes.count newlineByte = newlines taken + rest.count newlineByte
  ended_eq : result.2.2.1.ended = false
  pastNewline : result.2.2.1.decoder.PastNewline
  count_eq : r.pending.count '\n' + newlines taken = result.2.2.1.pending.count '\n' + 1
  least : ∀ k < taken.length, r.pending.count '\n' + newlines (taken.take k) = 0

/-- A call that finds a line takes nothing. -/
theorem takesLine_of_line {line rest : List Char} (h : cutLine r.pending = some (line, rest))
    (hsource : Delivers source bytes) (he : r.ended = false) (hd : r.decoder.PastNewline) :
    TakesLine source r reads bytes (readFrom o source r reads) [] := by
  obtain ⟨hpending, hline⟩ := eq_of_cutLine h
  have hnone : line.count '\n' = 0 := List.count_eq_zero.2 hline
  rw [readFrom_of_line h]
  refine ⟨rfl, rfl, ⟨bytes, hsource, (Nat.zero_add _).symm⟩, he, hd, ?_, nofun⟩
  show r.pending.count '\n' + 0 = rest.count '\n' + 1
  rw [hpending, List.count_append, List.count_cons_self]
  omega

/-- A call that has no line yet and takes a delivery goes on as a call from there. -/
theorem TakesLine.cons {delivery : Delivery} {more : List UInt8}
    {result : Except Failure String × List Delivery × LineReader × Nat}
    (h : TakesLine source r' (reads + 1) bytes result taken) (hnone : r.pending.count '\n' = 0)
    (hpending : r'.pending.count '\n' = newlines [delivery])
    (hmore : more.count newlineByte = newlines [delivery] + bytes.count newlineByte) :
    TakesLine (delivery :: source) r reads more result (delivery :: taken) := by
  have hcons : ∀ ds, newlines (delivery :: ds) = newlines [delivery] + newlines ds :=
    newlines_append [delivery]
  refine ⟨congrArg (delivery :: ·) h.source_eq, ?_, ?_, h.ended_eq, h.pastNewline, ?_, ?_⟩
  · rw [h.reads_eq, List.length_cons]
    omega
  · obtain ⟨rest, hrest, hcount⟩ := h.delivers
    refine ⟨rest, hrest, ?_⟩
    rw [hmore, hcons taken, hcount, Nat.add_assoc]
  · have hcount := h.count_eq
    rw [hcons]
    omega
  · intro k hk
    cases k with
    | zero => exact hnone
    | succ k =>
      have hleast := h.least k (Nat.lt_of_succ_lt_succ hk)
      rw [List.take_succ_cons, hcons]
      omega

/-- It remains to see to the calls that have no line yet. -/
theorem exists_takesLine_of_waiting (hsource : Delivers source bytes) (he : r.ended = false)
    (hd : r.decoder.PastNewline)
    (hwaiting : cutLine r.pending = none → r.pending.count '\n' = 0 →
      ∃ taken, TakesLine source r reads bytes (readFrom o source r reads) taken) :
    ∃ taken, TakesLine source r reads bytes (readFrom o source r reads) taken := by
  cases h : cutLine r.pending with
  | some cut => exact ⟨[], takesLine_of_line h hsource he hd⟩
  | none => exact hwaiting h (List.count_eq_zero.2 (not_mem_of_cutLine h))

/-- **A call takes no more than its line needs.** The induction is on what is delivered. A newline
is pending or among the bytes to come, so the call does not get as far as the end. -/
theorem exists_takesLine (o : LineOptions) (reads : Nat) (hsource : Delivers source bytes)
    (he : r.ended = false) (hd : r.decoder.PastNewline)
    (hline : 0 < r.pending.count '\n' + bytes.count newlineByte) :
    ∃ taken, TakesLine source r reads bytes (readFrom o source r reads) taken := by
  induction hsource generalizing r reads with
  | @chunk chunk bytes source hne hsource ih =>
    refine exists_takesLine_of_waiting (.chunk hne hsource) he hd fun h hnone => ?_
    obtain ⟨hchars, hpast⟩ := Decoder.count_newline_feed hd chunk
    have hpending : (r.feed chunk).pending.count '\n' = newlines [.bytes chunk] := by
      rw [newlines_chunk, ← hchars]
      show (r.pending ++ (r.decoder.feed chunk).1).count '\n' = _
      rw [List.count_append, hnone, Nat.zero_add]
    have hbytes : (chunk ++ bytes).count newlineByte =
        newlines [.bytes chunk] + bytes.count newlineByte := by
      rw [newlines_chunk, List.count_append]
    obtain ⟨taken, htaken⟩ := ih (r := r.feed chunk) (reads + 1) he hpast (by omega)
    rw [readFrom_chunk hne h he]
    exact ⟨.bytes chunk :: taken, htaken.cons hnone hpending hbytes⟩
  | @retry f source bytes hf hsource ih =>
    refine exists_takesLine_of_waiting (.retry hf hsource) he hd fun h hnone => ?_
    obtain ⟨taken, htaken⟩ := ih (reads + 1) he hd hline
    rw [readFrom_retry hf h he]
    exact ⟨.failure f :: taken, htaken.cons hnone hnone (Nat.zero_add _).symm⟩
  | exhausted =>
    refine exists_takesLine_of_waiting .exhausted he hd fun _ hnone => ?_
    exact absurd hline (by rw [hnone]; decide)
  | nothing =>
    refine exists_takesLine_of_waiting .nothing he hd fun _ hnone => ?_
    exact absurd hline (by rw [hnone]; decide)
  | endFailure hf =>
    refine exists_takesLine_of_waiting (.endFailure hf) he hd fun _ hnone => ?_
    exact absurd hline (by rw [hnone]; decide)

/-! ## Any number of calls -/

/-- Calls in a row handed out `n` lines and took these deliveries, the shortest front part of the
source with `n` newlines. What they have beyond that is pending. -/
structure Drawn (source : List Delivery) (reads : Nat) (bytes : List UInt8) (n : Nat) (d : Device)
    (taken : List Delivery) : Prop where
  source_eq : source = taken ++ d.source
  reads_eq : d.reads = reads + taken.length
  delivers : ∃ rest, Delivers d.source rest ∧
    bytes.count newlineByte = newlines taken + rest.count newlineByte
  ended_eq : d.reader.ended = false
  pastNewline : d.reader.decoder.PastNewline
  count_eq : newlines taken = n + d.reader.pending.count '\n'
  least : ∀ k < taken.length, newlines (taken.take k) < n

theorem drawn_start (hsource : Delivers source bytes) (reads : Nat) (written : Array String) :
    Drawn source reads bytes 0 { source, reads, written } [] :=
  ⟨rfl, rfl, ⟨bytes, hsource, (Nat.zero_add _).symm⟩, rfl, trivial, rfl, nofun⟩

theorem Drawn.isLeast (h : Drawn source reads bytes n d taken) :
    IsLeast {k | n ≤ newlines (source.take k)} taken.length := by
  constructor
  · have hcount := h.count_eq
    rw [Set.mem_ofPred_eq, h.source_eq, List.take_left]
    omega
  · intro k hk
    by_contra hshort
    have hlt : k < taken.length := Nat.lt_of_not_le hshort
    have hfew := h.least k hlt
    rw [Set.mem_ofPred_eq, h.source_eq, List.take_append_of_le_length (Nat.le_of_lt hlt)] at hk
    omega

variable {V : Type}

/-- One more call keeps it so, as long as there is one more newline. -/
theorem Drawn.next (h : Drawn source reads bytes n d taken) (hline : n < bytes.count newlineByte) :
    ∃ taken', Drawn source reads bytes (n + 1) (outcomeOf (readLine (V := V) o) d).2 taken' := by
  obtain ⟨left, reads', written, r⟩ := d
  obtain ⟨hsource, hreads, ⟨rest, hrest, hbytes⟩, he, hd, hcount, hleast⟩ := h
  dsimp only at hsource hreads hrest he hd hcount
  obtain ⟨more, hmore⟩ := exists_takesLine o reads' hrest he hd (by omega)
  cases hcall : readFrom o left r reads' with
  | mk answer result =>
    obtain ⟨left', r', reads''⟩ := result
    rw [hcall] at hmore
    obtain ⟨hsource', hreads', ⟨rest', hrest', hbytes'⟩, he', hd', hcount', hleast'⟩ := hmore
    dsimp only at hsource' hreads' hrest' he' hd' hcount'
    rw [outcomeOf_readLine_of_eq hcall]
    refine ⟨taken ++ more, ?_, ?_, ⟨rest', hrest', ?_⟩, he', hd', ?_, ?_⟩
    · rw [hsource, hsource', List.append_assoc]
    · rw [List.length_append]
      show reads'' = _
      omega
    · rw [newlines_append]
      omega
    · rw [newlines_append]
      show _ = n + 1 + r'.pending.count '\n'
      omega
    · intro k hk
      rw [List.length_append] at hk
      by_cases hold : k < taken.length
      · rw [List.take_append_of_le_length (Nat.le_of_lt hold)]
        have := hleast k hold
        omega
      · -- The call took something, so nothing was pending before it.
        have hfirst := hleast' (k - taken.length) (by omega)
        have hnone := hleast' 0 (by omega)
        rw [List.take_append, List.take_of_length_le (Nat.le_of_not_lt hold), newlines_append]
        omega

/-- Any number of calls keep it so, as long as there are newlines for them. -/
theorem Drawn.calls (m : Nat) (h : Drawn source reads bytes n d taken)
    (hlines : n + m ≤ bytes.count newlineByte) :
    ∃ taken', Drawn source reads bytes (n + m)
      (inTurn outcomeOf (List.replicate m (readLine (V := V) o)) d).2 taken' := by
  induction m generalizing n d taken with
  | zero => exact ⟨taken, h⟩
  | succ m ih =>
    obtain ⟨taken', hnext⟩ := h.next (V := V) (o := o) (by omega)
    obtain ⟨taken'', hlast⟩ := ih hnext (by omega)
    refine ⟨taken'', ?_⟩
    rw [Nat.add_right_comm, Nat.add_assoc] at hlast
    exact hlast

/-! ## Behind the end -/

/-- Where a reader stands in its source: in front of the read that reports the end, with one read
made for each delivery that was taken, or behind that read. -/
inductive Stands (source : List Delivery) (reads : Nat) :
    List Delivery → LineReader → Nat → Prop
  | before {taken left : List Delivery} {r : LineReader} : source = taken ++ left →
      (∀ d ∈ taken, d.isEnd = false) → r.ended = false →
      Stands source reads left r (reads + taken.length)
  | behind {left : List Delivery} {r : LineReader} : r.ended = true →
      Stands source reads left r (reads + readsToEnd source)

theorem stands_start (source : List Delivery) (reads : Nat) : Stands source reads source {} reads :=
  .before (List.nil_append source).symm nofun rfl

theorem ended_lastLine (o : LineOptions) (r : LineReader) : (r.lastLine o).2.ended = r.ended := by
  rw [lastLine]
  split
  · cases o.endOfInput <;> rfl
  · rfl

/-- Behind the end a call reads nothing. -/
theorem readFrom_ended (o : LineOptions) (source : List Delivery) (reads : Nat)
    (he : r.ended = true) :
    ∃ answer r', readFrom o source r reads = (answer, source, r', reads) ∧ r'.ended = true := by
  cases h : cutLine r.pending with
  | some cut => exact ⟨_, _, readFrom_of_line h, he⟩
  | none => exact ⟨_, _, readFrom_of_ended h he, (ended_lastLine o r).trans he⟩

/-- The read that reports the end takes the reader behind it. -/
theorem stands_finish (hsource : source = taken ++ left) (hnone : ∀ d ∈ taken, d.isEnd = false)
    (hend : readsToEnd left = 1) (rest : List Delivery) (r : LineReader) :
    Stands source reads (readFrom.finish o rest r (reads + taken.length + 1)).2.1
      (readFrom.finish o rest r (reads + taken.length + 1)).2.2.1
      (readFrom.finish o rest r (reads + taken.length + 1)).2.2.2 := by
  have hreads : readsToEnd source = taken.length + 1 := by
    rw [hsource, readsToEnd_append hnone, hend]
  rw [readFrom.finish, Nat.add_assoc, ← hreads]
  exact .behind (ended_lastLine o r.close)

/-- A call that stands in front of the end stays there or goes just behind it. The induction is on
what is left of the source, with one case for each kind of delivery. -/
theorem stands_of_before (o : LineOptions) (reads : Nat) (hsource : source = taken ++ left)
    (hnone : ∀ d ∈ taken, d.isEnd = false) (he : r.ended = false) :
    Stands source reads (readFrom o left r (reads + taken.length)).2.1
      (readFrom o left r (reads + taken.length)).2.2.1
      (readFrom o left r (reads + taken.length)).2.2.2 := by
  induction left generalizing taken r with
  | nil =>
    cases h : cutLine r.pending with
    | some cut =>
      rw [readFrom_of_line h]
      exact .before hsource hnone he
    | none =>
      rw [readFrom_nil h he]
      exact stands_finish hsource hnone readsToEnd_nil [] r
  | cons delivery left ih =>
    -- A delivery that is not the end is taken with one read.
    have htaken : source = (taken ++ [delivery]) ++ left := by
      rw [hsource, List.append_assoc, List.singleton_append]
    have hlength : reads + taken.length + 1 = reads + (taken ++ [delivery]).length := by
      rw [List.length_append, List.length_singleton, Nat.add_assoc]
    have hothers : delivery.isEnd = false → ∀ d ∈ taken ++ [delivery], d.isEnd = false := by
      intro hd
      exact List.forall_mem_append.2 ⟨hnone, List.forall_mem_singleton.2 hd⟩
    cases h : cutLine r.pending with
    | some cut =>
      rw [readFrom_of_line h]
      exact .before hsource hnone he
    | none =>
      cases delivery with
      | bytes chunk =>
        cases chunk with
        | nil =>
          rw [readFrom_nothing h he]
          exact stands_finish hsource hnone (readsToEnd_of_isEnd rfl left) left r
        | cons b rest =>
          rw [readFrom_chunk (List.cons_ne_nil b rest) h he, hlength]
          exact ih htaken (hothers rfl) he
      | failure f =>
        by_cases hend : f.code = some endCode
        · have hisEnd : isEnd (.failure f) = true := decide_eq_true hend
          rw [readFrom_endFailure hend h he]
          exact stands_finish hsource hnone (readsToEnd_of_isEnd hisEnd left) left r
        · have hisEnd : isEnd (.failure f) = false := decide_eq_false hend
          by_cases hretry : f.code = some retryCode
          · rw [readFrom_retry hretry h he, hlength]
            exact ih htaken (hothers hisEnd) he
          · rw [readFrom_fault hretry hend h he, hlength]
            exact .before htaken (hothers hisEnd) he

theorem Stands.reads_le (h : Stands source reads left r reads') :
    reads' ≤ reads + readsToEnd source := by
  cases h with
  | before hsource hnone he =>
    rw [hsource, readsToEnd_append hnone]
    omega
  | behind he => exact Nat.le_refl _

/-- Whoever made the read that reports the end is behind it. -/
theorem Stands.ended_of_reads (h : Stands source reads left r (reads + readsToEnd source)) :
    r.ended = true := by
  generalize hreads : reads + readsToEnd source = reads' at h
  cases h with
  | before hsource hnone he =>
    have hpositive : 0 < readsToEnd left := Nat.succ_pos _
    rw [hsource, readsToEnd_append hnone] at hreads
    omega
  | behind he => exact he

theorem Stands.next (h : Stands source reads d.source d.reader d.reads) :
    Stands source reads (outcomeOf (readLine (V := V) o) d).2.source
      (outcomeOf (readLine (V := V) o) d).2.reader (outcomeOf (readLine (V := V) o) d).2.reads := by
  obtain ⟨left, reads', written, r⟩ := d
  dsimp only at h
  cases h with
  | before hsource hnone he =>
    have hstands := stands_of_before o reads hsource hnone he
    rw [outcomeOf_readLine_of_eq rfl]
    exact hstands
  | behind he =>
    obtain ⟨answer, r', hcall, he'⟩ := readFrom_ended o left (reads + readsToEnd source) he
    rw [outcomeOf_readLine_of_eq hcall]
    exact .behind he'

theorem Stands.calls (n : Nat) (h : Stands source reads d.source d.reader d.reads) :
    Stands source reads (inTurn outcomeOf (List.replicate n (readLine (V := V) o)) d).2.source
      (inTurn outcomeOf (List.replicate n (readLine (V := V) o)) d).2.reader
      (inTurn outcomeOf (List.replicate n (readLine (V := V) o)) d).2.reads := by
  induction n generalizing d with
  | zero => exact h
  | succ n ih => exact ih h.next

/-- Behind the end no number of calls reads anything. -/
theorem calls_of_ended (n : Nat) (he : d.reader.ended = true) :
    (inTurn outcomeOf (List.replicate n (readLine (V := V) o)) d).2.source = d.source ∧
      (inTurn outcomeOf (List.replicate n (readLine (V := V) o)) d).2.reads = d.reads := by
  induction n generalizing d with
  | zero => exact ⟨rfl, rfl⟩
  | succ n ih =>
    obtain ⟨left, reads', written, r⟩ := d
    obtain ⟨answer, r', hcall, he'⟩ := readFrom_ended o left reads' he
    have hrest := ih (d := ⟨left, reads', written, r'⟩) he'
    simp only [List.replicate_succ, inTurn, outcomeOf_readLine_of_eq hcall]
    exact hrest

/-- More calls are calls from where the others stopped. -/
theorem inTurn_replicate_add {α β ω : Type} (step : α → ω → β × ω) (a : α) (n m : Nat) (w : ω) :
    (inTurn step (List.replicate (n + m) a) w).2 =
      (inTurn step (List.replicate m a) (inTurn step (List.replicate n a) w).2).2 := by
  induction n generalizing w with
  | zero => rw [Nat.zero_add]; rfl
  | succ n ih =>
    rw [Nat.add_right_comm, List.replicate_succ, List.replicate_succ]
    exact ih (step a w).2

/-- **Reading on demand.** However the bytes of a text arrive, the calls on a newly opened reader
that return lines ended by a newline have taken, for `n` such lines, the shortest front part of the
source with `n` newlines, with one read for each delivery: no read where the newline was there
already, and of the chunks the fewest that hold `n` newlines. And whatever a source delivers, no
read is made behind the one that reports the end: once that was made, no number of calls reads
again. -/
theorem reads_on_demand (o : LineOptions) (source : List Delivery) (reads : Nat)
    (written : Array String) :
    let after (n : Nat) :=
      inTurn outcomeOf (List.replicate n (readLine (V := V) o)) { source, reads, written }
    (∀ text, Delivers source (utf8 text) → ∀ n ≤ text.toList.count '\n',
      ∃ (lines : List (List Char)) (rest : List Char) (taken : List Delivery),
        text.toList = lines.flatMap (· ++ ['\n']) ++ rest ∧ lines.length = n ∧
          (∀ line ∈ lines, '\n' ∉ line) ∧
          (after n).1 = lines.map (fun line => .ok (String.ofList (o.handedOut line))) ∧
          source = taken ++ (after n).2.source ∧ (after n).2.reads = reads + taken.length ∧
          IsLeast {k | n ≤ newlines (source.take k)} taken.length ∧
          IsLeast {k | n ≤ ((chunks source).take k).flatten.count newlineByte}
            (chunks taken).length) ∧
      (∀ n, (after n).2.reads ≤ reads + readsToEnd source) ∧
      ∀ n, (after n).2.reads = reads + readsToEnd source → ∀ m,
        (after (n + m)).2.reads = (after n).2.reads ∧
          (after (n + m)).2.source = (after n).2.source := by
  intro after
  have hstands : ∀ n, Stands source reads (after n).2.source (after n).2.reader
      (after n).2.reads := fun n =>
    (stands_start source reads).calls n
  refine ⟨fun text hsource n hn => ?_, fun n => (hstands n).reads_le, fun n hreads m => ?_⟩
  · obtain ⟨lines, rest, hlength, hlines, htext, hpieces⟩ := exists_lines_of_le_count hn
    have hbytes : 0 + n ≤ (utf8 text).count newlineByte := by
      rw [count_newline_utf8, Nat.zero_add]
      exact hn
    obtain ⟨taken, hdrawn⟩ := (drawn_start hsource reads written).calls (V := V) (o := o) n hbytes
    rw [Nat.zero_add] at hdrawn
    have hanswers : (after n).1 = lines.map fun line =>
        .ok (String.ofList (o.handedOut line)) := by
      refine (outcomes_of_owes n (owes_of_delivers hsource)).trans
        (List.ext_getElem (by simp [hlength]) ?_)
      intro i hi _
      have hi' : i < lines.length := by simpa [hlength] using hi
      simp [hpieces, List.getElem?_append_left hi', hi', LineOptions.answer, Except.mapError]
    exact ⟨lines, rest, taken, htext, hlength, hlines, hanswers, hdrawn.source_eq,
      hdrawn.reads_eq, hdrawn.isLeast, isLeast_chunks hdrawn.source_eq hdrawn.isLeast⟩
  · have hended : (after n).2.reader.ended = true :=
      Stands.ended_of_reads (hreads ▸ hstands n)
    have hmore : (after (n + m)).2 = _ := inTurn_replicate_add outcomeOf _ n m _
    obtain ⟨hsource, hsame⟩ := calls_of_ended (V := V) (o := o) m hended
    rw [hmore]
    exact ⟨hsame, hsource⟩

/-- Two lines come with the second chunk, which begins inside a character. The first call takes it,
the second reads nothing, and the third meets the end: what stands behind it stays there. -/
theorem reads_on_demand_buffered :
    let source : List Delivery :=
      [.failure { kind := .plain, message := "busy", code := some "EAGAIN" },
        .bytes [0xC3], .bytes [0xA9, 0x0A, 0x62, 0x0A, 0x63],
        .failure { kind := .plain, message := "end", code := some "EOF" }, .bytes [0x64]]
    let after (n : Nat) :=
      inTurn outcomeOf (List.replicate n (readLine (V := Empty) {})) { source }
    Delivers source (utf8 "é\nb\nc") ∧
      (after 1).2.reads = 3 ∧ (after 2).2.reads = 3 ∧
      (after 2).1 = [.ok "é", .ok "b"] ∧
      IsLeast {k | 2 ≤ ((chunks source).take k).flatten.count newlineByte} 2 ∧
      (after 3).2.reads = 4 ∧ ∀ m, (after (3 + m)).2.reads = 4 := by
  intro source after
  have hbytes : utf8 "é\nb\nc" = [0xC3] ++ ([0xA9, 0x0A, 0x62, 0x0A, 0x63] ++ []) := by decide
  have hsource : Delivers source (utf8 "é\nb\nc") := by
    rw [hbytes]
    exact .retry rfl (.chunk (by decide) (.chunk (by decide) (.endFailure rfl)))
  obtain ⟨hlines, -, hend⟩ := reads_on_demand (V := Empty) {} source 0 #[]
  obtain ⟨lines, rest, taken, -, -, -, -, htaken, hreads, -, hleast⟩ :=
    hlines "é\nb\nc" hsource 2 (by decide)
  have hlength : 3 = taken.length := hreads.trans (Nat.zero_add _)
  have hfront : taken = source.take 3 := by rw [hlength, htaken, List.take_left]
  rw [hfront] at hleast
  exact ⟨hsource, rfl, rfl, rfl, hleast, rfl, fun m => (hend 3 rfl m).1⟩

end Device

end Teletype
