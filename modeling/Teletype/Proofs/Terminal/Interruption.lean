import Teletype.Proofs.Terminal.Reading

/-!
# Reads that fail on the way

A read may fail with what is neither the end nor a reason to try again: a fault. The call during
which that happens raises it and keeps what it had read so far, so the next call goes on from there
as if nothing had been. Each call is compared with a call on the same source without its faults
(`mended`): it did what that one does, or it stopped at a fault and left that one still to do.
-/

namespace Teletype

open Text

namespace Delivery

/-- The failure that a read is to raise, if it is neither the end nor a reason to try again. -/
def fault? : Delivery → Option Failure
  | .bytes _ => none
  | .failure f =>
    if f.code = some Device.retryCode ∨ f.code = some Device.endCode then none else some f

/-- The failures that are to be raised. -/
def faults (source : List Delivery) : List Failure := source.filterMap fault?

/-- The deliveries without their faults. -/
def mended (source : List Delivery) : List Delivery := source.filter (·.fault?.isNone)

variable {delivery : Delivery} {source : List Delivery} {f : Failure}

theorem fault?_failure (hretry : f.code ≠ some Device.retryCode)
    (hend : f.code ≠ some Device.endCode) : fault? (.failure f) = some f := by
  rw [fault?, if_neg (not_or.2 ⟨hretry, hend⟩)]

theorem faults_cons_of_none (h : delivery.fault? = none) :
    faults (delivery :: source) = faults source := List.filterMap_cons_none h

theorem faults_append (xs ys : List Delivery) : faults (xs ++ ys) = faults xs ++ faults ys :=
  List.filterMap_append

theorem mended_cons_of_none (h : delivery.fault? = none) :
    mended (delivery :: source) = delivery :: mended source :=
  List.filter_cons_of_pos (by rw [h]; rfl)

theorem mended_cons_of_some (h : delivery.fault? = some f) :
    mended (delivery :: source) = mended source :=
  List.filter_cons_of_neg (by rw [h]; exact Bool.false_ne_true)

end Delivery

open Delivery

namespace Device

open LineReader

variable {o : LineOptions} {source : List Delivery} {r : LineReader} {reads : Nat}

theorem readFrom_fault {f : Failure} (hretry : f.code ≠ some retryCode)
    (hend : f.code ≠ some endCode) (h : cutLine r.pending = none) (he : r.ended = false) :
    readFrom o (.failure f :: source) r reads = (.error f, source, r, reads + 1) := by
  simp [readFrom, h, he, hretry, hend]

/-! ## One call -/

/-- The call took these deliveries, of which none is a fault, and did what it does on the mended
source. -/
structure Completes (o : LineOptions) (source : List Delivery) (r : LineReader)
    (result : Except Failure String × List Delivery × LineReader × Nat)
    (taken : List Delivery) : Prop where
  source_eq : source = taken ++ result.2.1
  faults_eq : faults taken = []
  mended_eq : ∀ k, ∃ k',
    readFrom o (mended source) r k = (result.1, mended result.2.1, result.2.2.1, k')

/-- The call stopped at a fault and raised it. What a call on the mended source does from the reader
as it was, it does from the reader and the source that are left. -/
structure Breaks (o : LineOptions) (source : List Delivery) (r : LineReader)
    (result : Except Failure String × List Delivery × LineReader × Nat)
    (taken : List Delivery) (f : Failure) : Prop where
  source_eq : source = taken ++ .failure f :: result.2.1
  faults_eq : faults taken = []
  fault_eq : fault? (.failure f) = some f
  raises : result.1 = .error f
  resumes : ∀ k, ∃ k',
    readFrom o (mended source) r k = readFrom o (mended result.2.1) result.2.2.1 k'

/-- The call completes, or it breaks. -/
def Compares (o : LineOptions) (source : List Delivery) (r : LineReader)
    (result : Except Failure String × List Delivery × LineReader × Nat) : Prop :=
  (∃ taken, Completes o source r result taken) ∨ ∃ taken f, Breaks o source r result taken f

variable {delivery : Delivery} {r' : LineReader}

/-- A call that does not look at the source completes. -/
theorem compares_of_no_read {answer : Except Failure String}
    (h : ∀ source reads, readFrom o source r reads = (answer, source, r', reads)) :
    Compares o source r (readFrom o source r reads) := by
  rw [h]
  exact .inl ⟨[], rfl, rfl, fun k => ⟨k, h (mended source) k⟩⟩

/-- A call that takes what is the end completes. -/
theorem compares_of_end (hfault : delivery.fault? = none)
    (h : ∀ source reads,
      readFrom o (delivery :: source) r reads = readFrom.finish o source r (reads + 1)) :
    Compares o (delivery :: source) r (readFrom o (delivery :: source) r reads) := by
  refine .inl ⟨[delivery], ?_, faults_cons_of_none hfault, fun k => ⟨k + 1, ?_⟩⟩
  · rw [h]
    rfl
  · rw [mended_cons_of_none hfault, h, h]
    rfl

/-- A call that takes a delivery and goes on is what the call from there on is. -/
theorem compares_of_step (hfault : delivery.fault? = none)
    (h : ∀ source reads,
      readFrom o (delivery :: source) r reads = readFrom o source r' (reads + 1))
    (hrest : Compares o source r' (readFrom o source r' (reads + 1))) :
    Compares o (delivery :: source) r (readFrom o (delivery :: source) r reads) := by
  have hmended : ∀ k, readFrom o (mended (delivery :: source)) r k =
      readFrom o (mended source) r' (k + 1) := fun k => by
    rw [mended_cons_of_none hfault, h]
  rw [h]
  rcases hrest with ⟨taken, hrest⟩ | ⟨taken, f, hrest⟩
  · refine .inl ⟨delivery :: taken, ?_, ?_, fun k => ?_⟩
    · exact congrArg (delivery :: ·) hrest.source_eq
    · rw [faults_cons_of_none hfault, hrest.faults_eq]
    · rw [hmended]
      exact hrest.mended_eq (k + 1)
  · refine .inr ⟨delivery :: taken, f, ?_, ?_, hrest.fault_eq, hrest.raises, fun k => ?_⟩
    · exact congrArg (delivery :: ·) hrest.source_eq
    · rw [faults_cons_of_none hfault, hrest.faults_eq]
    · rw [hmended]
      exact hrest.resumes (k + 1)

/-- A call that meets a fault while it waits for a line breaks there. -/
theorem compares_of_fault {f : Failure} (hretry : f.code ≠ some retryCode)
    (hend : f.code ≠ some endCode) (h : cutLine r.pending = none) (he : r.ended = false) :
    Compares o (.failure f :: source) r (readFrom o (.failure f :: source) r reads) := by
  have hfault := fault?_failure hretry hend
  rw [readFrom_fault hretry hend h he]
  refine .inr ⟨[], f, rfl, rfl, hfault, rfl, fun k => ⟨k, ?_⟩⟩
  rw [mended_cons_of_some hfault]

/-- It remains to see to the calls that have to read. -/
theorem compares_of_waiting (h : cutLine r.pending = none → r.ended = false →
    Compares o source r (readFrom o source r reads)) :
    Compares o source r (readFrom o source r reads) := by
  cases hline : cutLine r.pending with
  | some cut => exact compares_of_no_read fun _ _ => readFrom_of_line hline
  | none =>
    cases hended : r.ended with
    | true => exact compares_of_no_read fun _ _ => readFrom_of_ended hline hended
    | false => exact h hline hended

/-- **A call completes, or it breaks at a fault** and keeps all that it had read. The induction is
on the source, with one case for each kind of delivery. -/
theorem readFrom_compares (o : LineOptions) (source : List Delivery) (r : LineReader)
    (reads : Nat) : Compares o source r (readFrom o source r reads) := by
  induction source generalizing r reads with
  | nil =>
    refine compares_of_waiting fun hline hended => .inl ⟨[], ?_, rfl, fun k => ⟨k + 1, ?_⟩⟩
    · rw [readFrom_nil hline hended]
      rfl
    · rw [readFrom_nil hline hended]
      exact readFrom_nil hline hended
  | cons delivery source ih =>
    refine compares_of_waiting fun hline hended => ?_
    cases delivery with
    | bytes chunk =>
      by_cases hchunk : chunk = []
      · subst hchunk
        exact compares_of_end rfl fun _ _ => readFrom_nothing hline hended
      · exact compares_of_step rfl (fun _ _ => readFrom_chunk hchunk hline hended) (ih _ _)
    | failure f =>
      by_cases hretry : f.code = some retryCode
      · have hfault : fault? (.failure f) = none := if_pos (.inl hretry)
        exact compares_of_step hfault (fun _ _ => readFrom_retry hretry hline hended) (ih _ _)
      · by_cases hend : f.code = some endCode
        · have hfault : fault? (.failure f) = none := if_pos (.inr hend)
          exact compares_of_end hfault fun _ _ => readFrom_endFailure hend hline hended
        · exact compares_of_fault hretry hend hline hended

/-! ## Any number of calls -/

variable {V : Type}

/-- A call of the reader: what it took from the source, and what it answered. -/
structure Call (V : Type) where
  taken : List Delivery
  answer : Except (Thrown V) String

/-- Call the reader. What was taken is the part of the source that is gone. -/
def call (o : LineOptions) (d : Device) : Call V × Device :=
  let (answer, d') := outcomeOf (readLine o) d
  ({ taken := d.source.take (d.source.length - d'.source.length), answer }, d')

/-- The call raised the one fault that it met, which was the last that it took. -/
def Call.RaisedFault (c : Call V) : Prop :=
  ∃ f, faults c.taken = [f] ∧ c.taken.getLast? = some (.failure f) ∧
    c.answer = .error (.failure f)

/-- The same device but for the faults in its source and the count of its reads. -/
def withoutFaults (d : Device) (reads : Nat) : Device :=
  { d with source := mended d.source, reads }

theorem call_of_eq {answer : Except Failure String} {taken left : List Delivery} {reads' : Nat}
    (h : readFrom o source r reads = (answer, left, r', reads')) (hsource : source = taken ++ left)
    (written : Array String) :
    call (V := V) o ⟨source, reads, written, r⟩ =
      (⟨taken, answer.mapError .failure⟩, ⟨left, reads', written, r'⟩) := by
  have htaken : source.take (source.length - left.length) = taken := by
    rw [hsource, List.length_append, Nat.add_sub_cancel, List.take_left']
    rfl
  rw [call, outcomeOf_readLine_of_eq h]
  simp only [htaken]

/-- One call, beside one on the same device without faults. Either it did the same, or it raised a
fault and the other is still to come. -/
theorem call_compares (o : LineOptions) (d : Device) :
    ∃ c d', call (V := V) o d = (c, d') ∧ c.taken ++ d'.source = d.source ∧
      ((faults c.taken = [] ∧ ∀ k, ∃ k',
          outcomeOf (readLine o) (d.withoutFaults k) = (c.answer, d'.withoutFaults k')) ∨
        (c.RaisedFault ∧ ∀ k, ∃ k',
          outcomeOf (readLine (V := V) o) (d.withoutFaults k) =
            outcomeOf (readLine o) (d'.withoutFaults k'))) := by
  obtain ⟨source, reads, written, r⟩ := d
  have hcompares := readFrom_compares o source r reads
  cases hcall : readFrom o source r reads with
  | mk answer result =>
    obtain ⟨left, r', reads'⟩ := result
    rw [hcall] at hcompares
    rcases hcompares with ⟨taken, hdone⟩ | ⟨taken, f, hbroken⟩
    · refine ⟨_, _, call_of_eq hcall hdone.source_eq written, hdone.source_eq.symm,
        .inl ⟨hdone.faults_eq, fun k => ?_⟩⟩
      obtain ⟨k', hmended⟩ := hdone.mended_eq k
      exact ⟨k', outcomeOf_readLine_of_eq hmended written⟩
    · have hsource : source = (taken ++ [.failure f]) ++ left :=
        hbroken.source_eq.trans (List.append_cons taken (.failure f) left)
      refine ⟨_, _, call_of_eq hcall hsource written, hsource.symm, .inr ⟨⟨f, ?_, ?_, ?_⟩, ?_⟩⟩
      · have hlast : faults [.failure f] = [f] := List.filterMap_cons_some hbroken.fault_eq
        rw [faults_append, hbroken.faults_eq, hlast, List.nil_append]
      · exact List.getLast?_concat
      · exact congrArg (Except.mapError _) hbroken.raises
      · intro k
        obtain ⟨k', hresumes⟩ := hbroken.resumes k
        refine ⟨k', ?_⟩
        cases hnext : readFrom o (mended left) r' k' with
        | mk answer' result' =>
          obtain ⟨left', r'', reads''⟩ := result'
          have hhere := outcomeOf_readLine_of_eq (V := V) (hresumes.trans hnext) written
          exact hhere.trans (outcomeOf_readLine_of_eq hnext written).symm

/-- Calls in a row, beside calls on the same device without faults: those that raise a fault put the
others off, and each of the others does what is next there. -/
theorem calls_compare (o : LineOptions) (d : Device) (n : Nat) :
    let run := inTurn (call (V := V)) (List.replicate n o) d
    let others := run.1.filter fun c => (faults c.taken).isEmpty
    run.1.flatMap (·.taken) ++ run.2.source = d.source ∧
      (∀ c ∈ run.1, faults c.taken ≠ [] → c.RaisedFault) ∧
      ∀ k, others.map (·.answer) =
        (inTurn outcomeOf (List.replicate others.length (readLine o)) (d.withoutFaults k)).1 := by
  induction n generalizing d with
  | zero => exact ⟨rfl, fun c h => absurd h List.not_mem_nil, fun _ => rfl⟩
  | succ n ih =>
    obtain ⟨c, d', hcall, hsource, hcompares⟩ := call_compares (V := V) o d
    obtain ⟨hparts, hraised, hothers⟩ := ih d'
    simp only [List.replicate_succ, inTurn, hcall]
    refine ⟨?_, List.forall_mem_cons.2 ⟨fun hfault => ?_, hraised⟩, fun k => ?_⟩
    · rw [List.flatMap_cons, List.append_assoc, hparts, hsource]
    · rcases hcompares with ⟨hnone, -⟩ | ⟨hraised, -⟩
      · exact absurd hnone hfault
      · exact hraised
    · rcases hcompares with ⟨hnone, hsame⟩ | ⟨⟨f, hfault, -⟩, hresumes⟩
      · obtain ⟨k', hsame⟩ := hsame k
        rw [List.filter_cons_of_pos (by rw [hnone]; rfl), List.map_cons, List.length_cons,
          List.replicate_succ, hothers k']
        simp only [inTurn, hsame]
      · obtain ⟨k', hresumes⟩ := hresumes k
        rw [List.filter_cons_of_neg (by rw [hfault]; exact Bool.false_ne_true), hothers k']
        generalize (List.filter (fun c : Call V => (faults c.taken).isEmpty) _).length = m
        cases m with
        | zero => rfl
        | succ m =>
          rw [List.replicate_succ]
          simp only [inTurn, hresumes]

/-- **A failing read loses nothing and repeats nothing.** Faults stand anywhere among the deliveries
of a text, before each of them and inside its characters and line ends. The calls on a newly opened
reader take the source from its front, one part each. A call that meets a fault takes nothing behind
it and raises it as it is; the other calls answer, in order, what as many calls answer on the same
source without its faults, and that is the pieces of the text and then what the options say of the
end. -/
theorem lines_despite_faults (o : LineOptions) (text : String) {source : List Delivery}
    (h : Delivers (mended source) (utf8 text)) (reads : Nat) (written : Array String) (n : Nat) :
    let run := inTurn (call (V := V)) (List.replicate n o) { source, reads, written }
    let others := run.1.filter fun c => (faults c.taken).isEmpty
    run.1.flatMap (·.taken) ++ run.2.source = source ∧
      (∀ c ∈ run.1, faults c.taken ≠ [] → c.RaisedFault) ∧
      others.map (·.answer) =
        (inTurn outcomeOf (List.replicate others.length (readLine o))
          { source := mended source, reads, written }).1 ∧
      others.map (·.answer) =
        (List.range others.length).map fun i =>
          (o.answer (pieces text.toList)[i]?).mapError .failure := by
  intro run others
  obtain ⟨hparts, hraised, hothers⟩ := calls_compare (V := V) o { source, reads, written } n
  exact ⟨hparts, hraised, hothers reads,
    (hothers reads).trans (outcomes_of_owes _ (owes_of_delivers h))⟩

/-- Faults inside a character and inside a line end. The two calls that meet them raise them; the
third gets the line that was begun before the first. -/
theorem lines_despite_faults_cut :
    let noise : Failure := { kind := .plain, message := "noise", code := some "EIO" }
    let source : List Delivery :=
      [.bytes [0xC3], .failure noise, .bytes [0xA9, 0x0D], .failure (.plain "lost"),
        .failure { kind := .plain, message := "busy", code := some "EAGAIN" },
        .bytes [0x0A, 0x62]]
    let calls := (inTurn (call (V := Empty)) (List.replicate 5 {}) { source }).1
    Delivers (mended source) (utf8 "é\r\nb") ∧
      (∀ c ∈ calls, faults c.taken ≠ [] → c.RaisedFault) ∧
      calls.map (faults ·.taken) = [[noise], [.plain "lost"], [], [], []] ∧
      (calls.filter fun c => (faults c.taken).isEmpty).map (·.answer) =
        [.ok "é", .ok "b", .error (.failure .endOfInput)] := by
  intro noise source calls
  have hbytes : utf8 "é\r\nb" = [0xC3] ++ ([0xA9, 0x0D] ++ ([0x0A, 0x62] ++ [])) := by decide
  have hsource : Delivers (mended source) (utf8 "é\r\nb") := by
    rw [hbytes]
    refine .chunk (by decide) (.chunk (by decide) (.retry rfl (.chunk (by decide) ?_)))
    exact .exhausted
  obtain ⟨-, hraised, -, hothers⟩ := lines_despite_faults {} "é\r\nb" hsource 0 #[] 5
  exact ⟨hsource, hraised, rfl, hothers⟩

end Device

end Teletype
