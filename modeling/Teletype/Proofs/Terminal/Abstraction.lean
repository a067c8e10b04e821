import Teletype.Equivalence
import Teletype.Proofs.Console.Sameness
import Teletype.Proofs.Terminal.Composition

/-!
# What scripts can tell apart

Programs that are the same tree do the same on every terminal. Conversely, for quiet programs, no
terminal but the scripted one is needed to tell two trees apart: a test on a script sees the whole
output, the lines left over and the end, and nothing of how they are interleaved; but the script
that stops at a question shows what was written up to there, and the script that goes on with one
more line shows the tree behind it.
-/

namespace Teletype

open Host

variable {ε V σ τ α : Type}

namespace Console

/-- Programs that are the same tree do the same on every terminal. -/
theorem runOn_eq_of_sameFrom (t : Terminal ε τ) {p q : Console ε σ α} {s : σ}
    (h : SameFrom p q s) (c : τ) : runOn t.beside p (s, c) = runOn t.beside q (s, c) := by
  induction p using Console.induct generalizing q s c with
  | sync value =>
    obtain ⟨value', rfl, hvalue⟩ := h.of_sync
    rw [runOn_sync, runOn_sync]
    simp only [onHost, hvalue]
  | write line next ih =>
    obtain ⟨next', rfl, hnext⟩ := h.of_write
    cases hw : t.writeLine line c with
    | ok u c' =>
      rw [runOn_write_of_ok hw, runOn_write_of_ok hw]
      exact ih hnext c'
    | error e c' => rw [runOn_write_of_error hw, runOn_write_of_error hw]
  | ask next ih =>
    obtain ⟨next', rfl, hnext⟩ := h.of_ask
    cases hr : t.readLine c with
    | error e c' => rw [runOn_ask_of_error hr, runOn_ask_of_error hr]
    | ok line c' =>
      cases hp : next line s with
      | ok p s' =>
        obtain ⟨q, hq, hpq⟩ := (hp ▸ hnext line).of_ok
        rw [runOn_ask_of_ok hr hp, runOn_ask_of_ok hr hq]
        exact ih line s p s' hp hpq c'
      | error e s' =>
        have hq : next' line s = .error e s' := (hp ▸ hnext line).of_error
        rw [runOn_ask_of_raise hr hp, runOn_ask_of_raise hr hq]

/-- A run on a script puts its output behind what is there, and does not look at it. -/
theorem outcomeOf_runOn_script (p : Console (Thrown V) σ α) (s : σ) (remaining : List String)
    (output : Array String) :
    outcomeOf (runOn Script.terminal.beside p) (s, ⟨remaining, output⟩) =
      let (outcome, s', script) := outcomeOf (runOn Script.terminal.beside p) (s, ⟨remaining, #[]⟩)
      (outcome, s', ⟨script.remaining, output ++ script.output⟩) := by
  induction p using Console.induct generalizing s remaining output with
  | sync value =>
    simp only [outcomeOf, runOn_sync, onHost]
    cases value s <;> simp
  | write line next ih =>
    have hrun : ∀ output : Array String,
        runOn Script.terminal.beside (.write line next) (s, ⟨remaining, output⟩) =
          runOn Script.terminal.beside next (s, ⟨remaining, output.push line⟩) :=
      fun output => runOn_write_of_ok rfl
    rw [outcomeOf_congr (hrun output), outcomeOf_congr (hrun #[]),
      ih s remaining (output.push line), ih s remaining (#[].push line)]
    simp
  | ask next ih =>
    cases remaining with
    | nil =>
      have hrun : ∀ output : Array String,
          runOn Script.terminal.beside (.ask next) (s, ⟨[], output⟩) =
            .error (.failure (.endOfInput Script.exhaustedMessage)) (s, ⟨[], output⟩) :=
        fun output => runOn_ask_of_error rfl
      rw [outcomeOf_eq_error.2 (hrun output), outcomeOf_eq_error.2 (hrun #[])]
      simp
    | cons line remaining =>
      cases hp : next line s with
      | ok p s' =>
        have hrun : ∀ output : Array String,
            runOn Script.terminal.beside (.ask next) (s, ⟨line :: remaining, output⟩) =
              runOn Script.terminal.beside p (s', ⟨remaining, output⟩) :=
          fun output => runOn_ask_of_ok rfl hp
        rw [outcomeOf_congr (hrun output), outcomeOf_congr (hrun #[])]
        exact ih line s p s' hp s' remaining output
      | error e s' =>
        have hrun : ∀ output : Array String,
            runOn Script.terminal.beside (.ask next) (s, ⟨line :: remaining, output⟩) =
              .error e (s', ⟨remaining, output⟩) :=
          fun output => runOn_ask_of_raise rfl hp
        rw [outcomeOf_eq_error.2 (hrun output), outcomeOf_eq_error.2 (hrun #[])]
        simp

end Console

/-! ## Rehearsals -/

/-- An interpretation with one more line in front of its output. -/
def Interpretation.after (line : String) (i : Interpretation ε α) : Interpretation ε α :=
  { i with output := line :: i.output }

/-- An interpretation of a run that raised no bare value, as the run has it. -/
def Interpretation.raised (i : Interpretation Failure α) : Interpretation (Thrown V) α :=
  ⟨i.output, i.remainingInput, i.result.mapError .failure⟩

/-- The test does not tell the two runs apart, and neither raised a bare value. -/
structure Interpretation.Agrees (eq : α → α → Bool) (x y : Interpretation (Thrown V) α) : Prop where
  output : x.output = y.output
  remainingInput : x.remainingInput = y.remainingInput
  result : match x.result, y.result with
    | .ok a, .ok b => eq a b = true
    | .error (.failure e), .error (.failure e') => e.message = e'.message
    | _, _ => False

theorem Interpretation.agrees_raised {eq : α → α → Bool} (heq : ∀ a, eq a a = true)
    (i : Interpretation Failure α) :
    (i.raised : Interpretation (Thrown V) α).Agrees eq i.raised := by
  obtain ⟨output, remainingInput, result⟩ := i
  refine ⟨rfl, rfl, ?_⟩
  cases result with
  | ok a => exact heq a
  | error f => exact rfl

theorem Interpretation.Agrees.of_after {eq : α → α → Bool} {x y : Interpretation (Thrown V) α}
    {line : String} (h : (x.after line).Agrees eq (y.after line)) : x.Agrees eq y :=
  ⟨(List.cons.inj h.output).2, h.remainingInput, h.result⟩

section

variable {p q next : Console (Thrown V) σ α} {script : List String} {line : String}
  {s s' : σ} {eq : α → α → Bool} {reply : String → Host (Thrown V) σ (Console (Thrown V) σ α)}

/-- What a rehearsal returns, and the host state that it leaves; it never raises. -/
def rehearsed (p : Console (Thrown V) σ α) (script : List String) (s : σ) :
    Interpretation (Thrown V) α × σ :=
  let (outcome, s', t) :=
    outcomeOf (Console.runOn Script.terminal.beside p) (s, { remaining := script })
  (⟨t.output.toList, t.remaining, outcome⟩, s')

theorem rehearse_eq (p : Console (Thrown V) σ α) (script : List String) (s : σ) :
    rehearse (ε := ε) p script s = .ok (rehearsed p script s).1 (rehearsed p script s).2 := by
  unfold rehearse rehearsed outcomeOf Console.runOn
  cases p.run Script.terminal.beside (s, { remaining := script }) <;> rfl

theorem interpret_eq [HasText V σ] (p : Console (Thrown V) σ α) (script : List String) (s : σ) :
    interpret p script s = (rehearsed p script s).1.report (rehearsed p script s).2 :=
  bind_of_ok (rehearse_eq p script s)

theorem Interpretation.report_raised [HasText V σ] (i : Interpretation Failure α) :
    (i.raised : Interpretation (Thrown V) α).report (σ := σ) = pure i := by
  obtain ⟨output, remainingInput, result⟩ := i
  cases result <;> rfl

theorem rehearsed_sync_of_ok {value : Host (Thrown V) σ α} {a : α} (h : value s = .ok a s') :
    rehearsed (.sync value) script s = (⟨[], script, .ok a⟩, s') := by
  rw [rehearsed, outcomeOf_eq_ok.2 (Console.runOn_sync_of_ok h)]

theorem rehearsed_write :
    rehearsed (.write line next) script s =
      ((rehearsed next script s).1.after line, (rehearsed next script s).2) := by
  have hrun : Console.runOn Script.terminal.beside (.write line next) (s, { remaining := script }) =
      Console.runOn Script.terminal.beside next (s, ⟨script, #[line]⟩) :=
    Console.runOn_write_of_ok rfl
  rw [rehearsed, outcomeOf_congr hrun, Console.outcomeOf_runOn_script]
  simp [rehearsed, Interpretation.after]

theorem rehearsed_ask_nil :
    rehearsed (.ask reply) [] s =
      (⟨[], [], .error (.failure (.endOfInput Script.exhaustedMessage))⟩, s) := by
  rw [rehearsed, outcomeOf_eq_error.2 (Console.runOn_ask_of_error rfl)]

theorem rehearsed_ask_cons (h : reply line s = .ok p s') :
    rehearsed (.ask reply) (line :: script) s = rehearsed p script s' := by
  have hrun :
      Console.runOn Script.terminal.beside (.ask reply) (s, { remaining := line :: script }) =
        Console.runOn Script.terminal.beside p (s', { remaining := script }) :=
    Console.runOn_ask_of_ok rfl h
  rw [rehearsed, rehearsed, outcomeOf_congr hrun]

theorem rehearsed_eq_of_sameFrom (h : p.SameFrom q s) (script : List String) :
    rehearsed p script s = rehearsed q script s := by
  rw [rehearsed, rehearsed,
    outcomeOf_congr (Console.runOn_eq_of_sameFrom Script.terminal h { remaining := script })]

/-- A quiet program leaves the host's state as it is, and raises no bare value: all that can go
wrong is that the script runs out. -/
theorem Console.Quiet.exists_rehearsed (hp : p.Quiet) (script : List String) (s : σ) :
    ∃ i : Interpretation Failure α, rehearsed p script s = (i.raised, s) := by
  induction hp generalizing script with
  | @done value hvalue =>
    obtain ⟨a, ha⟩ := hvalue s
    exact ⟨⟨[], script, .ok a⟩, rehearsed_sync_of_ok ha⟩
  | @write line next _ ih =>
    obtain ⟨i, hi⟩ := ih script
    refine ⟨⟨line :: i.output, i.remainingInput, i.result⟩, ?_⟩
    rw [rehearsed_write, hi]
    rfl
  | @read next hanswer _ ih =>
    cases script with
    | nil => exact ⟨⟨[], [], .error (.endOfInput Script.exhaustedMessage)⟩, rehearsed_ask_nil⟩
    | cons line script =>
      obtain ⟨program, hprogram⟩ := hanswer line s
      obtain ⟨i, hi⟩ := ih line s program s hprogram script
      exact ⟨i, (rehearsed_ask_cons hprogram).trans hi⟩

/-- The test says whether two runs agree that raised no bare value. -/
theorem exists_eqv [HasText V σ] (eq : α → α → Bool) {x y : Interpretation Failure α} {s'' : σ}
    (hx : rehearsed p script s = (x.raised, s')) (hy : rehearsed q script s' = (y.raised, s'')) :
    ∃ b, (equivalent script eq).eqv p q s = .ok b s'' ∧
      (b = true ↔ Interpretation.Agrees eq (x.raised : Interpretation (Thrown V) α) y.raised) := by
  have hreportx : interpret p script s = .ok x s' := by
    rw [interpret_eq, hx, Interpretation.report_raised]
    rfl
  have hreporty : interpret q script s' = .ok y s'' := by
    rw [interpret_eq, hy, Interpretation.report_raised]
    rfl
  refine ⟨_, (bind_of_ok hreportx).trans (bind_of_ok hreporty), ?_⟩
  have hresult : sameOutcome eq x.result y.result = true ↔
      match (x.raised : Interpretation (Thrown V) α).result,
        (y.raised : Interpretation (Thrown V) α).result with
      | .ok a, .ok b => eq a b = true
      | .error (.failure e), .error (.failure e') => e.message = e'.message
      | _, _ => False := by
    rw [Interpretation.raised, Interpretation.raised]
    cases x.result <;> cases y.result <;> simp [sameOutcome, Except.mapError]
  simp only [Bool.and_eq_true, beq_iff_eq]
  exact ⟨fun ⟨⟨h, h'⟩, h''⟩ => ⟨h, h', hresult.1 h''⟩,
    fun ⟨h, h', h''⟩ => ⟨⟨h, h'⟩, hresult.2 h''⟩⟩

/-- On quiet programs the test passes exactly where the runs agree. -/
theorem eqv_eq_true_iff [HasText V σ] (hp : p.Quiet) (hq : q.Quiet) :
    (equivalent script eq).eqv p q s = .ok true s ↔
      (rehearsed p script s).1.Agrees eq (rehearsed q script s).1 := by
  obtain ⟨x, hx⟩ := hp.exists_rehearsed script s
  obtain ⟨y, hy⟩ := hq.exists_rehearsed script s
  obtain ⟨b, heqv, hagrees⟩ := exists_eqv eq hx hy
  rw [heqv, hx, hy, ← hagrees, EStateM.Result.ok.injEq, and_iff_left rfl]

/-! ## The empty script

With nothing to read, the three kinds of node look different: an end has a result, a question has
none, and only a write has output.
-/

/-- A quiet program that writes nothing on the empty script and returns is at its end. -/
theorem Console.Quiet.exists_sync (hq : q.Quiet) {a : α}
    (h : Interpretation.Agrees eq ⟨[], [], .ok a⟩ (rehearsed q [] s).1) :
    ∃ (value : Host (Thrown V) σ α) (b : α),
      q = .sync value ∧ value s = .ok b s ∧ eq a b = true := by
  cases hq with
  | @done value hvalue =>
    obtain ⟨b, hb⟩ := hvalue s
    rw [← sync, rehearsed_sync_of_ok hb] at h
    exact ⟨value, b, rfl, hb, h.result⟩
  | write =>
    rw [rehearsed_write] at h
    cases h.output
  | read =>
    rw [← ask, rehearsed_ask_nil] at h
    cases h.result

/-- A quiet program that writes on the empty script starts with the first line that it writes. -/
theorem Console.Quiet.exists_write (hq : q.Quiet) {x : Interpretation (Thrown V) α}
    (h : (x.after line).Agrees eq (rehearsed q [] s).1) :
    ∃ next : Console (Thrown V) σ α, q = .write line next ∧ next.Quiet := by
  cases hq with
  | @done value hvalue =>
    obtain ⟨b, hb⟩ := hvalue s
    rw [← sync, rehearsed_sync_of_ok hb] at h
    cases h.output
  | @write line' next hnext =>
    rw [rehearsed_write] at h
    obtain rfl : line = line' := (List.cons.inj h.output).1
    exact ⟨next, rfl, hnext⟩
  | read =>
    rw [← ask, rehearsed_ask_nil] at h
    cases h.output

/-- A quiet program that writes nothing on the empty script and fails asks for a line. -/
theorem Console.Quiet.exists_ask (hq : q.Quiet) {f : Failure}
    (h : Interpretation.Agrees eq ⟨[], [], .error (.failure f)⟩ (rehearsed q [] s).1) :
    ∃ reply : String → Host (Thrown V) σ (Console (Thrown V) σ α),
      q = .ask reply ∧ ∀ line, Console.QuietBuild (reply line) := by
  cases hq with
  | @done value hvalue =>
    obtain ⟨b, hb⟩ := hvalue s
    rw [← sync, rehearsed_sync_of_ok hb] at h
    cases h.result
  | write =>
    rw [rehearsed_write] at h
    cases h.output
  | @read reply hanswer hprogram => exact ⟨reply, rfl, (Console.Quiet.read hanswer hprogram).next⟩

/-- **Quiet programs whose interpretations agree under every script are the same tree.** The
induction is on the first program: the empty script shows its node, and the scripts that go on with
one more line show the tree behind a question. -/
theorem Console.Quiet.sameFrom_of_agrees (hp : p.Quiet) (hq : q.Quiet)
    (heq : ∀ a b, eq a b = true → a = b)
    (h : ∀ script, (rehearsed p script s).1.Agrees eq (rehearsed q script s).1) :
    p.SameFrom q s := by
  induction hp generalizing q with
  | @done value hvalue =>
    obtain ⟨a, ha⟩ := hvalue s
    have hempty := h []
    rw [← sync, rehearsed_sync_of_ok ha] at hempty
    obtain ⟨value', b, rfl, hb, hab⟩ := hq.exists_sync hempty
    simp only [sync, SameFrom, ha, hb, heq a b hab]
  | @write line next hnext ih =>
    simp only [rehearsed_write] at h
    obtain ⟨next', rfl, hnext'⟩ := hq.exists_write (h [])
    simp only [rehearsed_write] at h
    exact (ih hnext' fun script => (h script).of_after).write line
  | @read reply hanswer hprogram ih =>
    have hempty := h []
    rw [← ask, rehearsed_ask_nil] at hempty
    obtain ⟨reply', rfl, hreply'⟩ := hq.exists_ask hempty
    simp only [ask, SameFrom]
    intro line
    obtain ⟨program, hnext⟩ := hanswer line s
    obtain ⟨program', hnext', hquiet'⟩ := hreply' line s
    have hagrees : ∀ script,
        (rehearsed program script s).1.Agrees eq (rehearsed program' script s).1 := by
      intro script
      rw [← rehearsed_ask_cons hnext, ← rehearsed_ask_cons hnext']
      exact h (line :: script)
    rw [hnext, hnext']
    exact (ih line s program s hnext hquiet' hagrees).ok

end

/-- **The tests on scripts are fully abstract.** Two quiet programs pass the test under every script
if and only if they are the same tree from the host state in which they are tested. Then they
perform the same operations, in the same order and with the same end, on every terminal, be it one
that fails; and if they are the same from every state, one may stand for the other in every program.
-/
theorem equivalent_iff_sameFrom [HasText V σ] {p q : Console (Thrown V) σ α} (hp : p.Quiet)
    (hq : q.Quiet) {eq : α → α → Bool} (heq : ∀ a b, eq a b = true ↔ a = b) :
    (∀ s, (∀ script, (equivalent script eq).eqv p q s = .ok true s) ↔ p.SameFrom q s) ∧
    (∀ s, p.SameFrom q s → ∀ (τ : Type) (t : Terminal (Thrown V) τ) log c,
      Console.runOn t.recorded.beside p (s, log, c) =
        Console.runOn t.recorded.beside q (s, log, c)) ∧
    (p.Same q → p.Interchangeable q) := by
  refine ⟨fun s => ⟨fun h => ?_, fun h script => ?_⟩, fun s h τ t log c => ?_,
    fun h => h.interchangeable⟩
  · exact hp.sameFrom_of_agrees hq (fun a b => (heq a b).1) fun script =>
      (eqv_eq_true_iff hp hq).1 (h script)
  · obtain ⟨i, hi⟩ := hq.exists_rehearsed script s
    rw [eqv_eq_true_iff hp hq, rehearsed_eq_of_sameFrom h script, hi]
    exact Interpretation.agrees_raised (fun a => (heq a a).2 rfl) i
  · exact Console.runOn_eq_of_sameFrom t.recorded h (log, c)

/-- One program remembers the host state when the line comes, the other looks at it in the end. -/
theorem equivalent_iff_sameFrom_remembered :
    let p : Console (Thrown Empty) Nat Nat := .ask fun _ => do return Console.succeed (← get)
    let q : Console (Thrown Empty) Nat Nat := .ask fun _ => return .sync get
    (∀ script s, (equivalent script (· == ·)).eqv p q s = .ok true s) ∧ p.Interchangeable q := by
  intro p q
  have hp : p.Quiet := Console.quiet_ask fun _ s =>
    ⟨Console.succeed s, rfl, Console.quiet_succeed s⟩
  have hq : q.Quiet := Console.quiet_ask fun _ _ => ⟨.sync get, rfl, .done fun s => ⟨s, rfl⟩⟩
  have hsame : p.Same q := by
    intro s
    have hvalue : (Console.succeed s : Console (Thrown Empty) Nat Nat).SameFrom (.sync get) s := by
      simp only [Console.succeed, Console.sync, Console.SameFrom]
      rfl
    simp only [p, q, Console.ask, Console.SameFrom]
    exact fun _ => hvalue.ok
  have heq : ∀ a b : Nat, (a == b) = true ↔ a = b := fun a b => beq_iff_eq
  obtain ⟨htest, -, hinterchangeable⟩ := equivalent_iff_sameFrom hp hq heq
  exact ⟨fun script s => (htest s).2 (hsame s) script, hinterchangeable hsame⟩

end Teletype
