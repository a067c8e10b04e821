import Teletype.Proofs.Console.Collecting
import Teletype.Proofs.Terminal.Composition

/-!
# Running a collected list

A list of quiet programs is collected into one program, and that program does on every terminal what
the programs of the list do one after another. `BuildsRun` says of an action that it builds quietly
and what the program it builds does; it goes through sequencing (`BuildsRun.bind`), so it goes
through the recursion on the list, and collecting is that recursion.
-/

namespace Teletype.Console

open Host

variable {ε σ τ α β : Type}

/-- From every host state the action builds, leaving that state alone, a quiet program that does on
the terminal what `conduct` does. -/
def BuildsRun (t : Terminal ε τ) (x : Host ε σ (Console ε σ α)) (conduct : EStateM ε (σ × τ) α) :
    Prop :=
  ∀ s, ∃ program, x s = .ok program s ∧ program.Quiet ∧
    ∀ c, runOn t.beside program (s, c) = conduct (s, c)

section

variable {t : Terminal ε τ} {x : Host ε σ (Console ε σ α)} {conduct : EStateM ε (σ × τ) α}
  {f : α → Host ε σ (Console ε σ β)} {rest : α → EStateM ε (σ × τ) β}

theorem BuildsRun.quietBuild (hx : BuildsRun t x conduct) : QuietBuild x := by
  intro s
  obtain ⟨program, hbuilt, hquiet, -⟩ := hx s
  exact ⟨program, hbuilt, hquiet⟩

theorem buildsRun_pure (t : Terminal ε τ) {self : Console ε σ α} (hself : self.Quiet) :
    BuildsRun t (pure self) (runOn t.beside self) := fun _ => ⟨self, rfl, hself, fun _ => rfl⟩

theorem buildsRun_succeed (t : Terminal ε τ) (a : α) :
    BuildsRun t (pure (succeed a) : Host ε σ (Console ε σ α)) (pure a) :=
  fun _ => ⟨succeed a, rfl, quiet_succeed a, fun _ => runOn_sync_of_ok rfl⟩

/-- **What is built in sequence is run in sequence.** -/
theorem BuildsRun.bind (hx : BuildsRun t x conduct) (hf : ∀ a, BuildsRun t (f a) (rest a)) :
    BuildsRun t (x >>= Console.bind f) (conduct >>= rest) := by
  intro s
  obtain ⟨self, hself, hquiet, hrun⟩ := hx s
  obtain ⟨joined, hjoined, hruns⟩ :=
    exists_bind_eq_runThen t hquiet (fun a => (hf a).quietBuild.quiet) s
  have hbuilt : (x >>= Console.bind f) s = .ok joined s := (bind_of_ok hself).trans hjoined
  refine ⟨joined, hbuilt, ?_, fun c => ?_⟩
  · obtain ⟨joined', hbuilt', hquiet'⟩ := (hquiet.bind fun a => (hf a).quietBuild) s
    rw [hjoined] at hbuilt'
    cases hbuilt'
    exact hquiet'
  · rw [hruns]
    rcases hquiet.runOn_keeps_host t s c with ⟨a, c', h⟩ | ⟨e, c', h⟩
    · obtain ⟨next, hnext, -, hgoes⟩ := hf a s
      calc runThen t.beside self f (s, c)
          = runOn t.beside next (s, c') := (bind_of_ok h).trans (bind_of_ok (onHost_of_ok hnext))
        _ = rest a (s, c') := hgoes c'
        _ = (conduct >>= rest) (s, c) := (bind_of_ok ((hrun c).symm.trans h)).symm
    · exact (bind_of_error h).trans (bind_of_error ((hrun c).symm.trans h)).symm

/-- Running a sequence of programs is running each in turn. -/
theorem buildsRun_sequence (t : Terminal ε τ) {programs : List (Console ε σ α)}
    (hprograms : ∀ program ∈ programs, program.Quiet) :
    BuildsRun t (sequence programs) (programs.mapM (runOn t.beside)) := by
  induction programs with
  | nil => exact buildsRun_succeed t []
  | cons program programs ih =>
    have hrest := ih fun other hother => hprograms other (List.mem_cons_of_mem program hother)
    rw [sequence_cons, List.mapM_cons]
    exact (buildsRun_pure t (hprograms program List.mem_cons_self)).bind fun a =>
      hrest.bind fun as => buildsRun_succeed t (a :: as)

end

/-- From `w` on, the program does what the programs of the list do one after another: the operations
of each, in the order of the list, with the list of their results in the end. Where the terminal
fails in one of them, its failure ends the run, behind what the programs before it did and what it
did itself up to there. -/
structure RunsInTurn (t : Terminal ε (σ × τ)) (programs : List (Console ε σ α))
    (joined : Console ε σ (List α)) (w : σ × τ) : Prop where
  run_eq : runOn t joined w = programs.mapM (runOn t) w
  length_eq : ∀ results w', runOn t joined w = .ok results w' → results.length = programs.length
  fails : ∀ before program after results w' e w'', programs = before ++ program :: after →
    before.mapM (runOn t) w = .ok results w' → runOn t program w' = .error e w'' →
      runOn t joined w = .error e w''

theorem runsInTurn_of_eq {t : Terminal ε (σ × τ)} {programs : List (Console ε σ α)}
    {joined : Console ε σ (List α)} {w : σ × τ}
    (h : runOn t joined w = programs.mapM (runOn t) w) : RunsInTurn t programs joined w where
  run_eq := h
  length_eq _ _ hok := length_of_mapM (h.symm.trans hok)
  fails before program after results w' e w'' hlist hbefore hprogram := by
    subst hlist
    exact h.trans (mapM_of_error hbefore hprogram)

theorem exists_collectAll_runsInTurn (t : Terminal ε τ) {programs : List (Console ε σ α)}
    (hprograms : ∀ program ∈ programs, program.Quiet) (s : σ) :
    ∃ joined, collectAll programs s = .ok joined s ∧
      ∀ c, RunsInTurn t.beside programs joined (s, c) := by
  obtain ⟨joined, hbuilt, -, hrun⟩ := buildsRun_sequence t hprograms s
  exact ⟨joined, by rw [collectAll_eq_resume, resume_of_no_results, hbuilt],
    fun c => runsInTurn_of_eq (hrun c)⟩

/-- **Running a collected list is running its elements one after another**, on every terminal and
also where the terminal fails midway: the operations, kept in `log`, and the results or the failure
are the same. This goes for a list of quiet programs that is there, and for one that is built
quietly from a list of values. -/
theorem runOn_collectAll (t : Terminal ε τ) {programs : List (Console ε σ β)}
    (hprograms : ∀ program ∈ programs, program.Quiet) {values : List α}
    {body : α → Host ε σ (Console ε σ β)} (hbody : ∀ a ∈ values, QuietBuild (body a)) (s : σ) :
    (∃ joined, collectAll programs s = .ok joined s ∧
      ∀ log c, RunsInTurn t.recorded.beside programs joined (s, log, c)) ∧
    ∃ built joined, values.mapM body s = .ok built s ∧ foreach values body s = .ok joined s ∧
      ∀ log c, RunsInTurn t.recorded.beside built joined (s, log, c) := by
  obtain ⟨joined, hjoined, hrun⟩ := exists_collectAll_runsInTurn t.recorded hprograms s
  obtain ⟨built, hbuilt, hquiet⟩ := exists_mapM_of_quietBuild hbody s
  obtain ⟨joined', hjoined', hrun'⟩ := exists_collectAll_runsInTurn t.recorded hquiet s
  refine ⟨⟨joined, hjoined, fun log c => hrun (log, c)⟩, built, joined', hbuilt, ?_,
    fun log c => hrun' (log, c)⟩
  exact (bind_of_ok hbuilt).trans hjoined'

/-- The terminal fails in the last of three programs, of which the one in the middle does nothing;
and it fails in the second of two that were built from their questions. -/
theorem runOn_collectAll_failing_read :
    let t := Script.terminal.faulty { read? := some 2 }
    let start : Counted Script := { device := { remaining := ["Ada", "Rome"] } }
    let failed : EStateM.Result (Thrown Empty) (Unit × List Operation × Counted Script)
        (List String) :=
      .error (.failure (.plain "read 2 failed"))
        ((), [.write "Name?", .read "Ada", .write "Town?"],
          { device := ⟨["Rome"], #["Name?", "Town?"]⟩, reads := 2, writes := 2 })
    let programs : List (Console (Thrown Empty) Unit String) :=
      [.write "Name?" readLine, succeed "-", .write "Town?" readLine]
    (∃ joined, collectAll programs () = .ok joined () ∧
        runOn t.recorded.beside joined ((), [], start) = failed) ∧
      ∃ joined, foreach ["Name?", "Town?"] (fun question => pure (.write question readLine)) () =
        .ok joined () ∧ runOn t.recorded.beside joined ((), [], start) = failed := by
  intro t start failed programs
  have hasks : ∀ question, Quiet (.write question readLine : Console (Thrown Empty) Unit String) :=
    fun question => .write quiet_readLine
  have hprograms : ∀ program ∈ programs, program.Quiet := by
    simp only [programs, List.forall_mem_cons]
    exact ⟨hasks _, quiet_succeed _, hasks _, fun _ h => absurd h List.not_mem_nil⟩
  have hbody : ∀ question ∈ ["Name?", "Town?"],
      QuietBuild (pure (.write question readLine) : Host (Thrown Empty) Unit _) :=
    fun question _ => quietBuild_pure (hasks question)
  obtain ⟨⟨joined, hjoined, hrun⟩, built, joined', hbuilt, hjoined', hrun'⟩ :=
    runOn_collectAll t hprograms hbody ()
  cases hbuilt
  exact ⟨⟨joined, hjoined, (hrun [] start).run_eq⟩, joined', hjoined', (hrun' [] start).run_eq⟩

end Teletype.Console
