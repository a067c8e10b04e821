import Teletype.Command.Run
import Teletype.Proofs.Programs
import Teletype.Proofs.Terminal.Tracing

/-!
# What a command asks of its terminal

A command can be run on a terminal that keeps what is asked of it, whichever way the terminal is
come by (`Setup.attempted`). Keeping it changes nothing else: when what was kept is forgotten, the
run is the command's run on the terminal itself (`runCommand_covers`). `Ends` says both runs at
once.
-/

namespace Teletype.Command

open Host Console
open Settings (Store)

variable {V τ α : Type}

/-- A connection to a terminal that keeps what is asked of it. -/
def Connection.attempted (connect : Connection V τ) :
    Connection V (List (Attempt (Thrown V)) × τ) := fun sources (store, attempts, c) =>
  match connect sources (store, c) with
  | .ok t (store, c) => .ok t.attempted (store, attempts, c)
  | .error e (store, c) => .error e (store, attempts, c)

def Setup.attempted (setup : Setup V τ) : Setup V (List (Attempt (Thrown V)) × τ) where
  connect := setup.connect.attempted
  sources := setup.sources
  color? := setup.color?
  tty := setup.tty

section

variable {setup : Setup V τ} {desk : Desk} {store : Store} {c c' : τ}
  {attempts : List (Attempt (Thrown V))} {e : Thrown V} {t : Terminal (Thrown V) τ}

theorem onStore_of_ok {step : EStateM (Thrown V) (Store × τ) α} {a : α}
    (h : step (desk.store, c) = .ok a (store, c')) :
    onStore step (desk, c) = .ok a ({ desk with store }, c') := by
  simp only [onStore, h]

theorem onStore_of_error {step : EStateM (Thrown V) (Store × τ) α}
    (h : step (desk.store, c) = .error e (store, c')) :
    onStore step (desk, c) = .error e ({ desk with store }, c') := by
  simp only [onStore, h]

theorem connect_attempted_of_ok
    (h : setup.connect setup.sources (desk.store, c) = .ok t (store, c')) :
    onStore (setup.attempted.connect setup.sources) (desk, attempts, c) =
      .ok t.attempted ({ desk with store }, attempts, c') :=
  onStore_of_ok (by simp only [Setup.attempted, Connection.attempted, h])

theorem connect_attempted_of_error
    (h : setup.connect setup.sources (desk.store, c) = .error e (store, c')) :
    onStore (setup.attempted.connect setup.sources) (desk, attempts, c) =
      .error e ({ desk with store }, attempts, c') :=
  onStore_of_error (by simp only [Setup.attempted, Connection.attempted, h])

end

/-! ## Programs -/

/-- Each program that can be named is plain, the one that is a thunk included. -/
theorem ProgramName.exists_plain (name : ProgramName) :
    ∃ program : Console (Thrown V) Desk Unit, program.Plain ∧
      ∀ {τ : Type} (t : Terminal (Thrown V) (Desk × τ)), name.perform t = runOn t program := by
  have hbuild : ∀ {build : Host (Thrown V) Desk (Console (Thrown V) Desk Unit)},
      PlainBuild build → ∃ program : Console (Thrown V) Desk Unit, program.Plain ∧
        ∀ {τ : Type} (t : Terminal (Thrown V) (Desk × τ)),
          ProgramName.perform.performing t build = runOn t program := by
    rintro _ ⟨program, hplain, rfl⟩
    exact ⟨program, hplain, fun t => rfl⟩
  obtain ⟨greeting, hplain, hbuilt, hforce⟩ :=
    Programs.exists_sayHello_eq_thunk (ε := Thrown V) (σ := Desk)
  cases name with
  | hello => exact hbuild ⟨greeting, hplain, hbuilt⟩
  | questions =>
    exact hbuild (Programs.plainBuild_questionnaire Programs.plainBuild_collectedAnswers)
  | questionsForeach =>
    exact hbuild (Programs.plainBuild_questionnaire Programs.plainBuild_foreachAnswers)
  | readInt => exact hbuild Programs.plainBuild_readIntReport
  | thunk => exact ⟨greeting, hplain, fun t => (hforce t).symm⟩

theorem perform_covers {τ' : Type} {view : Desk × τ → Desk × τ'} (name : ProgramName)
    {t : Terminal (Thrown V) (Desk × τ)} {u : Terminal (Thrown V) (Desk × τ')}
    (h : t.Covers view u) : Covers view (name.perform t) (name.perform u) := by
  obtain ⟨program, hplain, hperform⟩ := name.exists_plain (V := V)
  rw [hperform, hperform]
  exact hplain.runOn_covers h

/-! ## Forgetting what was asked -/

theorem onHost_covers {σ : Type} (action : Host (Thrown V) σ α) :
    Covers forget (onHost action : EStateM _ (σ × List (Attempt (Thrown V)) × τ) α)
      (onHost action) := by
  rintro ⟨s, attempts, c⟩
  cases h : action s <;> simp [forget, onHost, outcomeOf, h]

theorem onStore_covers {x : EStateM (Thrown V) (Store × List (Attempt (Thrown V)) × τ) α}
    {y : EStateM (Thrown V) (Store × τ) α} (h : Covers forget x y) :
    Covers forget (onStore x) (onStore y) := by
  rintro ⟨desk, attempts, c⟩
  cases hx : x (desk.store, attempts, c) with
  | ok a w =>
    have hy : y (desk.store, c) = .ok a (forget w) := h.of_ok hx
    simp [forget, onStore, outcomeOf, hx, hy]
  | error e w =>
    have hy : y (desk.store, c) = .error e (forget w) := h.of_error hx
    simp [forget, onStore, outcomeOf, hx, hy]

theorem log_covers (logger : Logger) (level : Level) (message : String) :
    Covers forget (logger.log printErr level message : Work V (List (Attempt (Thrown V)) × τ) Unit)
      (logger.log printErr level message) := by
  unfold Logger.log
  split
  · exact fun _ => rfl
  · exact .pure ()

theorem chooseLogger_covers (setup : Setup V τ) (verbose : Bool) :
    Covers forget (chooseLogger setup.attempted verbose) (chooseLogger setup verbose) := by
  unfold chooseLogger
  split
  · exact .pure _
  · exact (onStore_covers (onHost_covers _)).bind fun debug => .pure _

theorem attemptProgram_covers (setup : Setup V τ) (verbose : Bool) (name : ProgramName) :
    Covers forget (attemptProgram setup.attempted verbose name)
      (attemptProgram setup verbose name) := by
  refine (chooseLogger_covers setup verbose).bind fun logger => ?_
  rintro ⟨desk, attempts, c⟩
  cases hopen : setup.connect setup.sources (desk.store, c) with
  | error e w =>
    exact Covers.bind_at_error (connect_attempted_of_error hopen) (onStore_of_error hopen)
  | ok t w =>
    refine Covers.bind_at_ok (connect_attempted_of_ok hopen) (onStore_of_ok hopen) ?_
    refine (log_covers logger .debug _).bind fun _ => (perform_covers name ?_).bind fun _ =>
      log_covers logger .debug _
    split
    · exact t.attempted_covers.traced (log_covers logger .debug)
    · exact t.attempted_covers

/-- A value is put into words on the terminal's side. Nothing is asked of the terminal for it. -/
instance [HasText V τ] : HasText V (List (Attempt (Thrown V)) × τ) :=
  ⟨fun v => onDevice (HasText.text v)⟩

section

variable [HasText V τ]

theorem toFailure_attempted (e : Thrown V) :
    (e.toFailure : EStateM (Thrown V) (List (Attempt (Thrown V)) × τ) Failure) =
      onDevice e.toFailure := by
  cases e with
  | failure f => rfl
  | value v =>
    funext w
    simp only [Thrown.toFailure, HasText.text]
    cases h : HasText.text v w.2 with
    | ok text c =>
      rw [map_of_ok (onDevice_of_ok h)]
      exact (onDevice_of_ok (map_of_ok h)).symm
    | error e c =>
      rw [map_of_error (onDevice_of_error h)]
      exact (onDevice_of_error (map_of_error h)).symm

theorem reportRaised_covers (setup : Setup V τ) (e : Thrown V) :
    Covers forget (reportRaised setup.attempted e) (reportRaised setup e) := by
  rw [reportRaised, reportRaised, toFailure_attempted]
  refine Covers.bind ?_ fun f => (log_covers _ .error _).bind fun _ => .pure ExitCode.failure
  rintro ⟨desk, attempts, c⟩
  cases h : (e.toFailure : EStateM (Thrown V) τ Failure) c <;>
    simp [forget, onDevice, outcomeOf, h]

theorem runProgram_covers (setup : Setup V τ) (verbose : Bool) (name : ProgramName) :
    Covers forget (runProgram setup.attempted verbose name) (runProgram setup verbose name) := by
  intro w
  have hattempt := attemptProgram_covers setup verbose name
  cases hrun : attemptProgram setup.attempted verbose name w with
  | ok u w' => simp only [outcomeOf, runProgram, hrun, hattempt.of_ok hrun, Prod.map_apply, id]
  | error e w' =>
    have hreport := reportRaised_covers setup e w'
    simpa only [outcomeOf, runProgram, hrun, hattempt.of_error hrun] using hreport

/-- **Keeping what is asked of the terminal changes nothing else.** -/
theorem runCommand_covers (setup : Setup V τ) (args : List String) :
    Covers forget (runCommand setup.attempted args) (runCommand setup args) := by
  unfold runCommand
  split
  · exact (log_covers _ .error _).bind fun _ =>
      Covers.bind (fun _ => rfl) fun _ => .pure ExitCode.usage
  · split
    · exact runProgram_covers setup _ _
    · exact Covers.bind (fun _ => rfl) fun _ => .pure ExitCode.success

/-- A command ends so, with an exit code or raising, and leaves the desk and the terminal so, after
these attempts on the terminal: its run, and its run on the terminal that keeps the attempts. -/
structure Ends (setup : Setup V τ) (args : List String) (desk : Desk) (c : τ)
    (result : Except (Thrown V) ExitCode) (desk' : Desk) (attempts : List (Attempt (Thrown V)))
    (c' : τ) : Prop where
  run : outcomeOf (runCommand setup args) (desk, c) = (result, desk', c')
  attempted : outcomeOf (runCommand setup.attempted args) (desk, [], c) =
    (result, desk', attempts, c')

section

variable {setup : Setup V τ} {args : List String} {desk desk₁ desk₂ : Desk} {c c₁ c₂ : τ}
  {result result₂ : Except (Thrown V) ExitCode} {attempts : List (Attempt (Thrown V))}

theorem ends_of_attempted (h : outcomeOf (runCommand setup.attempted args) (desk, [], c) =
    (result, desk₁, attempts, c₁)) : Ends setup args desk c result desk₁ attempts c₁ := by
  have hrun := runCommand_covers setup args (desk, [], c)
  rw [h] at hrun
  exact ⟨hrun, h⟩

/-- A command ends as its run says. -/
theorem Ends.of_run (h : Ends setup args desk c result desk₁ attempts c₁)
    (hrun : outcomeOf (runCommand setup args) (desk, c) = (result₂, desk₂, c₂)) :
    Ends setup args desk c result₂ desk₂ attempts c₂ := by
  cases h.run.symm.trans hrun
  exact h

end

end

end Teletype.Command
