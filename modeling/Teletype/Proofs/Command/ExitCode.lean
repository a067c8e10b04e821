import Teletype.Proofs.Command.Course
import Teletype.Recipe.Value

/-!
# What an exit code says

Whatever its arguments, its settings and its terminal do, a command answers with an exit code, with
one exception. The code says which of three things happened: the arguments were rejected, before
anything was touched; the command came to its end; or something raised on the way, which is then
reported in one line, the last on the error stream. The exception is a bare value that cannot be put
into words: then the command raises.
-/

namespace Teletype.Command

open Settings (Sources)

variable {V τ : Type}

/-- The line is marked as an error, in a colored log or a plain one. -/
def marksError (color : Bool) (line : String) : Bool :=
  (Logger.paint { verbose := false, color } .error).toList.isPrefixOf line.toList

theorem marksError_debug (logger : Logger) (message : String) :
    marksError logger.color (logger.line .debug message) = false := by
  obtain ⟨verbose, color⟩ := logger
  cases color <;>
    simp [marksError, Logger.line, Logger.paint, colorSwitch, Level.sign, Level.color,
      List.isPrefixOf]

theorem marksError_error (logger : Logger) (message : String) :
    marksError logger.color (logger.line .error message) = true := by
  obtain ⟨verbose, color⟩ := logger
  simp [marksError, Logger.line, Logger.paint, String.toList_append]

/-- On the error stream of a course, its report is all that is marked as an error. -/
theorem filter_marksError [HasText V τ] {setup : Setup V τ} {outcome : Except (Thrown V) Unit}
    {result : Except (Thrown V) ExitCode} {errors : List String} {c c' : τ}
    (h : Reported setup outcome c result errors c') (messages : List String) :
    (messages.map ((setup.logger true).line .debug) ++ errors).filter
        (marksError (setup.color?.getD setup.tty)) = errors := by
  have hdebug : (messages.map ((setup.logger true).line .debug)).filter
      (marksError (setup.color?.getD setup.tty)) = [] := by
    rw [List.filter_eq_nil_iff, List.forall_mem_map]
    intro message _
    exact Bool.eq_false_iff.1 (marksError_debug (setup.logger true) message)
  rw [List.filter_append, hdebug, List.nil_append]
  cases h with
  | returned => rfl
  | @told _ f => exact List.filter_cons_of_pos (marksError_error (setup.logger false) f.message)
  | untold => rfl

/-- A list of arguments that is accepted names a program or asks for help. -/
theorem exists_program {args : List String} {options : Options}
    (h : parseArguments args = .ok options) (hhelp : options.help = false) :
    ∃ name, options.program? = some name := by
  rw [parseArguments] at h
  split at h
  · cases h
  · split at h
    · cases h
    · next o _ hprogram =>
      cases h
      simpa [hhelp, Option.isNone_iff_eq_none, Option.ne_none_iff_exists'] using hprogram

/-- **The exit code tells exactly what happened.** From any desk, whatever the arguments, the
settings and the terminal do, a command answers 2 exactly if the arguments are rejected: then the
error stream has the rejection and the hint and nothing else happens, with any terminal and any
settings. If help is asked for, it answers 0 and prints the help. Otherwise it has a course, and
only one (`Course.unique`), and what was attempted stands. It answers 0 if the course comes to its
end. If the course raises, it answers 1, and what was raised is the last line on the error stream
and the only one that is marked as an error. But if what was raised is a bare value and putting it
into words raises, there is no such line, and the command raises that. -/
theorem runCommand_exitCode [HasText V τ] (setup : Setup V τ) (args : List String) (desk : Desk)
    (c : τ) : ∃ result desk' attempts c', Ends setup args desk c result desk' attempts c' ∧
      match parseArguments args with
      | .error rejection =>
        result.map ExitCode.toNat = .ok 2 ∧ attempts = [] ∧ c' = c ∧
          desk' = desk.say [Logger.line { verbose := false, color := setup.color?.getD false }
            .error rejection.message, usageHint] ∧
          ∀ (connect : Connection V τ) (sources : Sources),
            outcomeOf (runCommand { setup with connect, sources } args) (desk, c) =
              (result, desk', c')
      | .ok options =>
        if options.help then
          result.map ExitCode.toNat = .ok 0 ∧ attempts = [] ∧ c' = c ∧
            desk' = { desk with stdout := desk.stdout.push helpText }
        else
          ∃ name outcome messages store c₁ errors, options.program? = some name ∧
            Course setup options.verbose name desk.store c outcome messages attempts store c₁ ∧
            Reported setup outcome c₁ result errors c' ∧
            let lines := messages.map ((setup.logger true).line .debug) ++ errors
            desk' = Desk.say { desk with store } lines ∧
              lines.filter (marksError (setup.color?.getD setup.tty)) = errors ∧
              (∀ code, result = .ok code →
                code.toNat = match outcome with | .ok () => 0 | .error _ => 1) ∧
              ∀ e, result = .error e →
                ∃ v, outcome = .error (.value v) ∧ HasText.text v c₁ = .error e c' := by
  cases hparse : parseArguments args with
  | error rejection =>
    have hrun : runCommand setup.attempted args (desk, [], c) = _ :=
      runCommand_of_rejected hparse desk ([], c)
    have hends := ends_of_attempted (outcomeOf_eq_ok.2 hrun)
    refine ⟨.ok .usage, _, [], c, hends, rfl, rfl, rfl, rfl, ?_⟩
    exact fun connect sources => outcomeOf_eq_ok.2 (runCommand_of_rejected hparse desk c)
  | ok options =>
    cases hhelp : options.help with
    | true =>
      have hrun : runCommand setup.attempted args (desk, [], c) = _ :=
        runCommand_of_help hparse hhelp desk ([], c)
      refine ⟨.ok .success, _, [], c, ends_of_attempted (outcomeOf_eq_ok.2 hrun), ?_⟩
      simp only [hhelp, if_true]
      exact ⟨rfl, trivial, trivial, trivial⟩
    | false =>
      obtain ⟨name, hprogram⟩ := exists_program hparse hhelp
      obtain ⟨outcome, messages, attempts, store, c₁, result, errors, c', hcourse, hreported,
        hrun⟩ := runProgram_course setup options.verbose name desk c
      have hcommand : runCommand setup.attempted args = _ :=
        runCommand_of_program hparse hhelp hprogram
      refine ⟨result, _, attempts, c',
        ends_of_attempted ((outcomeOf_congr (congrFun hcommand _)).trans hrun), ?_⟩
      simp only [hhelp, Bool.false_eq_true, if_false]
      refine ⟨name, outcome, messages, store, c₁, errors, hprogram, hcourse, hreported, rfl,
        filter_marksError hreported messages, ?_, ?_⟩
      · rintro code rfl
        cases hreported <;> rfl
      · rintro e rfl
        exact hreported.exists_of_error

/-- A terminal raises a record that has no text when it is asked for a line, and so the command
raises. -/
theorem runCommand_raises :
    let record : Recipe.Value := .record [("toString", .number (.ofNat 1))]
    let t : Terminal (Thrown Recipe.Value) Unit := ⟨throw (.value record), fun _ => pure ()⟩
    let setup : Setup Recipe.Value Unit :=
      { connect := .given t, sources := { search := fun _ => .ok none, environment := [] } }
    ∃ desk, runCommand setup ["hello"] ({}, ()) = .error (.failure .noText) (desk, ()) :=
  ⟨_, rfl⟩

end Teletype.Command
