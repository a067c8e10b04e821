import Teletype.Programs
import Teletype.Proofs.Console.Plain
import Teletype.Proofs.Terminal.Running

/-!
# The sample programs are plain

Each of the sample programs is built without doing anything, and its callbacks are plain functions.
The greeting as a thunk does on every terminal what the greeting as a program does there.
-/

namespace Teletype.Programs

open Console

variable {ε σ : Type}

theorem plainBuild_readInt :
    PlainBuild (readInt : Host ε σ (Console ε σ (Option Number.Whole))) := by
  rw [readInt, readAs, map_eq_bind]
  exact plain_readLine.bind fun line => plainBuild_succeed (Number.Whole.ofText? line)

theorem plainBuild_readIntReport : PlainBuild (readIntReport : Host ε σ (Console ε σ Unit)) := by
  obtain ⟨question, hquestion, hbuilt⟩ := plainBuild_readInt (ε := ε) (σ := σ)
  simp only [readIntReport, hbuilt, pure_bind, zipRight_eq_bind, flatMap_eq_bind]
  have hasked : PlainBuild (bind (fun _ => bind (fun n => pure (succeed n)) question)
      (writeLine "Enter an integer:")) :=
    (plain_writeLine _).bind fun _ => hquestion.bind plainBuild_succeed
  exact hasked.bind fun n => plainBuild_pure (plain_writeLine (integerReport n))

theorem plainBuild_ask (question : String) :
    PlainBuild (ask question : Host ε σ (Console ε σ String)) := by
  rw [ask, flatMap_eq_bind]
  exact (plain_writeLine question).bind fun _ => plainBuild_pure plain_readLine

theorem plainBuild_collectedAnswers :
    PlainBuild (collectedAnswers : Host ε σ (Console ε σ (List String))) :=
  plainBuild_foreach plainBuild_ask

theorem plainBuild_foreachAnswers :
    PlainBuild (foreachAnswers : Host ε σ (Console ε σ (List String))) :=
  plainBuild_foreach plainBuild_ask

theorem plainBuild_reportAnswers (replies : List (Option String)) :
    PlainBuild (reportAnswers replies : Host ε σ (Console ε σ Unit)) := by
  simp only [reportAnswers, void, as, map_eq_bind]
  exact (plainBuild_foreach fun line => plainBuild_pure (plain_writeLine line)).bind fun _ =>
    plainBuild_succeed ()

theorem plainBuild_questionnaire {ask : Host ε σ (Console ε σ (List String))}
    (h : PlainBuild ask) : PlainBuild (questionnaire ask) := by
  simp only [questionnaire, flatMap_eq_bind]
  exact h.bind fun replies => plainBuild_reportAnswers (replies.map some)

/-! ## The greeting -/

/-- The tree of the greeting: one line out, one line in, one line out. -/
theorem sayHello_eq : (sayHello : Host ε σ (Console ε σ Unit)) =
    pure (.write "What is your name?" (.ask fun name => pure (greetUser name))) := by
  simp only [sayHello, flatMap_eq_bind, askName, readName, Console.writeLine, Console.readLine,
    Console.unit, bind_write, bind_ask, bind_succeed, pure_bind, map_pure]

/-- **The greeting is the same in both forms**, on every terminal, also on one that changes the
host. -/
theorem exists_sayHello_eq_thunk : ∃ greeting : Console ε σ Unit, greeting.Plain ∧
    sayHello = pure greeting ∧
      ∀ {τ : Type} (t : Terminal ε (σ × τ)), runOn t greeting = (thunkProgram t).force := by
  refine ⟨_, ?_, sayHello_eq, fun t => ?_⟩
  · exact .write (.ask fun name => plain_writeLine (greeting name))
  · simp only [greetUser, thunkProgram, Thunk.flatMap, printLn, readLn, Thunk.writeLine,
      Thunk.readLine, runOn_write, runOn_ask, runOn_writeLine, onHost_pure, pure_bind, bind_assoc]

end Teletype.Programs
