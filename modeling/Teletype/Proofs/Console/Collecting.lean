import Teletype.Console.Collect
import Teletype.Proofs.Console.Sequencing

/-!
# The loop that collects is the recursion on the list

`collectFrom` carries the results and the lines so far, and leaves its loop at the first question.
What it builds from there is `resume`: the recursion on the rest of the list, with the results so
far put in front of the final list. The lines so far stand before all of that.
-/

namespace Teletype.Console

open Host

variable {ε σ α : Type}

theorem sequence_nil : sequence ([] : List (Console ε σ α)) = pure (succeed []) := rfl

theorem sequence_cons (program : Console ε σ α) (rest : List (Console ε σ α)) :
    sequence (program :: rest) =
      bind (fun a => sequence rest >>= bind fun as => pure (succeed (a :: as))) program := by
  simp only [sequence, flatMap_eq_bind, map_eq_bind]
  rfl

/-- The rest of a list of programs, behind results that are already there, newest first. -/
def resume (results : List α) (programs : List (Console ε σ α)) : Host ε σ (Console ε σ (List α)) :=
  sequence programs >>= bind fun as => pure (succeed (results.reverse ++ as))

theorem resume_nil (results : List α) :
    resume results ([] : List (Console ε σ α)) = pure (succeed results.reverse) := by
  rw [resume, sequence_nil, pure_bind, bind_succeed, List.append_nil]

/-- The result of the first program joins the results that are there. -/
theorem resume_cons (results : List α) (program : Console ε σ α) (rest : List (Console ε σ α)) :
    resume results (program :: rest) = bind (fun a => resume (a :: results) rest) program := by
  have hjoin : ∀ (a : α) (as : List α), results.reverse ++ a :: as = (a :: results).reverse ++ as :=
    fun a as => by rw [List.reverse_cons, List.append_assoc, List.singleton_append]
  simp only [resume, sequence_cons, bind_bind, bind_assoc, pure_bind, bind_succeed, hjoin]

/-- With no results yet, the rest is the whole list. The value at the end of a sequence is a list
that is already there, so asking for it once more changes nothing. -/
theorem resume_of_no_results (programs : List (Console ε σ α)) :
    resume [] programs = sequence programs := by
  cases programs with
  | nil => rw [resume_nil, sequence_nil, List.reverse_nil]
  | cons program rest =>
    rw [resume_cons, sequence_cons]
    rfl

/-- What the loop makes of the node behind the leading writes. -/
theorem collectFrom_cons (program : Console ε σ α) (rest : List (Console ε σ α)) (results : List α)
    (lines : List String) :
    collectFrom (program :: rest) results lines =
      match program.unroll lines with
      | (lines, .value value) => value >>= fun a => collectFrom rest (a :: results) lines
      | (lines, .question next) => pure (prepend lines (.ask fun line =>
          next line >>= bind fun a => collectFrom rest (a :: results) [])) := by
  funext s
  rw [collectFrom]
  cases program.unroll lines with
  | mk lines tip =>
    cases tip with
    | value value =>
      simp only
      cases hv : value s with
      | ok a s' => rw [bind_of_ok hv]
      | error e s' => rw [bind_of_error hv]
    | question next =>
      simp only [flatMap_eq_bind]
      rfl

/-- **Each step of the loop is a step of the recursion.** -/
theorem collectFrom_eq (programs : List (Console ε σ α)) (results : List α) (lines : List String) :
    collectFrom programs results lines = prepend lines <$> resume results programs := by
  induction programs generalizing results lines with
  | nil =>
    funext s
    rw [resume_nil, map_pure, collectFrom]
    rfl
  | cons program rest ih =>
    have hunroll := prepend_unroll program lines
    rw [resume_cons, ← bind_prepend, ← hunroll, bind_prepend, collectFrom_cons]
    cases program.unroll lines with
    | mk lines tip =>
      cases tip with
      | value value =>
        simp only [Tip.toConsole, bind_sync, ih, map_bind]
      | question next =>
        have hrest : ∀ a, collectFrom rest (a :: results) [] = resume (a :: results) rest :=
          fun a => (ih (a :: results) []).trans (id_map _)
        simp only [Tip.toConsole, bind_ask, hrest, map_pure]

/-- The loop begins with no results and no lines. -/
theorem collectAll_eq_resume (programs : List (Console ε σ α)) :
    collectAll programs = resume [] programs := by
  rw [collectAll, collectFrom_eq]
  exact id_map (resume [] programs)

/-- **Collecting by the loop is collecting by recursion on the list**, as an action of the host:
building does the same to the host's state, raises the same, and gives the same tree. -/
theorem collectAll_eq_sequence (programs : List (Console ε σ α)) :
    collectAll programs = sequence programs := by
  rw [collectAll_eq_resume, resume_of_no_results]

end Teletype.Console
