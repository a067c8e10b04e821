import Teletype.Console.Basic

/-!
# Lists of programs

`sequence` runs a list of programs one after another by recursion on the list, and keeps their
results in order. `collectAll` does the same by a loop: as long as the programs only write and end,
their lines run into one sequence of writes and their values into one list; the first question
stops the loop, and the rest of the list is collected behind it.
-/

namespace Teletype.Console

variable {ε σ α β : Type}

/-- What stands behind the leading writes of a program. -/
inductive Tip (ε σ α : Type) where
  | value (value : Host ε σ α)
  | question (next : String → Host ε σ (Console ε σ α))

def Tip.toConsole : Tip ε σ α → Console ε σ α
  | .value produce => .sync produce
  | .question answer => .ask answer

/-- The leading writes of a program, put newest first on top of `lines`, and what stands behind
them. -/
def unroll : Console ε σ α → List String → List String × Tip ε σ α
  | .done value, lines => (lines, .value value)
  | .write line next, lines => unroll next (line :: lines)
  | .read next, lines => (lines, .question next)

/-- Unrolling loses nothing: the lines in front of the tip are the program. -/
theorem prepend_unroll (program : Console ε σ α) (lines : List String) :
    prepend (program.unroll lines).1 (program.unroll lines).2.toConsole =
      prepend lines program := by
  induction program using Console.rec
    (motive_2 := fun _ => True) generalizing lines with
  | done value => rfl
  | write line next ih => simpa [unroll, prepend] using ih (line :: lines)
  | read next _ => rfl
  | ok => trivial
  | error => trivial

/-- Each program, then the rest of the list, by recursion. -/
def sequence : List (Console ε σ α) → Host ε σ (Console ε σ (List α))
  | [] => pure (succeed [])
  | program :: rest => program.flatMap fun a => do
    (← sequence rest).map fun results => pure (a :: results)

/-- Collects the programs that are left, given the results and the lines so far, newest first. -/
def collectFrom (programs : List (Console ε σ α)) (results : List α) (lines : List String) :
    Host ε σ (Console ε σ (List α)) := fun s =>
  match programs with
  | [] => .ok (prepend lines (succeed results.reverse)) s
  | program :: rest =>
    match program.unroll lines with
    | (lines, .value value) =>
      match value s with
      | .ok a s => collectFrom rest (a :: results) lines s
      | .error e s => .error e s
    | (lines, .question next) =>
      .ok (prepend lines (.ask fun line => do
        (← next line).flatMap fun a => collectFrom rest (a :: results) [])) s

/-- Run the programs left to right and keep their results in order. -/
def collectAll (programs : List (Console ε σ α)) : Host ε σ (Console ε σ (List α)) :=
  collectFrom programs [] []

/-- Build one program for each value, then run them left to right. -/
def foreach (values : List α) (body : α → Host ε σ (Console ε σ β)) :
    Host ε σ (Console ε σ (List β)) := do
  collectAll (← values.mapM body)

end Teletype.Console
