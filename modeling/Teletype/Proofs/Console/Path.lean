import Teletype.Proofs.Console.Collecting
import Teletype.Terminal.Journal

/-!
# Paths through programs

A run that comes to a value has taken one path through the tree: it performed certain operations,
and evaluated the callbacks that it met, each where it met it. `Path` says so without a terminal,
from the operations alone. Sequencing joins paths (`exists_paths_of_bind`), although it evaluates
some of the callbacks while it builds: what was evaluated then is not evaluated again, and all the
others are. So a path through what a list was collected into is a path through each program of the
list in turn (`exists_paths_of_collectFrom`).
-/

namespace Teletype.Console

open Host

variable {ε σ α β : Type}

/-- Performing the operations takes the program from the one host state to a value and the other
state. Each callback on the way is evaluated once, in the state in which the path comes to it, and
returns. -/
inductive Path : Console ε σ α → σ → List Operation → α → σ → Prop
  | done {value : Host ε σ α} {s s' : σ} {a : α} : value s = .ok a s' → Path (.done value) s [] a s'
  | write {line : String} {next : Console ε σ α} {s s' : σ} {ops : List Operation} {a : α} :
      Path next s ops a s' → Path (.write line next) s (.write line :: ops) a s'
  | read {next : String → Host ε σ (Console ε σ α)} {line : String} {program : Console ε σ α}
      {s s' s'' : σ} {ops : List Operation} {a : α} : next line s = .ok program s' →
      Path program s' ops a s'' → Path (.read next) s (.read line :: ops) a s''

/-- Paths through the programs of a list, one behind the other, with the values they come to. -/
inductive PathsInTurn :
    List (Console ε σ α) → σ → List (List Operation) → List α → σ → Prop
  | nil {s : σ} : PathsInTurn [] s [] [] s
  | cons {program : Console ε σ α} {programs : List (Console ε σ α)} {s s' s'' : σ}
      {ops : List Operation} {paths : List (List Operation)} {a : α} {as : List α} :
      Path program s ops a s' → PathsInTurn programs s' paths as s'' →
      PathsInTurn (program :: programs) s (ops :: paths) (a :: as) s''

/-- The action builds a program, and the operations are a path through it from there. -/
def BuildsPath (x : Host ε σ (Console ε σ α)) (s : σ) (ops : List Operation) (a : α) (s' : σ) :
    Prop :=
  ∃ program s₁, x s = .ok program s₁ ∧ Path program s₁ ops a s'

section

variable {s s' : σ} {ops : List Operation} {a a' : α} {b : β}

theorem eq_of_path_succeed (h : Path (succeed a : Console ε σ α) s ops a' s') :
    ops = [] ∧ a' = a ∧ s' = s := by
  cases h with
  | done hvalue =>
    cases hvalue
    exact ⟨rfl, rfl, rfl⟩

/-- A path through what is in front of a program leads into the program. -/
theorem exists_path_of_prepend {lines : List String} {program : Console ε σ α}
    (h : Path (prepend lines program) s ops a s') :
    ∃ rest, ops = lines.reverse.map .write ++ rest ∧ Path program s rest a s' := by
  induction lines generalizing program with
  | nil => exact ⟨ops, rfl, h⟩
  | cons line lines ih =>
    rw [prepend_cons] at h
    obtain ⟨rest, rfl, hpath⟩ := ih h
    cases hpath with
    | @write _ _ _ _ behind _ hpath =>
      refine ⟨behind, ?_, hpath⟩
      rw [List.reverse_cons, List.map_append, List.append_assoc]
      rfl

theorem BuildsPath.of_prepend {lines : List String} {x : Host ε σ (Console ε σ α)}
    (h : BuildsPath (prepend lines <$> x) s ops a s') :
    ∃ rest, ops = lines.reverse.map .write ++ rest ∧ BuildsPath x s rest a s' := by
  obtain ⟨joined, s₁, hbuilt, hpath⟩ := h
  obtain ⟨program, hx, rfl⟩ := exists_of_map_ok hbuilt
  obtain ⟨rest, hops, hrest⟩ := exists_path_of_prepend hpath
  exact ⟨rest, hops, program, s₁, hx, hrest⟩

/-! ## Sequencing -/

/-- **A path through what sequencing builds is a path through the first program, and then through
what the continuation builds at its value.** Up to the first question the callbacks are evaluated
while building, and what is left of them is the value; from the first question on they are evaluated
on the path. -/
theorem exists_paths_of_bind {self : Console ε σ α} {f : α → Host ε σ (Console ε σ β)}
    (h : BuildsPath (bind f self) s ops b s') :
    ∃ a s₁ first rest, ops = first ++ rest ∧ Path self s first a s₁ ∧
      BuildsPath (f a) s₁ rest b s' := by
  induction self using Console.induct generalizing s ops with
  | sync value =>
    obtain ⟨joined, s₁, hbuilt, hpath⟩ := h
    rw [bind_sync] at hbuilt
    -- The value was asked for while building, and what was built begins behind it.
    obtain ⟨a, s₂, hvalue, hbuilt⟩ := exists_of_bind_ok hbuilt
    exact ⟨a, s₂, [], ops, rfl, .done hvalue, joined, s₁, hbuilt, hpath⟩
  | write line next ih =>
    obtain ⟨joined, s₁, hbuilt, hpath⟩ := h
    rw [bind_write] at hbuilt
    obtain ⟨behind, hbehind, rfl⟩ := exists_of_map_ok hbuilt
    cases hpath with
    | write hpath =>
      obtain ⟨a, s₂, first, rest, rfl, hself, hrest⟩ := ih ⟨behind, s₁, hbehind, hpath⟩
      exact ⟨a, s₂, .write line :: first, rest, rfl, .write hself, hrest⟩
  | ask next ih =>
    obtain ⟨joined, s₁, hbuilt, hpath⟩ := h
    rw [bind_ask] at hbuilt
    cases hbuilt
    cases hpath with
    | @read _ line joined' _ s₁ _ ops _ hreply hpath =>
      -- Behind a question the building itself waits for the line.
      obtain ⟨program, s₂, hnext, hbehind⟩ := exists_of_bind_ok hreply
      obtain ⟨a, s₃, first, rest, rfl, hself, hrest⟩ :=
        ih line s program s₂ hnext ⟨joined', s₁, hbehind, hpath⟩
      exact ⟨a, s₃, .read line :: first, rest, rfl, .read hnext hself, hrest⟩

/-! ## Lists -/

variable {programs rest : List (Console ε σ α)} {results as : List α} {lines : List String}

/-- By recursion on the list: a path through each program, and the results so far in front. -/
theorem exists_paths_of_resume (h : BuildsPath (resume results programs) s ops as s') :
    ∃ paths more, ops = paths.flatten ∧ as = results.reverse ++ more ∧
      PathsInTurn programs s paths more s' := by
  induction programs generalizing results s ops with
  | nil =>
    obtain ⟨joined, s₁, hbuilt, hpath⟩ := h
    rw [resume_nil] at hbuilt
    cases hbuilt
    obtain ⟨rfl, rfl, rfl⟩ := eq_of_path_succeed hpath
    exact ⟨[], [], rfl, (List.append_nil _).symm, .nil⟩
  | cons program programs ih =>
    rw [resume_cons] at h
    obtain ⟨a, s₁, first, behind, rfl, hself, hrest⟩ := exists_paths_of_bind h
    obtain ⟨paths, more, rfl, rfl, hpaths⟩ := ih hrest
    refine ⟨first :: paths, a :: more, rfl, ?_, .cons hself hpaths⟩
    rw [List.reverse_cons, List.append_assoc, List.singleton_append]

/-- **What the loop has left to collect is gone through in turn**, behind the lines so far. -/
theorem exists_paths_of_collectFrom
    (h : BuildsPath (collectFrom programs results lines) s ops as s') :
    ∃ paths more, ops = lines.reverse.map .write ++ paths.flatten ∧
      as = results.reverse ++ more ∧ PathsInTurn programs s paths more s' := by
  rw [collectFrom_eq] at h
  obtain ⟨behind, rfl, hbuilds⟩ := h.of_prepend
  obtain ⟨paths, more, rfl, hresults, hpaths⟩ := exists_paths_of_resume hbuilds
  exact ⟨paths, more, rfl, hresults, hpaths⟩

end

/-! ## The first program that reads -/

/-- The producer at the end of the program, if the program comes there without a question. -/
def producer? : Console ε σ α → Option (Host ε σ α)
  | .done value => some value
  | .write _ next => producer? next
  | .read _ => none

/-- The lines that the program writes before anything else. -/
def leading : Console ε σ α → List String
  | .done _ => []
  | .write line next => line :: leading next
  | .read _ => []

/-- The place of the first program that reads, or the length of the list if none does. -/
def firstRead (programs : List (Console ε σ α)) : Nat :=
  programs.findIdx fun program => program.producer?.isNone

/-- The producers of the programs in front of the first one that reads. -/
def producers (programs : List (Console ε σ α)) : List (Host ε σ α) :=
  (programs.take (firstRead programs)).filterMap producer?

section

variable {program : Console ε σ α} {value : Host ε σ α} {programs ended rest : List (Console ε σ α)}
  {values : List (Host ε σ α)}

theorem firstRead_cons_of_reads (h : program.producer? = none) (programs : List (Console ε σ α)) :
    firstRead (program :: programs) = 0 := by
  simp [firstRead, List.findIdx_cons, h]

theorem firstRead_cons_of_producer (h : program.producer? = some value)
    (programs : List (Console ε σ α)) :
    firstRead (program :: programs) = firstRead programs + 1 := by
  simp [firstRead, List.findIdx_cons, h]

/-- All programs in front of the first one that reads have a producer. -/
theorem map_producer?_take (programs : List (Console ε σ α)) :
    (programs.take (firstRead programs)).map producer? = (producers programs).map some := by
  unfold producers
  induction programs with
  | nil => rfl
  | cons program programs ih =>
    cases h : program.producer? with
    | none =>
      rw [firstRead_cons_of_reads h]
      rfl
    | some value =>
      rw [firstRead_cons_of_producer h, List.take_succ_cons, List.map_cons,
        List.filterMap_cons_some h, ih, h, List.map_cons]

theorem length_producers (programs : List (Console ε σ α)) :
    (producers programs).length = firstRead programs := by
  have hlength := congrArg List.length (map_producer?_take programs)
  have hle : firstRead programs ≤ programs.length := List.findIdx_le_length
  rw [List.length_map, List.length_map, List.length_take] at hlength
  omega

/-- The first program behind them has none. -/
theorem head?_drop_firstRead (programs : List (Console ε σ α)) :
    ∀ program ∈ (programs.drop (firstRead programs)).head?, program.producer? = none := by
  induction programs with
  | nil => nofun
  | cons program programs ih =>
    cases h : program.producer? with
    | none =>
      rw [firstRead_cons_of_reads h, List.drop_zero, List.head?_cons]
      rintro _ ⟨⟩
      exact h
    | some value =>
      rw [firstRead_cons_of_producer h, List.drop_succ_cons]
      exact ih

theorem unroll_of_producer (h : program.producer? = some value) (lines : List String) :
    program.unroll lines = (program.leading.reverse ++ lines, .value value) := by
  induction program using Console.induct generalizing lines with
  | sync value' =>
    cases h
    rfl
  | write line next ih =>
    have hnext := ih h (line :: lines)
    change next.unroll (line :: lines) = ((line :: next.leading).reverse ++ lines, _)
    rw [hnext, List.reverse_cons, List.append_assoc, List.singleton_append]
  | ask next _ => cases h

theorem exists_unroll_of_reads (h : program.producer? = none) (lines : List String) :
    ∃ lines' next, program.unroll lines = (lines', .question next) := by
  induction program using Console.induct generalizing lines with
  | sync value => cases h
  | write line next ih => exact ih h (line :: lines)
  | ask next _ => exact ⟨lines, next, rfl⟩

/-- In front of the first program that reads, the loop forces one producer after the other. -/
theorem collectFrom_append (h : ended.map producer? = values.map some)
    (rest : List (Console ε σ α)) (results : List α) (lines : List String) :
    collectFrom (ended ++ rest) results lines = values.mapM id >>= fun as =>
      collectFrom rest (as.reverse ++ results) ((ended.flatMap leading).reverse ++ lines) := by
  induction ended generalizing values results lines with
  | nil =>
    obtain rfl : values = [] := List.map_eq_nil_iff.1 h.symm
    rw [List.mapM_nil, pure_bind]
    rfl
  | cons program ended ih =>
    cases values with
    | nil => cases h
    | cons value values =>
      obtain ⟨hvalue, hothers⟩ := List.cons.inj h
      rw [List.cons_append, collectFrom_cons, unroll_of_producer hvalue, List.mapM_cons, bind_assoc]
      simp only [ih hothers, bind_assoc, pure_bind, id, List.flatMap_cons, List.reverse_append,
        List.reverse_cons, List.append_assoc, List.singleton_append]

/-- From the first program that reads on, and where none is left, the loop evaluates nothing. -/
theorem exists_collectFrom_eq_pure (h : ∀ program ∈ rest.head?, program.producer? = none)
    (results : List α) (lines : List String) :
    ∃ joined, collectFrom rest results lines = pure joined := by
  cases rest with
  | nil => exact ⟨_, rfl⟩
  | cons program rest =>
    obtain ⟨lines', next, hunroll⟩ := exists_unroll_of_reads (h program rfl) lines
    rw [collectFrom_cons, hunroll]
    exact ⟨_, rfl⟩

end

end Teletype.Console
