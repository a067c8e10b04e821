import Mathlib.Tactic.Choose
import Teletype.Proofs.Console.Collecting

/-!
# Plain programs

A program is plain if its callbacks are plain functions: they do not raise, and they neither change
the state of the host nor look at it. Such a program is a tree of reads and writes and nothing else,
so it does the same in every host, also in one whose state a terminal changes under it. Building
plain programs from plain programs is itself a plain value.
-/

namespace Teletype.Console

open Host

variable {ε σ α β : Type}

/-- All callbacks of the program are plain functions, those behind its questions included. -/
inductive Plain : Console ε σ α → Prop
  | succeed (a : α) : Plain (succeed a)
  | write {line : String} {next : Console ε σ α} : Plain next → Plain (.write line next)
  | ask {next : String → Console ε σ α} : (∀ line, Plain (next line)) →
      Plain (.ask fun line => pure (next line))

/-- The action does nothing but return a plain program. -/
def PlainBuild (x : Host ε σ (Console ε σ α)) : Prop := ∃ program, program.Plain ∧ x = pure program

theorem plain_writeLine (line : String) : Plain (writeLine line : Console ε σ Unit) :=
  .write (.succeed ())

theorem plain_readLine : Plain (readLine : Console ε σ String) := .ask fun line => .succeed line

theorem plainBuild_pure {program : Console ε σ α} (h : program.Plain) :
    PlainBuild (pure program) := ⟨program, h, rfl⟩

theorem plainBuild_succeed (a : α) : PlainBuild (pure (succeed a) : Host ε σ (Console ε σ α)) :=
  plainBuild_pure (.succeed a)

/-- **Sequencing plain programs is plain.** -/
theorem Plain.bind {self : Console ε σ α} {f : α → Host ε σ (Console ε σ β)} (hself : self.Plain)
    (hf : ∀ a, PlainBuild (f a)) : PlainBuild (Console.bind f self) := by
  induction hself with
  | succeed a =>
    rw [bind_succeed]
    exact hf a
  | @write line next hnext ih =>
    obtain ⟨joined, hplain, hbuilt⟩ := ih
    refine ⟨.write line joined, .write hplain, ?_⟩
    rw [bind_write, hbuilt, map_pure]
  | @ask next hnext ih =>
    choose joined hplain hbuilt using ih
    refine ⟨.ask fun line => pure (joined line), .ask hplain, ?_⟩
    simp only [bind_ask, pure_bind, hbuilt]

theorem PlainBuild.bind {x : Host ε σ (Console ε σ α)} {f : α → Host ε σ (Console ε σ β)}
    (hx : PlainBuild x) (hf : ∀ a, PlainBuild (f a)) : PlainBuild (x >>= Console.bind f) := by
  obtain ⟨self, hplain, rfl⟩ := hx
  rw [pure_bind]
  exact hplain.bind hf

/-- A list of plain programs is sequenced into a plain program. -/
theorem plainBuild_sequence {programs : List (Console ε σ α)}
    (h : ∀ program ∈ programs, program.Plain) : PlainBuild (sequence programs) := by
  induction programs with
  | nil => exact plainBuild_succeed []
  | cons program rest ih =>
    obtain ⟨hprogram, hrest⟩ := List.forall_mem_cons.1 h
    rw [sequence_cons]
    exact hprogram.bind fun a => (ih hrest).bind fun as => plainBuild_succeed (a :: as)

theorem plainBuild_collectAll {programs : List (Console ε σ α)}
    (h : ∀ program ∈ programs, program.Plain) : PlainBuild (collectAll programs) := by
  rw [collectAll_eq_resume, resume_of_no_results]
  exact plainBuild_sequence h

/-- Plain bodies are built, one for each value, without doing anything. -/
theorem exists_mapM_of_plainBuild (values : List α) {body : α → Host ε σ (Console ε σ β)}
    (h : ∀ a, PlainBuild (body a)) :
    ∃ programs : List (Console ε σ β), (∀ program ∈ programs, program.Plain) ∧
      values.mapM body = pure programs := by
  induction values with
  | nil => exact ⟨[], fun _ h => absurd h List.not_mem_nil, rfl⟩
  | cons a values ih =>
    obtain ⟨program, hplain, hbuilt⟩ := h a
    obtain ⟨programs, hplains, hbuilts⟩ := ih
    refine ⟨program :: programs, List.forall_mem_cons.2 ⟨hplain, hplains⟩, ?_⟩
    rw [List.mapM_cons, hbuilt, hbuilts, pure_bind, pure_bind]

theorem plainBuild_foreach {values : List α} {body : α → Host ε σ (Console ε σ β)}
    (h : ∀ a, PlainBuild (body a)) : PlainBuild (foreach values body) := by
  obtain ⟨programs, hplains, hbuilts⟩ := exists_mapM_of_plainBuild values h
  rw [foreach, hbuilts, pure_bind]
  exact plainBuild_collectAll hplains

end Teletype.Console
