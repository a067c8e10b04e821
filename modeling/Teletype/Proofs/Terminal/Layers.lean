import Teletype.Proofs.Programs
import Teletype.Proofs.Terminal.Collection
import Teletype.Proofs.Terminal.Tracing

/-!
# One expression, two layers

An expression names what both layers offer: reading, writing, a value, mapping and sequencing. It is
built into a program, which is a tree that was rewritten while it was built and is then run; and it
is built into a thunk, which is a nest of closures that act when they are forced. On every terminal
the two do the same. The induction is on the expression; sequencing is the case with an argument,
and that argument is `BuildsRun.bind`.
-/

namespace Teletype

open Host

variable {ε σ τ α β : Type}

/-- The action that looks at the state and leaves it. -/
def Host.reading (f : σ → α) : Host ε σ α := fun s => .ok (f s) s

/-- The action that the state chooses. -/
def Host.choosing (x : σ → Host ε σ α) : Host ε σ α := fun s => x s s

theorem Host.quiet_reading (f : σ → α) : Host.Quiet (reading f : Host ε σ α) :=
  fun s => ⟨f s, rfl⟩

/-- What both layers can say. The callbacks are functions that may look at the host's state; they
cannot change it, and they cannot raise. -/
inductive Expression (σ : Type) : Type → Type 1 where
  | readLine : Expression σ String
  | writeLine (line : String) : Expression σ Unit
  | succeed {α : Type} (a : α) : Expression σ α
  | map {α β : Type} (self : Expression σ α) (f : α → σ → β) : Expression σ β
  | flatMap {α β : Type} (self : Expression σ α) (f : α → σ → Expression σ β) : Expression σ β

namespace Expression

/-- The program that is built from an expression. -/
def toConsole {α : Type} : Expression σ α → Host ε σ (Console ε σ α)
  | readLine => pure .readLine
  | writeLine line => pure (.writeLine line)
  | succeed a => pure (.succeed a)
  | map self f => do (← self.toConsole).map fun a => reading (f a)
  | flatMap self f => do (← self.toConsole).flatMap fun a => choosing fun s => (f a s).toConsole

/-- The thunk that is built from an expression, over a terminal. -/
def toThunk {α : Type} (t : Terminal ε (σ × τ)) : Expression σ α → Thunk ε (σ × τ) α
  | readLine => .readLine t
  | writeLine line => .writeLine t line
  | succeed a => .succeed (pure a)
  | map self f => (self.toThunk t).map fun a => onHost (reading (f a))
  | flatMap self f => (self.toThunk t).flatMap fun a => onHost (reading fun s => (f a s).toThunk t)

end Expression

namespace Console

variable {t : Terminal ε τ}

/-- A callback that looks at the host's state is run at the end of the program. -/
theorem buildsRun_reading (t : Terminal ε τ) (f : σ → α) :
    BuildsRun t (pure (.sync (reading f)) : Host ε σ (Console ε σ α)) (onHost (reading f)) :=
  fun _ => ⟨.sync (reading f), rfl, .done (quiet_reading f),
    fun _ => congrFun (runOn_sync _ _) _⟩

/-- A choice that looks at the host's state builds what it chose. -/
theorem buildsRun_choice {x : σ → Host ε σ (Console ε σ α)} {thunk : σ → Thunk ε (σ × τ) α}
    (h : ∀ s, BuildsRun t (x s) (thunk s).force) :
    BuildsRun t (choosing x) (do (← onHost (reading thunk)).force) := by
  intro s
  obtain ⟨program, hbuilt, hquiet, hrun⟩ := h s s
  refine ⟨program, hbuilt, hquiet, fun c => (hrun c).trans ?_⟩
  exact (bind_of_ok (onHost_of_ok rfl)).symm

/-- **What is built from an expression does on the terminal what its thunk does.** -/
theorem buildsRun_expression (t : Terminal ε τ) (e : Expression σ α) :
    BuildsRun t e.toConsole (e.toThunk t.beside).force := by
  induction e with
  | readLine =>
    have hrun := buildsRun_pure (σ := σ) t quiet_readLine
    rwa [runOn_readLine] at hrun
  | writeLine line =>
    have hquiet : (Console.writeLine line : Console ε σ Unit).Quiet := .write (quiet_succeed ())
    have hrun := buildsRun_pure t hquiet
    rwa [runOn_writeLine] at hrun
  | succeed a => exact buildsRun_succeed t a
  | map self f ih =>
    simp only [Expression.toConsole, map_eq_bind]
    exact ih.bind fun a => buildsRun_reading t (f a)
  | flatMap self f ih ihf =>
    simp only [Expression.toConsole, flatMap_eq_bind]
    exact ih.bind fun a => buildsRun_choice (ihf a)

/-! ## Again and again -/

/-- The two ways of doing what an expression says. -/
inductive Layer where
  | console
  | thunk

def Layer.perform (t : Terminal ε (σ × τ)) (program : Console ε σ α) (thunk : Thunk ε (σ × τ) α) :
    Layer → EStateM ε (σ × τ) α
  | .console => runOn t program
  | .thunk => thunk.force

/-- Where the two do the same once, they do the same in any number of turns, however these are
mixed: a turn leaves the host as it was, also where it failed. -/
theorem inTurn_layers {program : Console ε σ α} {thunk : Thunk ε (σ × τ) α} {s : σ}
    (hquiet : program.Quiet) (hsame : ∀ c, runOn t.beside program (s, c) = thunk.force (s, c))
    (layers : List Layer) (c : τ) :
    inTurn outcomeOf (layers.map (Layer.perform t.beside program thunk)) (s, c) =
      inTurn outcomeOf (List.replicate layers.length (runOn t.beside program)) (s, c) := by
  induction layers generalizing c with
  | nil => rfl
  | cons layer layers ih =>
    have hfirst : outcomeOf (layer.perform t.beside program thunk) (s, c) =
        outcomeOf (runOn t.beside program) (s, c) := by
      cases layer with
      | console => rfl
      | thunk => exact outcomeOf_congr (hsame c).symm
    rw [List.map_cons, List.length_cons, List.replicate_succ]
    simp only [inTurn, hfirst]
    rcases hquiet.runOn_keeps_host t s c with ⟨a, c', hrun⟩ | ⟨e, c', hrun⟩
    · rw [outcomeOf_eq_ok.2 hrun]
      simp only [ih c']
    · rw [outcomeOf_eq_error.2 hrun]
      simp only [ih c']

/-- **The two layers agree.** An expression is built, which does nothing to the host, and on every
terminal, with what was asked of it so far in `attempts`, running the program and forcing the thunk
do the same; and so do any number of turns, each of either kind, one after another. The sample
greeting is such a pair. -/
theorem layers_agree (e : Expression σ α) (t : Terminal ε τ) (s : σ) :
    (∃ program, e.toConsole s = .ok program s ∧ ∀ attempts c,
      runOn t.attempted.beside program (s, attempts, c) =
        (e.toThunk t.attempted.beside).force (s, attempts, c) ∧
      ∀ layers : List Layer,
        inTurn outcomeOf (layers.map
            (Layer.perform t.attempted.beside program (e.toThunk t.attempted.beside)))
            (s, attempts, c) =
          inTurn outcomeOf (List.replicate layers.length (runOn t.attempted.beside program))
            (s, attempts, c)) ∧
    ∃ greeting : Console ε σ Unit, Programs.sayHello = pure greeting ∧
      ∀ any : Terminal ε (σ × τ), runOn any greeting = (Programs.thunkProgram any).force := by
  obtain ⟨program, hbuilt, hquiet, hrun⟩ := buildsRun_expression t.attempted e s
  obtain ⟨greeting, -, hgreeting, hforce⟩ := Programs.exists_sayHello_eq_thunk (ε := ε) (σ := σ)
  refine ⟨⟨program, hbuilt, fun attempts c => ⟨hrun (attempts, c), fun layers => ?_⟩⟩, greeting,
    hgreeting, hforce⟩
  exact inTurn_layers hquiet hrun layers (attempts, c)

end Console

end Teletype
