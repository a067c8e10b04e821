import Teletype.Terminal.Scripted

/-!
# Equivalence under a script

Two programs are equivalent under a script when, each run on a fresh scripted terminal, they write
the same lines, leave the same lines unread, and end with equal results or with failures that say
the same. Which results are equal is up to the test that is given. The test that is used unless
another one is given asks whether they are one and the same (`Object.same`); two objects are not,
however alike they are.
-/

namespace Teletype

variable {V σ α γ : Type} {ε : Type}

/-- What a run on a script came to: a result, or what was raised. -/
structure Interpretation (ε α : Type) where
  output : List String
  remainingInput : List String
  result : Except ε α

/-- Run a program on a fresh scripted terminal. What the run raises is part of the answer. -/
def rehearse (program : Console (Thrown V) σ α) (script : List String) :
    Host ε σ (Interpretation (Thrown V) α) := fun s =>
  match program.run Script.terminal.beside (s, { remaining := script }) with
  | .ok a (s, t) => .ok ⟨t.output.toList, t.remaining, .ok a⟩ s
  | .error e (s, t) => .ok ⟨t.output.toList, t.remaining, .error e⟩ s

/-- The interpretation, with what was raised as a failure. -/
def Interpretation.report [HasText V σ] :
    Interpretation (Thrown V) α → Host (Thrown V) σ (Interpretation Failure α)
  | ⟨output, remainingInput, .ok a⟩ => pure ⟨output, remainingInput, .ok a⟩
  | ⟨output, remainingInput, .error e⟩ =>
    return ⟨output, remainingInput, .error (← e.toFailure)⟩

/-- Run a program on a fresh scripted terminal and report what came of it. -/
def interpret [HasText V σ] (program : Console (Thrown V) σ α) (script : List String) :
    Host (Thrown V) σ (Interpretation Failure α) := do
  (← rehearse program script).report

/-- Whether two outcomes agree: both failures with one message, or both results and equal. -/
def sameOutcome (eq : α → α → Bool) : Except Failure α → Except Failure α → Bool
  | .ok a, .ok b => eq a b
  | .error e, .error e' => e.message == e'.message
  | _, _ => false

/-- A test of whether two programs are the same. -/
structure Equivalence (ε σ α : Type) where
  eqv : Console ε σ α → Console ε σ α → Host ε σ Bool

/-- The test by running both on the same script, the first one first. -/
def equivalent [HasText V σ] (script : List String) (eq : α → α → Bool) :
    Equivalence (Thrown V) σ α where
  eqv x y := do
    let rx ← interpret x script
    let ry ← interpret y script
    return rx.output == ry.output && rx.remainingInput == ry.remainingInput &&
      sameOutcome eq rx.result ry.result

/-! ## Objects -/

/-- An object: where it is, and what it holds. -/
structure Object (γ : Type) where
  place : Nat
  content : γ

/-- Make an object. The host's state is the next place that is free. -/
def Object.new (content : γ) : Host ε Nat (Object γ) := fun next =>
  .ok ⟨next, content⟩ (next + 1)

/-- Whether two objects are one and the same. -/
def Object.same (a b : Object γ) : Bool := a.place == b.place

end Teletype
