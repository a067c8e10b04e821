import Teletype.Failure

/-!
# Console programs

A console program describes an interaction line by line: it may ask for a line, emit a line, or end
with a value. The description is a tree. Its leaves and the branches behind a question are host
callbacks: they are run when they are reached, may change a host state of type `σ`, and may raise an
`ε`. Building a program performs no input or output, but it may run callbacks: sequencing looks
through the writes of its first program, and if it finds the end there it asks for the value at
once.

`bind` is sequencing by recursion on the tree, one equation for each node. `flatMap` is the same by
a loop that collects the leading writes and puts them back afterwards, so that a long run of output
does not deepen the stack. All other combinators are derived from `flatMap`.
-/

namespace Teletype

/-- What a host callback does: it may change the host state and return, or change it and raise. -/
abbrev Host (ε σ α : Type) := EStateM ε σ α

/-- A console program with host state `σ`, raised values `ε` and result `α`. The callbacks are
`Host` actions, written out. Lines are texts, unless the host has lines of another type `L`. -/
inductive Console (ε σ α : Type) (L : Type := String) where
  /-- The end; the value is asked for when it is needed, each time anew. -/
  | done (value : σ → EStateM.Result ε σ α)
  /-- Emit a line and go on. -/
  | write (line : L) (next : Console ε σ α L)
  /-- Ask for a line and go on as it decides. -/
  | read (next : L → σ → EStateM.Result ε σ (Console ε σ α L))

namespace Console

variable {ε σ α β γ L : Type}

/-- The program that ends with the value of a host action, run when the end is reached. -/
def sync (value : Host ε σ α) : Console ε σ α L := .done value

/-- The program that asks for a line and goes on as a host callback decides. -/
def ask (next : L → Host ε σ (Console ε σ α L)) : Console ε σ α L := .read next

def succeed (a : α) : Console ε σ α := .sync (pure a)

def unit : Console ε σ Unit := succeed ()

def readLine : Console ε σ String := .ask fun line => pure (succeed line)

def writeLine (line : String) : Console ε σ Unit := .write line unit

/-- Induction on programs: behind a question stand the programs that its callback can return. -/
@[elab_as_elim]
theorem induct {motive : Console ε σ α L → Prop}
    (sync : ∀ value : Host ε σ α, motive (.sync value))
    (write : ∀ line next, motive next → motive (.write line next))
    (ask : ∀ next : L → Host ε σ (Console ε σ α L),
      (∀ line s program s', next line s = .ok program s' → motive program) → motive (.ask next))
    (program : Console ε σ α L) : motive program := by
  induction program using Console.rec
    (motive_2 := fun result => ∀ program s', result = .ok program s' → motive program) with
  | done value => exact sync value
  | write line next ih => exact write line next ih
  | read next ih => exact ask next fun line s => ih line s
  | ok program s ih program' s' h =>
    cases h
    exact ih
  | error e s program' s' h => cases h

/-! ## Sequencing by recursion -/

mutual

/-- Sequencing: past every write and every question, to the end, and on from its value. -/
def bind (f : α → Host ε σ (Console ε σ β)) : Console ε σ α → Host ε σ (Console ε σ β)
  | .done value => EStateM.bind value f
  | .write line next => EStateM.map (.write line) (bind f next)
  | .read next => pure (.ask fun line s => bindResult f (next line s))

/-- Sequencing behind what a callback returned. -/
def bindResult (f : α → Host ε σ (Console ε σ β)) :
    EStateM.Result ε σ (Console ε σ α) → EStateM.Result ε σ (Console ε σ β)
  | .ok program s => bind f program s
  | .error e s => .error e s

end

theorem bind_sync (f : α → Host ε σ (Console ε σ β)) (value : Host ε σ α) :
    bind f (.sync value) = value >>= f := by
  simp only [sync, bind]; rfl

theorem bind_write (f : α → Host ε σ (Console ε σ β)) (line : String) (next : Console ε σ α) :
    bind f (.write line next) = Console.write line <$> bind f next := by
  simp only [bind]; rfl

theorem bind_ask (f : α → Host ε σ (Console ε σ β)) (next : String → Host ε σ (Console ε σ α)) :
    bind f (.ask next) = pure (.ask fun line => next line >>= bind f) := by
  simp only [ask, bind]
  congr 2
  funext line s
  change bindResult f (next line s) = EStateM.bind (next line) (bind f) s
  cases h : next line s <;> simp [EStateM.bind, h, bindResult]

/-! ## Sequencing by a loop -/

/-- Puts lines, newest first, before a program. -/
def prepend (lines : List String) (program : Console ε σ α) : Console ε σ α :=
  lines.foldl (fun program line => .write line program) program

mutual

/-- Walks over the leading writes with the lines seen so far, newest first, goes on from the node
behind them, and puts the lines back. -/
def flatMapFrom (f : α → Host ε σ (Console ε σ β)) :
    Console ε σ α → List String → σ → EStateM.Result ε σ (Console ε σ β)
  | .done value, lines, s =>
    match value s with
    | .ok a s =>
      match f a s with
      | .ok program s => .ok (prepend lines program) s
      | .error e s => .error e s
    | .error e s => .error e s
  | .write line next, lines, s => flatMapFrom f next (line :: lines) s
  | .read next, lines, s =>
    .ok (prepend lines (.read fun line s => flatMapResult f (next line s))) s

/-- The loop behind what a callback returned. -/
def flatMapResult (f : α → Host ε σ (Console ε σ β)) :
    EStateM.Result ε σ (Console ε σ α) → EStateM.Result ε σ (Console ε σ β)
  | .ok program s => flatMapFrom f program [] s
  | .error e s => .error e s

end

/-- Run `self`, then the program that `f` picks from its result. -/
def flatMap (self : Console ε σ α) (f : α → Host ε σ (Console ε σ β)) : Host ε σ (Console ε σ β) :=
  flatMapFrom f self []

/-! ## Derived combinators -/

/-- Change the result, when it is asked for. -/
def map (self : Console ε σ α) (f : α → Host ε σ β) : Host ε σ (Console ε σ β) :=
  self.flatMap fun a => pure (.sync (f a))

/-- Run both and make one result of the two. -/
def zipWith (join : α → β → Host ε σ γ) (self : Console ε σ α) (other : Console ε σ β) :
    Host ε σ (Console ε σ γ) :=
  self.flatMap fun a => other.map (join a)

def zip (self : Console ε σ α) (other : Console ε σ β) : Host ε σ (Console ε σ (α × β)) :=
  zipWith (fun a b => pure (a, b)) self other

def zipRight (self : Console ε σ α) (other : Console ε σ β) : Host ε σ (Console ε σ β) := do
  (← zip self other).map fun pair => pure pair.2

def zipLeft (self : Console ε σ α) (other : Console ε σ β) : Host ε σ (Console ε σ α) := do
  (← zip self other).map fun pair => pure pair.1

/-- Run a program whose result is a program, then that program. -/
def flatten (self : Console ε σ (Console ε σ α)) : Host ε σ (Console ε σ α) :=
  self.flatMap pure

def as (self : Console ε σ α) (b : β) : Host ε σ (Console ε σ β) :=
  self.map fun _ => pure b

def void (self : Console ε σ α) : Host ε σ (Console ε σ Unit) :=
  self.as ()

end Console

end Teletype
