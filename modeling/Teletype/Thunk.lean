import Teletype.Terminal.Basic

/-!
# Thunks

A thunk is a deferred computation over a state that may raise. Nothing runs until it is forced, and
every force runs it again. Unlike a console program it cannot be looked into; it holds the terminal
it is to talk to.
-/

namespace Teletype

/-- A deferred computation of an `α` over the state `ω` that may raise an `ε`. -/
structure Thunk (ε ω α : Type) where
  force : EStateM ε ω α

namespace Thunk

variable {ε ω α β V : Type}

/-- Wrap a producer; it runs at each force. -/
def succeed (producer : EStateM ε ω α) : Thunk ε ω α := ⟨producer⟩

/-- Raise the same failure at each force. -/
def fail (f : Failure) : Thunk (Thrown V) ω α := ⟨throw (.failure f)⟩

def writeLine (t : Terminal ε ω) (line : String) : Thunk ε ω Unit := ⟨t.writeLine line⟩

def readLine (t : Terminal ε ω) : Thunk ε ω String := ⟨t.readLine⟩

def map (self : Thunk ε ω α) (f : α → EStateM ε ω β) : Thunk ε ω β :=
  ⟨do f (← self.force)⟩

/-- Force, then force the thunk picked from the result. -/
def flatMap (self : Thunk ε ω α) (f : α → EStateM ε ω (Thunk ε ω β)) : Thunk ε ω β :=
  ⟨do (← f (← self.force)).force⟩

/-- Return what is raised, as a failure, instead of raising it; what was done before stays done. A
bare value is put into words on the way, and if that raises, so does the attempt. -/
def attempt [HasText V ω] (self : Thunk (Thrown V) ω α) : Thunk (Thrown V) ω (Except Failure α) :=
  ⟨fun w =>
    match self.force w with
    | .ok a w => .ok (.ok a) w
    | .error e w => (Except.error <$> e.toFailure) w⟩

end Thunk

end Teletype
