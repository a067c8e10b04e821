import Teletype.Terminal.Basic

/-!
# The scripted terminal

A terminal that answers questions from a list of lines and records what is written. A question
after the last line fails with end of input.
-/

namespace Teletype

/-- The state of a scripted terminal: the lines not yet read, and the lines written so far. -/
structure Script (L : Type := String) where
  remaining : List L
  output : Array L := #[]

namespace Script

variable {V L : Type}

def exhaustedMessage : String := "Scripted input exhausted"

def readLine : EStateM (Thrown V) (Script L) L := fun s =>
  match s.remaining with
  | [] => .error (.failure (.endOfInput exhaustedMessage)) s
  | line :: rest => .ok line { s with remaining := rest }

def writeLine (line : L) : EStateM (Thrown V) (Script L) Unit := fun ⟨remaining, output⟩ =>
  .ok () ⟨remaining, output.push line⟩

def terminal : Terminal (Thrown V) (Script L) L := ⟨readLine, writeLine⟩

end Script

end Teletype
