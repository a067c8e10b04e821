import Teletype.Terminal.Basic

/-!
# Terminals that keep a journal, and terminals that break

`journaled` notes every read and every write that happened in the host's state, so that one log
holds what the callbacks and the terminal did in the order in which they did it. `faulty` counts
the operations asked for and raises at a chosen one instead of performing it.
-/

namespace Teletype

inductive Operation where
  | read (line : String)
  | write (line : String)
  deriving DecidableEq

/-- Which operation is to fail: the read or the write of this number, counted from one. -/
structure Faults where
  read? : Option Nat := none
  write? : Option Nat := none

/-- A terminal's state with the count of the operations asked of it. -/
structure Counted (τ : Type) where
  device : τ
  reads : Nat := 0
  writes : Nat := 0

namespace Terminal

variable {ε σ τ V : Type}

/-- Note each operation in the host's state after it happened. -/
def journaled (note : Operation → σ → σ) (t : Terminal ε τ) : Terminal ε (σ × τ) where
  readLine := fun (s, c) =>
    match t.readLine c with
    | .ok line c => .ok line (note (.read line) s, c)
    | .error e c => .error e (s, c)
  writeLine line := fun (s, c) =>
    match t.writeLine line c with
    | .ok () c => .ok () (note (.write line) s, c)
    | .error e c => .error e (s, c)

/-- Raise at the chosen operations instead of performing them. -/
def faulty (faults : Faults) (t : Terminal (Thrown V) τ) : Terminal (Thrown V) (Counted τ) where
  readLine := fun ⟨device, reads, writes⟩ =>
    let reads := reads + 1
    if faults.read? = some reads then
      .error (.failure (.plain s!"read {reads} failed")) ⟨device, reads, writes⟩
    else match t.readLine device with
      | .ok line device => .ok line ⟨device, reads, writes⟩
      | .error e device => .error e ⟨device, reads, writes⟩
  writeLine line := fun ⟨device, reads, writes⟩ =>
    let writes := writes + 1
    if faults.write? = some writes then
      .error (.failure (.plain s!"write {writes} failed")) ⟨device, reads, writes⟩
    else match t.writeLine line device with
      | .ok () device => .ok () ⟨device, reads, writes⟩
      | .error e device => .error e ⟨device, reads, writes⟩

end Terminal

end Teletype
