import Teletype.Console.Basic

/-!
# Terminals

A terminal is a machine with two operations on a state: read a line, write a line. Either may raise.
Running a program walks its tree and performs each question and each write on the terminal; the
callbacks of the program act on the host's half of the joint state `σ × τ`, and the terminal may act
on both, so that a terminal can note in the host's state what it did.

The three equations for `run` (`run_sync`, `run_write`, `run_ask`) are all that a proof needs of it.
-/

namespace Teletype

/-- A machine over the state `ω` that reads and writes lines and may raise an `ε`. -/
structure Terminal (ε ω : Type) (L : Type := String) where
  /-- The next line of input, without its newline. -/
  readLine : EStateM ε ω L
  writeLine : L → EStateM ε ω Unit

variable {ε σ τ α L : Type}

def onHost (action : Host ε σ α) : EStateM ε (σ × τ) α := fun w =>
  match action w.1 with
  | .ok a s => .ok a (s, w.2)
  | .error e s => .error e (s, w.2)

def onDevice (action : EStateM ε τ α) : EStateM ε (σ × τ) α := fun w =>
  match action w.2 with
  | .ok a t => .ok a (w.1, t)
  | .error e t => .error e (w.1, t)

/-- Putting a value into words is done on the host's half of a joint state. -/
instance {V : Type} [HasText V σ] : HasText V (σ × τ) :=
  ⟨fun v => onHost (HasText.text v)⟩

namespace Terminal

def beside (t : Terminal ε τ L) : Terminal ε (σ × τ) L where
  readLine := onDevice t.readLine
  writeLine line := onDevice (t.writeLine line)

end Terminal

namespace Console

mutual

/-- Perform a program on a terminal, to its result or to the first thing raised. -/
def run (t : Terminal ε (σ × τ) L) : Console ε σ α L → σ × τ → EStateM.Result ε (σ × τ) α
  | .done value, w =>
    match value w.1 with
    | .ok a s => .ok a (s, w.2)
    | .error e s => .error e (s, w.2)
  | .write line next, w =>
    match t.writeLine line w with
    | .ok () w => run t next w
    | .error e w => .error e w
  | .read next, w =>
    match t.readLine w with
    | .ok line w => runResult t (next line w.1) w.2
    | .error e w => .error e w

def runResult (t : Terminal ε (σ × τ) L) :
    EStateM.Result ε σ (Console ε σ α L) → τ → EStateM.Result ε (σ × τ) α
  | .ok program s, c => run t program (s, c)
  | .error e s, c => .error e (s, c)

end

def runOn (t : Terminal ε (σ × τ) L) (program : Console ε σ α L) : EStateM ε (σ × τ) α :=
  run t program

theorem runOn_sync (t : Terminal ε (σ × τ) L) (value : Host ε σ α) :
    runOn t (.sync value) = onHost value := by
  funext w
  simp only [runOn, sync, run, onHost]

theorem runOn_write (t : Terminal ε (σ × τ) L) (line : L) (next : Console ε σ α L) :
    runOn t (.write line next) = (do t.writeLine line; runOn t next) := by
  funext w
  simp only [runOn, run]
  change _ = EStateM.bind (t.writeLine line) (fun _ => run t next) w
  cases h : t.writeLine line w <;> simp [EStateM.bind, h]

theorem runOn_ask (t : Terminal ε (σ × τ) L) (next : L → Host ε σ (Console ε σ α L)) :
    runOn t (.ask next) =
      (do let line ← t.readLine; let program ← onHost (next line); runOn t program) := by
  funext w
  simp only [runOn, ask, run]
  change _ = EStateM.bind t.readLine (fun line =>
    EStateM.bind (onHost (next line)) fun program => run t program) w
  cases h : t.readLine w with
  | error e w => simp [EStateM.bind, h]
  | ok line w => cases h' : next line w.1 <;> simp [EStateM.bind, onHost, h, h', runResult]

end Console

end Teletype
