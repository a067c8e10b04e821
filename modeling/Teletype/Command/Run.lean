import Teletype.Command.Arguments
import Teletype.Command.Log
import Teletype.Programs
import Teletype.Settings.Store
import Teletype.Terminal.Configured

/-!
# Running a command

A command runs one of the sample programs on a terminal and answers with an exit code. Rejected
arguments and whatever goes wrong on the way are reported on the error stream. Only if something was
raised that cannot be put into words, there is nothing to report, and the command raises. The
settings are asked whether debug messages are wanted, unless the arguments ask for them, and the
terminal is opened only when a program is about to run.
-/

namespace Teletype.Command

open Settings (Sources Store Access)

variable {V τ α : Type}

inductive ExitCode where
  | success
  | failure
  | usage
  deriving DecidableEq

def ExitCode.toNat : ExitCode → Nat
  | .success => 0
  | .failure => 1
  | .usage => 2

/-- What a command works with beside its terminal: the settings and the two streams of text. -/
structure Desk where
  store : Store := {}
  stdout : Array String := #[]
  stderr : Array String := #[]

/-- How a terminal is come by. Opening one may ask the settings, and may change the device. -/
abbrev Connection (V τ : Type) := Sources → EStateM (Thrown V) (Store × τ) (Terminal (Thrown V) τ)

def Connection.given (t : Terminal (Thrown V) τ) : Connection V τ := fun _ => pure t

/-- An access to the settings, with its failure as a raised value. -/
def asking (access : Access α) : EStateM (Thrown V) Store α := fun store =>
  match access store with
  | .ok a store => .ok a store
  | .error f store => .error (.failure f) store

/-- A terminal opened over a descriptor as the settings say. -/
def Connection.descriptor : Connection V Device := fun sources => do
  let options ← onHost (asking (({} : LineRequest).resolve sources))
  modify fun (store, device) => (store, device.reopen)
  return Device.terminal options

structure Setup (V τ : Type) where
  connect : Connection V τ
  sources : Sources
  color? : Option Bool := none
  /-- Whether the error stream is a terminal. -/
  tty : Bool := false

abbrev Work (V τ α : Type) := EStateM (Thrown V) (Desk × τ) α

def printOut (text : String) : Work V τ Unit :=
  modify fun (⟨store, stdout, stderr⟩, t) => (⟨store, stdout.push text, stderr⟩, t)

def printErr (text : String) : Work V τ Unit :=
  modify fun (⟨store, stdout, stderr⟩, t) => (⟨store, stdout, stderr.push text⟩, t)

def onStore (step : EStateM (Thrown V) (Store × τ) α) : Work V τ α := fun (desk, t) =>
  match step (desk.store, t) with
  | .ok a (store, t) => .ok a ({ desk with store }, t)
  | .error e (store, t) => .error e ({ desk with store }, t)

def ProgramName.perform (name : ProgramName) (t : Terminal (Thrown V) (Desk × τ)) : Work V τ Unit :=
  match name with
  | .hello => performing Programs.sayHello
  | .questions => performing (Programs.questionnaire Programs.collectedAnswers)
  | .questionsForeach => performing (Programs.questionnaire Programs.foreachAnswers)
  | .readInt => performing Programs.readIntReport
  | .thunk => (Programs.thunkProgram t).force
where
  performing (build : Host (Thrown V) Desk (Console (Thrown V) Desk Unit)) : Work V τ Unit := do
    (← onHost build).runOn t

/-- The log of a run: verbose if the arguments or the settings say so. -/
def chooseLogger (setup : Setup V τ) (verbose : Bool) : Work V τ Logger := do
  let color := setup.color?.getD setup.tty
  if verbose then return { verbose, color }
  else return { verbose := ← onStore (onHost (asking (Store.has setup.sources "debug"))), color }

/-- Open the terminal and perform a program on it; whatever is raised goes on. -/
def attemptProgram (setup : Setup V τ) (verbose : Bool) (name : ProgramName) : Work V τ Unit := do
  let logger ← chooseLogger setup verbose
  let base := Terminal.beside (← onStore (setup.connect setup.sources))
  let terminal := if logger.verbose then tracedBy logger printErr base else base
  logger.log printErr .debug ("running " ++ name.text)
  name.perform terminal
  logger.log printErr .debug "done"

def reportError (color : Bool) (message : String) : Work V τ Unit :=
  Logger.log { verbose := false, color } printErr .error message

/-- Report what was raised. To put it into words is host code of the terminal's side. -/
def reportRaised [HasText V τ] (setup : Setup V τ) (e : Thrown V) : Work V τ ExitCode := do
  reportError (setup.color?.getD setup.tty) (← onDevice e.toFailure).message
  return .failure

/-- Perform a program; what is raised on the way is reported. -/
def runProgram [HasText V τ] (setup : Setup V τ) (verbose : Bool) (name : ProgramName) :
    Work V τ ExitCode := fun w =>
  match attemptProgram setup verbose name w with
  | .ok () w => .ok .success w
  | .error e w => reportRaised setup e w

def runCommand [HasText V τ] (setup : Setup V τ) (args : List String) : Work V τ ExitCode := do
  match parseArguments args with
  | .error rejection =>
    reportError (setup.color?.getD false) rejection.message
    printErr usageHint
    return .usage
  | .ok options =>
    match options.help, options.program? with
    | false, some name => runProgram setup options.verbose name
    | _, _ =>
      printOut helpText
      return .success

end Teletype.Command
