import Teletype.Command.Run
import Teletype.Settings.Surroundings

/-!
# The command line

The outer layer: it reads the surroundings, hands what arrives on standard input to the command, and
shows what the command wrote. Running a command is a pure function of the input so far, so a command
that waits for more is run again when more has come, and only what is new is shown.
-/

namespace Teletype.Command

open Settings (Surroundings FileTree Environment searchNames)

def readFiles (place : String) : IO FileTree := do
  let mut files : FileTree := []
  for (name, _) in searchNames do
    let path := place ++ "/" ++ name
    let text? ← try some <$> IO.FS.readFile path catch _ => pure none
    if let some text := text? then files := FileTree.write path text files
  return files

/-- The variables of this process, where the system lists them. -/
def readEnvironment : IO Environment := do
  let text ← try IO.FS.readFile "/proc/self/environ" catch _ => pure ""
  return text.splitOn "\x00" |>.filterMap fun entry =>
    match entry.splitOn "=" with
    | name :: value => if name.isEmpty then none else some (name, "=".intercalate value)
    | [] => none

def readSurroundings : IO Surroundings := do
  let place := (← IO.currentDir).toString
  return { files := ← readFiles place, environment := ← readEnvironment, workingPlace := place }

/-- Stands at the end of what has arrived as long as more may come. -/
def waiting : Delivery := .failure (.plain "waiting for input")

structure Progress where
  desk : Desk
  device : Device
  code : ExitCode

def progress (setup : Setup Empty Device) (args : List String) (source : List Delivery) :
    Progress :=
  match runCommand setup args ({}, { source }) with
  | .ok code (desk, device) => ⟨desk, device, code⟩
  | .error _ (desk, device) => ⟨desk, device, .failure⟩

structure Shown where
  written : Nat := 0
  stdout : Nat := 0
  stderr : Nat := 0

def showNew (p : Progress) (stderr : Array String) (shown : Shown) : IO Shown := do
  for text in stderr.toList.drop shown.stderr do
    IO.eprintln text
  for text in p.device.written.toList.drop shown.written do
    IO.print text
  for text in p.desk.stdout.toList.drop shown.stdout do
    IO.println text
  (← IO.getStdout).flush
  return ⟨p.device.written.size, p.desk.stdout.size, stderr.size⟩

/-- Run a command on the input so far, and again as more arrives, until it ends. -/
partial def converse (setup : Setup Empty Device) (args : List String) (arrived : List Delivery)
    (ended : Bool) (shown : Shown) : IO ExitCode := do
  let p := progress setup args (if ended then arrived else arrived ++ [waiting])
  if !ended && p.device.reads > arrived.length then
    -- The last line on the error stream only says that the input stops here.
    let shown ← showNew p p.desk.stderr.pop shown
    let chunk ← (← IO.getStdin).read Delivery.readSize.toUSize
    converse setup args (arrived ++ [.bytes chunk.data.toList]) chunk.isEmpty shown
  else
    discard <| showNew p p.desk.stderr shown
    return p.code

/-- Run the command that the arguments ask for on standard input and output. -/
def start (args : List String) : IO UInt32 := do
  let surroundings ← readSurroundings
  let setup : Setup Empty Device := {
    connect := .descriptor
    sources := surroundings.sources
    tty := ← (← IO.getStderr).isTty }
  return (← converse setup args [] false {}).toNat.toUInt32

end Teletype.Command

def main (args : List String) : IO UInt32 := Teletype.Command.start args
