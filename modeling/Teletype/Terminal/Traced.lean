import Teletype.Terminal.Basic
import Teletype.Text.Quoted

/-!
# Terminals that are traced

A traced terminal reports every operation to a log as it goes on: a read after it succeeded, with
the line that came, and a write before it is tried. The lines are quoted, so that each report is one
line whatever was read or written.
-/

namespace Teletype

def readReport (line : String) : String := "read: " ++ Text.quoted line

def writeReport (line : String) : String := "write: " ++ Text.quoted line

def Terminal.traced {ε ω : Type} (report : String → EStateM ε ω Unit) (t : Terminal ε ω) :
    Terminal ε ω where
  readLine := do
    let line ← t.readLine
    report (readReport line)
    return line
  writeLine line := do
    report (writeReport line)
    t.writeLine line

end Teletype
