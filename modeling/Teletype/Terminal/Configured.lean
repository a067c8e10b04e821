import Teletype.Settings.Store
import Teletype.Terminal.Descriptor

/-!
# The configured terminal

How lines are read from a descriptor is said by whoever opens the terminal, and where it is not
said, by the settings. The settings are asked only for what is missing.
-/

namespace Teletype

open Settings (Sources Store Access)

structure LineRequest where
  trimCarriageReturn? : Option Bool := none
  endOfInput? : Option EndOfInput := none

/-- The setting for carriage returns: they are trimmed unless it is false. -/
def trimSetting : Datum → Bool
  | .bool false => false
  | _ => true

/-- The setting for the end of input: it fails unless the setting is the text `empty`. -/
def endSetting : Datum → EndOfInput
  | .text "empty" => .empty
  | _ => .fail

/-- How lines are read, from a request and the settings. -/
def LineRequest.resolve (request : LineRequest) (sources : Sources) : Access LineOptions := do
  let trimCarriageReturn ← match request.trimCarriageReturn? with
    | some trim => pure trim
    | none => trimSetting <$> Store.get sources "terminal.trimCarriageReturn"
  let endOfInput ← match request.endOfInput? with
    | some mode => pure mode
    | none => endSetting <$> Store.get sources "terminal.endOfInput"
  return { trimCarriageReturn, endOfInput }

end Teletype
