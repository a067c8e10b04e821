import Teletype.Settings.Environment
import Teletype.Settings.Files

/-!
# The settings store

Settings come in four layers, each over the one before: the defaults, the settings file, the
environment, and what is set while the program runs. The first three are read at the first access
after a reset and kept until the next reset. An access that cannot read them raises and leaves the
store as it was, so that the next access tries again.
-/

namespace Teletype.Settings

/-- Where the settings come from: what a search of a place finds, and the variables. No place is the
working directory. -/
structure Sources where
  search : Option String → Except Failure (Option (String × Datum))
  environment : Environment

structure Store where
  values : Fields := []
  loaded : Bool := false
  filePath? : Option String := none
  searchFrom? : Option String := none

def defaults : Fields :=
  [ ("debug", .bool false),
    ("terminal", .record [("endOfInput", .text "fail"), ("trimCarriageReturn", .bool true)]) ]

/-- The failure of a settings file that does not hold a record. -/
def notARecord (path : String) : Failure :=
  .plain ("Invalid " ++ moduleName ++ " configuration in " ++ path ++ ": expected an object")

/-- The layer that a search found: the file's path and its settings. -/
def fileLayer (found : Except Failure (Option (String × Datum))) :
    Except Failure (Option (String × Fields)) :=
  match found with
  | .error f => .error f
  | .ok none => .ok none
  | .ok (some (path, value)) =>
    match value.fields? with
    | some fields => .ok (some (path, fields))
    | none => .error (notARecord path)

abbrev Access (α : Type) := EStateM Failure Store α

namespace Store

/-- Read the layers, unless they were read before. -/
def load (sources : Sources) : Access Unit := fun store =>
  if store.loaded then .ok () store
  else
    match fileLayer (sources.search store.searchFrom?) with
    | .error f => .error f store
    | .ok layer =>
      let fields := (layer.map Prod.snd).getD []
      let values := merge (merge defaults fields) (environmentLayer sources.environment)
      .ok () { store with
        values, loaded := true, filePath? := (layer.map Prod.fst).or store.filePath? }

def getAll (sources : Sources) : Access Fields := do
  load sources
  return (← get).values

/-- The setting at a path; undefined where there is none. -/
def get (sources : Sources) (path : String) : Access Datum :=
  return lookUp (.ofText path) (.record (← getAll sources))

def has (sources : Sources) (path : String) : Access Bool :=
  return (← get sources path).isTruthy

/-- Lay settings over all others. -/
def set (sources : Sources) (values : Fields) : Access Unit := do
  load sources
  modify fun store => { store with values := merge store.values values }

/-- Lay the members of a value over all other settings. -/
def setMembers (sources : Sources) (value : Datum) : Access Unit := do
  load sources
  match value.members? with
  | some fields => set sources fields
  | none => throw .noMembers

def filePath (sources : Sources) : Access (Option String) := do
  load sources
  return (← MonadState.get).filePath?

/-- Forget everything; the next access reads the layers anew, searching the given place. -/
def reset (searchFrom? : Option String) (_ : Store) : Store := { searchFrom? }

end Store

end Teletype.Settings
