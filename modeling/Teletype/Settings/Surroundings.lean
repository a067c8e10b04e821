import Teletype.Settings.Store

/-!
# Settings in their surroundings

The store together with what its layers are read from: the files, the variables and the working
directory. A step is an access to the store or a change of the surroundings; only accesses can fail.
-/

namespace Teletype.Settings

structure Surroundings where
  files : FileTree := []
  environment : Environment := []
  workingPlace : String

def Surroundings.sources (s : Surroundings) : Sources where
  search place? := search s.files (place?.getD s.workingPlace)
  environment := s.environment

/-- An access to the store or a change of its surroundings. -/
inductive Step where
  | get (path : String)
  | has (path : String)
  | set (value : Datum)
  | getAll
  | filePath
  | reset (place : String)
  /-- Go to a place and search there from now on. -/
  | resetAt (place : String)
  | setVariable (name value : String)
  | unsetVariable (name : String)
  | writeFile (path text : String)
  | removeFile (path : String)

def Step.access? (sources : Sources) : Step → Option (Access Datum)
  | .get path => some (Store.get sources path)
  | .has path => some (Datum.bool <$> Store.has sources path)
  | .set value => some ((fun () => .undefined) <$> Store.setMembers sources value)
  | .getAll => some (Datum.record <$> Store.getAll sources)
  | .filePath => some ((fun path? => path?.elim .undefined .text) <$> Store.filePath sources)
  | _ => none

/-- What a step leaves of the surroundings and, if it resets it, of the store. -/
def Step.change (step : Step) (s : Surroundings) (store : Store) : Surroundings × Store :=
  match step with
  | .reset place => (s, store.reset (some place))
  | .resetAt place => ({ s with workingPlace := place }, store.reset none)
  | .setVariable name value => ({ s with environment := s.environment.set name value }, store)
  | .unsetVariable name => ({ s with environment := s.environment.unset name }, store)
  | .writeFile path text => ({ s with files := s.files.write path text }, store)
  | .removeFile path => ({ s with files := s.files.remove path }, store)
  | _ => (s, store)

/-- Take a step; a change answers nothing. -/
def Step.perform (step : Step) (s : Surroundings) (store : Store) :
    Except Failure Datum × Surroundings × Store :=
  match step.access? s.sources with
  | some access =>
    match access store with
    | .ok d store => (.ok d, s, store)
    | .error f store => (.error f, s, store)
  | none => (.ok .undefined, step.change s store)

end Teletype.Settings
