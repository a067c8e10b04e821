import Teletype.Failure
import Teletype.Settings.Place
import Teletype.Settings.Yaml
import Teletype.Text.Blank

/-!
# Settings files

A directory is searched for a settings file under a fixed list of names. Files that are missing,
blank or null are passed over; the first other one decides, and if it cannot be read, its failure is
raised. A package file counts only if it has a member for these settings; one that is null is a
failure, since it cannot be asked for its members.
-/

namespace Teletype.Settings

abbrev FileTree := List (String × String)

namespace FileTree

def read? (files : FileTree) (path : String) : Option String := List.lookup path files

def remove (path : String) (files : FileTree) : FileTree :=
  files.filter (·.1 != canonicalPath path)

def write (path text : String) (files : FileTree) : FileTree :=
  (canonicalPath path, text) :: files.remove path

end FileTree

inductive Format where
  /-- JSON, with the settings in one member. -/
  | package
  | json
  | yaml
  deriving DecidableEq

/-- The name of the settings, in package files and in messages. -/
def moduleName : String := "lineio"

/-- The names that are tried, in order. Behind them the search has four more, for files that hold a
program and not data: `.lineiorc.js`, `.lineiorc.cjs`, `lineio.config.js` and `lineio.config.cjs`.
Those are left out. -/
def searchNames : List (String × Format) :=
  [ ("package.json", .package),
    (".lineiorc", .yaml),
    (".lineiorc.json", .json),
    (".lineiorc.yaml", .yaml),
    (".lineiorc.yml", .yaml) ]

def jsonFailure (path : String) : Failure :=
  { kind := .json, message := "JSON Error in " ++ path ++ ":" }

def yamlFailure (path : String) : Failure :=
  { kind := .yaml, message := "YAML Error in " ++ path ++ ":" }

def Format.read (format : Format) (path text : String) : Except Failure Datum :=
  match format with
  | .json => (Json.read? text).elim (.error (jsonFailure path)) .ok
  | .yaml => (Yaml.read? text).elim (.error (yamlFailure path)) .ok
  | .package =>
    match Json.read? text with
    | none => .error (jsonFailure path)
    | some value =>
      match value.members? with
      | none => .error .noMembers
      | some fields => .ok ((Fields.get? fields moduleName).getD .null)

/-- Try names in a directory, in order: the path and the value of the first file that decides. -/
def searchIn (files : FileTree) (place : String) :
    List (String × Format) → Except Failure (Option (String × Datum))
  | [] => .ok none
  | (name, format) :: rest =>
    let path := canonicalPath (place ++ "/" ++ name)
    match files.read? path with
    | none => searchIn files place rest
    | some text =>
      if Text.isBlank text then searchIn files place rest
      else
        match format.read path text with
        | .error f => .error f
        | .ok .null => searchIn files place rest
        | .ok value => .ok (some (path, value))

def search (files : FileTree) (place : String) : Except Failure (Option (String × Datum)) :=
  searchIn files place searchNames

end Teletype.Settings
