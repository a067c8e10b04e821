import Teletype.Settings.Path
import Teletype.Text.LowerCase

/-!
# Settings from the environment

A variable whose name starts with `LINEIO_` is a setting. The rest of its name, in lower case, is
cut at double underscores; in each part a single underscore before a letter or a digit goes away and
the letter becomes a capital. So every path of camel-case keys has a name. A value that spells a
truth value or a number is one.
-/

namespace Teletype.Settings

/-- Variables in the order in which they were first set. -/
abbrev Environment := List (String × String)

namespace Environment

/-- Set a variable, in place if it is there. -/
def set (name value : String) : Environment → Environment
  | [] => [(name, value)]
  | (n, v) :: rest => if n = name then (name, value) :: rest else (n, v) :: set name value rest

def unset (name : String) (env : Environment) : Environment := env.filter (·.1 != name)

end Environment

def variableMark : String := "LINEIO_"

def afterMark? : List Char → List Char → Option (List Char)
  | [], name => some name
  | m :: mark, c :: name => if m = c then afterMark? mark name else none
  | _ :: _, [] => none

/-- The parts between double underscores, cut from the left. -/
def splitLevels : List Char → List (List Char)
  | [] => [[]]
  | '_' :: '_' :: rest => [] :: splitLevels rest
  | c :: rest =>
    match splitLevels rest with
    | [] => [[c]]
    | part :: parts => (c :: part) :: parts

/-- Whether an underscore before this character goes away. -/
def isJoint (c : Char) : Bool := c.isLower || c.isDigit

/-- One key: an underscore before a letter or a digit makes it a capital. -/
def camelCase : List Char → List Char
  | [] => []
  | ['_'] => ['_']
  | '_' :: c :: rest =>
    if isJoint c then Text.upper c :: camelCase rest else '_' :: camelCase (c :: rest)
  | c :: rest => c :: camelCase rest

/-- The path that a variable sets, if it is a setting; a point in a name separates keys as well. -/
def variablePath? (name : String) : Option Path := do
  let rest ← afterMark? variableMark.toList name.toList
  let keys := (splitLevels (rest.map Text.lower)).map camelCase
  return ((List.intercalate ['.'] keys).splitOn '.').map String.ofList

def variableValue (value : String) : Datum :=
  if value = "1" ∨ value = "true" then .bool true
  else if value = "0" ∨ value = "false" ∨ value = "" then .bool false
  else
    let cs := value.toList
    if cs.all Char.isDigit then .number (.ofDecimal false (Number.digitsValue cs) 0)
    else .text value

def applyVariable (fields : Fields) (entry : String × String) : Fields :=
  match variablePath? entry.1 with
  | some path => setAt path (variableValue entry.2) fields
  | none => fields

/-- All settings of an environment; of two that clash the later counts. -/
def environmentLayer (env : Environment) : Fields := env.foldl applyVariable []

end Teletype.Settings
