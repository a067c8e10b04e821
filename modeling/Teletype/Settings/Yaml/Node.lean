import Teletype.Settings.Yaml.Scalar
import Teletype.Settings.Yaml.Cursor

/-!
# Nodes and mappings

A node is what stands at a place: nothing, plain text, or a value of any other kind. A mapping takes
each key once. The key of two angles merges the members of other mappings in: a member of its own
counts before a merged one, and of the merged ones the first.
-/

namespace Teletype.Settings.Yaml

inductive Node where
  | empty
  | plain (chars : List Char)
  | value (d : Datum)
  deriving Inhabited

namespace Node

/-- The value of a node; nothing is null. -/
def datum : Node → Datum
  | empty => .null
  | plain chars => plainValue chars
  | value d => d

def isEmpty : Node → Bool
  | empty => true
  | _ => false

/-- Whether a node as a key merges. -/
def merges : Node → Bool
  | plain ['<', '<'] => true
  | _ => false

end Node

/-- The name that a value gives to a member. In a list the items are divided by commas and null is
left out; a list in a list gives no name. -/
def keyName? : Datum → Option String
  | .null => some "null"
  | .undefined => some "undefined"
  | .bool b => some (if b then "true" else "false")
  | .number x => some x.text
  | .text s => some s
  | .record _ => some "[object Object]"
  | .list items => do
    let names ← items.mapM itemName?
    return ",".intercalate names
  | .builtin _ | .hidden _ => none
where
  /-- The name of an item in the name of a list. -/
  itemName? : Datum → Option String
    | .null | .undefined => some ""
    | .bool b => some (if b then "true" else "false")
    | .number x => some x.text
    | .text s => some s
    | .record _ => some "[object Object]"
    | .list _ | .builtin _ | .hidden _ => none

/-- A mapping as far as it has been read: its own members, and those merged in. -/
structure Mapping where
  own : Fields
  merged : Fields

namespace Mapping

def empty : Mapping := ⟨[], []⟩

def merge? (m : Mapping) : Datum → Option Mapping
  | .record fields =>
    some { m with merged := fields.foldl (fun merged (key, value) =>
      if (Fields.get? merged key).isSome then merged else Fields.add key value merged) m.merged }
  | _ => none

/-- Add a member; none if its key is there already. -/
def add? (m : Mapping) (key : Node) (value : Datum) : Option Mapping :=
  if key.merges then
    match value with
    | .list sources => sources.foldlM merge? m
    | source => m.merge? source
  else do
    let name ← keyName? key.datum
    if (Fields.get? m.own name).isSome then failure
    return { m with own := Fields.add name value m.own }

/-- Give a key that waits for its value null. -/
def close? (m : Mapping) (waiting : Option Node) : Option Mapping :=
  match waiting with
  | some key => m.add? key .null
  | none => some m

def datum (m : Mapping) : Datum :=
  .record (m.own.foldl (fun fields (key, value) => Fields.add key value fields) m.merged)

end Mapping

/-- What was read, and where reading goes on. -/
structure Reading where
  node : Node
  next : Cursor

/-- How the nodes inside a node are read. -/
structure Readers where
  /-- More steps than reading one node takes: each of them passes over a character at least. -/
  steps : Nat
  /-- A node in brackets, or a key: the least indentation of its further lines comes along. -/
  flow : (inBrackets : Bool) → (indent : Nat) → Cursor → Option Reading
  /-- A node of a block, with the least indentation of its lines. -/
  block : (indent : Nat) → Cursor → Option Reading
  /-- What follows the mark of a member, with the column of its mapping; `compact` says whether a
  list or a mapping may start on the same line. -/
  member : (column : Nat) → (compact : Bool) → Cursor → Option Reading

namespace Readers

def refuse (steps : Nat) : Readers := ⟨steps, fun _ _ _ => none, fun _ _ => none, fun _ _ _ => none⟩

end Readers

end Teletype.Settings.Yaml
