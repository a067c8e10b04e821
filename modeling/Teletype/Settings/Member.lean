import Teletype.Datum

/-!
# Members of a record

Host code that reads a key of a record gets its own field, or else what the record's parent has
under the key. All records have one parent in common, the `root`, unless they were given another
one: that is what assigning to the key `__proto__` does, where it is no field of the record's own.
The key stands for the parent also when it is read.

Members that are not a record's own fields stand among its fields as hidden ones. The parent of a
record is its hidden member under `__proto__`, and `undefined` there says that it has none; a record
without such a member has the root for its parent.
-/

namespace Teletype

namespace Settings

/-- The key that stands for the parent. -/
def parentKey : String := "__proto__"

/-- The functions that the root has. -/
def rootNames : List String :=
  [ "constructor", "__defineGetter__", "__defineSetter__", "hasOwnProperty", "__lookupGetter__",
    "__lookupSetter__", "isPrototypeOf", "propertyIsEnumerable", "toLocaleString", "toString",
    "valueOf" ]

/-- The functions that all lists have, besides those of the root. -/
def listNames : List String :=
  [ "at", "concat", "copyWithin", "entries", "every", "fill", "filter", "find", "findIndex",
    "findLast", "findLastIndex", "flat", "flatMap", "forEach", "includes", "indexOf", "join",
    "keys", "lastIndexOf", "map", "pop", "push", "reduce", "reduceRight", "reverse", "shift",
    "slice", "some", "sort", "splice", "toReversed", "toSorted", "toSpliced", "unshift", "values",
    "with" ]

/-- Whether every record has a member of this name. -/
def isCommon (key : String) : Bool := key = parentKey || rootNames.contains key

/-- The parent that all records have in common. It has no parent itself. -/
def root : Datum :=
  .record ((parentKey, .hidden .null) :: rootNames.map fun name => (name, .hidden (.builtin name)))

end Settings

namespace Datum

def isHidden : Datum → Bool
  | .hidden _ => true
  | _ => false

end Datum

namespace Settings

/-- The fields that are a record's own. -/
def own (fields : Fields) : Fields := fields.filter fun field => !field.2.isHidden

/-- What a record has under a key if it has only the root's members. -/
def rootMember (key : String) : Datum :=
  if key = parentKey then root
  else if rootNames.contains key then .builtin key
  else .undefined

/-- The empty list stands for the parent of lists. -/
def listMember (key : String) (items : List Datum) : Datum :=
  match Fields.get? (Datum.members?.byPlace items) key with
  | some item => item
  | none =>
    if key = "length" then .number (.ofNat items.length)
    else if key = parentKey then .list []
    else if listNames.contains key then .builtin key
    else rootMember key

mutual

/-- Whether a value that is given as a parent does not have the root above it, or is none. -/
def rootless : Datum → Bool
  | .undefined => true
  | .record fields => parentRootless fields
  | _ => false

def parentRootless : Fields → Bool
  | [] => false
  | (key, .hidden parent) :: rest =>
    if key = parentKey then rootless parent else parentRootless rest
  | _ :: rest => parentRootless rest

end

mutual

/-- What host code reads under a key of a value. Only the root knows what `__proto__` stands for. -/
def member (key : String) : Datum → Datum
  | .record fields =>
    match Fields.get? fields key with
    | some (.hidden d) => if key = parentKey ∧ rootless d then .undefined else d
    | some d => d
    | none => inherited key fields
  | .list items => listMember key items
  | _ => .undefined

/-- What the parent of a record with these fields has under a key. -/
def inherited (key : String) : Fields → Datum
  | [] => rootMember key
  | (k, .hidden parent) :: rest => if k = parentKey then member key parent else inherited key rest
  | _ :: rest => inherited key rest

end

/-- The parent that assigning a value to `__proto__` gives: scalars are passed over, and null takes
the parent away. -/
def asParent? : Datum → Option Datum
  | .record fields => some (.record fields)
  | .list items => some (.list items)
  | .null => some .undefined
  | _ => none

end Settings

end Teletype
