import Teletype.Settings.Member

/-!
# Paths into settings

A path is a list of keys, written with points between them. Looking up walks through records and
stops with `undefined` at anything else; setting makes the records it needs, in place of whatever
else stood there. `merge` lays one record over another: where both have a record, the two are
merged, and anywhere else the upper value counts.

What a record has under a key includes what it has from its parent, and a value under the key
`__proto__` of the upper record becomes the parent of the merged one, unless the lower record has
a field of its own under that key.
-/

namespace Teletype.Settings

abbrev Path := List String

def Path.ofText (s : String) : Path := (s.toList.splitOn '.').map String.ofList

def lookUp : Path → Datum → Datum
  | [], d => d
  | key :: rest, .record fields => lookUp rest (member key (.record fields))
  | _ :: _, _ => .undefined

/-- The fields of the record under a key; none if there is no record. -/
def childFields (key : String) (fields : Fields) : Fields :=
  ((Fields.get? fields key).bind Datum.fields?).getD []

def setAt : Path → Datum → Fields → Fields
  | [], _, fields => fields
  | [key], value, fields => Fields.put key value fields
  | key :: rest, value, fields =>
    Fields.put key (.record (setAt rest value (childFields key fields))) fields

def newFields (lower upper : Fields) : Fields :=
  upper.filter fun field => (Fields.get? lower field.1).isNone

/-- Fields with the values that `above` has for their keys, and then the fields that are new. -/
def replaceFields (fields above : Fields) : Fields :=
  fields.map (fun field => (field.1, (Fields.get? above field.1).getD field.2)) ++
    newFields fields above

mutual

/-- One value over another: two records are merged, and else the upper value counts. -/
def overlay (lower : Datum) : Datum → Datum
  | .record upper =>
    match lower with
    | .record lower => .record (replaceFields (own lower) (laidFields (own lower) upper))
    | _ => .record upper
  | upper => upper

/-- The fields of `upper` as they are when they are laid over others, one after the other: each goes
over what is read under its key by then. -/
def laidFields (lower : Fields) : Fields → Fields
  | [] => []
  | (key, value) :: rest =>
    if value.isHidden then laidFields lower rest
    else
      let laid := overlay (member key (.record lower)) value
      if key = parentKey ∧ (Fields.get? lower key).isNone then
        match asParent? laid with
        | some parent => (key, .hidden parent) :: laidFields ((key, .hidden parent) :: lower) rest
        | none => laidFields lower rest
      else (key, laid) :: laidFields lower rest

end

def merge (lower upper : Fields) : Fields :=
  replaceFields (own lower) (laidFields (own lower) upper)

end Teletype.Settings
