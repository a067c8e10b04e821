import Teletype.Number.Text
import Teletype.Text.Units

/-!
# Plain data

Configuration values and literals are plain data: scalars, lists and records. A record is a list of
fields; looking up a key takes the first field that has it. `put` keeps the fields in ascending
order of their keys, so that a record built by `put` depends on which fields were put and not on
when; `add` keeps them in the order in which host code goes through them.

What host code makes of plain data may have more to it: a record can have members that are not among
its own fields, and some members of every record are functions.
-/

namespace Teletype

/-- Data. `undefined` is the value of what is absent; it is not `null`. -/
inductive Datum where
  | null
  | undefined
  | bool (b : Bool)
  | number (x : Number)
  | text (s : String)
  | list (items : List Datum)
  | record (fields : List (String × Datum))
  /-- A function that records and lists have from the host. -/
  | builtin (name : String)
  /-- In place of a value, under a key of a record: a member that is none of its own fields. -/
  | hidden (member : Datum)
  deriving Inhabited, BEq

abbrev Fields := List (String × Datum)

namespace Fields

def get? (fields : Fields) (key : String) : Option Datum := List.lookup key fields

/-- Set the value of a key, in place if it is there and else where its key belongs. -/
def put (key : String) (value : Datum) : Fields → Fields
  | [] => [(key, value)]
  | (k, v) :: rest =>
    if k = key then (key, value) :: rest
    else if key < k then (key, value) :: (k, v) :: rest
    else (k, v) :: put key value rest

/-- The number that a key can be as the place of an item. -/
def index? (key : String) : Option Nat := do
  let n ← key.toNat?
  if toString n = key ∧ n < 0xFFFFFFFF then return n else failure

/-- Add a value as host code does: in place if its key is there; else a number goes in front, among
the other numbers in their order, and any other key behind all others. -/
def add (key : String) (value : Datum) : Fields → Fields
  | [] => [(key, value)]
  | (k, v) :: rest =>
    if k = key then (key, value) :: rest
    else if comesBefore (index? key) (index? k) then (key, value) :: (k, v) :: rest
    else (k, v) :: add key value rest
where
  comesBefore : Option Nat → Option Nat → Bool
    | some i, some j => i < j
    | some _, none => true
    | none, _ => false

theorem get?_put_self (key : String) (value : Datum) (fields : Fields) :
    get? (put key value fields) key = some value := by
  induction fields with
  | nil => simp [put, get?]
  | cons field rest ih =>
    obtain ⟨k, v⟩ := field
    by_cases h : k = key
    · simp [put, get?, h]
    · have hne : (key == k) = false := by simpa using fun h' => h h'.symm
      by_cases hlt : key < k
      · simp [put, get?, h, hlt]
      · simpa [put, get?, h, hlt, List.lookup_cons, hne] using ih

theorem get?_put_of_ne {key other : String} (h : other ≠ key) (value : Datum) (fields : Fields) :
    get? (put key value fields) other = get? fields other := by
  have hne : (other == key) = false := by simpa using h
  induction fields with
  | nil => simp [put, get?, List.lookup_cons, hne]
  | cons field rest ih =>
    obtain ⟨k, v⟩ := field
    by_cases hk : k = key
    · subst hk; simp [put, get?, List.lookup_cons, hne]
    · by_cases hlt : key < k
      · simp [put, get?, hk, hlt, List.lookup_cons, hne]
      · simp only [put, get?, hk, hlt, if_false, List.lookup_cons] at ih ⊢
        split <;> simp_all

end Fields

namespace Datum

/-- The fields of a record, and nothing of anything else. -/
def fields? : Datum → Option Fields
  | .record fields => some fields
  | _ => none

/-- The members of a value: the fields of a record, the items of a list and the units of a text,
each at its place. Scalars other than text have none, and what is absent or null cannot be asked
for them. -/
def members? : Datum → Option Fields
  | .null | .undefined => none
  | .bool _ | .number _ | .builtin _ | .hidden _ => some []
  | .text s =>
    some (byPlace ((Text.Units.ofText s).map fun unit => .text (Text.Units.toText [unit])))
  | .list items => some (byPlace items)
  | .record fields => some fields
where
  /-- Values under the numbers of their places. -/
  byPlace (items : List Datum) : Fields := items.zipIdx.map fun (item, i) => (toString i, item)

/-- Whether a value counts as true: not absent, null, false, zero, the non-number or empty text. -/
def isTruthy : Datum → Bool
  | .null | .undefined => false
  | .bool b => b
  | .number x => x.isTruthy
  | .text s => !s.isEmpty
  | .list _ | .record _ | .builtin _ | .hidden _ => true

end Datum

end Teletype
