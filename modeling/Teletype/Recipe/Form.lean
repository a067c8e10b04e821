import Teletype.Recipe.Value

/-!
# Written forms

The form in which values are shown and compared as a whole: safe integers as themselves, other
numbers by their written form, long lists by their ends, failures by what they say, programs without
their insides.
-/

namespace Teletype.Recipe

/-- A value as it is shown. -/
inductive Form where
  | null
  | undefined
  | bool (b : Bool)
  | integer (i : Int)
  | number (text : String)
  | text (s : String)
  | list (items : List Form)
  | long (count : Nat) (first last : List Form)
  | record (fields : List (String × Form))
  | failure (name message : String) (exitCode? : Option Form)
  | program
  deriving BEq, Inhabited

namespace Form

/-- The longest list that is shown in full. -/
def fullLength : Nat := 100

/-- How many items of a longer list are shown at either end. -/
def shownAtEnds : Nat := 3

def ofItems (items : List Form) : Form :=
  let count := items.length
  if count ≤ fullLength then .list items
  else .long count (items.take shownAtEnds) (items.drop (count - shownAtEnds))

def ofTexts (texts : List String) : Form := ofItems (texts.map .text)

def ofNumber (x : Number) : Form :=
  match x.toSafeInt? with
  | some i => .integer i
  | none => .number x.signedText

/-- The form of a failure; a usage failure shows its exit code. -/
def ofFailure (f : Failure) : Form :=
  .failure f.kind.name f.message <|
    match f.kind with
    | .usage exitCode => some (ofNumber exitCode)
    | _ => none

mutual

def ofValue : Value → Form
  | .null => .null
  | .undefined => .undefined
  | .bool b => .bool b
  | .number x => ofNumber x
  | .text s => .text s
  | .list items => ofItems (ofValues items)
  | .record fields => .record (ofFields fields)
  | .failure f => ofFailure f
  | .program _ => .program

def ofValues : List Value → List Form
  | [] => []
  | v :: rest => ofValue v :: ofValues rest

def ofFields : List (String × Value) → List (String × Form)
  | [] => []
  | (key, v) :: rest => (key, ofValue v) :: ofFields rest

end

def ofDatum (d : Datum) : Form := ofValue (.ofDatum d)

end Form

inductive Equality where
  | same
  /-- Sameness of the first two items of two lists. -/
  | pair
  /-- One written form. -/
  | deep
  | always
  | never
  deriving DecidableEq

def Equality.holds : Equality → Value → Value → Bool
  | .same, v, w => v.same w
  | .pair, v, w => (item v 0).same (item w 0) && (item v 1).same (item w 1)
  | .deep, v, w => Form.ofValue v == Form.ofValue w
  | .always, _, _ => true
  | .never, _, _ => false
where
  item (v : Value) (i : Nat) : Value := v.items[i]?.getD .undefined

end Teletype.Recipe
