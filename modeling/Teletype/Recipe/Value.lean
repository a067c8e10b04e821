import Teletype.Datum
import Teletype.Console.Basic
import Teletype.Number.Whole

/-!
# Values of recipes

A recipe is a small text that describes a console program together with the host code in its
callbacks. This module holds the values that such host code computes with: plain data, failures and
programs. The state that the callbacks share is a `Notebook`, a log of events and a set of named
counters. An optional value is the value itself or `null`; an either is a record with a tag.
-/

namespace Teletype.Recipe

/-- What the callbacks of a recipe share: the events logged so far and the counters. -/
structure Notebook where
  events : Array String := #[]
  counters : List (String × Nat) := []

inductive Value where
  | null
  | undefined
  | bool (b : Bool)
  | number (x : Number)
  | text (s : String)
  | list (items : List Value)
  | record (fields : List (String × Value))
  | failure (f : Failure)
  | program (p : Console (Thrown Value) Notebook Value)

instance : Inhabited Value := ⟨.undefined⟩

abbrev Act (α : Type) := Host (Thrown Value) Notebook α

abbrev Program := Console (Thrown Value) Notebook Value

namespace Value

mutual

/-- Data as a value of a recipe, which has no functions and no members but a record's own. -/
def ofDatum : Datum → Value
  | .null => .null
  | .undefined => .undefined
  | .bool b => .bool b
  | .number x => .number x
  | .text s => .text s
  | .list items => .list (ofData items)
  | .record fields => .record (ofFields fields)
  | .builtin _ | .hidden _ => .undefined

def ofData : List Datum → List Value
  | [] => []
  | d :: rest => ofDatum d :: ofData rest

def ofFields : List (String × Datum) → List (String × Value)
  | [] => []
  | (_, .hidden _) :: rest => ofFields rest
  | (key, d) :: rest => (key, ofDatum d) :: ofFields rest

end

mutual

/-- The text of a value: numbers in written form, the texts of a list's items joined by commas, and
one fixed text for every program and record. A record with a field `toString` has no text, since
that stands where its text would be asked for, and is no function. -/
def text? : Value → Except Failure String
  | .null => pure "null"
  | .undefined => pure "undefined"
  | .bool b => pure (if b then "true" else "false")
  | .number x => pure x.text
  | .text s => pure s
  | .list items => return ",".intercalate (← itemTexts? items)
  | .record fields =>
    if fields.any (·.1 == "toString") then throw .noText else pure "[object Object]"
  | .program _ => pure "[object Object]"
  | .failure f => pure f.text

/-- The texts of a list's items; null and undefined items are empty. -/
def itemTexts? : List Value → Except Failure (List String)
  | [] => pure []
  | .null :: rest => return "" :: (← itemTexts? rest)
  | .undefined :: rest => return "" :: (← itemTexts? rest)
  | item :: rest => return (← text? item) :: (← itemTexts? rest)

end

/-- Put a value into words, in any state. -/
def toText {ω : Type} (v : Value) : EStateM (Thrown Value) ω String :=
  match v.text? with
  | .ok words => pure words
  | .error f => throw (.failure f)

instance (priority := low) {ω : Type} : HasText Value ω := ⟨toText⟩

def isTruthy : Value → Bool
  | .null | .undefined => false
  | .bool b => b
  | .number x => x.isTruthy
  | .text s => !s.isEmpty
  | .list _ | .record _ | .failure _ | .program _ => true

/-- Equality of scalars, with numbers compared by `eq`; two lists, records, failures or programs are
never one and the same. -/
def scalarEq (eq : Number → Number → Bool) : Value → Value → Bool
  | .null, .null => true
  | .undefined, .undefined => true
  | .bool a, .bool b => a == b
  | .number x, .number y => eq x y
  | .text s, .text t => s == t
  | _, _ => false

/-- Numeric equality on numbers, equality on other scalars. -/
def equals : Value → Value → Bool := scalarEq Number.numericEq

/-- Sameness: the non-number is itself, and negative zero is not zero. -/
def same : Value → Value → Bool := scalarEq fun x y => decide (x = y)

/-- The whole numbers as numbers, and the absence of one as null. -/
def ofWhole? : Option Number.Whole → Value
  | none => .null
  | some w => .number w.toNumber

def ofNat (n : Nat) : Value := .number (.ofNat n)

/-- A field of a record; undefined where there is none. -/
def field (key : String) : Value → Value
  | .record fields => (List.lookup key fields).getD .undefined
  | .failure f => if key = "message" then .text f.message else .undefined
  | _ => .undefined

def items : Value → List Value
  | .list items => items
  | _ => []

/-- The number that a value is; everything else is not a number. -/
def toNumber : Value → Number
  | .number x => x
  | _ => .nan

/-! ## Raised values -/

/-- Raise a value: a failure is raised as a failure. -/
def toThrown : Value → Thrown Value
  | .failure f => .failure f
  | v => .value v

def ofThrown : Thrown Value → Value
  | .failure f => .failure f
  | .value v => v

/-- A failure is itself; any other value becomes a failure that says the value's text. -/
def toFailure (v : Value) : Act Failure := v.toThrown.toFailure

/-! ## Optional values -/

def toOption? : Value → Option Value
  | .null => none
  | v => some v

/-- Undefined counts as null. -/
def fromNullable : Value → Value
  | .undefined => .null
  | v => v

/-- Apply `onSome` to what is there, and else produce `onNone`. -/
def foldOption (v : Value) (onNone : Act Value) (onSome : Value → Act Value) : Act Value :=
  match v.toOption? with
  | none => onNone
  | some v => onSome v

/-! ## Eithers -/

def left (v : Value) : Value := .record [("_tag", .text "Left"), ("left", v)]

def right (v : Value) : Value := .record [("_tag", .text "Right"), ("right", v)]

def isLeft (v : Value) : Bool := (v.field "_tag").equals (.text "Left")

def isRight (v : Value) : Bool := (v.field "_tag").equals (.text "Right")

def ofExcept : Except Failure Value → Value
  | .error f => left (.failure f)
  | .ok v => right v

def foldEither (v : Value) (onLeft onRight : Value → Act Value) : Act Value :=
  if v.isLeft then onLeft (v.field "left") else onRight (v.field "right")

/-- Run a body; what it returns is on the right, and what `handler` makes of what it raises is on
the left. -/
def attempt (body : Act Value) (handler : Value → Act Value) : Act Value := fun s =>
  match body s with
  | .ok v s => .ok (right v) s
  | .error e s => ((fun v => left v) <$> handler (ofThrown e)) s

end Value

end Teletype.Recipe
