import Teletype.Recipe.Evaluate
import Teletype.Recipe.Form
import Teletype.Law
import Teletype.Terminal.Descriptor
import Teletype.Terminal.Journal
import Teletype.Terminal.Scripted
import Teletype.Terminal.Configured

/-!
# Sessions with recipes

A session takes one recipe, builds what it describes, and puts it to use: on scripted terminals or
on a descriptor, under the tests of equivalence, or as a thunk that is forced several times. All
steps of a session share one notebook, and each step reports the events since the step before.
-/

namespace Teletype.Recipe

open Value (ofExcept)

variable {α τ : Type}

/-- What a step came to: the events it logged, and what it returned or raised. -/
structure Report (α : Type) where
  events : List String
  outcome : Except (Thrown Value) α

def observeOn (action : EStateM (Thrown Value) (Notebook × τ) α) (w : Notebook × τ) :
    Report α × (Notebook × τ) :=
  match action w with
  | .ok a (book, t) => (⟨book.drain.1, .ok a⟩, (book.drain.2, t))
  | .error e (book, t) => (⟨book.drain.1, .error e⟩, (book.drain.2, t))

def observe (action : Act α) (book : Notebook) : Report α × Notebook :=
  let (report, (book, ())) := observeOn (onHost action) (book, ())
  (report, book)

def noteOperation : Operation → Notebook → Notebook
  | .read line => Notebook.note ("read:" ++ line)
  | .write line => Notebook.note ("write:" ++ line)

/-- The outside of a program: its leading writes and the kind of node behind them. -/
structure Shape where
  writes : List String
  tip : String

/-- The outside of a program. -/
def Shape.ofProgram (p : Program) : Shape :=
  match p.unroll [] with
  | (lines, .value _) => ⟨lines.reverse, "Done"⟩
  | (lines, .question _) => ⟨lines.reverse, "ReadLine"⟩

/-- What was built, with the definitions it calls. -/
def Definitions.build (defs : Definitions) (plan : Plan) : Act Program :=
  plan.build (defs.calls callDepth) []

def Definitions.eval (defs : Definitions) (e : Expr) : Act Value :=
  e.eval (defs.calls callDepth) []

/-! ## Runs -/

/-- A run on a script with faults, noted in the notebook. -/
structure ScriptedRun where
  report : Report Value
  output : List String
  remaining : List String

/-- The terminal that replays a script, breaks at the chosen operations and keeps the journal. -/
def scriptedTerminal (faults : Faults) : Terminal (Thrown Value) (Notebook × Counted Script) :=
  (Script.terminal.faulty faults).journaled noteOperation

def runScripted (p : Program) (input : List String) (faults : Faults) (book : Notebook) :
    ScriptedRun × Notebook :=
  let (report, (book, t)) :=
    observeOn (p.run (scriptedTerminal faults)) (book, { device := { remaining := input } })
  (⟨report, t.device.output.toList, t.device.remaining⟩, book)

/-- A run on a descriptor. -/
structure DeviceRun where
  report : Report Value
  written : List String
  reads : Nat

/-- Sources without files and variables. -/
def defaultSources : Settings.Sources := { search := fun _ => .ok none, environment := [] }

/-- The terminal over a descriptor that a request asks for, by the default settings. -/
def defaultTerminal (request : LineRequest) : Terminal (Thrown Value) Device :=
  match request.resolve defaultSources {} with
  | .ok options _ => Device.terminal options
  | .error .. => Device.terminal {}

def runOnDevice (p : Program) (source : List Delivery) (request : LineRequest) (book : Notebook) :
    DeviceRun × Notebook :=
  let (report, (book, d)) := observeOn (p.run (defaultTerminal request).beside) (book, { source })
  (⟨report, d.written.toList, d.reads⟩, book)

/-! ## Equivalence and laws -/

/-- Interpret a program under a script; the interpretation is a record. -/
def interpretation (p : Program) (script : List String) : Act Value := do
  let i ← interpret p script
  return .record
    [ ("output", .list (i.output.map .text)),
      ("remainingInput", .list (i.remainingInput.map .text)),
      ("result", ofExcept i.result) ]

def checkEquivalent (eq : Equality) (p q : Program) (script : List String) : Act Value :=
  return .bool (← (equivalent script eq.holds).eqv p q)

structure LawRecipe where
  value : Expr
  program : Plan
  other : Plan
  f : String × Plan
  g : String × Plan
  h : String × Expr

/-- The samples that a recipe describes, built in the order value, program, other. -/
def LawRecipe.samples (r : LawRecipe) (defs : Definitions) :
    Act (Samples (Thrown Value) Notebook Value) := do
  let calls := defs.calls callDepth
  let value ← defs.eval r.value
  let program ← defs.build r.program
  let other ← defs.build r.other
  return {
    value, program, other
    f := fun a => r.f.2.build calls [(r.f.1, a)]
    g := fun a => r.g.2.build calls [(r.g.1, a)]
    h := fun a => r.h.2.eval calls [(r.h.1, a)] }

def lawsAt (samples : Samples (Thrown Value) Notebook Value) (script : List String)
    (eq eqZip : Equality) : List (Law (Thrown Value) Notebook) :=
  consoleLaws (equivalent script eq.holds) samples (fun a b => pure (.list [a, b]))
    (equivalent script eqZip.holds)

def verdicts (laws : List (Law (Thrown Value) Notebook)) : Act Value :=
  return .list <| (← verify laws).map fun verdict =>
    .record [("name", .text verdict.name), ("passed", .bool verdict.passed)]

/-! ## Thunks -/

abbrev Bench := Notebook × Counted Script

abbrev BenchThunk := Thunk (Thrown Value) Bench Value

/-- Build the thunk that a plan describes, against a terminal. -/
def ThunkPlan.build (calls : Calls) (t : Terminal (Thrown Value) Bench) :
    ThunkPlan → Scope → Act BenchThunk
  | .succeed producer, scope => pure (.succeed (onHost (producer.eval calls scope)))
  | .fail kind message, scope =>
    return .fail (kind.make (← messageOf? (← message.eval calls scope)))
  | .writeLine line, scope =>
    return (Thunk.writeLine t (← (← line.eval calls scope).toText)).map unitary
  | .readLine, _ => pure ((Thunk.readLine t).map text)
  | .printLn line, scope =>
    return (Programs.printLn t (← (← line.eval calls scope).toText)).map unitary
  | .readLn, _ => pure ((Programs.readLn t).map text)
  | .hello, _ => pure ((Programs.thunkProgram t).map unitary)
  | .console plan, scope => return .succeed ((← plan.build calls scope).run t)
  | .map self x body, scope =>
    return (← self.build calls t scope).map fun a => onHost (body.eval calls ((x, a) :: scope))
  | .flatMap self x body, scope =>
    return (← self.build calls t scope).flatMap fun a =>
      onHost (body.build calls t ((x, a) :: scope))
  | .attempt self, scope =>
    return (← self.build calls t scope).attempt.map fun result => pure (ofExcept result)
  | .choose cond yes no, scope => do
    match ← cond.eval calls scope with
    | .bool true => yes.build calls t scope
    | _ => no.build calls t scope
where
  unitary (_ : Unit) : EStateM (Thrown Value) Bench Value := pure .undefined
  text (line : String) : EStateM (Thrown Value) Bench Value := pure (.text line)

def forceTimes (thunk : BenchThunk) : Nat → Bench → List (Report Value) × Bench
  | 0, w => ([], w)
  | n + 1, w =>
    let (report, w) := observeOn thunk.force w
    let (reports, w) := forceTimes thunk n w
    (report :: reports, w)

end Teletype.Recipe
