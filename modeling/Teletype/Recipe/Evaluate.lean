import Teletype.Recipe.Expr
import Teletype.Recipe.Value
import Teletype.Programs

/-!
# What recipes mean

Expressions are evaluated and plans are built in a scope of variables, arguments from left to right.
Evaluation logs to the notebook, ticks its counters and may raise. Building a plan builds its parts
in the order in which they are written and then calls the combinator; the functions in it become the
callbacks of the program that results.
-/

namespace Teletype.Recipe

open Value (ofDatum ofNat ofWhole? toText right left attempt)

abbrev Scope := List (String × Value)

namespace Notebook

def note (event : String) (book : Notebook) : Notebook :=
  { book with events := book.events.push event }

def count (counter : String) (book : Notebook) : Nat :=
  (List.lookup counter book.counters).getD 0

/-- The notebook with the events taken out, and the events. -/
def drain (book : Notebook) : List String × Notebook :=
  (book.events.toList, { book with events := #[] })

end Notebook

def log (event : String) : Act Unit := modify (·.note event)

def tick (counter : String) : Act Nat := do
  let count := (← get).count counter + 1
  modify fun book =>
    { book with counters := (counter, count) :: book.counters.filter (·.1 != counter) }
  return count

def fault (message : String) : Act α := throw (.failure (.plain message))

/-- The message that a value gives a failure; undefined gives none. -/
def messageOf? : Value → Act (Option String)
  | .undefined => pure none
  | v => some <$> v.toText

/-- The exit code that a value gives a usage failure; undefined gives none. -/
def exitCodeOf? : Value → Option Number
  | .undefined => none
  | v => some v.toNumber

/-- A failure of the kind with the message, or with the kind's own message if there is none. -/
def FailureKind.make (kind : FailureKind) (message? : Option String) : Failure :=
  match kind with
  | .plain => .plain (message?.getD "")
  | .endOfInput => .endOfInput (message?.getD Failure.endOfInputMessage)
  | .usage => .usage (message?.getD "")

def Unary.apply : Unary → Value → Act Value
  | .fromNullable, v => pure v.fromNullable
  | .isSome, v => pure (.bool v.toOption?.isSome)
  | .isNone, v => pure (.bool v.toOption?.isNone)
  | .left, v => pure v.left
  | .right, v => pure v.right
  | .isLeft, v => pure (.bool v.isLeft)
  | .isRight, v => pure (.bool v.isRight)
  | .toFailure, v => .failure <$> v.toFailure
  | .message, v => pure (v.field "message")
  | .parseInteger, v => return ofWhole? (Number.Whole.ofText? (← v.toText))

def Binary.apply : Binary → Value → Value → Value
  | .add, v, w => .number (v.toNumber.add w.toNumber)
  | .mul, v, w => .number (v.toNumber.mul w.toNumber)
  | .equals, v, w => .bool (v.equals w)
  | .less, v, w => .bool (v.toNumber.lt w.toNumber)

def asProgram : Value → Act Program
  | .program p => pure p
  | _ => fault "not a program"

/-- A list of values as one value, by changing the result of the program. -/
def listed (p : Console (Thrown Value) Notebook (List Value)) : Act Program :=
  p.map fun items => pure (.list items)

/-- The unit result as a value. -/
def unitary (p : Console (Thrown Value) Notebook Unit) : Act Program := p.as .undefined

def Pairing.apply (how : Pairing) (self other : Program) : Act Program :=
  match how with
  | .both => self.zipWith (fun a b => pure (.list [a, b])) other
  | .second => self.zipRight other
  | .first => self.zipLeft other

def Sample.build : Sample → Act Program
  | .unit => unitary Programs.unit
  | .fortyTwo => Programs.fortyTwo.map fun n => pure (ofNat n)
  | .askName => unitary Programs.askName
  | .readName => Programs.readName.map fun name => pure (.text name)
  | .sayHello => do unitary (← Programs.sayHello)
  | .readIntReport => do unitary (← Programs.readIntReport)
  | .collectedAnswers => do (← Programs.collectedAnswers).map ofReplies
  | .foreachAnswers => do (← Programs.foreachAnswers).map ofReplies
  | .answer index => do
    match (← Programs.answers)[index]? with
    | some p => p.map fun reply => pure (.text reply)
    | none => fault "no such answer"
where
  ofReplies (replies : List String) : Act Value := pure (.list (replies.map .text))

/-- The replies in a list; null and undefined stand for a missing one. -/
def repliesOf (v : Value) : Act (List (Option String)) :=
  v.items.mapM fun item => item.fromNullable.toOption?.mapM toText

def range (count : Nat) : List Value := (List.range count).map ofNat

/-- The lines `stem` 0, `stem` 1, … below a count, before a program. -/
def writeRange (stem : String) : Nat → Program → Program
  | 0, next => next
  | count + 1, next => writeRange stem count (.write (stem ++ (Number.ofNat count).text) next)

/-- How to build the body of a definition, from its name and its arguments. -/
abbrev Calls := String → List Value → Act Program

mutual

def Expr.eval (calls : Calls) : Expr → Scope → Act Value
  | .literal d, _ => pure (ofDatum d)
  | .variable name, scope => pure ((List.lookup name scope).getD .undefined)
  | .list items, scope => return .list (← evalAll calls items scope)
  | .nth values index, scope => return (← values.eval calls scope).items[index]?.getD .undefined
  | .concat parts, scope => do
    return .text (String.join (← (← evalAll calls parts scope).mapM toText))
  | .unary op arg, scope => do op.apply (← arg.eval calls scope)
  | .binary op left right, scope =>
    return op.apply (← left.eval calls scope) (← right.eval calls scope)
  | .choose cond yes no, scope => do
    match ← cond.eval calls scope with
    | .bool true => yes.eval calls scope
    | _ => no.eval calls scope
  | .log event rest, scope => do
    log ("log:" ++ (← (← event.eval calls scope).toText))
    rest.eval calls scope
  | .tick counter, _ => return ofNat (← tick counter)
  | .raise kind message, scope => do
    throw (.failure (kind.make (← messageOf? (← message.eval calls scope))))
  | .raiseValue value, scope => do throw (← value.eval calls scope).toThrown
  | .failure kind none, _ => return .failure (kind.make none)
  | .failure kind (some message), scope =>
    return .failure (kind.make (← messageOf? (← message.eval calls scope)))
  | .usageFailure message exitCode, scope => do
    let message ← message.eval calls scope
    let exitCode ← exitCode.eval calls scope
    return .failure
      (.usage ((← messageOf? message).getD "") ((exitCodeOf? exitCode).getD Failure.usageExitCode))
  | .program plan, scope => return .program (← plan.build calls scope)
  | .fromPredicate value x test, scope => do
    let v ← value.eval calls scope
    return if (← test.eval calls ((x, v) :: scope)).isTruthy then v else .null
  | .optionMap value x body, scope => do
    (← value.eval calls scope).foldOption (pure .null) fun v => body.eval calls ((x, v) :: scope)
  | .optionFlatMap value x body, scope => do
    (← value.eval calls scope).foldOption (pure .null) fun v => body.eval calls ((x, v) :: scope)
  | .optionFold value onNone x onSome, scope => do
    (← value.eval calls scope).foldOption (onNone.eval calls scope) fun v =>
      onSome.eval calls ((x, v) :: scope)
  | .optionGetOrElse value onNone, scope => do
    (← value.eval calls scope).foldOption (onNone.eval calls scope) pure
  | .attempt body x handler, scope =>
    attempt (body.eval calls scope) fun e => handler.eval calls ((x, e) :: scope)
  | .eitherMap value x body, scope => do
    let v ← value.eval calls scope
    if v.isRight then return right (← body.eval calls ((x, v.field "right") :: scope)) else return v
  | .eitherMapLeft value x body, scope => do
    let v ← value.eval calls scope
    if v.isLeft then return left (← body.eval calls ((x, v.field "left") :: scope)) else return v
  | .eitherFold value x onLeft y onRight, scope => do
    (← value.eval calls scope).foldEither (fun v => onLeft.eval calls ((x, v) :: scope)) fun v =>
      onRight.eval calls ((y, v) :: scope)
  | .eitherGetOrElse value x onLeft, scope => do
    (← value.eval calls scope).foldEither (fun v => onLeft.eval calls ((x, v) :: scope)) pure

def evalAll (calls : Calls) : List Expr → Scope → Act (List Value)
  | [], _ => pure []
  | e :: rest, scope => return (← e.eval calls scope) :: (← evalAll calls rest scope)

def Plan.build (calls : Calls) : Plan → Scope → Act Program
  | .readLine, _ => Console.readLine.map fun line => pure (.text line)
  | .unit, _ => pure (.succeed .undefined)
  | .readInt, _ => do (← Console.readInt).map fun n => pure (ofWhole? n)
  | .writeLine line, scope =>
    return .write (← (← line.eval calls scope).toText) (.succeed .undefined)
  | .succeed value, scope => return .succeed (← value.eval calls scope)
  | .sync value, scope => pure (.sync (value.eval calls scope))
  | .readAs x parse, scope =>
    Console.readAs fun line => parse.eval calls ((x, .text line) :: scope)
  | .ask x body, scope => pure (.ask fun line => body.build calls ((x, .text line) :: scope))
  | .write line next, scope => do
    let line ← (← line.eval calls scope).toText
    return .write line (← next.build calls scope)
  | .flatMap self x body, scope => do
    (← self.build calls scope).flatMap fun a => body.build calls ((x, a) :: scope)
  | .map self x body, scope => do
    (← self.build calls scope).map fun a => body.eval calls ((x, a) :: scope)
  | .pair how self other, scope => do
    let self ← self.build calls scope
    how.apply self (← other.build calls scope)
  | .flatten self, scope => do (← self.build calls scope).flatMap asProgram
  | .as self value, scope => do
    let self ← self.build calls scope
    self.as (← value.eval calls scope)
  | .void self, scope => do (← self.build calls scope).as .undefined
  | .collectAll plans, scope => do listed (← Console.collectAll (← buildAll calls plans scope))
  | .foreach values x body, scope => do
    let values := (← values.eval calls scope).items
    listed (← Console.foreach values fun v => body.build calls ((x, v) :: scope))
  | .collectRange count x body, scope => do
    let programs ← (range count).mapM fun v => body.build calls ((x, v) :: scope)
    listed (← Console.collectAll programs)
  | .foreachRange count x body, scope => do
    listed (← Console.foreach (range count) fun v => body.build calls ((x, v) :: scope))
  | .fluent self chain, scope => do applyAll calls chain scope (← self.build calls scope)
  | .sample which, _ => which.build
  | .greetUser name, scope => do unitary (Programs.greetUser (← (← name.eval calls scope).toText))
  | .reportAnswers replies, scope => do
    unitary (← Programs.reportAnswers (← repliesOf (← replies.eval calls scope)))
  | .choose cond yes no, scope => do
    match ← cond.eval calls scope with
    | .bool true => yes.build calls scope
    | _ => no.build calls scope
  | .bind x value body, scope => do
    let v ← value.eval calls scope
    body.build calls ((x, v) :: scope)
  | .variable x, scope => asProgram ((List.lookup x scope).getD .undefined)
  | .call definition args, scope => do calls definition (← evalAll calls args scope)
  | .writes count stem next, scope => return writeRange stem count (← next.build calls scope)

def buildAll (calls : Calls) : List Plan → Scope → Act (List Program)
  | [], _ => pure []
  | plan :: rest, scope => return (← plan.build calls scope) :: (← buildAll calls rest scope)

/-- Call the methods of a chain in turn; the argument of each is made when its turn comes. -/
def applyAll (calls : Calls) : List Step → Scope → Program → Act Program
  | [], _, self => pure self
  | step :: rest, scope, self => do
    applyAll calls rest scope (← step.apply calls scope self)

def Step.apply (calls : Calls) : Step → Scope → Program → Act Program
  | .map x body, scope, self => self.map fun a => body.eval calls ((x, a) :: scope)
  | .flatMap x body, scope, self =>
    self.flatMap fun a => body.build calls ((x, a) :: scope)
  | .pair how other, scope, self => do how.apply self (← other.build calls scope)
  | .as value, scope, self => do self.as (← value.eval calls scope)
  | .void, _, self => self.as .undefined

end

def callDepth : Nat := Nat.pow 2 40

/-- Calls that nest at most `depth` deep. -/
def Definitions.calls (defs : Definitions) (depth : Nat) : Calls :=
  match depth with
  | 0 => fun _ _ => fault "calls nest too deep"
  | depth + 1 => fun name args =>
    match List.lookup name defs with
    | some d => d.body.build (calls defs depth) (d.params.zip args)
    | none => fault "no such definition"

end Teletype.Recipe
