import Teletype.Datum

/-!
# The terms of recipes

Host code is written as expressions, console programs as plans, and a chain of methods on a program
as a list of steps. A function is written as the name of its argument and its body, in place. A plan
may call a definition by name; definitions take parameters and see nothing else.
-/

namespace Teletype.Recipe

inductive FailureKind where
  | plain
  | endOfInput
  | usage
  deriving DecidableEq

inductive Unary where
  | fromNullable
  | isSome
  | isNone
  | left
  | right
  | isLeft
  | isRight
  | toFailure
  | message
  | parseInteger
  deriving DecidableEq

inductive Binary where
  | add
  | mul
  | equals
  | less
  deriving DecidableEq

inductive Pairing where
  | both
  | second
  | first
  deriving DecidableEq

inductive Sample where
  | unit
  | fortyTwo
  | askName
  | readName
  | sayHello
  | readIntReport
  | collectedAnswers
  | foreachAnswers
  | answer (index : Nat)
  deriving DecidableEq

mutual

inductive Expr where
  | literal (d : Datum)
  | variable (name : String)
  | list (items : List Expr)
  | nth (list : Expr) (index : Nat)
  | concat (parts : List Expr)
  | unary (op : Unary) (arg : Expr)
  | binary (op : Binary) (left right : Expr)
  | choose (cond yes no : Expr)
  | log (text rest : Expr)
  | tick (counter : String)
  | raise (kind : FailureKind) (message : Expr)
  | raiseValue (value : Expr)
  | failure (kind : FailureKind) (message? : Option Expr)
  | usageFailure (message exitCode : Expr)
  | program (plan : Plan)
  | fromPredicate (value : Expr) (x : String) (test : Expr)
  | optionMap (value : Expr) (x : String) (body : Expr)
  | optionFlatMap (value : Expr) (x : String) (body : Expr)
  | optionFold (value onNone : Expr) (x : String) (onSome : Expr)
  | optionGetOrElse (value onNone : Expr)
  | attempt (body : Expr) (x : String) (handler : Expr)
  | eitherMap (value : Expr) (x : String) (body : Expr)
  | eitherMapLeft (value : Expr) (x : String) (body : Expr)
  | eitherFold (value : Expr) (x : String) (onLeft : Expr) (y : String) (onRight : Expr)
  | eitherGetOrElse (value : Expr) (x : String) (onLeft : Expr)

inductive Plan where
  | readLine
  | unit
  | readInt
  | writeLine (line : Expr)
  | succeed (value : Expr)
  | sync (value : Expr)
  | readAs (x : String) (parse : Expr)
  | ask (x : String) (body : Plan)
  | write (line : Expr) (next : Plan)
  | flatMap (self : Plan) (x : String) (body : Plan)
  | map (self : Plan) (x : String) (body : Expr)
  | pair (how : Pairing) (self other : Plan)
  | flatten (self : Plan)
  | as (self : Plan) (value : Expr)
  | void (self : Plan)
  | collectAll (plans : List Plan)
  | foreach (values : Expr) (x : String) (body : Plan)
  | collectRange (count : Nat) (x : String) (body : Plan)
  | foreachRange (count : Nat) (x : String) (body : Plan)
  | fluent (self : Plan) (chain : List Step)
  | sample (which : Sample)
  | greetUser (name : Expr)
  | reportAnswers (replies : Expr)
  | choose (cond : Expr) (yes no : Plan)
  | bind (x : String) (value : Expr) (body : Plan)
  | variable (x : String)
  | call (definition : String) (args : List Expr)
  | writes (count : Nat) (stem : String) (next : Plan)

inductive Step where
  | map (x : String) (body : Expr)
  | flatMap (x : String) (body : Plan)
  | pair (how : Pairing) (other : Plan)
  | as (value : Expr)
  | void

end

inductive ThunkPlan where
  | succeed (producer : Expr)
  | fail (kind : FailureKind) (message : Expr)
  | writeLine (line : Expr)
  | readLine
  | printLn (line : Expr)
  | readLn
  | hello
  | console (program : Plan)
  | map (self : ThunkPlan) (x : String) (body : Expr)
  | flatMap (self : ThunkPlan) (x : String) (body : ThunkPlan)
  | attempt (self : ThunkPlan)
  | choose (cond : Expr) (yes no : ThunkPlan)

structure Definition where
  params : List String
  body : Plan

abbrev Definitions := List (String × Definition)

end Teletype.Recipe
