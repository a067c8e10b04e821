import Teletype.Number.Basic

/-!
# Failures

What a terminal, a configuration source or a host callback may raise. A `Failure` has a kind, a
message and, when the system reported one, an error code. Host code may also raise a bare value of
its own; `Thrown` holds either, and `Thrown.toFailure` is the one rule by which a raised value is
reported as a failure: a failure is itself, and a bare value becomes a plain failure whose message
is the text of the value. To put a bare value into words is host code again (`HasText`). It can
raise, and then there is no failure to report.
-/

namespace Teletype

/-- The kinds of failure. A usage failure carries the exit code it asks for. -/
inductive Failure.Kind where
  | plain
  | endOfInput
  | usage (exitCode : Number)
  | json
  | yaml
  /-- A value is not of a type that can be used here. -/
  | type
  deriving DecidableEq

/-- A failure: its kind, what it says, and the system's code for it. -/
structure Failure where
  kind : Failure.Kind
  message : String
  code : Option String := none
  deriving DecidableEq

namespace Failure

def Kind.name : Kind → String
  | .plain => "Error"
  | .endOfInput => "EndOfInputError"
  | .usage _ => "UsageError"
  | .json => "JSONError"
  | .yaml => "YAMLException"
  | .type => "TypeError"

def plain (message : String) : Failure := { kind := .plain, message }

/-- What end of input says unless it is told otherwise. -/
def endOfInputMessage : String := "End of input reached"

/-- A terminal was asked for a line after its input ended. -/
def endOfInput (message : String := endOfInputMessage) : Failure := { kind := .endOfInput, message }

/-- The exit code that a usage failure asks for unless it is told otherwise. -/
def usageExitCode : Number := .ofNat 2

def usage (message : String) (exitCode : Number := usageExitCode) : Failure :=
  { kind := .usage exitCode, message }

/-- The members of a value were asked for that has none. -/
def noMembers : Failure :=
  { kind := .type, message := "Cannot convert undefined or null to object" }

/-- A value was to be put into words that has no text. -/
def noText : Failure := { kind := .type, message := "Cannot convert object to primitive value" }

def text (f : Failure) : String :=
  if f.message.isEmpty then f.kind.name else f.kind.name ++ ": " ++ f.message

end Failure

/-- What host code may raise: a failure, or a bare value. -/
inductive Thrown (V : Type) where
  | failure (f : Failure)
  | value (v : V)

/-- How bare values are put into words, over a state `ω`. That is host code: it may look at the
state and change it, and it may raise. -/
class HasText (V ω : Type) where
  text : V → EStateM (Thrown V) ω String

variable {V ω : Type}

instance (priority := low) : HasText Empty ω := ⟨nofun⟩
instance (priority := low) : HasText String ω := ⟨pure⟩

/-- What was raised, as a failure; a bare value is put into words. -/
def Thrown.toFailure [HasText V ω] : Thrown V → EStateM (Thrown V) ω Failure
  | .failure f => pure f
  | .value v => Failure.plain <$> HasText.text v

end Teletype
