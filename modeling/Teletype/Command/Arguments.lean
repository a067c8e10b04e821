import Teletype.Failure

/-!
# Arguments

An argument is a flag or the name of a program. At most one program may be named; a program or a
request for help must be there. The first argument from the left that cannot be accepted decides how
the arguments are rejected.
-/

namespace Teletype.Command

inductive ProgramName where
  | hello
  | questions
  | questionsForeach
  | readInt
  | thunk
  deriving DecidableEq

namespace ProgramName

/-- All programs, in the order in which help lists them. -/
def all : List ProgramName := [hello, questions, questionsForeach, readInt, thunk]

def text : ProgramName → String
  | hello => "hello"
  | questions => "questions"
  | questionsForeach => "questions-foreach"
  | readInt => "read-int"
  | thunk => "thunk"

def description : ProgramName → String
  | hello => "Ask for your name and greet you"
  | questions => "Ask five questions (collectAll) and echo the answers"
  | questionsForeach => "Ask the same questions built with foreach"
  | readInt => "Read a line and parse it as an integer"
  | thunk => "The hello program written with Thunk"

def ofText? (s : String) : Option ProgramName := all.find? fun name => name.text == s

theorem ofText?_text (name : ProgramName) : ofText? name.text = some name := by
  cases name <;> decide

end ProgramName

structure Options where
  program? : Option ProgramName := none
  verbose : Bool := false
  help : Bool := false
  deriving DecidableEq

inductive Rejection where
  | unknownOption (arg : String)
  | unexpectedArgument (arg : String)
  | unknownProgram (arg : String)
  | missingProgram
  deriving DecidableEq

def Rejection.message : Rejection → String
  | .unknownOption arg => "Unknown option: " ++ arg
  | .unexpectedArgument arg => "Unexpected argument: " ++ arg
  | .unknownProgram arg => "Unknown program: " ++ arg
  | .missingProgram => "Missing program name"

def Rejection.toFailure (r : Rejection) : Failure := .usage r.message

def Options.accept (o : Options) (arg : String) : Except Rejection Options :=
  if arg = "--verbose" ∨ arg = "-v" then .ok { o with verbose := true }
  else if arg = "--help" ∨ arg = "-h" then .ok { o with help := true }
  else if arg.toList.head? = some '-' then .error (.unknownOption arg)
  else if o.program?.isSome then .error (.unexpectedArgument arg)
  else
    match ProgramName.ofText? arg with
    | some name => .ok { o with program? := some name }
    | none => .error (.unknownProgram arg)

def Options.acceptAll (o : Options) : List String → Except Rejection Options
  | [] => .ok o
  | arg :: rest =>
    match o.accept arg with
    | .ok o => acceptAll o rest
    | .error r => .error r

/-- What a list of arguments asks for, or why it is rejected. -/
def parseArguments (args : List String) : Except Rejection Options :=
  match ({} : Options).acceptAll args with
  | .error r => .error r
  | .ok o => if !o.help && o.program?.isNone then .error .missingProgram else .ok o

def padEnd (width : Nat) (s : String) : String :=
  s ++ String.ofList (List.replicate (width - s.length) ' ')

def nameWidth : Nat := (ProgramName.all.map fun name => name.text.length).foldl max 0

def helpLine (name : ProgramName) : String :=
  "  " ++ padEnd nameWidth name.text ++ "  " ++ name.description

def helpText : String :=
  "\n".intercalate <|
    [ "lineio - run a sample console program",
      "",
      "USAGE:",
      "  lineio <program> [options]",
      "",
      "PROGRAMS:" ] ++
    ProgramName.all.map helpLine ++
    [ "",
      "OPTIONS:",
      "  -v, --verbose   Trace every read and write on stderr",
      "  -h, --help      Show this help message" ]

def usageHint : String := "Run 'lineio --help' for usage."

end Teletype.Command
