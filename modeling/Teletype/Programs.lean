import Teletype.Console.Collect
import Teletype.Console.Parse
import Teletype.Thunk

/-!
# Sample programs

The programs that the command line offers, written against the console combinators, and the
greeting once more as a thunk.
-/

namespace Teletype.Programs

variable {ε σ ω : Type}

/-! ## Small programs -/

def unit : Console ε σ Unit := .succeed ()

def fortyTwo : Console ε σ Nat := .succeed 42

def askName : Console ε σ Unit := .writeLine "What is your name?"

def readName : Console ε σ String := .readLine

def greeting (name : String) : String := "Hello, " ++ name ++ "!"

def greetUser (name : String) : Console ε σ Unit := .writeLine (greeting name)

def sayHello : Host ε σ (Console ε σ Unit) :=
  askName.flatMap fun _ => readName.flatMap fun name => pure (greetUser name)

/-- What to say about an answer that was to be an integer. -/
def integerReport : Option Number.Whole → String
  | none => "That is not an integer."
  | some n => "You entered " ++ n.text ++ "."

def readIntReport : Host ε σ (Console ε σ Unit) := do
  (← (Console.writeLine "Enter an integer:").zipRight (← Console.readInt)).flatMap fun n =>
    pure (.writeLine (integerReport n))

/-! ## The questionnaire -/

/-- The questions, in the order in which they are asked. -/
def questions : List String :=
  [ "What is your name?",
    "Where were you born?",
    "Where do you live?",
    "What is your age?",
    "What is your favorite programming language?" ]

def ask (question : String) : Host ε σ (Console ε σ String) :=
  (Console.writeLine question).flatMap fun _ => pure .readLine

def answers : Host ε σ (List (Console ε σ String)) := questions.mapM ask

def collectedAnswers : Host ε σ (Console ε σ (List String)) := do Console.collectAll (← answers)

def foreachAnswers : Host ε σ (Console ε σ (List String)) := Console.foreach questions ask

def reportLine (question : String) (reply : Option String) : String :=
  question ++ " " ++ reply.getD "(no answer)"

/-- Echo each question with the reply it got; a reply may be missing. -/
def reportAnswers (replies : List (Option String)) : Host ε σ (Console ε σ Unit) := do
  let lines := questions.zipIdx.map fun (question, i) => reportLine question (replies[i]?.join)
  (← Console.foreach lines fun line => pure (.writeLine line)).void

def questionnaire (ask : Host ε σ (Console ε σ (List String))) : Host ε σ (Console ε σ Unit) := do
  (← ask).flatMap fun replies => reportAnswers (replies.map some)

/-! ## Thunks -/

def printLn (t : Terminal ε ω) (line : String) : Thunk ε ω Unit := .writeLine t line

def readLn (t : Terminal ε ω) : Thunk ε ω String := .readLine t

def thunkProgram (t : Terminal ε ω) : Thunk ε ω Unit :=
  ((printLn t "What is your name?").flatMap fun _ => pure (readLn t)).flatMap fun name =>
    pure (printLn t (greeting name))

end Teletype.Programs
