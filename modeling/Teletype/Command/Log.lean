import Teletype.Terminal.Traced

/-!
# The log

Messages to whoever runs a command, one line each, marked by a sign for their kind. Debug messages
appear only in a verbose log. In a colored log the sign is colored.
-/

namespace Teletype.Command

inductive Level where
  | info
  | success
  | warn
  | error
  | debug
  deriving DecidableEq

def Level.sign : Level → String
  | .info => "ℹ"
  | .success => "✓"
  | .warn => "⚠"
  | .error => "✗"
  | .debug => "·"

/-- The number of the color of a sign. -/
def Level.color : Level → String
  | .info => "34"
  | .success => "32"
  | .warn => "33"
  | .error => "31"
  | .debug => "2"

/-- The sequence that switches the terminal to a color; color 0 is none. -/
def colorSwitch (color : String) : String := "\x1b[" ++ color ++ "m"

structure Logger where
  verbose : Bool
  color : Bool
  deriving DecidableEq

namespace Logger

/-- The sign of a kind of message, as it is shown. -/
def paint (logger : Logger) (level : Level) : String :=
  if logger.color then colorSwitch level.color ++ level.sign ++ colorSwitch "0" else level.sign

def shows (logger : Logger) (level : Level) : Bool := level != .debug || logger.verbose

def line (logger : Logger) (level : Level) (message : String) : String :=
  logger.paint level ++ " " ++ message

def log {ε ω : Type} (logger : Logger) (write : String → EStateM ε ω Unit) (level : Level)
    (message : String) : EStateM ε ω Unit :=
  if logger.shows level then write (logger.line level message) else pure ()

end Logger

/-- A terminal whose operations are shown as debug messages. -/
def tracedBy {ε ω : Type} (logger : Logger) (write : String → EStateM ε ω Unit)
    (t : Terminal ε ω) : Terminal ε ω :=
  t.traced (logger.log write .debug)

end Teletype.Command
