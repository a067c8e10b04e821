import Teletype.Console.Basic
import Teletype.Number.Whole

/-!
# Questions with a parsed answer

A parse that fails is a result like any other; it never raises.
-/

namespace Teletype.Console

variable {ε σ α : Type}

def readAs (parse : String → Host ε σ α) : Host ε σ (Console ε σ α) :=
  readLine.map parse

def readInt : Host ε σ (Console ε σ (Option Number.Whole)) :=
  readAs fun line => pure (Number.Whole.ofText? line)

end Teletype.Console
