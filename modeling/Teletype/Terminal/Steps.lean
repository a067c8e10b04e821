import Teletype.Terminal.Basic

/-!
# Operations in a row

Single operations of a terminal, for whoever uses it line by line and not by way of a program. What
one operation raises does not keep the next from being tried.
-/

namespace Teletype

inductive Request where
  | read
  | write (line : String)
  deriving DecidableEq

/-- Ask a terminal for an operation: a line if one was read. -/
def Request.perform {ε ω : Type} (t : Terminal ε ω) : Request → EStateM ε ω (Option String)
  | .read => some <$> t.readLine
  | .write line => (fun () => none) <$> t.writeLine line

/-- An action on a state: what it returned or raised, and the state it left. -/
def outcomeOf {ε ω α : Type} (action : EStateM ε ω α) (w : ω) : Except ε α × ω :=
  match action w with
  | .ok a w => (.ok a, w)
  | .error e w => (.error e, w)

/-- Take steps in order, each from the state that the one before left. -/
def inTurn {α β ω : Type} (step : α → ω → β × ω) : List α → ω → List β × ω
  | [], w => ([], w)
  | a :: rest, w =>
    let (b, w) := step a w
    let (bs, w) := inTurn step rest w
    (b :: bs, w)

end Teletype
