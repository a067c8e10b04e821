import Teletype.Equivalence

/-!
# The laws of console programs

Sequencing has `succeed` as its unit on both sides and is associative; mapping and pairing are
derived from it. `consoleLaws` states each law at chosen samples as a check that can be run, under a
given test of sameness; `verify` runs them in order.

A pair is an object of its own, made by whichever program ends with it. How pairs are made is
therefore left to the host code that asks for the laws, beside the test that compares them.
-/

namespace Teletype

variable {ε σ α π : Type}

structure Law (ε σ : Type) where
  name : String
  description : String
  check : Host ε σ Bool

structure Samples (ε σ α : Type) where
  value : α
  program : Console ε σ α
  other : Console ε σ α
  f : α → Host ε σ (Console ε σ α)
  g : α → Host ε σ (Console ε σ α)
  h : α → Host ε σ α

structure Verdict where
  name : String
  passed : Bool
  deriving DecidableEq

/-- The seven laws. Pairs are compared by a test of their own. -/
def consoleLaws (E : Equivalence ε σ α) (s : Samples ε σ α) (pair : α → α → Host ε σ π)
    (EZip : Equivalence ε σ π) : List (Law ε σ) :=
  [ { name := "left identity"
      description := "succeed is left identity for flatMap: flatMap(succeed(a), f) === f(a)"
      check := do
        E.eqv (← (Console.succeed s.value).flatMap s.f) (← s.f s.value) },
    { name := "right identity"
      description := "succeed is right identity for flatMap: flatMap(fa, succeed) === fa"
      check := do
        E.eqv (← s.program.flatMap fun a => pure (.succeed a)) s.program },
    { name := "associativity"
      description :=
        "flatMap is associative: flatMap(flatMap(fa, f), g) === flatMap(fa, a => flatMap(f(a), g))"
      check := do
        E.eqv (← (← s.program.flatMap s.f).flatMap s.g)
          (← s.program.flatMap fun a => do (← s.f a).flatMap s.g) },
    { name := "map derived from flatMap"
      description := "map(fa, h) === flatMap(fa, a => succeed(h(a)))"
      check := do
        E.eqv (← s.program.map s.h) (← s.program.flatMap fun a => return .succeed (← s.h a)) },
    { name := "zip ordering"
      description := "zip(fa, fb) === flatMap(fa, a => map(fb, b => [a, b]))"
      check := do
        EZip.eqv (← s.program.zipWith pair s.other)
          (← s.program.flatMap fun a => s.other.map (pair a)) },
    { name := "zipRight derived from flatMap"
      description := "zipRight(fa, fb) === flatMap(fa, () => fb)"
      check := do
        E.eqv (← s.program.zipRight s.other) (← s.program.flatMap fun _ => pure s.other) },
    { name := "zipLeft derived from flatMap"
      description := "zipLeft(fa, fb) === flatMap(fa, a => as(fb, a))"
      check := do
        E.eqv (← s.program.zipLeft s.other) (← s.program.flatMap fun a => s.other.as a) } ]

/-- Run every check in order; what a check raises ends the run. -/
def verify (laws : List (Law ε σ)) : Host ε σ (List Verdict) :=
  laws.mapM fun law => return ⟨law.name, ← law.check⟩

end Teletype
