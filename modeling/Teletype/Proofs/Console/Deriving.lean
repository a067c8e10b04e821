import Teletype.Proofs.Console.Sequencing

/-!
# Derived combinators

Keeping one side of a pair, flattening and pairing three programs are each written with several
sequencings, and each of these looks through what the one before has built. They come to one
sequencing for each program: no value is asked for twice, and the callbacks run in the order of the
programs, also where one of them raises.

A program that is handed to a combinator is built before the combinator looks at anything, and
building it runs its callbacks up to its first question. So pairs do not nest freely: in
`zip (zip a b) c` the last two programs are joined at the end of `a`, in `zip a (zip b c)` before
`a` is looked at. The two agree where that makes no difference (`YieldsTo`), and in general not.
-/

namespace Teletype

variable {ε σ α β γ δ : Type}

/-- It does not matter which of the two actions is run first. -/
def Host.Commutes (x : Host ε σ α) (y : Host ε σ β) : Prop :=
  (do let a ← x; let b ← y; return (a, b)) = (do let b ← y; let a ← x; return (a, b))

theorem Host.commutes_pure (x : Host ε σ α) (b : β) : Host.Commutes x (pure b) := by
  simp only [Commutes, pure_bind]

/-- Whatever goes on from the results of both may run them in either order. -/
theorem Host.Commutes.bind_comm {x : Host ε σ α} {y : Host ε σ β} (h : Host.Commutes x y)
    (f : α → β → Host ε σ γ) :
    (x >>= fun a => y >>= f a) = y >>= fun b => x >>= fun a => f a b := by
  have hpair := congrArg (fun z : Host ε σ (α × β) => z >>= fun p => f p.1 p.2) h
  simpa only [bind_assoc, pure_bind] using hpair

namespace Console

/-- Whether the action is run before the program is looked at or at its end makes no difference.
Where the program ends without a question, the action commutes with the value at the end; what
stands behind a question is built anew at each run, and there the action must do nothing. -/
def YieldsTo (action : Host ε σ β) : Console ε σ α → Prop
  | .done value => Host.Commutes value action
  | .write _ next => YieldsTo action next
  | .read _ => ∃ b, action = pure b

/-- An action that does nothing may be run at any time. -/
theorem yieldsTo_pure (self : Console ε σ α) (b : β) : self.YieldsTo (pure b) := by
  induction self using Console.induct with
  | sync value => exact Host.commutes_pure value b
  | write line next ih => exact ih
  | ask next _ => exact ⟨b, rfl⟩

/-- An action at the end of a program may be moved to the front. -/
theorem YieldsTo.bind_comm {action : Host ε σ β} {self : Console ε σ α} (h : self.YieldsTo action)
    (f : α → β → Host ε σ (Console ε σ γ)) :
    Console.bind (fun a => action >>= f a) self =
      action >>= fun b => Console.bind (fun a => f a b) self := by
  induction self using Console.induct with
  | sync value =>
    simp only [bind_sync]
    exact Host.Commutes.bind_comm h f
  | write line next ih => simp only [bind_write, ih h, map_bind]
  | ask next _ =>
    obtain ⟨b, rfl⟩ := h
    simp only [pure_bind]

/-! ## One sequencing for each program -/

theorem as_eq_bind (self : Console ε σ α) (b : β) :
    self.as b = bind (fun _ => pure (succeed b)) self := map_eq_bind self _

/-- What is mapped and then flattened is handed on once. -/
theorem flatten_map (self : Console ε σ α) (f : α → Host ε σ (Console ε σ β)) :
    (do (← self.map f).flatten) = bind f self := by
  simp only [flatten, flatMap_eq_bind, map_eq_bind, bind_bind, pure_bind, bind_sync, bind_pure]

/-- A pair and one program more: each is sequenced once, from left to right. -/
theorem zip_zip_left (fa : Console ε σ α) (fb : Console ε σ β) (fc : Console ε σ γ) :
    (do (← fa.zip fb).zip fc) =
      bind (fun a => bind (fun b => bind (fun c => pure (succeed ((a, b), c))) fc) fb) fa := by
  have hzip : ∀ pair : Console ε σ (α × β), pair.zip fc =
      bind (fun p => bind (fun c => pure (succeed (p, c))) fc) pair := fun pair => by
    simp only [zip, zipWith, flatMap_eq_bind, map_eq_bind]
    rfl
  simp only [hzip, zip_bind]

/-- A pair of the last two, built at the end of the first, with the first result put in. -/
theorem zip_map_nest (a : α) (fb : Console ε σ β) (fc : Console ε σ γ) :
    (do (← fb.zip fc).map fun (b, c) => pure ((a, b), c)) =
      bind (fun b => bind (fun c => pure (succeed ((a, b), c))) fc) fb := by
  simp only [map_eq_bind, zip_bind]
  rfl

/-- A pair of the first and of a program whose result is a pair, nested the other way. -/
theorem zip_map_assoc (fa : Console ε σ α) (pair : Console ε σ (β × γ)) :
    (do (← fa.zip pair).map fun (a, b, c) => pure ((a, b), c)) =
      bind (fun a => bind (fun (b, c) => pure (succeed ((a, b), c))) pair) fa := by
  simp only [map_eq_bind, zip_bind]
  rfl

/-- **Derived combinators are their forms in single steps**, as actions of the host: building does
the same to the host's state, raises the same, and gives the same tree. Three programs are paired
from the left by joining the last two at the end of the first; that is the pairing from the right,
with the pairs nested the other way, wherever the first program yields to the building of the last
two. -/
theorem derived_eq_flatMap (fa : Console ε σ α) (fb : Console ε σ β) (fc : Console ε σ γ)
    (f : α → Host ε σ (Console ε σ δ)) :
    fa.zipLeft fb = (fa.flatMap fun a => fb.as a) ∧
    (do (← fa.map f).flatten) = fa.flatMap f ∧
    fa.zipRight fb = (fa.flatMap fun _ => fb.flatMap fun b => pure (succeed b)) ∧
    (do (← fa.zip fb).zip fc) =
      (fa.flatMap fun a => do (← fb.zip fc).map fun (b, c) => pure ((a, b), c)) ∧
    (fa.YieldsTo (fb.zip fc) →
      (do (← fa.zip fb).zip fc) =
        do (← fa.zip (← fb.zip fc)).map fun (a, b, c) => pure ((a, b), c)) := by
  refine ⟨?_, ?_, ?_, ?_, fun hyields => ?_⟩
  · rw [zipLeft_eq_bind, flatMap_eq_bind]
    simp only [as_eq_bind]
  · rw [flatten_map, flatMap_eq_bind]
  · rw [zipRight_eq_bind]
    simp only [flatMap_eq_bind]
  · rw [zip_zip_left, flatMap_eq_bind]
    simp only [zip_map_nest]
  · calc (do (← fa.zip fb).zip fc)
        = bind (fun a => do
            bind (fun (b, c) => pure (succeed ((a, b), c))) (← fb.zip fc)) fa := by
          simp only [zip_zip_left, zip_bind]
      _ = (do
            let pair ← fb.zip fc
            bind (fun a => bind (fun (b, c) => pure (succeed ((a, b), c))) pair) fa) :=
          hyields.bind_comm _
      _ = (do (← fa.zip (← fb.zip fc)).map fun (a, b, c) => pure ((a, b), c)) := by
          simp only [zip_map_assoc]

/-- The first two programs ask before they end, so that nothing is run while the last two are
joined; the third one counts its runs. -/
theorem derived_eq_flatMap_asking :
    let first : Console String (List String) String := .write "first?" readLine
    let counts : Console String (List String) Nat :=
      .sync fun log => .ok log.length (log ++ ["counted"])
    first.YieldsTo (readLine.zip counts) ∧
      (do (← first.zip readLine).zip counts) =
        (do (← first.zip (← readLine.zip counts)).map fun (a, b, c) => pure ((a, b), c)) := by
  intro first counts
  have hpair : ∃ pair, (readLine : Console String (List String) String).zip counts = pure pair := by
    simp only [zip, zipWith, flatMap_eq_bind, readLine, bind_ask]
    exact ⟨_, rfl⟩
  obtain ⟨pair, hpair⟩ := hpair
  have hyields : first.YieldsTo (readLine.zip counts) := hpair ▸ yieldsTo_pure first pair
  exact ⟨hyields, (derived_eq_flatMap first readLine counts fun _ => pure readLine).2.2.2.2 hyields⟩

/-- Pairs do not nest freely. Each of three programs notes an event when its value is asked for.
Paired from the left they note them in order; paired from the right, the last two come first. -/
theorem zip_zip_reorders :
    let noting (event : String) : Console Empty (List String) String :=
      .sync fun log => .ok event (log ++ [event])
    let left : Host Empty (List String) (Console Empty (List String) _) :=
      do (← (noting "a").zip (noting "b")).zip (noting "c")
    let right := do
      (← (noting "a").zip (← (noting "b").zip (noting "c"))).map fun (a, b, c) => pure ((a, b), c)
    (∃ program, left [] = .ok program ["a", "b", "c"]) ∧
      (∃ program, right [] = .ok program ["b", "c", "a"]) ∧ left ≠ right := by
  intro noting left right
  have hleft : ∃ program, left [] = .ok program ["a", "b", "c"] := ⟨_, rfl⟩
  have hright : ∃ program, right [] = .ok program ["b", "c", "a"] := ⟨_, rfl⟩
  refine ⟨hleft, hright, fun heq => ?_⟩
  obtain ⟨p, hp⟩ := hleft
  obtain ⟨q, hq⟩ := hright
  rw [heq, hq] at hp
  injection hp with _ hlog
  exact absurd hlog (by decide)

end Console

end Teletype
