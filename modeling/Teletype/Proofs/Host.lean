import Teletype.Console.Basic

/-!
# Actions, one outcome at a time

An action on a state returns or raises. The lemmas below say what sequencing and mapping make of
each outcome, so that a proof about callbacks can follow what they did and need not open the monad.
-/

namespace Teletype.Host

variable {ε ω α β : Type}

theorem bind_of_ok {x : EStateM ε ω α} {f : α → EStateM ε ω β} {w w' : ω} {a : α}
    (h : x w = .ok a w') : (x >>= f) w = f a w' := by
  change EStateM.bind x f w = _
  simp only [EStateM.bind, h]

theorem bind_of_error {x : EStateM ε ω α} {f : α → EStateM ε ω β} {w w' : ω} {e : ε}
    (h : x w = .error e w') : (x >>= f) w = .error e w' := by
  change EStateM.bind x f w = _
  simp only [EStateM.bind, h]

theorem map_of_ok {x : EStateM ε ω α} {f : α → β} {w w' : ω} {a : α}
    (h : x w = .ok a w') : (f <$> x) w = .ok (f a) w' := by
  change EStateM.map f x w = _
  simp only [EStateM.map, h]

theorem map_of_error {x : EStateM ε ω α} {f : α → β} {w w' : ω} {e : ε}
    (h : x w = .error e w') : (f <$> x) w = .error e w' := by
  change EStateM.map f x w = _
  simp only [EStateM.map, h]

/-- What returns in sequence returned at first, and then from there. -/
theorem exists_of_bind_ok {x : EStateM ε ω α} {f : α → EStateM ε ω β} {w w' : ω} {b : β}
    (h : (x >>= f) w = .ok b w') : ∃ a v, x w = .ok a v ∧ f a v = .ok b w' := by
  cases hx : x w with
  | ok a v => exact ⟨a, v, rfl, (bind_of_ok hx).symm.trans h⟩
  | error e v =>
    rw [bind_of_error hx] at h
    cases h

theorem exists_of_map_ok {x : EStateM ε ω α} {f : α → β} {w w' : ω} {b : β}
    (h : (f <$> x) w = .ok b w') : ∃ a, x w = .ok a w' ∧ f a = b := by
  cases hx : x w with
  | ok a v =>
    rw [map_of_ok hx] at h
    cases h
    exact ⟨a, rfl, rfl⟩
  | error e v =>
    rw [map_of_error hx] at h
    cases h

/-- Two actions with one outcome go on to one outcome. -/
theorem bind_congr_left {x y : EStateM ε ω α} {f : α → EStateM ε ω β} {w w' : ω}
    (h : x w = y w') : (x >>= f) w = (y >>= f) w' := by
  cases hy : y w' with
  | ok a v => rw [bind_of_ok (h.trans hy), bind_of_ok hy]
  | error e v => rw [bind_of_error (h.trans hy), bind_of_error hy]

/-- What follows an action matters only at the values that the action returns. -/
theorem bind_congr_of_ok {x : EStateM ε ω α} {f g : α → EStateM ε ω β}
    (h : ∀ w a w', x w = .ok a w' → f a = g a) : x >>= f = x >>= g := by
  funext w
  cases hx : x w with
  | ok a w' => rw [bind_of_ok hx, bind_of_ok hx, h w a w' hx]
  | error e w' => rw [bind_of_error hx, bind_of_error hx]

/-! ## Lists of actions -/

section

variable {f : α → EStateM ε ω β} {as : List α} {bs : List β} {w w' w'' : ω} {e : ε}

theorem mapM_cons_of_ok {a : α} {b : β} (ha : f a w = .ok b w') (has : as.mapM f w' = .ok bs w'') :
    (a :: as).mapM f w = .ok (b :: bs) w'' := by
  rw [List.mapM_cons, bind_of_ok ha, bind_of_ok has]
  rfl

theorem mapM_cons_of_error {a : α} {b : β} (ha : f a w = .ok b w')
    (has : as.mapM f w' = .error e w'') : (a :: as).mapM f w = .error e w'' := by
  rw [List.mapM_cons, bind_of_ok ha]
  exact bind_of_error has

/-- Actions in a row that all return have one result each. -/
theorem length_of_mapM (h : as.mapM f w = .ok bs w') : bs.length = as.length := by
  induction as generalizing bs w with
  | nil =>
    cases h
    rfl
  | cons a as ih =>
    rw [List.mapM_cons] at h
    obtain ⟨b, v, -, hrest⟩ := exists_of_bind_ok h
    obtain ⟨rest, v', hrest, hlast⟩ := exists_of_bind_ok hrest
    cases hlast
    rw [List.length_cons, List.length_cons, ih hrest]

/-- The first action in a row that raises ends it, whatever comes behind. -/
theorem mapM_of_error {before after : List α} {a : α} (hbefore : before.mapM f w = .ok bs w')
    (ha : f a w' = .error e w'') : (before ++ a :: after).mapM f w = .error e w'' := by
  rw [List.mapM_append, bind_of_ok hbefore, List.mapM_cons]
  exact bind_of_error (bind_of_error ha)

end

end Teletype.Host
