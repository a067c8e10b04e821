import Teletype.Proofs.Host
import Teletype.Terminal.Steps

/-!
# A run, one node at a time

What one node of a program does on a terminal that stands beside the host: one equation for each
outcome of the terminal's operation and of the callback.
-/

namespace Teletype

open Host

variable {ε σ τ α β L : Type} {s s' : σ} {c c' : τ} {a : α} {e : ε}

theorem onHost_of_ok {action : Host ε σ α} (h : action s = .ok a s') :
    onHost action (s, c) = .ok a (s', c) := by
  simp only [onHost, h]

theorem onHost_of_error {action : Host ε σ α} (h : action s = .error e s') :
    onHost action (s, c) = .error e (s', c) := by
  simp only [onHost, h]

theorem exists_of_onHost_ok {action : Host ε σ α} {w : σ × τ} (h : onHost action (s, c) = .ok a w) :
    ∃ s', action s = .ok a s' ∧ w = (s', c) := by
  cases haction : action s with
  | error e s' =>
    rw [onHost_of_error haction] at h
    cases h
  | ok a' s' =>
    rw [onHost_of_ok haction] at h
    cases h
    exact ⟨s', rfl, rfl⟩

theorem onHost_pure (a : α) : onHost (τ := τ) (pure a : Host ε σ α) = pure a := rfl

theorem onDevice_of_ok {action : EStateM ε τ α} (h : action c = .ok a c') :
    onDevice action (s, c) = .ok a (s, c') := by
  simp only [onDevice, h]

theorem onDevice_of_error {action : EStateM ε τ α} (h : action c = .error e c') :
    onDevice action (s, c) = .error e (s, c') := by
  simp only [onDevice, h]

/-! ## How an action ends -/

section

variable {ω : Type} {x y : EStateM ε ω α} {w w' : ω}

theorem outcomeOf_eq_ok : outcomeOf x w = (.ok a, w') ↔ x w = .ok a w' := by
  unfold outcomeOf
  cases x w <;> simp

theorem outcomeOf_eq_error : outcomeOf x w = (.error e, w') ↔ x w = .error e w' := by
  unfold outcomeOf
  cases x w <;> simp

theorem outcomeOf_congr (h : x w = y w') : outcomeOf x w = outcomeOf y w' := by
  unfold outcomeOf
  rw [h]

theorem outcomeOf_bind_of_ok {f : α → EStateM ε ω β} (h : outcomeOf x w = (.ok a, w')) :
    outcomeOf (x >>= f) w = outcomeOf (f a) w' :=
  outcomeOf_congr (bind_of_ok (outcomeOf_eq_ok.1 h))

theorem outcomeOf_bind_of_error {f : α → EStateM ε ω β} (h : outcomeOf x w = (.error e, w')) :
    outcomeOf (x >>= f) w = (.error e, w') :=
  outcomeOf_eq_error.2 (bind_of_error (outcomeOf_eq_error.1 h))

theorem outcomeOf_onHost {action : Host ε σ α} {outcome : Except ε α}
    (h : outcomeOf action s = (outcome, s')) (c : τ) :
    outcomeOf (onHost action) (s, c) = (outcome, (s', c)) := by
  cases outcome with
  | ok a => exact outcomeOf_eq_ok.2 (onHost_of_ok (outcomeOf_eq_ok.1 h))
  | error e => exact outcomeOf_eq_error.2 (onHost_of_error (outcomeOf_eq_error.1 h))

/-! An action may do what another one does on a state that is seen through a view. -/

variable {ω' : Type} {view : ω → ω'} {z : EStateM ε ω' α}

theorem ok_of_outcomeOf_view (h : outcomeOf z (view w) = Prod.map id view (outcomeOf x w))
    (hx : x w = .ok a w') : z (view w) = .ok a (view w') := by
  rw [← outcomeOf_eq_ok, h, outcomeOf_eq_ok.2 hx]
  rfl

theorem error_of_outcomeOf_view (h : outcomeOf z (view w) = Prod.map id view (outcomeOf x w))
    (hx : x w = .error e w') : z (view w) = .error e (view w') := by
  rw [← outcomeOf_eq_error, h, outcomeOf_eq_error.2 hx]
  rfl

end

/-! ## Nodes -/

namespace Console

theorem runOn_succeed (t : Terminal ε (σ × τ)) (a : α) : runOn t (succeed a) = pure a := by
  rw [succeed, runOn_sync, onHost_pure]

theorem runOn_writeLine (t : Terminal ε (σ × τ)) (line : String) :
    runOn t (writeLine line) = t.writeLine line := by
  rw [writeLine, runOn_write, unit, runOn_succeed, bind_pure_unit]

theorem runOn_readLine (t : Terminal ε (σ × τ)) : runOn t readLine = t.readLine := by
  simp only [readLine, runOn_ask, onHost_pure, pure_bind, runOn_succeed, bind_pure]

/-! ### On any terminal -/

section

variable {u : Terminal ε (σ × τ) L} {w w' : σ × τ} {line : L} {next : Console ε σ α L}
  {reply : L → Host ε σ (Console ε σ α L)}

theorem run_write_of_ok (h : u.writeLine line w = .ok () w') :
    runOn u (.write line next) w = runOn u next w' := by
  rw [runOn_write]
  exact bind_of_ok h

theorem run_write_of_error (h : u.writeLine line w = .error e w') :
    runOn u (.write line next) w = .error e w' := by
  rw [runOn_write]
  exact bind_of_error h

theorem run_ask_of_ok (h : u.readLine w = .ok line w') :
    runOn u (.ask reply) w = (onHost (reply line) >>= runOn u) w' := by
  rw [runOn_ask]
  exact bind_of_ok h

theorem run_ask_of_error (h : u.readLine w = .error e w') :
    runOn u (.ask reply) w = .error e w' := by
  rw [runOn_ask]
  exact bind_of_error h

end

/-! ### Beside the host -/

variable {t : Terminal ε τ L} {value : Host ε σ α} {line : L} {next : Console ε σ α L}
  {reply : L → Host ε σ (Console ε σ α L)} {program : Console ε σ α L}

theorem runOn_sync_of_ok (h : value s = .ok a s') :
    runOn t.beside (.sync value) (s, c) = .ok a (s', c) := by
  rw [runOn_sync]
  exact onHost_of_ok h

theorem runOn_sync_of_error (h : value s = .error e s') :
    runOn t.beside (.sync value) (s, c) = .error e (s', c) := by
  rw [runOn_sync]
  exact onHost_of_error h

theorem runOn_write_of_ok (h : t.writeLine line c = .ok () c') :
    runOn t.beside (.write line next) (s, c) = runOn t.beside next (s, c') :=
  run_write_of_ok (onDevice_of_ok h)

theorem runOn_write_of_error (h : t.writeLine line c = .error e c') :
    runOn t.beside (.write line next) (s, c) = .error e (s, c') :=
  run_write_of_error (onDevice_of_error h)

theorem runOn_ask_of_ok (h : t.readLine c = .ok line c') (hreply : reply line s = .ok program s') :
    runOn t.beside (.ask reply) (s, c) = runOn t.beside program (s', c') :=
  (run_ask_of_ok (onDevice_of_ok h)).trans (bind_of_ok (onHost_of_ok hreply))

theorem runOn_ask_of_raise (h : t.readLine c = .ok line c') (hreply : reply line s = .error e s') :
    runOn t.beside (.ask reply) (s, c) = .error e (s', c') :=
  (run_ask_of_ok (onDevice_of_ok h)).trans (bind_of_error (onHost_of_error hreply))

theorem runOn_ask_of_error (h : t.readLine c = .error e c') :
    runOn t.beside (.ask reply) (s, c) = .error e (s, c') :=
  run_ask_of_error (onDevice_of_error h)

end Console

end Teletype
