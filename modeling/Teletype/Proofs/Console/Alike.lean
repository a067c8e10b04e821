import Teletype.Proofs.Console.Sequencing

/-!
# Programs that look alike

Host code can make objects, and an object made twice is two objects. What it holds is the same, and
host code that looks only at contents goes no other way for it. `Host.Alike` says so of two actions:
from states that are not told apart (`C`) they return values that are not told apart (`R`), and they
stay in such states, so they change nothing but where the next object will be. `Console.Alike` says
it of two programs, node by node.

Sequencing keeps it (`Alike.bind`), and it does not matter whether a value is asked for while a
program is built or when the end is reached (`alikeBuild_sync`, `Alike.bind_succeed`), although that
may give another object.
-/

namespace Teletype

open Host

variable {ε σ α β α' β' : Type} {C : σ → Prop}

/-- From any two states of the class the two actions return related values and stay in the class. -/
def Host.Alike (C : σ → Prop) (R : α → β → Prop) (x : Host ε σ α) (y : Host ε σ β) : Prop :=
  ∀ s s', C s → C s' → ∃ a t b t', x s = .ok a t ∧ y s' = .ok b t' ∧ C t ∧ C t' ∧ R a b

section

variable {R : α → β → Prop} {R' : α' → β' → Prop} {x : Host ε σ α} {y : Host ε σ β}

theorem Host.alike_pure {a : α} {b : β} (h : R a b) :
    Host.Alike C R (pure a : Host ε σ α) (pure b) :=
  fun s s' hs hs' => ⟨a, s, b, s', rfl, rfl, hs, hs', h⟩

theorem Host.Alike.bind {f : α → Host ε σ α'} {g : β → Host ε σ β'} (h : Host.Alike C R x y)
    (hfg : ∀ a b, R a b → Host.Alike C R' (f a) (g b)) : Host.Alike C R' (x >>= f) (y >>= g) := by
  intro s s' hs hs'
  obtain ⟨a, t, b, t', hx, hy, ht, ht', hab⟩ := h s s' hs hs'
  rw [bind_of_ok hx, bind_of_ok hy]
  exact hfg a b hab t t' ht ht'

theorem Host.Alike.map {f : α → α'} {g : β → β'} (h : Host.Alike C R x y)
    (hfg : ∀ a b, R a b → R' (f a) (g b)) : Host.Alike C R' (f <$> x) (g <$> y) := by
  rw [map_eq_pure_bind, map_eq_pure_bind]
  exact h.bind fun a b hab => Host.alike_pure (hfg a b hab)

end

namespace Console

/-- The two programs write the same lines and ask the same questions, and what their callbacks
return is alike. -/
inductive Alike (C : σ → Prop) (R : α → β → Prop) : Console ε σ α → Console ε σ β → Prop
  | done {value : Host ε σ α} {value' : Host ε σ β} :
      Host.Alike C R value value' → Alike C R (.done value) (.done value')
  | write {line : String} {next : Console ε σ α} {next' : Console ε σ β} :
      Alike C R next next' → Alike C R (.write line next) (.write line next')
  | read {next : String → Host ε σ (Console ε σ α)} {next' : String → Host ε σ (Console ε σ β)} :
      (∀ line, Host.Alike C (fun _ _ => True) (next line) (next' line)) →
      (∀ line s s' p t q t', C s → C s' → next line s = .ok p t → next' line s' = .ok q t' →
        Alike C R p q) → Alike C R (.read next) (.read next')

/-- The two actions are alike, and so are the programs that they build. -/
abbrev AlikeBuild (C : σ → Prop) (R : α → β → Prop) (x : Host ε σ (Console ε σ α))
    (y : Host ε σ (Console ε σ β)) : Prop := Host.Alike C (Alike C R) x y

section

variable {R : α → β → Prop} {R' : α' → β' → Prop} {p : Console ε σ α} {q : Console ε σ β}

theorem alike_succeed {a : α} {b : β} (h : R a b) :
    Alike C R (succeed a : Console ε σ α) (succeed b) := .done (Host.alike_pure h)

theorem alikeBuild_succeed {a : α} {b : β} (h : R a b) :
    AlikeBuild C R (pure (succeed a) : Host ε σ (Console ε σ α)) (pure (succeed b)) :=
  Host.alike_pure (alike_succeed h)

theorem alike_ask {next : String → Host ε σ (Console ε σ α)}
    {next' : String → Host ε σ (Console ε σ β)}
    (h : ∀ line, AlikeBuild C R (next line) (next' line)) : Alike C R (.ask next) (.ask next') := by
  refine .read (fun line s s' hs hs' => ?_) fun line s s' p t q t' hs hs' hp hq => ?_
  · obtain ⟨p, t, q, t', hp, hq, ht, ht', -⟩ := h line s s' hs hs'
    exact ⟨p, t, q, t', hp, hq, ht, ht', trivial⟩
  · obtain ⟨p', _, q', _, hp', hq', -, -, hpq⟩ := h line s s' hs hs'
    cases hp'.symm.trans hp
    cases hq'.symm.trans hq
    exact hpq

/-- **Sequencing keeps programs alike.** -/
theorem Alike.bind {f : α → Host ε σ (Console ε σ α')} {g : β → Host ε σ (Console ε σ β')}
    (h : Alike C R p q) (hfg : ∀ a b, R a b → AlikeBuild C R' (f a) (g b)) :
    AlikeBuild C R' (Console.bind f p) (Console.bind g q) := by
  induction h with
  | @done value value' hvalue =>
    rw [← sync, ← sync, bind_sync, bind_sync]
    exact Host.Alike.bind hvalue hfg
  | @write line next next' _ ih =>
    rw [bind_write, bind_write]
    exact Host.Alike.map ih fun _ _ => .write
  | @read next next' hanswer _ ih =>
    rw [← ask, ← ask, bind_ask, bind_ask]
    refine Host.alike_pure (alike_ask fun line s s' hs hs' => ?_)
    obtain ⟨p, t, q, t', hp, hq, ht, ht', -⟩ := hanswer line s s' hs hs'
    rw [bind_of_ok hp, bind_of_ok hq]
    exact ih line s s' p t q t' hs hs' hp hq t t' ht ht'

theorem Alike.map {f : α → Host ε σ α'} {g : β → Host ε σ β'} (h : Alike C R p q)
    (hfg : ∀ a b, R a b → Host.Alike C R' (f a) (g b)) :
    AlikeBuild C R' (Console.bind (fun a => pure (.sync (f a))) p)
      (Console.bind (fun b => pure (.sync (g b))) q) :=
  h.bind fun a b hab => Host.alike_pure (.done (hfg a b hab))

/-- A value may be asked for at the end, or now. -/
theorem alikeBuild_sync {value : Host ε σ α} {value' : Host ε σ β}
    (h : Host.Alike C R value value') :
    AlikeBuild C R (pure (.sync value)) (value' >>= fun b => pure (succeed b)) := by
  intro s s' hs hs'
  obtain ⟨-, -, b, t', -, hb, -, ht', -⟩ := h s s' hs hs'
  refine ⟨.sync value, s, succeed b, t', rfl, bind_of_ok hb, hs, ht', .done fun u u' hu hu' => ?_⟩
  obtain ⟨a, t, b', _, ha, hb', ht, -, hab⟩ := h u s' hu hs'
  cases hb.symm.trans hb'
  exact ⟨a, t, b, u', ha, rfl, ht, hu', hab⟩

/-- To hand the result on changes nothing, wherever the end stands. -/
theorem Alike.bind_succeed (h : Alike C R p q) :
    AlikeBuild C R (Console.bind (fun a => pure (succeed a)) p) (pure q) := by
  induction h with
  | @done value value' hvalue =>
    intro s s' hs hs'
    obtain ⟨a, t, -, -, ha, -, ht, -, -⟩ := hvalue s s' hs hs'
    rw [← sync, bind_sync, bind_of_ok ha]
    refine ⟨succeed a, t, .done value', s', rfl, rfl, ht, hs', .done fun u u' hu hu' => ?_⟩
    obtain ⟨a', _, b, t', ha', hb, -, ht', hab⟩ := hvalue s u' hs hu'
    cases ha.symm.trans ha'
    exact ⟨a, u, b, t', rfl, hb, hu, ht', hab⟩
  | @write line next next' _ ih =>
    rw [bind_write, ← map_pure]
    exact Host.Alike.map ih fun _ _ => .write
  | @read next next' hanswer _ ih =>
    rw [← ask, bind_ask]
    refine Host.alike_pure (alike_ask fun line s s' hs hs' => ?_)
    obtain ⟨p, t, q, t', hp, hq, ht, ht', -⟩ := hanswer line s s' hs hs'
    obtain ⟨joined, u, _, _, hjoined, hsame, hu, hu', halike⟩ :=
      ih line s s' p t q t' hs hs' hp hq t t' ht ht'
    cases hsame
    exact ⟨joined, u, q, t', (bind_of_ok hp).trans hjoined, hq, hu, hu', halike⟩

end

end Console

end Teletype
