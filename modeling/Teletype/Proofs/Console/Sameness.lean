import Mathlib.Data.List.Forall2
import Teletype.Proofs.Console.Collecting

/-!
# Programs that are the same tree

Two programs are the same from a host state if they show the same node there, and the callbacks
behind it do the same from that state on. For quiet programs, whose callbacks leave the state alone,
this is plain equality of trees: the same lines, the same questions, the same result at every leaf.
Programs that are the same from every state may stand for one another wherever a program is built
from programs, also between callbacks that are not quiet.
-/

namespace Teletype.Console

open Host

variable {ε σ α β : Type}

mutual

/-- From the host state `s` the two programs are the same tree. -/
def SameFrom : Console ε σ α → Console ε σ α → σ → Prop
  | .done value, .done value', s => value s = value' s
  | .write line next, .write line' next', s => line = line' ∧ SameFrom next next' s
  | .read next, .read next', s => ∀ line, SameResult (next line s) (next' line s)
  | _, _, _ => False

/-- Two callbacks raised the same, or returned the same tree, and left the same state. -/
def SameResult :
    EStateM.Result ε σ (Console ε σ α) → EStateM.Result ε σ (Console ε σ α) → Prop
  | .ok program s, .ok program' s' => s = s' ∧ SameFrom program program' s
  | .error e s, .error e' s' => e = e' ∧ s = s'
  | _, _ => False

end

-- The equations of the two are derived here, once, and not by whichever proof needs them first.
attribute [local simp] SameFrom SameResult

/-- From every host state the two programs are the same tree. -/
def Same (p q : Console ε σ α) : Prop := ∀ s, SameFrom p q s

/-- From every host state the two actions do the same, and if they build programs these are the
same. -/
def SameBuild (x y : Host ε σ (Console ε σ α)) : Prop :=
  ∀ s, (∃ p q s', x s = .ok p s' ∧ y s = .ok q s' ∧ Same p q) ∨
    ∃ e s', x s = .error e s' ∧ y s = .error e s'

/-- From every host state the two actions do the same, and if they build programs these are the same
tree from the state that building left. What they are from other states is left open. -/
def SameWhenBuilt (x y : Host ε σ (Console ε σ α)) : Prop := ∀ s, SameResult (x s) (y s)

section

variable {p q : Console ε σ α} {x y : Host ε σ (Console ε σ α)} {s : σ} {e : ε}
  {r : EStateM.Result ε σ (Console ε σ α)}

/-! ## What stands on the other side -/

theorem SameFrom.of_sync {value : Host ε σ α} (h : SameFrom (.sync value) q s) :
    ∃ value' : Host ε σ α, q = .sync value' ∧ value s = value' s := by
  cases q with
  | done value' => exact ⟨value', rfl, by simpa only [sync, SameFrom] using h⟩
  | write line next => simp only [sync, SameFrom] at h
  | read next => simp only [sync, SameFrom] at h

theorem SameFrom.of_write {line : String} {next : Console ε σ α}
    (h : SameFrom (.write line next) q s) :
    ∃ next', q = .write line next' ∧ SameFrom next next' s := by
  cases q with
  | done value => simp only [SameFrom] at h
  | write line' next' =>
    obtain ⟨rfl, hnext⟩ : line = line' ∧ SameFrom next next' s := by
      simpa only [SameFrom] using h
    exact ⟨next', rfl, hnext⟩
  | read next' => simp only [SameFrom] at h

theorem SameFrom.of_ask {next : String → Host ε σ (Console ε σ α)}
    (h : SameFrom (.ask next) q s) : ∃ next' : String → Host ε σ (Console ε σ α),
      q = .ask next' ∧ ∀ line, SameResult (next line s) (next' line s) := by
  cases q with
  | done value => simp only [ask, SameFrom] at h
  | write line next' => simp only [ask, SameFrom] at h
  | read next' => exact ⟨next', rfl, by simpa only [ask, SameFrom] using h⟩

theorem SameResult.of_ok (h : SameResult (.ok p s) r) : ∃ q, r = .ok q s ∧ SameFrom p q s := by
  cases r with
  | ok q s' =>
    obtain ⟨rfl, hpq⟩ : s = s' ∧ SameFrom p q s := by simpa only [SameResult] using h
    exact ⟨q, rfl, hpq⟩
  | error e s' => simp only [SameResult] at h

theorem SameResult.of_error (h : SameResult (.error e s) r) : r = .error e s := by
  cases r with
  | ok q s' => simp only [SameResult] at h
  | error e' s' =>
    obtain ⟨rfl, rfl⟩ : e = e' ∧ s = s' := by simpa only [SameResult] using h
    rfl

theorem SameFrom.ok (h : SameFrom p q s) : SameResult (.ok p s) (.ok q s) := by
  simp only [SameResult, h, and_self]

theorem SameFrom.write (h : SameFrom p q s) (line : String) :
    SameFrom (.write line p) (.write line q) s := by
  simp only [SameFrom, h, and_self]

theorem SameBuild.whenBuilt (h : SameBuild x y) : SameWhenBuilt x y := by
  intro s
  obtain ⟨p, q, s', hx, hy, hpq⟩ | ⟨e, s', hx, hy⟩ := h s
  · rw [hx, hy]
    exact (hpq s').ok
  · rw [hx, hy]
    simp only [SameResult, and_self]

/-! ## Sameness is reflexive -/

theorem sameFrom_refl (p : Console ε σ α) (s : σ) : SameFrom p p s := by
  induction p using Console.induct generalizing s with
  | sync value => simp only [sync, SameFrom]
  | write line next ih => exact (ih s).write line
  | ask next ih =>
    simp only [ask, SameFrom]
    intro line
    cases h : next line s with
    | ok program s' => exact (ih line s program s' h s').ok
    | error e s' => simp only [SameResult, and_self]

theorem same_refl (p : Console ε σ α) : Same p p := sameFrom_refl p

theorem sameBuild_refl (x : Host ε σ (Console ε σ α)) : SameBuild x x := by
  intro s
  cases h : x s with
  | ok p s' => exact .inl ⟨p, p, s', rfl, rfl, same_refl p⟩
  | error e s' => exact .inr ⟨e, s', rfl, rfl⟩

end

/-! ## Building from programs that are the same -/

/-- Actions that go on from the same tree in the same way do the same. -/
theorem SameResult.bind {x y : Host ε σ (Console ε σ α)}
    {f g : Console ε σ α → Host ε σ (Console ε σ β)} {s : σ} (h : SameResult (x s) (y s))
    (hfg : ∀ p q s', x s = .ok p s' → SameFrom p q s' → SameResult (f p s') (g q s')) :
    SameResult ((x >>= f) s) ((y >>= g) s) := by
  cases hx : x s with
  | ok p s' =>
    obtain ⟨q, hy, hpq⟩ := (hx ▸ h).of_ok
    rw [bind_of_ok hx, bind_of_ok hy]
    exact hfg p q s' hx hpq
  | error e s' =>
    have hy : y s = .error e s' := (hx ▸ h).of_error
    rw [bind_of_error hx, bind_of_error hy]
    simp only [SameResult, and_self]

/-- **Sequencing keeps sameness** from a state, in the first program and in what comes behind it. -/
theorem SameFrom.bind {p q : Console ε σ α} {f g : α → Host ε σ (Console ε σ β)} {s : σ}
    (h : SameFrom p q s) (hfg : ∀ a, SameWhenBuilt (f a) (g a)) :
    SameResult (Console.bind f p s) (Console.bind g q s) := by
  induction p using Console.induct generalizing q s with
  | sync value =>
    obtain ⟨value', rfl, hvalue⟩ := h.of_sync
    rw [bind_sync, bind_sync]
    cases hv : value s with
    | ok a s' =>
      rw [bind_of_ok hv, bind_of_ok (hvalue ▸ hv)]
      exact hfg a s'
    | error e s' =>
      rw [bind_of_error hv, bind_of_error (hvalue ▸ hv)]
      simp only [SameResult, and_self]
  | write line next ih =>
    obtain ⟨next', rfl, hnext⟩ := h.of_write
    rw [bind_write, bind_write, map_eq_pure_bind, map_eq_pure_bind]
    exact (ih hnext).bind fun p q s' _ hpq => (hpq.write line).ok
  | ask next ih =>
    obtain ⟨next', rfl, hnext⟩ := h.of_ask
    rw [bind_ask, bind_ask]
    refine SameFrom.ok ?_
    simp only [ask, SameFrom]
    exact fun line => (hnext line).bind fun p q s' hp hpq => ih line s p s' hp hpq

/-- Sequencing keeps sameness from every state. What is built runs callbacks of the first program
only behind its first question, so it is the same from states other than the one it was built in. -/
theorem Same.bind {p q : Console ε σ α} {f g : α → Host ε σ (Console ε σ β)} (h : Same p q)
    (hfg : ∀ a, SameBuild (f a) (g a)) : SameBuild (Console.bind f p) (Console.bind g q) := by
  intro s
  induction p using Console.induct generalizing q with
  | sync value =>
    obtain ⟨value', rfl, hvalue⟩ := (h s).of_sync
    rw [bind_sync, bind_sync]
    cases hv : value s with
    | ok a s' =>
      rw [bind_of_ok hv, bind_of_ok (hvalue ▸ hv)]
      exact hfg a s'
    | error e s' =>
      exact .inr ⟨e, s', bind_of_error hv, bind_of_error (hvalue ▸ hv)⟩
  | write line next ih =>
    obtain ⟨next', rfl, -⟩ := (h s).of_write
    have hnext : Same next next' := fun s' => by
      have hwrite := h s'
      simp only [SameFrom] at hwrite
      exact hwrite.2
    rw [bind_write, bind_write]
    obtain ⟨j, j', s', hj, hj', hsame⟩ | ⟨e, s', hj, hj'⟩ := ih hnext
    · exact .inl ⟨.write line j, .write line j', s', map_of_ok hj, map_of_ok hj',
        fun s'' => (hsame s'').write line⟩
    · exact .inr ⟨e, s', map_of_error hj, map_of_error hj'⟩
  | ask next ih =>
    obtain ⟨next', rfl, -⟩ := (h s).of_ask
    rw [bind_ask, bind_ask]
    refine .inl ⟨_, _, s, rfl, rfl, fun s' => ?_⟩
    have hjoined := (h s').bind fun a => (hfg a).whenBuilt
    rw [bind_ask, bind_ask] at hjoined
    obtain ⟨joined, heq, hsame⟩ := hjoined.of_ok
    cases heq
    exact hsame

theorem SameBuild.bind {x y : Host ε σ (Console ε σ α)} {f g : α → Host ε σ (Console ε σ β)}
    (h : SameBuild x y) (hfg : ∀ a, SameBuild (f a) (g a)) :
    SameBuild (x >>= Console.bind f) (y >>= Console.bind g) := by
  intro s
  obtain ⟨p, q, s', hx, hy, hpq⟩ | ⟨e, s', hx, hy⟩ := h s
  · rw [bind_of_ok hx, bind_of_ok hy]
    exact hpq.bind hfg s'
  · exact .inr ⟨e, s', bind_of_error hx, bind_of_error hy⟩

theorem Same.flatMap {p q : Console ε σ α} {f g : α → Host ε σ (Console ε σ β)} (h : Same p q)
    (hfg : ∀ a, SameBuild (f a) (g a)) : SameBuild (p.flatMap f) (q.flatMap g) := by
  rw [flatMap_eq_bind, flatMap_eq_bind]
  exact h.bind hfg

theorem Same.zip {p q : Console ε σ α} {p' q' : Console ε σ β} (h : Same p q) (h' : Same p' q') :
    SameBuild (p.zip p') (q.zip q') :=
  h.flatMap fun _ => h'.flatMap fun _ => sameBuild_refl _

/-- Lists of programs that are the same place by place are collected into the same program. -/
theorem sameBuild_collectAll {ps qs : List (Console ε σ α)} (h : List.Forall₂ Same ps qs) :
    SameBuild (collectAll ps) (collectAll qs) := by
  simp only [collectAll_eq_resume, resume_of_no_results]
  induction h with
  | nil => exact sameBuild_refl _
  | cons hpq _ ih =>
    rw [sequence_cons, sequence_cons]
    exact hpq.bind fun a => ih.bind fun as => sameBuild_refl _

/-- The one program may stand for the other wherever a program is built from it: as the first
program of a sequence, as what a continuation answers with, on either side of a pair, and in a list
of programs. The callbacks around it may do anything. -/
structure Interchangeable (p q : Console ε σ α) : Prop where
  first : ∀ {β : Type} (f : α → Host ε σ (Console ε σ β)), SameBuild (p.flatMap f) (q.flatMap f)
  answer : ∀ {β : Type} (r : Console ε σ β) (f g : β → Host ε σ (Console ε σ α)),
    (∀ b s, f b s = g b s ∨ ∃ s', f b s = .ok p s' ∧ g b s = .ok q s') →
      SameBuild (r.flatMap f) (r.flatMap g)
  zip_left : ∀ {β : Type} (r : Console ε σ β), SameBuild (p.zip r) (q.zip r)
  zip_right : ∀ {β : Type} (r : Console ε σ β), SameBuild (r.zip p) (r.zip q)
  collectAll : ∀ before after : List (Console ε σ α),
    SameBuild (collectAll (before ++ p :: after)) (collectAll (before ++ q :: after))

/-- Programs that are the same are interchangeable. -/
theorem Same.interchangeable {p q : Console ε σ α} (h : Same p q) : Interchangeable p q where
  first f := h.flatMap fun _ => sameBuild_refl _
  answer r f g hfg := by
    refine (same_refl r).flatMap fun b s => ?_
    obtain heq | ⟨s', hf, hg⟩ := hfg b s
    · rw [heq]
      exact sameBuild_refl _ s
    · exact .inl ⟨p, q, s', hf, hg, h⟩
  zip_left r := h.zip (same_refl r)
  zip_right r := (same_refl r).zip h
  collectAll before after := by
    have hsame : ∀ ps : List (Console ε σ α), List.Forall₂ Same ps ps :=
      fun ps => List.forall₂_same.2 fun p _ => same_refl p
    exact sameBuild_collectAll (List.rel_append (hsame before) (.cons h (hsame after)))

end Teletype.Console
