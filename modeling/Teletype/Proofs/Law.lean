import Teletype.Law
import Teletype.Proofs.Console.Alike
import Teletype.Proofs.Terminal.Abstraction

/-!
# Samples pass the laws

Each law builds two programs and runs both on the script. Built in two ways, they need not be the
same value: a value that one side asks for while it is built may be asked for at the end by the
other, and an object that both sides make is made twice. But if the callbacks neither raise nor do
anything that another callback could see, both sides build what looks alike, so that no script tells
them apart: not one that is too short either, where both fail with the same words. A test of results
passes them if it looks at what the results hold; a test for one and the same object does not.
-/

namespace Teletype

open Host

variable {ε V σ α π : Type} {C : σ → Prop} {R : α → α → Prop}

/-! ## The checks -/

section

variable {p q : Console (Thrown V) σ α} {script : List String} {s s' : σ} {eq : α → α → Bool}

/-- Programs that are alike come to the same on a script, up to what a test does not tell apart. -/
theorem Console.Alike.exists_rehearsed (h : p.Alike C R q) (heq : ∀ a b, R a b → eq a b = true)
    (script : List String) (hs : C s) (hs' : C s') :
    ∃ (x y : Interpretation Failure α) (t t' : σ), rehearsed p script s = (x.raised, t) ∧
      rehearsed q script s' = (y.raised, t') ∧ C t ∧ C t' ∧
      (x.raised : Interpretation (Thrown V) α).Agrees eq y.raised := by
  induction h generalizing script s s' with
  | done hvalue =>
    obtain ⟨a, t, b, t', ha, hb, ht, ht', hab⟩ := hvalue s s' hs hs'
    exact ⟨⟨[], script, .ok a⟩, ⟨[], script, .ok b⟩, t, t', rehearsed_sync_of_ok ha,
      rehearsed_sync_of_ok hb, ht, ht', rfl, rfl, heq a b hab⟩
  | @write line next next' _ ih =>
    obtain ⟨x, y, t, t', hx, hy, ht, ht', hagrees⟩ := ih script hs hs'
    refine ⟨x.after line, y.after line, t, t', ?_, ?_, ht, ht',
      congrArg (line :: ·) hagrees.output, hagrees.remainingInput, hagrees.result⟩
    · rw [rehearsed_write, hx]
      rfl
    · rw [rehearsed_write, hy]
      rfl
  | @read next next' hanswer _ ih =>
    cases script with
    | nil =>
      let ended : Interpretation Failure α :=
        ⟨[], [], .error (.endOfInput Script.exhaustedMessage)⟩
      exact ⟨ended, ended, s, s', rehearsed_ask_nil, rehearsed_ask_nil, hs, hs', rfl, rfl, rfl⟩
    | cons line script =>
      obtain ⟨p, t, q, t', hp, hq, ht, ht', -⟩ := hanswer line s s' hs hs'
      obtain ⟨x, y, u, u', hx, hy, hrest⟩ := ih line s s' p t q t' hs hs' hp hq script ht ht'
      exact ⟨x, y, u, u', (rehearsed_ask_cons hp).trans hx, (rehearsed_ask_cons hq).trans hy, hrest⟩

/-- A test on a script passes what is built alike. -/
theorem passes_of_alike [HasText V σ] {x y : Host (Thrown V) σ (Console (Thrown V) σ α)}
    (h : Console.AlikeBuild C R x y) (heq : ∀ a b, R a b → eq a b = true) (script : List String)
    (hs : C s) : ∃ t, C t ∧ (do (equivalent script eq).eqv (← x) (← y)) s = .ok true t := by
  obtain ⟨p, s₁, -, -, hx, -, hs₁, -, -⟩ := h s s hs hs
  obtain ⟨p', s₁', q, s₂, hx', hy, -, hs₂, hpq⟩ := h s s₁ hs hs₁
  cases hx.symm.trans hx'
  obtain ⟨i, -, s₃, -, hi, -, hs₃, -, -⟩ := hpq.exists_rehearsed heq script hs₂ hs₂
  obtain ⟨i', j, s₃', s₄, hi', hj, -, hs₄, hagrees⟩ := hpq.exists_rehearsed heq script hs₂ hs₃
  obtain ⟨-, rfl⟩ := Prod.mk.inj (hi.symm.trans hi')
  obtain ⟨b, heqv, hb⟩ := exists_eqv eq hi' hj
  rw [hb.2 hagrees] at heqv
  exact ⟨s₄, hs₄, (bind_of_ok hx).trans ((bind_of_ok hy).trans heqv)⟩

end

theorem verify_of_passes {laws : List (Law ε σ)} {s : σ} (hs : C s)
    (h : ∀ law ∈ laws, ∀ s, C s → ∃ t, C t ∧ law.check s = .ok true t) :
    ∃ t, C t ∧ verify laws s = .ok (laws.map fun law => ⟨law.name, true⟩) t := by
  induction laws generalizing s with
  | nil => exact ⟨s, hs, rfl⟩
  | cons law laws ih =>
    obtain ⟨t, ht, hcheck⟩ := h law List.mem_cons_self s hs
    obtain ⟨u, hu, hrest⟩ := ih ht fun other hother => h other (List.mem_cons_of_mem law hother)
    have hverdict : (return ⟨law.name, ← law.check⟩ : Host ε σ Verdict) s =
        .ok ⟨law.name, true⟩ t := bind_of_ok hcheck
    exact ⟨u, hu, mapM_cons_of_ok hverdict hrest⟩

/-- Objects that are made of alike contents are alike, wherever they come to be. -/
theorem Object.alike_new {γ : Type} {Q : γ → γ → Prop} {c c' : γ} (h : Q c c') :
    Host.Alike (fun _ => True) (fun a b => Q a.content b.content)
      (Object.new c : Host ε Nat (Object γ)) (Object.new c') :=
  fun s s' _ _ => ⟨⟨s, c⟩, s + 1, ⟨s', c'⟩, s' + 1, rfl, rfl, trivial, trivial, h⟩

/-- The callbacks of the samples neither raise nor do anything that they could see: in states that
they do not tell apart (`C`), on values that they do not tell apart (`R`), they return such values,
and programs alike. -/
structure Samples.Alike (C : σ → Prop) (R : α → α → Prop) (samples : Samples ε σ α) : Prop where
  value : R samples.value samples.value
  program : samples.program.Alike C R samples.program
  other : samples.other.Alike C R samples.other
  f : ∀ a b, R a b → Console.AlikeBuild C R (samples.f a) (samples.f b)
  g : ∀ a b, R a b → Console.AlikeBuild C R (samples.g a) (samples.g b)
  h : ∀ a b, R a b → Host.Alike C R (samples.h a) (samples.h b)

/-- **Samples pass all seven laws if results are compared by what they hold.** The callbacks neither
raise nor do anything that they could see; they may make objects, and so may pairing. The script may
be too short. The tests of results and of pairs may be any that pass values of the same contents
(`R` and `P`), whichever objects hold them. -/
theorem verify_consoleLaws [HasText V σ] {samples : Samples (Thrown V) σ α}
    (h : samples.Alike C R) {P : π → π → Prop} {pair : α → α → Host (Thrown V) σ π}
    (hpair : ∀ a b a' b', R a a' → R b b' → Host.Alike C P (pair a b) (pair a' b'))
    {eq : α → α → Bool} (heq : ∀ a b, R a b → eq a b = true) {eqZip : π → π → Bool}
    (heqZip : ∀ p q, P p q → eqZip p q = true) (script : List String) {s : σ} (hs : C s) :
    let laws := consoleLaws (equivalent script eq) samples pair (equivalent script eqZip)
    laws.length = 7 ∧
      ∃ t, C t ∧ verify laws s = .ok (laws.map fun law => ⟨law.name, true⟩) t := by
  refine ⟨rfl, verify_of_passes hs ?_⟩
  have hsucceed : ∀ a b, R a b → Console.AlikeBuild C R
      (pure (Console.succeed a) : Host (Thrown V) σ _) (pure (Console.succeed b)) :=
    fun a b => Console.alikeBuild_succeed
  simp only [consoleLaws, List.forall_mem_cons, Console.flatMap_eq_bind, Console.map_eq_bind,
    Console.zipWith, Console.zipRight_eq_bind, Console.zipLeft_eq_bind, Console.as]
  refine ⟨?left, ?right, ?assoc, ?map, ?zip, ?zipRight, ?zipLeft, List.forall_mem_nil _⟩
  case left =>
    intro s hs
    refine passes_of_alike ?_ heq script hs
    rw [Console.bind_succeed]
    exact h.f _ _ h.value
  case right =>
    intro s hs
    simpa only [pure_bind] using passes_of_alike h.program.bind_succeed heq script hs
  case assoc =>
    intro s hs
    have hjoined : Console.AlikeBuild C R
        (Console.bind (fun a => samples.f a >>= Console.bind samples.g) samples.program)
        (Console.bind (fun a => samples.f a >>= Console.bind samples.g) samples.program) :=
      h.program.bind fun a b hab => Host.Alike.bind (h.f a b hab) fun _ _ hpq => hpq.bind h.g
    simpa only [← Console.bind_bind, bind_assoc] using passes_of_alike hjoined heq script hs
  case map =>
    intro s hs
    exact passes_of_alike
      (h.program.bind fun a b hab => Console.alikeBuild_sync (h.h a b hab)) heq script hs
  case zip =>
    intro s hs
    refine passes_of_alike (h.program.bind fun a a' ha => ?_) heqZip script hs
    exact h.other.map fun b b' hb => hpair a b a' b' ha hb
  case zipRight =>
    intro s hs
    have hother : Console.AlikeBuild C R
        (Console.bind (fun _ => Console.bind (fun b => pure (Console.succeed b)) samples.other)
          samples.program) (Console.bind (fun _ => pure samples.other) samples.program) :=
      h.program.bind fun _ _ _ => h.other.bind_succeed
    exact passes_of_alike hother heq script hs
  case zipLeft =>
    intro s hs
    have hfirst : Console.AlikeBuild C R
        (Console.bind (fun a => Console.bind (fun _ => pure (Console.succeed a)) samples.other)
          samples.program)
        (Console.bind (fun a => Console.bind (fun _ => pure (Console.succeed a)) samples.other)
          samples.program) :=
      h.program.bind fun a a' ha => h.other.bind fun _ _ _ => hsucceed a a' ha
    exact passes_of_alike hfirst heq script hs

/-- Samples that make objects wherever they can, on a script that is too short, by a test that takes
numbers for equal that are not. -/
theorem verify_consoleLaws_objects :
    let samples : Samples (Thrown Empty) Nat (Object Nat) :=
      { value := ⟨0, 5⟩
        program := .write "first" (.sync (Object.new 7))
        other := .ask fun line => return .sync (Object.new line.length)
        f := fun a => return .ask fun _ => return .sync (Object.new (a.content + 1))
        g := fun a => do return .write "second" (.succeed (← Object.new (2 * a.content)))
        h := fun a => Object.new (a.content + 2) }
    let C : Nat → Prop := fun _ => True
    let R : Object Nat → Object Nat → Prop := fun a b => a.content = b.content
    let P : Object (Object Nat × Object Nat) → Object (Object Nat × Object Nat) → Prop :=
      fun p q => R p.content.1 q.content.1 ∧ R p.content.2 q.content.2
    let pair : Object Nat → Object Nat → Host (Thrown Empty) Nat _ := fun a b => Object.new (a, b)
    let sameParity := fun a b : Object Nat => a.content % 2 == b.content % 2
    let bothSameParity := fun p q : Object (Object Nat × Object Nat) =>
      sameParity p.content.1 q.content.1 && sameParity p.content.2 q.content.2
    let laws := consoleLaws (equivalent [] sameParity) samples pair (equivalent [] bothSameParity)
    samples.Alike C R ∧
      (∀ a b a' b', R a a' → R b b' → Host.Alike C P (pair a b) (pair a' b')) ∧
      (∀ a b, R a b → sameParity a b = true) ∧ (∀ p q, P p q → bothSameParity p q = true) ∧
      ∃ next, verify laws 1 = .ok
        [ ⟨"left identity", true⟩, ⟨"right identity", true⟩, ⟨"associativity", true⟩,
          ⟨"map derived from flatMap", true⟩, ⟨"zip ordering", true⟩,
          ⟨"zipRight derived from flatMap", true⟩, ⟨"zipLeft derived from flatMap", true⟩ ]
        next := by
  intro samples C R P pair sameParity bothSameParity laws
  have hsamples : samples.Alike C R :=
    { value := rfl
      program := .write (.done (Object.alike_new rfl))
      other := Console.alike_ask fun line => Host.alike_pure (.done (Object.alike_new rfl))
      f := fun a b hab => Host.alike_pure <| Console.alike_ask fun _ =>
        Host.alike_pure (.done (Object.alike_new (congrArg (· + 1) hab)))
      g := fun a b hab => Host.Alike.bind (Object.alike_new (congrArg (2 * ·) hab)) fun _ _ h =>
        Host.alike_pure (.write (Console.alike_succeed h))
      h := fun a b hab => Object.alike_new (congrArg (· + 2) hab) }
  have hpair : ∀ a b a' b', R a a' → R b b' → Host.Alike C P (pair a b) (pair a' b') :=
    fun a b a' b' ha hb =>
      Object.alike_new (Q := fun c c' : Object Nat × Object Nat => R c.1 c'.1 ∧ R c.2 c'.2) ⟨ha, hb⟩
  have hparity : ∀ a b, R a b → sameParity a b = true := fun a b hab => by
    simp only [sameParity, beq_iff_eq, show a.content = b.content from hab]
  have hboth : ∀ p q, P p q → bothSameParity p q = true := fun p q hpq => by
    simp only [bothSameParity, hparity _ _ hpq.1, hparity _ _ hpq.2, Bool.and_self]
  obtain ⟨next, -, hverify⟩ :=
    (verify_consoleLaws hsamples hpair hparity hboth [] (s := 1) trivial).2
  exact ⟨hsamples, hpair, hparity, hboth, next, hverify⟩

/-- If pairs are compared by whether they are one and the same, which holds of each pair and itself,
zip ordering is not passed: either side makes its own pair. -/
theorem verify_consoleLaws_same :
    let samples : Samples (Thrown Empty) Nat Nat :=
      { value := 1
        program := .succeed 1
        other := .succeed 2
        f := fun a => return .succeed a
        g := fun a => return .succeed a
        h := pure }
    let pair : Nat → Nat → Host (Thrown Empty) Nat (Object (Nat × Nat)) :=
      fun a b => Object.new (a, b)
    let laws := consoleLaws (equivalent [] (· == ·)) samples pair (equivalent [] Object.same)
    samples.Alike (fun _ => True) Eq ∧ (∀ a : Nat, (a == a) = true) ∧
      (∀ p : Object (Nat × Nat), p.same p = true) ∧
      verify laws 0 = .ok
        [ ⟨"left identity", true⟩, ⟨"right identity", true⟩, ⟨"associativity", true⟩,
          ⟨"map derived from flatMap", true⟩, ⟨"zip ordering", false⟩,
          ⟨"zipRight derived from flatMap", true⟩, ⟨"zipLeft derived from flatMap", true⟩ ] 2 := by
  intro samples pair laws
  have hanswer : ∀ a b : Nat, a = b → Console.AlikeBuild (fun _ => True) Eq
      (return .succeed a : Host (Thrown Empty) Nat _) (return .succeed b) :=
    fun a b => Console.alikeBuild_succeed
  have hsamples : samples.Alike (fun _ => True) Eq :=
    { value := rfl
      program := Console.alike_succeed rfl
      other := Console.alike_succeed rfl
      f := hanswer
      g := hanswer
      h := fun a b => Host.alike_pure }
  exact ⟨hsamples, fun a => beq_self_eq_true a, fun p => beq_self_eq_true p.place, rfl⟩

end Teletype
