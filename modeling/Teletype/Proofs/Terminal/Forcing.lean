import Teletype.Proofs.Terminal.Hoisting
import Teletype.Recipe.Value
import Teletype.Thunk

/-!
# Thunks that are forced

A thunk cannot be looked into, so what a force does is said by a relation beside it: `Performs`
follows how the thunk was built, and lists what the callbacks note and what the terminal does up to
the value, or up to what is raised. The relation knows nothing of a handler further out. Every
nesting of the thunks that there are performs something from every state (`Nested.exists_performs`),
and it is what the force does (`Performs.outcomeOf_force`).

So `attempt` can be said to observe: from each state it does what the thunk does there, and what is
raised it returns as a failure. A failure it has at hand. A bare value has to be put into words
first, and that is one more callback: what it does is done behind what the thunk did, and if it
raises, the attempt raises.
-/

namespace Teletype

open Host

variable {ε σ τ η V α β : Type}

/-! ## Callbacks -/

/-- The action ends so, in the other state, and these are the events that it put behind the log. -/
def Host.Notes (action : Host ε (σ × List (Entry η)) α) (v : σ × List (Entry η)) (events : List η)
    (outcome : Except ε α) (v' : σ × List (Entry η)) : Prop :=
  outcomeOf action v = (outcome, v') ∧ v'.2 = v.2 ++ events.map .event

theorem Host.Appends.exists_notes {action : Host ε (σ × List (Entry η)) α}
    (h : Host.Appends action) (v : σ × List (Entry η)) :
    ∃ events outcome v', Host.Notes action v events outcome v' := by
  obtain ⟨s', events, hleft⟩ := h v.1 v.2
  exact ⟨events, _, _, rfl, congrArg Prod.snd hleft⟩

/-- To put a raised value into words is to do it on the host's half of the state. -/
theorem Thrown.toFailure_onHost [HasText V σ] (e : Thrown V) :
    (e.toFailure : EStateM (Thrown V) (σ × τ) Failure) = onHost e.toFailure := by
  cases e with
  | failure f => rfl
  | value v =>
    funext w
    simp only [Thrown.toFailure, HasText.text]
    cases h : HasText.text v w.1 with
    | ok text s =>
      rw [map_of_ok (onHost_of_ok h)]
      exact (onHost_of_ok (map_of_ok h)).symm
    | error e s =>
      rw [map_of_error (onHost_of_error h)]
      exact (onHost_of_error (map_of_error h)).symm

theorem Thrown.appends_toFailure [HasText V (σ × List (Entry η))]
    (htext : ∀ v : V, Host.Appends (HasText.text v : Host (Thrown V) (σ × List (Entry η)) String))
    (e : Thrown V) : Host.Appends (e.toFailure : Host (Thrown V) (σ × List (Entry η)) Failure) := by
  cases e with
  | failure f => exact Host.appends_pure f
  | value v =>
    rw [Thrown.toFailure, map_eq_pure_bind]
    exact (htext v).bind fun text => Host.appends_pure _

namespace Thunk

variable [HasText V (σ × List (Entry η))]

/-! ## What a force performs -/

/-- The state of the host with its log, and the state of the terminal. -/
abbrev Scene (σ η τ : Type) : Type := (σ × List (Entry η)) × τ

/-- A thunk over a logged terminal. -/
abbrev Logged (V σ η τ α : Type) : Type := Thunk (Thrown V) (Scene σ η τ) α

/-- The thunks over a terminal, in any nesting. A callback may look at the state of the host and
change it, and may return or raise what it likes; what it does to the log is to put events at its
end. A thunk that a callback picks is such a thunk again. -/
inductive Nested (t : Terminal (Thrown V) τ) : {α : Type} → Logged V σ η τ α → Prop
  | succeed {α : Type} {producer : Host (Thrown V) (σ × List (Entry η)) α} :
      Host.Appends producer → Nested t (succeed (onHost producer))
  | fail {α : Type} (f : Failure) : Nested t (fail f : Logged V σ η τ α)
  | writeLine (line : String) : Nested t (writeLine t.logged line)
  | readLine : Nested t (readLine t.logged)
  | map {α β : Type} {self : Logged V σ η τ α}
      {f : α → Host (Thrown V) (σ × List (Entry η)) β} :
      Nested t self → (∀ a, Host.Appends (f a)) → Nested t (self.map fun a => onHost (f a))
  | flatMap {α β : Type} {self : Logged V σ η τ α}
      {f : α → Host (Thrown V) (σ × List (Entry η)) (Logged V σ η τ β)} :
      Nested t self → (∀ a, Host.Appends (f a)) →
      (∀ a v next v', f a v = .ok next v' → Nested t next) →
      Nested t (self.flatMap fun a => onHost (f a))
  | attempt {α : Type} {self : Logged V σ η τ α} : Nested t self → Nested t self.attempt

/-- From the first state the thunk performs the entries, in this order and each once, and ends so in
the last state. Where something is raised the rest of the thunk is passed over, up to the next
`attempt` around it, which puts what was raised into words. -/
inductive Performs (t : Terminal (Thrown V) τ) : {α : Type} → Logged V σ η τ α →
    Scene σ η τ → List (Entry η) → Except (Thrown V) α → Scene σ η τ → Prop
  | succeed {α : Type} {producer : Host (Thrown V) (σ × List (Entry η)) α}
      {w : Scene σ η τ} {events : List η} {outcome : Except (Thrown V) α}
      {v : σ × List (Entry η)} :
      Host.Notes producer w.1 events outcome v →
      Performs t (succeed (onHost producer)) w (events.map .event) outcome (v, w.2)
  | fail {α : Type} (f : Failure) (w : Scene σ η τ) :
      Performs t (fail f : Logged V σ η τ α) w [] (.error (.failure f)) w
  | write {line : String} {w : Scene σ η τ} {c : τ} :
      t.writeLine line w.2 = .ok () c →
      Performs t (writeLine t.logged line) w [.operation (.write line)] (.ok ())
        ((w.1.1, w.1.2 ++ [.operation (.write line)]), c)
  | refusedWrite {line : String} {w : Scene σ η τ} {e : Thrown V} {c : τ} :
      t.writeLine line w.2 = .error e c →
      Performs t (writeLine t.logged line) w [] (.error e) (w.1, c)
  | read {w : Scene σ η τ} {line : String} {c : τ} :
      t.readLine w.2 = .ok line c →
      Performs t (readLine t.logged) w [.operation (.read line)] (.ok line)
        ((w.1.1, w.1.2 ++ [.operation (.read line)]), c)
  | refusedRead {w : Scene σ η τ} {e : Thrown V} {c : τ} :
      t.readLine w.2 = .error e c → Performs t (readLine t.logged) w [] (.error e) (w.1, c)
  | map {α β : Type} {self : Logged V σ η τ α}
      {f : α → Host (Thrown V) (σ × List (Entry η)) β} {w w' : Scene σ η τ}
      {first : List (Entry η)} {a : α} {events : List η} {outcome : Except (Thrown V) β}
      {v : σ × List (Entry η)} :
      Performs t self w first (.ok a) w' → Host.Notes (f a) w'.1 events outcome v →
      Performs t (self.map fun a => onHost (f a)) w (first ++ events.map .event) outcome (v, w'.2)
  | mapRaised {α β : Type} {self : Logged V σ η τ α}
      {f : α → Host (Thrown V) (σ × List (Entry η)) β} {w w' : Scene σ η τ}
      {first : List (Entry η)} {e : Thrown V} :
      Performs t self w first (.error e) w' →
      Performs t (self.map fun a => onHost (f a)) w first (.error e) w'
  | flatMap {α β : Type} {self : Logged V σ η τ α}
      {f : α → Host (Thrown V) (σ × List (Entry η)) (Logged V σ η τ β)}
      {w w' w'' : Scene σ η τ} {first rest : List (Entry η)} {a : α}
      {events : List η} {next : Logged V σ η τ β} {v : σ × List (Entry η)}
      {outcome : Except (Thrown V) β} :
      Performs t self w first (.ok a) w' → Host.Notes (f a) w'.1 events (.ok next) v →
      Performs t next (v, w'.2) rest outcome w'' →
      Performs t (self.flatMap fun a => onHost (f a)) w (first ++ events.map .event ++ rest)
        outcome w''
  | flatMapUnpicked {α β : Type} {self : Logged V σ η τ α}
      {f : α → Host (Thrown V) (σ × List (Entry η)) (Logged V σ η τ β)}
      {w w' : Scene σ η τ} {first : List (Entry η)} {a : α} {events : List η}
      {e : Thrown V} {v : σ × List (Entry η)} :
      Performs t self w first (.ok a) w' → Host.Notes (f a) w'.1 events (.error e) v →
      Performs t (self.flatMap fun a => onHost (f a)) w (first ++ events.map .event) (.error e)
        (v, w'.2)
  | flatMapRaised {α β : Type} {self : Logged V σ η τ α}
      {f : α → Host (Thrown V) (σ × List (Entry η)) (Logged V σ η τ β)}
      {w w' : Scene σ η τ} {first : List (Entry η)} {e : Thrown V} :
      Performs t self w first (.error e) w' →
      Performs t (self.flatMap fun a => onHost (f a)) w first (.error e) w'
  | attempt {α : Type} {self : Logged V σ η τ α} {w w' : Scene σ η τ}
      {entries : List (Entry η)} {a : α} :
      Performs t self w entries (.ok a) w' → Performs t self.attempt w entries (.ok (.ok a)) w'
  | attemptRaised {α : Type} {self : Logged V σ η τ α} {w w' : Scene σ η τ}
      {first : List (Entry η)} {e : Thrown V} {events : List η} {told : Except (Thrown V) Failure}
      {v : σ × List (Entry η)} :
      Performs t self w first (.error e) w' → Host.Notes e.toFailure w'.1 events told v →
      Performs t self.attempt w (first ++ events.map .event) (told.map .error) (v, w'.2)

variable {t : Terminal (Thrown V) τ} {self : Logged V σ η τ α} {w w' : Scene σ η τ}
  {entries : List (Entry η)} {outcome : Except (Thrown V) α}

/-- **Whatever is nested, something is performed**, from every state: up to a value, or up to what
is raised. By induction on the nesting, in the order in which a force goes through it. -/
theorem Nested.exists_performs
    (htext : ∀ v : V, Host.Appends (HasText.text v : Host (Thrown V) (σ × List (Entry η)) String))
    (h : Nested t self) (w : Scene σ η τ) :
    ∃ entries outcome w', Performs t self w entries outcome w' := by
  induction h generalizing w with
  | succeed hproducer =>
    obtain ⟨events, outcome, v, hnotes⟩ := hproducer.exists_notes w.1
    exact ⟨_, _, _, .succeed hnotes⟩
  | fail f => exact ⟨_, _, _, .fail f w⟩
  | writeLine line =>
    cases hwrite : t.writeLine line w.2 with
    | ok u c => exact ⟨_, _, _, .write hwrite⟩
    | error e c => exact ⟨_, _, _, .refusedWrite hwrite⟩
  | readLine =>
    cases hread : t.readLine w.2 with
    | ok line c => exact ⟨_, _, _, .read hread⟩
    | error e c => exact ⟨_, _, _, .refusedRead hread⟩
  | @map _ _ self f _ hf ih =>
    obtain ⟨first, outcome, w', hfirst⟩ := ih w
    cases outcome with
    | error e => exact ⟨_, _, _, .mapRaised hfirst⟩
    | ok a =>
      obtain ⟨events, outcome, v, hnotes⟩ := (hf a).exists_notes w'.1
      exact ⟨_, _, _, .map hfirst hnotes⟩
  | @flatMap _ _ self f _ hf _ ih ihnext =>
    obtain ⟨first, outcome, w', hfirst⟩ := ih w
    cases outcome with
    | error e => exact ⟨_, _, _, .flatMapRaised hfirst⟩
    | ok a =>
      obtain ⟨events, picked, v, hnotes⟩ := (hf a).exists_notes w'.1
      cases picked with
      | error e => exact ⟨_, _, _, .flatMapUnpicked hfirst hnotes⟩
      | ok next =>
        obtain ⟨rest, outcome, w'', hrest⟩ :=
          ihnext a w'.1 next v (outcomeOf_eq_ok.1 hnotes.1) (v, w'.2)
        exact ⟨_, _, _, .flatMap hfirst hnotes hrest⟩
  | attempt _ ih =>
    obtain ⟨first, outcome, w', hself⟩ := ih w
    cases outcome with
    | ok a => exact ⟨_, _, _, .attempt hself⟩
    | error e =>
      obtain ⟨events, told, v, hnotes⟩ := (Thrown.appends_toFailure htext e).exists_notes w'.1
      exact ⟨_, _, _, .attemptRaised hself hnotes⟩

section

variable {ω : Type} [HasText V ω] {self : Thunk (Thrown V) ω α} {w w' w'' : ω}

theorem outcomeOf_attempt_of_ok {a : α} (h : outcomeOf self.force w = (.ok a, w')) :
    outcomeOf self.attempt.force w = (.ok (.ok a), w') := by
  refine outcomeOf_eq_ok.2 ?_
  simp only [attempt, outcomeOf_eq_ok.1 h]

theorem outcomeOf_attempt_of_error {e : Thrown V} {told : Except (Thrown V) Failure}
    (h : outcomeOf self.force w = (.error e, w')) (htold : outcomeOf e.toFailure w' = (told, w'')) :
    outcomeOf self.attempt.force w = (told.map .error, w'') := by
  cases told with
  | ok f =>
    refine outcomeOf_eq_ok.2 ?_
    simp only [attempt, outcomeOf_eq_error.1 h]
    exact map_of_ok (outcomeOf_eq_ok.1 htold)
  | error e' =>
    refine outcomeOf_eq_error.2 ?_
    simp only [attempt, outcomeOf_eq_error.1 h]
    exact map_of_error (outcomeOf_eq_error.1 htold)

theorem attempt_of_failure {f : Failure} (h : self.force w = .error (.failure f) w') :
    self.attempt.force w = .ok (.error f) w' :=
  outcomeOf_eq_ok.1 (outcomeOf_attempt_of_error (outcomeOf_eq_error.2 h) rfl)

theorem attempt_of_value {v : V} (h : self.force w = .error (.value v) w') :
    self.attempt.force w = ((fun text => .error (.plain text)) <$> HasText.text v) w' := by
  simp only [attempt, h, Thrown.toFailure, Functor.map_map]

/-- An attempt raises only if a bare value was raised that cannot be put into words. -/
theorem attempt_eq_error_iff {e : Thrown V} : self.attempt.force w = .error e w'' ↔
    ∃ v w', self.force w = .error (.value v) w' ∧ HasText.text v w' = .error e w'' := by
  constructor
  · intro hattempt
    cases hforce : self.force w with
    | ok a w' =>
      rw [outcomeOf_eq_ok.1 (outcomeOf_attempt_of_ok (outcomeOf_eq_ok.2 hforce))] at hattempt
      cases hattempt
    | error raised w' =>
      cases raised with
      | failure f =>
        rw [attempt_of_failure hforce] at hattempt
        cases hattempt
      | value v =>
        refine ⟨v, w', rfl, ?_⟩
        rw [attempt_of_value hforce] at hattempt
        cases htext : HasText.text v w' with
        | ok text w₁ =>
          rw [map_of_ok htext] at hattempt
          cases hattempt
        | error e' w₁ =>
          rw [map_of_error htext] at hattempt
          cases hattempt
          rfl
  · rintro ⟨v, w', hforce, htext⟩
    rw [attempt_of_value hforce, map_of_error htext]

end

/-- **What is performed is what the force does.** -/
theorem Performs.outcomeOf_force (h : Performs t self w entries outcome w') :
    outcomeOf self.force w = (outcome, w') := by
  induction h with
  | succeed hnotes => exact outcomeOf_onHost hnotes.1 _
  | fail f w => rfl
  | write hwrite => exact outcomeOf_eq_ok.2 (Console.writeLine_logged_of_ok hwrite)
  | refusedWrite hwrite => exact outcomeOf_eq_error.2 (Console.writeLine_logged_of_error hwrite)
  | read hread => exact outcomeOf_eq_ok.2 (Console.readLine_logged_of_ok hread)
  | refusedRead hread => exact outcomeOf_eq_error.2 (Console.readLine_logged_of_error hread)
  | map _ hnotes ih => exact (outcomeOf_bind_of_ok ih).trans (outcomeOf_onHost hnotes.1 _)
  | mapRaised _ ih => exact outcomeOf_bind_of_error ih
  | flatMap _ hnotes _ ih ihrest =>
    rw [Thunk.flatMap, outcomeOf_bind_of_ok ih, outcomeOf_bind_of_ok (outcomeOf_onHost hnotes.1 _)]
    exact ihrest
  | flatMapUnpicked _ hnotes ih =>
    rw [Thunk.flatMap, outcomeOf_bind_of_ok ih]
    exact outcomeOf_bind_of_error (outcomeOf_onHost hnotes.1 _)
  | flatMapRaised _ ih => exact outcomeOf_bind_of_error ih
  | attempt _ ih => exact outcomeOf_attempt_of_ok ih
  | attemptRaised _ hnotes ih =>
    refine outcomeOf_attempt_of_error ih ?_
    rw [Thrown.toFailure_onHost]
    exact outcomeOf_onHost hnotes.1 _

/-- The entries are what the force puts behind the log. -/
theorem Performs.log_eq (h : Performs t self w entries outcome w') :
    w'.1.2 = w.1.2 ++ entries := by
  induction h with
  | succeed hnotes => exact hnotes.2
  | fail f w => exact (List.append_nil _).symm
  | write _ => rfl
  | refusedWrite _ => exact (List.append_nil _).symm
  | read _ => rfl
  | refusedRead _ => exact (List.append_nil _).symm
  | map _ hnotes ih => rw [hnotes.2, ih, List.append_assoc]
  | mapRaised _ ih => exact ih
  | flatMap _ hnotes _ ih ihrest => rw [ihrest, hnotes.2, ih, List.append_assoc, List.append_assoc,
      List.append_assoc]
  | flatMapUnpicked _ hnotes ih => rw [hnotes.2, ih, List.append_assoc]
  | flatMapRaised _ ih => exact ih
  | attempt _ ih => exact ih
  | attemptRaised _ hnotes ih => rw [hnotes.2, ih, List.append_assoc]

/-! ## What was returned, raised again -/

/-- Raise the failure that was returned, or return the value. -/
def settle {ω : Type} : Except Failure α → EStateM (Thrown V) ω (Thunk (Thrown V) ω α)
  | .ok a => pure (.succeed (pure a))
  | .error f => pure (.fail f)

/-- An attempt that is settled does what the thunk does, if it raises no bare value. -/
theorem settle_attempt {ω : Type} [HasText V ω] {self : Thunk (Thrown V) ω α} {w : ω}
    (h : ∀ v w', self.force w ≠ .error (.value v) w') :
    (self.attempt.flatMap settle).force w = self.force w := by
  rw [flatMap]
  cases hforce : self.force w with
  | ok a w' =>
    have hattempt := outcomeOf_attempt_of_ok (outcomeOf_eq_ok.2 hforce)
    exact bind_of_ok (outcomeOf_eq_ok.1 hattempt)
  | error e w' =>
    cases e with
    | value v => exact absurd hforce (h v w')
    | failure f => exact bind_of_ok (attempt_of_failure hforce)

/-! ## Again and again -/

/-- What one force of many performed, and how it ended. -/
structure Visit (V η α : Type) where
  entries : List (Entry η)
  outcome : Except (Thrown V) α

/-- The thunk is performed again and again. Each time starts from the state that the time before
left, however that one ended. -/
inductive PerformsEach (t : Terminal (Thrown V) τ) (self : Logged V σ η τ α) :
    Scene σ η τ → List (Visit V η α) → Scene σ η τ → Prop
  | nil {w : Scene σ η τ} : PerformsEach t self w [] w
  | cons {w w' w'' : Scene σ η τ} {visit : Visit V η α} {visits : List (Visit V η α)} :
      Performs t self w visit.entries visit.outcome w' → PerformsEach t self w' visits w'' →
      PerformsEach t self w (visit :: visits) w''

theorem Nested.exists_performsEach
    (htext : ∀ v : V, Host.Appends (HasText.text v : Host (Thrown V) (σ × List (Entry η)) String))
    (h : Nested t self) (n : Nat) (w : Scene σ η τ) :
    ∃ visits w', visits.length = n ∧ PerformsEach t self w visits w' := by
  induction n generalizing w with
  | zero => exact ⟨[], w, rfl, .nil⟩
  | succ n ih =>
    obtain ⟨entries, outcome, w', hfirst⟩ := h.exists_performs htext w
    obtain ⟨visits, w'', hlength, hrest⟩ := ih w'
    exact ⟨⟨entries, outcome⟩ :: visits, w'', congrArg (· + 1) hlength, .cons hfirst hrest⟩

variable {visits : List (Visit V η α)}

theorem PerformsEach.inTurn_eq (h : PerformsEach t self w visits w') :
    inTurn outcomeOf (List.replicate visits.length self.force) w =
      (visits.map (·.outcome), w') := by
  induction h with
  | nil => rfl
  | cons hfirst _ ih =>
    simp only [List.length_cons, List.replicate_succ, List.map_cons, inTurn, hfirst.outcomeOf_force,
      ih]

theorem PerformsEach.log_eq (h : PerformsEach t self w visits w') :
    w'.1.2 = w.1.2 ++ visits.flatMap (·.entries) := by
  induction h with
  | nil => exact (List.append_nil _).symm
  | cons hfirst _ ih => rw [ih, hfirst.log_eq, List.append_assoc, List.flatMap_cons]

/-- **An attempt observes a thunk and does not disturb it.** Take any nesting of thunks over any
terminal, in any state. A force performs entries that are behind the log then. An attempt of it
performs the same; it returns the value, or the failure that the thunk raises, and leaves the same
log and the same state of the host and of the terminal. If the thunk raises a bare value, the
attempt goes on to put it into words: it returns the plain failure that says so, or raises what that
raises, and this is the one way in which an attempt raises. If the thunk raises no bare value there,
an attempt that is settled does there what the thunk does. And nothing is kept from one force to the
next: in any number of turns the thunk is performed anew each time, from the state that the time
before left, attempts included. -/
theorem attempt_observes
    (htext : ∀ v : V, Host.Appends (HasText.text v : Host (Thrown V) (σ × List (Entry η)) String))
    (h : Nested t self) (w : Scene σ η τ) :
    (∃ entries outcome w', Performs t self w entries outcome w' ∧
      outcomeOf self.force w = (outcome, w') ∧ w'.1.2 = w.1.2 ++ entries ∧
      match outcome with
      | .ok a => self.attempt.force w = .ok (.ok a) w'
      | .error (.failure f) => self.attempt.force w = .ok (.error f) w'
      | .error (.value v) =>
        self.attempt.force w = ((fun text => .error (.plain text)) <$> HasText.text v) w') ∧
    (∀ e w'', self.attempt.force w = .error e w'' ↔
      ∃ v w', self.force w = .error (.value v) w' ∧ HasText.text v w' = .error e w'') ∧
    ((∀ v w', self.force w ≠ .error (.value v) w') →
      (self.attempt.flatMap settle).force w = self.force w) ∧
    ∀ n, ∃ visits w', visits.length = n ∧ PerformsEach t self w visits w' ∧
      inTurn outcomeOf (List.replicate n self.force) w = (visits.map (·.outcome), w') ∧
      w'.1.2 = w.1.2 ++ visits.flatMap (·.entries) := by
  refine ⟨?_, fun e w'' => attempt_eq_error_iff, settle_attempt, fun n => ?_⟩
  · obtain ⟨entries, outcome, w', hself⟩ := h.exists_performs htext w
    refine ⟨entries, outcome, w', hself, hself.outcomeOf_force, hself.log_eq, ?_⟩
    cases outcome with
    | ok a => exact outcomeOf_eq_ok.1 (outcomeOf_attempt_of_ok hself.outcomeOf_force)
    | error e =>
      have hforce := outcomeOf_eq_error.1 hself.outcomeOf_force
      cases e with
      | failure f => exact attempt_of_failure hforce
      | value v => exact attempt_of_value hforce
  · obtain ⟨visits, w', rfl, heach⟩ := h.exists_performsEach htext n w
    exact ⟨visits, w', rfl, heach, heach.inTurn_eq, heach.log_eq⟩

/-- A producer that raises a bare value is attempted inside the thunk, and the thunk goes on. On a
script of one line the first attempt of the whole comes to its end. The second one runs out of
input, and what it did before that is kept. -/
theorem attempt_observes_twice :
    let t : Terminal (Thrown String) (List String) :=
      ⟨fun
        | [] => .error (.failure .endOfInput) []
        | line :: rest => .ok line rest, fun _ => pure ()⟩
    let refused : Logged String Nat String (List String) Unit :=
      succeed (onHost do Host.note "tried"; throw (.value "no"))
    let echo : Logged String Nat String (List String) Unit :=
      (readLine t.logged).flatMap fun line => onHost (pure (writeLine t.logged line))
    let thunk := refused.attempt.flatMap fun _ => onHost do
      modify fun (count, log) => (count + 1, log)
      return echo
    let start := ((0, []), ["x"])
    let log : List (Entry String) := [.event "tried", .operation (.read "x"),
      .operation (.write "x"), .event "tried"]
    thunk.Nested t ∧
      (thunk.attempt.flatMap settle).force start = thunk.force start ∧
      ∃ visits, PerformsEach t thunk.attempt start visits ((2, log), []) ∧
        visits.map (·.outcome) = [.ok (.ok ()), .ok (.error .endOfInput)] ∧
        visits.flatMap (·.entries) = log := by
  intro t refused echo thunk start log
  have hthunk : thunk.Nested t := .flatMap
    (.attempt (.succeed ((Host.logs_note "tried").appends.bind fun _ => Host.appends_throw _)))
    (fun _ => (Host.logs_modify (· + 1)).appends.bind fun _ => Host.appends_pure echo)
    (by
      rintro _ v _ _ ⟨⟩
      refine .flatMap .readLine (fun line => Host.appends_pure _) ?_
      rintro line _ _ _ ⟨⟩
      exact .writeLine line)
  have htext : ∀ text : String, Host.Appends
      (HasText.text text : Host (Thrown String) (Nat × List (Entry String)) String) :=
    Host.appends_pure
  obtain ⟨-, -, hsettled, -⟩ := attempt_observes htext hthunk start
  obtain ⟨-, -, -, hagain⟩ := attempt_observes htext hthunk.attempt start
  obtain ⟨visits, w', -, heach, hforced, hlog⟩ := hagain 2
  have hforces : inTurn outcomeOf (List.replicate 2 thunk.attempt.force) start =
      ([.ok (.ok ()), .ok (.error .endOfInput)], ((2, log), [])) := rfl
  obtain ⟨houtcomes, rfl⟩ := Prod.mk.inj (hforced.symm.trans hforces)
  refine ⟨hthunk, hsettled ?_, visits, heach, houtcomes, hlog.symm⟩
  intro v w' hvalue
  cases (rfl : thunk.force start = .ok () _).symm.trans hvalue

/-- The thunk raises a record that has no text, and so its attempt raises. -/
theorem attempt_raises :
    let record : Recipe.Value := .record [("toString", .number (.ofNat 1))]
    let thunk : Thunk (Thrown Recipe.Value) Unit Unit := succeed (throw (.value record))
    thunk.attempt.force () = .error (.failure .noText) () := rfl

end Thunk

end Teletype
