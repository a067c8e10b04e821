import Teletype.Proofs.Console.Sequencing
import Teletype.Proofs.Terminal.Running
import Teletype.Terminal.Journal

/-!
# Callbacks that keep a log

A host whose state has a log beside the rest: callbacks put events at its end, and a terminal may
put its operations there too (`Entry`). `Host.Logs` says of an action that it returns and that it
treats the log as something to write to only; what it returns, what it does to the rest of the state
and which events it notes do not depend on the log. Programs with such callbacks are closed under
sequencing (`Logs.bind`). `Host.Appends` asks for less: the action may raise and may look at the
log, but all it does to the log is to put events at its end.
-/

namespace Teletype

open Host

variable {ε σ η α β : Type}

/-- What a log holds: an event that a callback noted, or an operation of the terminal. -/
inductive Entry (η : Type) where
  | event (e : η)
  | operation (o : Operation)
  deriving DecidableEq

/-- The action may change the state and put events at the end of the log, but it does not look at
the log; and it returns, with a value that has the property. -/
def Host.Logs (P : α → Prop) (action : Host ε (σ × List (Entry η)) α) : Prop :=
  ∀ s, ∃ a s', ∃ events : List η, P a ∧
    ∀ log, action (s, log) = .ok a (s', log ++ events.map .event)

theorem Host.logs_pure {P : α → Prop} {a : α} (h : P a) :
    Host.Logs P (pure a : Host ε (σ × List (Entry η)) α) :=
  fun s => ⟨a, s, [], h, fun log => by rw [List.map_nil, List.append_nil]; rfl⟩

/-- Put an event at the end of the log. -/
def Host.note (e : η) : Host ε (σ × List (Entry η)) Unit :=
  modify fun (s, log) => (s, log ++ [.event e])

theorem Host.logs_note (e : η) :
    Host.Logs (fun _ => True) (Host.note e : Host ε (σ × List (Entry η)) Unit) :=
  fun s => ⟨(), s, [e], trivial, fun _ => rfl⟩

/-- A change of the state beside the log notes nothing. -/
theorem Host.logs_modify (change : σ → σ) :
    Host.Logs (fun _ => True)
      (modify fun (s, log) => (change s, log) : Host ε (σ × List (Entry η)) Unit) :=
  fun s => ⟨(), change s, [], trivial, fun log => by rw [List.map_nil, List.append_nil]; rfl⟩

theorem Host.Logs.bind {P : α → Prop} {Q : β → Prop} {x : Host ε (σ × List (Entry η)) α}
    {f : α → Host ε (σ × List (Entry η)) β} (hx : Host.Logs P x)
    (hf : ∀ a, P a → Host.Logs Q (f a)) : Host.Logs Q (x >>= f) := by
  intro s
  obtain ⟨a, s', events, ha, hx⟩ := hx s
  obtain ⟨b, s'', more, hb, hf⟩ := hf a ha s'
  refine ⟨b, s'', events ++ more, hb, fun log => ?_⟩
  rw [bind_of_ok (hx log), hf, List.map_append, List.append_assoc]

namespace Console

/-- All callbacks of the program keep to the log, those behind its questions included. -/
inductive Logs : Console ε (σ × List (Entry η)) α → Prop
  | done {value : Host ε (σ × List (Entry η)) α} :
      Host.Logs (fun _ => True) value → Logs (.done value)
  | write {line : String} {next : Console ε (σ × List (Entry η)) α} :
      Logs next → Logs (.write line next)
  | read {next : String → Host ε (σ × List (Entry η)) (Console ε (σ × List (Entry η)) α)} :
      (∀ line, Host.Logs (fun _ => True) (next line)) →
      (∀ line w program w', next line w = .ok program w' → Logs program) → Logs (.read next)

theorem logs_ask {next : String → Host ε (σ × List (Entry η)) (Console ε (σ × List (Entry η)) α)}
    (h : ∀ line, Host.Logs Logs (next line)) : Logs (.ask next) := by
  refine .read (fun line s => ?_) ?_
  · obtain ⟨program, s', events, -, hnext⟩ := h line s
    exact ⟨program, s', events, trivial, hnext⟩
  · intro line ⟨s, log⟩ program w' hok
    obtain ⟨program', s', events, hlogs, hnext⟩ := h line s
    rw [hnext] at hok
    cases hok
    exact hlogs

theorem Logs.next {next : String → Host ε (σ × List (Entry η)) (Console ε (σ × List (Entry η)) α)}
    (h : Logs (.read next)) (line : String) : Host.Logs Logs (next line) := by
  cases h with
  | read hanswer hprogram =>
    intro s
    obtain ⟨program, s', events, -, hnext⟩ := hanswer line s
    exact ⟨program, s', events, hprogram line _ program _ (hnext []), hnext⟩

/-- **Sequencing keeps to the log** if its continuation does, and so does what it builds. -/
theorem Logs.bind {self : Console ε (σ × List (Entry η)) α}
    {f : α → Host ε (σ × List (Entry η)) (Console ε (σ × List (Entry η)) β)} (hself : self.Logs)
    (hf : ∀ a, Host.Logs Logs (f a)) : Host.Logs Logs (Console.bind f self) := by
  induction hself with
  | @done value hvalue =>
    rw [← sync, bind_sync]
    exact hvalue.bind fun a _ => hf a
  | @write line next hnext ih =>
    rw [bind_write, map_eq_pure_bind]
    exact ih.bind fun joined hjoined => Host.logs_pure (.write hjoined)
  | @read next hanswer hprogram ih =>
    rw [← ask, bind_ask]
    refine Host.logs_pure (logs_ask fun line s => ?_)
    obtain ⟨program, s', events, -, hnext⟩ := hanswer line s
    obtain ⟨joined, s'', more, hjoined, hbind⟩ :=
      ih line (s, []) program (s', [] ++ events.map .event) (hnext []) s'
    refine ⟨joined, s'', events ++ more, hjoined, fun log => ?_⟩
    rw [bind_of_ok (hnext log), hbind, List.map_append, List.append_assoc]

end Console

/-! ## Callbacks that may raise -/

/-- Whether the action returns or raises, all it does to the log is to put events at its end. -/
def Host.Appends (action : Host ε (σ × List (Entry η)) α) : Prop :=
  ∀ s log, ∃ (s' : σ) (events : List η),
    (outcomeOf action (s, log)).2 = (s', log ++ events.map .event)

section

variable {action : Host ε (σ × List (Entry η)) α} {s : σ} {log : List (Entry η)}
  {w : σ × List (Entry η)} {a : α} {e : ε}

theorem Host.Appends.of_ok (h : Host.Appends action) (hok : action (s, log) = .ok a w) :
    ∃ (s' : σ) (events : List η), w = (s', log ++ events.map .event) := by
  obtain ⟨s', events, hleft⟩ := h s log
  rw [outcomeOf_eq_ok.2 hok] at hleft
  exact ⟨s', events, hleft⟩

theorem Host.Appends.of_error (h : Host.Appends action) (herror : action (s, log) = .error e w) :
    ∃ (s' : σ) (events : List η), w = (s', log ++ events.map .event) := by
  obtain ⟨s', events, hleft⟩ := h s log
  rw [outcomeOf_eq_error.2 herror] at hleft
  exact ⟨s', events, hleft⟩

/-- What returns and keeps to the log puts events at its end. -/
theorem Host.Logs.appends {P : α → Prop} (h : Host.Logs P action) : Host.Appends action := by
  intro s log
  obtain ⟨a, s', events, -, hok⟩ := h s
  exact ⟨s', events, by rw [outcomeOf_eq_ok.2 (hok log)]⟩

theorem Host.appends_pure (a : α) : Host.Appends (pure a : Host ε (σ × List (Entry η)) α) :=
  (Host.logs_pure (P := fun _ => True) trivial).appends

theorem Host.appends_throw (e : ε) :
    Host.Appends (throw e : Host ε (σ × List (Entry η)) α) :=
  fun s log => ⟨s, [], by rw [List.map_nil, List.append_nil]; rfl⟩

theorem Host.Appends.bind {f : α → Host ε (σ × List (Entry η)) β} (h : Host.Appends action)
    (hf : ∀ a, Host.Appends (f a)) : Host.Appends (action >>= f) := by
  intro s log
  cases haction : action (s, log) with
  | error e w =>
    obtain ⟨s', events, rfl⟩ := h.of_error haction
    exact ⟨s', events, by rw [outcomeOf_eq_error.2 (bind_of_error haction)]⟩
  | ok a w =>
    obtain ⟨s', events, rfl⟩ := h.of_ok haction
    obtain ⟨s'', more, hleft⟩ := hf a s' (log ++ events.map .event)
    refine ⟨s'', events ++ more, ?_⟩
    rw [outcomeOf_congr (bind_of_ok haction), hleft, List.map_append, List.append_assoc]

end

/-- All callbacks of the program only add to the log, those behind its questions included. -/
inductive Console.Appends : Console ε (σ × List (Entry η)) α → Prop
  | done {value : Host ε (σ × List (Entry η)) α} : Host.Appends value → Appends (.done value)
  | write {line : String} {next : Console ε (σ × List (Entry η)) α} :
      Appends next → Appends (.write line next)
  | read {next : String → Host ε (σ × List (Entry η)) (Console ε (σ × List (Entry η)) α)} :
      (∀ line, Host.Appends (next line)) →
      (∀ line w program w', next line w = .ok program w' → Appends program) → Appends (.read next)

end Teletype
