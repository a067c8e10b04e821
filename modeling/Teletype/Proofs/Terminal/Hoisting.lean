import Mathlib.Logic.Relation
import Teletype.Proofs.Console.Logging
import Teletype.Proofs.Terminal.Composition

/-!
# Events are hoisted over writes

Building `flatMap` runs callbacks before the writes in front of them are performed: those of the
first program's result and of the continuation, up to the next question. Callbacks that note events
show it. Put the events and the terminal's operations into one log (`Terminal.logged`): against the
log of the two programs run in turn, the log of the joined program has events moved ahead of writes
(`Hoisted`), and that is all. No event moves past a read, since what stands behind a question is
built only when its line has come.

Where the first program writes, its events are ahead of that write in the one run and behind it in
the other. The joined program must go on alike from both logs, and it does, because the callbacks do
not look at the log (`Logs.exists_outcome`, `Logs.exists_hoisted_write`).
-/

namespace Teletype

open Host
open Relation (ReflTransGen)

variable {ε σ τ η α β γ : Type}

/-- All operations of the terminal succeed. -/
structure Terminal.Succeeds (t : Terminal ε τ) : Prop where
  read : ∀ c, ∃ line c', t.readLine c = .ok line c'
  write : ∀ line c, ∃ c', t.writeLine line c = .ok () c'

/-- A terminal that notes its operations at the end of the log in which callbacks note events. -/
def Terminal.logged (t : Terminal ε τ) : Terminal ε ((σ × List (Entry η)) × τ) :=
  t.journaled fun operation (s, log) => (s, log ++ [.operation operation])

/-! ## Moving events -/

/-- One event moves ahead of the write right in front of it. -/
inductive Hoist : List (Entry η) → List (Entry η) → Prop
  | mk (before : List (Entry η)) (line : String) (e : η) (after : List (Entry η)) :
      Hoist (before ++ .operation (.write line) :: .event e :: after)
        (before ++ .event e :: .operation (.write line) :: after)

/-- The second log is the first one, but for events that moved ahead of writes, one write at a time.
An event never moves past a read, nor past another event. -/
def Hoisted : List (Entry η) → List (Entry η) → Prop := ReflTransGen Hoist

theorem Hoist.append {x y : List (Entry η)} (h : Hoist x y) (before after : List (Entry η)) :
    Hoist (before ++ x ++ after) (before ++ y ++ after) := by
  obtain ⟨before', line, e, after'⟩ := h
  have hmoved := Hoist.mk (before ++ before') line e (after' ++ after)
  simpa only [List.append_assoc, List.cons_append] using hmoved

theorem Hoisted.trans {x y z : List (Entry η)} (h : Hoisted x y) (h' : Hoisted y z) : Hoisted x z :=
  ReflTransGen.trans h h'

theorem Hoisted.append {x y : List (Entry η)} (h : Hoisted x y) (before after : List (Entry η)) :
    Hoisted (before ++ x ++ after) (before ++ y ++ after) := by
  induction h with
  | refl => exact .refl
  | tail _ hstep ih => exact ih.tail (hstep.append before after)

/-- Events behind a write may move ahead of it, all of them. -/
theorem hoisted_events (line : String) (events : List η) :
    Hoisted (.operation (.write line) :: events.map .event)
      (events.map .event ++ [.operation (.write line)]) := by
  induction events with
  | nil => exact .refl
  | cons e events ih =>
    have hfirst : Hoist (.operation (.write line) :: .event e :: events.map .event)
        (.event e :: .operation (.write line) :: events.map .event) := .mk [] line e _
    have hrest := ih.append [.event e] []
    simp only [List.append_nil, List.singleton_append] at hrest
    exact ReflTransGen.head hfirst hrest

/-- Whatever looks at no write, or at no event, sees the same in both logs. -/
theorem Hoisted.filterMap_eq {x y : List (Entry η)} (h : Hoisted x y) {see : Entry η → Option γ}
    (hsee : ∀ line e, see (.operation (.write line)) = none ∨ see (.event e) = none) :
    x.filterMap see = y.filterMap see := by
  induction h with
  | refl => rfl
  | tail _ hstep ih =>
    obtain ⟨before, line, e, after⟩ := hstep
    rw [ih]
    rcases hsee line e with hnone | hnone <;>
      simp only [List.filterMap_append, List.filterMap_cons, hnone]

/-! What can be seen of a log: its events, its operations, and how the events lie between the reads.
-/

def Entry.event? : Entry η → Option η
  | .event e => some e
  | .operation _ => none

def Entry.operation? : Entry η → Option Operation
  | .event _ => none
  | .operation o => some o

/-- The entry, unless it is a write. -/
def Entry.unlessWrite? : Entry η → Option (Entry η)
  | .operation (.write _) => none
  | entry => some entry

/-! ## Logged runs -/

namespace Console

section

variable {t : Terminal ε τ} {s s' : σ} {c c' : τ} {log : List (Entry η)} {line : String} {e : ε}
  {next program : Console ε (σ × List (Entry η)) α} {a : α}
  {reply : String → Host ε (σ × List (Entry η)) (Console ε (σ × List (Entry η)) α)}

theorem writeLine_logged_of_ok (h : t.writeLine line c = .ok () c') :
    t.logged.writeLine line ((s, log), c) =
      .ok () ((s, log ++ [.operation (.write line)]), c') := by
  simp only [Terminal.logged, Terminal.journaled, h]

theorem writeLine_logged_of_error (h : t.writeLine line c = .error e c') :
    t.logged.writeLine line ((s, log), c) = .error e ((s, log), c') := by
  simp only [Terminal.logged, Terminal.journaled, h]

theorem readLine_logged_of_ok (h : t.readLine c = .ok line c') :
    t.logged.readLine ((s, log), c) = .ok line ((s, log ++ [.operation (.read line)]), c') := by
  simp only [Terminal.logged, Terminal.journaled, h]

theorem readLine_logged_of_error (h : t.readLine c = .error e c') :
    t.logged.readLine ((s, log), c) = .error e ((s, log), c') := by
  simp only [Terminal.logged, Terminal.journaled, h]

theorem runOn_logged_write_of_ok (h : t.writeLine line c = .ok () c') :
    runOn t.logged (.write line next) ((s, log), c) =
      runOn t.logged next ((s, log ++ [.operation (.write line)]), c') := by
  rw [runOn_write, bind_of_ok (writeLine_logged_of_ok h)]

theorem runOn_logged_ask_of_ok (h : t.readLine c = .ok line c') {log' : List (Entry η)}
    (hreply : reply line (s, log ++ [.operation (.read line)]) = .ok program (s', log')) :
    runOn t.logged (.ask reply) ((s, log), c) = runOn t.logged program ((s', log'), c') := by
  rw [runOn_ask, bind_of_ok (readLine_logged_of_ok h)]
  exact bind_of_ok (onHost_of_ok hreply)

end

/-- **What a run does does not depend on the log before it**: it ends in the same way, in the same
state, and puts the same entries at the end. -/
theorem Logs.exists_outcome {self : Console ε (σ × List (Entry η)) α} (hself : self.Logs)
    (t : Terminal ε τ) (s : σ) (c : τ) :
    ∃ outcome s' c' added, ∀ log,
      outcomeOf (runOn t.logged self) ((s, log), c) = (outcome, (s', log ++ added), c') := by
  induction hself generalizing s c with
  | @done value hvalue =>
    obtain ⟨a, s', events, -, hvalue⟩ := hvalue s
    refine ⟨.ok a, s', c, events.map .event, fun log => outcomeOf_eq_ok.2 ?_⟩
    rw [← sync, runOn_sync]
    exact onHost_of_ok (hvalue log)
  | @write line next hnext ih =>
    cases h : t.writeLine line c with
    | ok u c' =>
      obtain ⟨outcome, s', c'', added, hrun⟩ := ih s c'
      refine ⟨outcome, s', c'', .operation (.write line) :: added, fun log => ?_⟩
      rw [outcomeOf_congr (runOn_logged_write_of_ok h), hrun, List.append_assoc,
        List.singleton_append]
    | error e c' =>
      refine ⟨.error e, s, c', [], fun log => outcomeOf_eq_error.2 ?_⟩
      rw [runOn_write, bind_of_error (writeLine_logged_of_error h), List.append_nil]
  | @read next hanswer hprogram ih =>
    cases h : t.readLine c with
    | ok line c' =>
      obtain ⟨program, s', events, -, hnext⟩ := hanswer line s
      -- The callback answers with this program from every log, so the empty one stands for them.
      obtain ⟨outcome, s'', c'', added, hrun⟩ :=
        ih line (s, []) program (s', [] ++ events.map .event) (hnext []) s' c'
      refine ⟨outcome, s'', c'', .operation (.read line) :: (events.map .event ++ added),
        fun log => ?_⟩
      rw [← ask, outcomeOf_congr (runOn_logged_ask_of_ok h (hnext _)), hrun]
      simp only [List.append_assoc, List.cons_append, List.nil_append]
    | error e c' =>
      refine ⟨.error e, s, c', [], fun log => outcomeOf_eq_error.2 ?_⟩
      rw [← ask, runOn_ask, bind_of_error (readLine_logged_of_error h), List.append_nil]

/-- On a terminal that does not fail, programs whose callbacks return come to a result. -/
theorem Logs.exists_ok {self : Console ε (σ × List (Entry η)) α} (hself : self.Logs)
    {t : Terminal ε τ} (ht : t.Succeeds) (s : σ) (log : List (Entry η)) (c : τ) :
    ∃ a s' log' c', runOn t.logged self ((s, log), c) = .ok a ((s', log'), c') := by
  induction hself generalizing s log c with
  | @done value hvalue =>
    obtain ⟨a, s', events, -, hvalue⟩ := hvalue s
    refine ⟨a, s', log ++ events.map .event, c, ?_⟩
    rw [← sync, runOn_sync]
    exact onHost_of_ok (hvalue log)
  | @write line next hnext ih =>
    obtain ⟨c', h⟩ := ht.write line c
    rw [runOn_logged_write_of_ok h]
    exact ih s _ c'
  | @read next hanswer hprogram ih =>
    obtain ⟨line, c', h⟩ := ht.read c
    obtain ⟨program, s', events, -, hnext⟩ := hanswer line s
    obtain ⟨a, s'', log', c'', hrun⟩ := ih line (s, []) program (s', [] ++ events.map .event)
      (hnext []) s' (log ++ [.operation (.read line)] ++ events.map .event) c'
    exact ⟨a, s'', log', c'', (runOn_logged_ask_of_ok h (hnext _)).trans hrun⟩

/-- The whole of a sequence: build it, then run it once. -/
def buildThenRun (t : Terminal ε (σ × τ)) (self : Console ε σ α)
    (f : α → Host ε σ (Console ε σ β)) : EStateM ε (σ × τ) β := do
  let joined ← onHost (self.flatMap f)
  runOn t joined

/-- From the state `s` beside the log, the action notes events and builds a program. Where `conduct`
comes to a result, the program comes to it too, in the same state, and its log is the one that
`conduct` leaves but for events that are hoisted over writes. -/
def BuildsHoisted (t : Terminal ε τ)
    (x : Host ε (σ × List (Entry η)) (Console ε (σ × List (Entry η)) β))
    (conduct : EStateM ε ((σ × List (Entry η)) × τ) β) (s : σ) : Prop :=
  ∃ joined s', ∃ events : List η, joined.Logs ∧
    (∀ log, x (s, log) = .ok joined (s', log ++ events.map .event)) ∧
    ∀ log c b s'' log' c', conduct ((s, log), c) = .ok b ((s'', log'), c') →
      ∃ moved, runOn t.logged joined ((s', log ++ events.map .event), c) =
        .ok b ((s'', moved), c') ∧ Hoisted log' moved

/-- Events that a run found behind a write may as well be ahead of it: what comes then is the same,
because it does not depend on the log. -/
theorem Logs.exists_hoisted_write {t : Terminal ε τ} {joined : Console ε (σ × List (Entry η)) β}
    (hjoined : joined.Logs) {line : String} {c c' c'' : τ} (hw : t.writeLine line c = .ok () c')
    {s s' : σ} {log moved : List (Entry η)} {events : List η} {b : β}
    (hrun : runOn t.logged joined
      ((s, log ++ [.operation (.write line)] ++ events.map .event), c') =
        .ok b ((s', moved), c'')) :
    ∃ moved', runOn t.logged (.write line joined) ((s, log ++ events.map .event), c) =
      .ok b ((s', moved'), c'') ∧ Hoisted moved moved' := by
  obtain ⟨outcome, s₁, c₁, added, hadded⟩ := hjoined.exists_outcome t s c'
  cases (hadded _).symm.trans (outcomeOf_eq_ok.2 hrun)
  refine ⟨log ++ events.map .event ++ [.operation (.write line)] ++ added, ?_, ?_⟩
  · rw [runOn_logged_write_of_ok hw]
    exact outcomeOf_eq_ok.1 (hadded _)
  · have hahead := (hoisted_events line events).append log added
    simpa only [List.append_assoc, List.cons_append, List.nil_append] using hahead

/-- **What is built in sequence runs like the two in turn, up to hoisting.** The induction is on the
first program. What its building notes, up to its first question, is ahead of everything that is
performed, so each write of the first program lets these events pass. -/
theorem buildsHoisted_bind (t : Terminal ε τ) {self : Console ε (σ × List (Entry η)) α}
    {f : α → Host ε (σ × List (Entry η)) (Console ε (σ × List (Entry η)) β)} (hself : self.Logs)
    (hf : ∀ a, Host.Logs Logs (f a)) (s : σ) :
    BuildsHoisted t (bind f self) (runThen t.logged self f) s := by
  induction hself generalizing s with
  | @done value hvalue =>
    obtain ⟨a, s', events, -, hvalue⟩ := hvalue s
    obtain ⟨next, s'', more, hlogs, hnext⟩ := hf a s'
    refine ⟨next, s'', events ++ more, hlogs, fun log => ?_, ?_⟩
    · refine (congrFun (bind_sync f value) _).trans ((bind_of_ok (hvalue log)).trans ?_)
      rw [hnext, List.map_append, List.append_assoc]
    · intro log c b s₃ log' c' h
      have hrun : runThen t.logged (.done value) f ((s, log), c) =
          runOn t.logged next ((s'', log ++ events.map .event ++ more.map .event), c) := by
        rw [runThen, ← sync, runOn_sync, bind_of_ok (onHost_of_ok (hvalue log)),
          bind_of_ok (onHost_of_ok (hnext _))]
      rw [List.map_append, ← List.append_assoc, ← hrun, h]
      exact ⟨log', rfl, .refl⟩
  | @write line next hnext ih =>
    obtain ⟨joined, s', events, hlogs, hbuilt, hmoved⟩ := ih s
    refine ⟨.write line joined, s', events, .write hlogs, fun log => ?_, ?_⟩
    · rw [bind_write, map_of_ok (hbuilt log)]
    · intro log c b s'' log' c' h
      cases hw : t.writeLine line c with
      | error e c₁ =>
        rw [runThen, runOn_write, bind_of_error (bind_of_error (writeLine_logged_of_error hw))] at h
        cases h
      | ok u c₁ =>
        have hseq : runThen t.logged (.write line next) f ((s, log), c) =
            runThen t.logged next f ((s, log ++ [.operation (.write line)]), c₁) :=
          bind_congr_left (runOn_logged_write_of_ok hw)
        obtain ⟨moved, hrun, hhoisted⟩ := hmoved _ c₁ b s'' log' c' (hseq.symm.trans h)
        obtain ⟨moved', hrun', hhoisted'⟩ := hlogs.exists_hoisted_write hw hrun
        exact ⟨moved', hrun', hhoisted.trans hhoisted'⟩
  | @read next hanswer hprogram ih =>
    have hjoined : ∀ line, Host.Logs Logs (next line >>= bind f) := fun line =>
      ((Logs.read hanswer hprogram).next line).bind fun program hprogram => hprogram.bind hf
    refine ⟨.ask fun line => next line >>= bind f, s, [], logs_ask hjoined, fun log => ?_, ?_⟩
    · rw [List.map_nil, List.append_nil]
      exact congrFun (bind_ask f next) _
    · intro log c b s'' log' c' h
      rw [List.map_nil, List.append_nil]
      cases hr : t.readLine c with
      | error e c₁ =>
        rw [runThen, ← ask, runOn_ask,
          bind_of_error (bind_of_error (readLine_logged_of_error hr))] at h
        cases h
      | ok line c₁ =>
        obtain ⟨program, s₁, events, -, hnext⟩ := hanswer line s
        obtain ⟨joined, s₂, more, -, hbuilt, hmoved⟩ :=
          ih line (s, []) program (s₁, [] ++ events.map .event) (hnext []) s₁
        have hseq : runThen t.logged (.read next) f ((s, log), c) = runThen t.logged program f
            ((s₁, log ++ [.operation (.read line)] ++ events.map .event), c₁) :=
          bind_congr_left (runOn_logged_ask_of_ok hr (hnext _))
        rw [runOn_logged_ask_of_ok hr ((bind_of_ok (hnext _)).trans (hbuilt _))]
        exact hmoved _ c₁ b s'' log' c' (hseq.symm.trans h)

/-- **Events are hoisted over writes, and never over reads.** On a terminal that does not fail, two
programs run in turn come to a result. Where they do, on any terminal, the program built from them
returns that result too, and leaves the same state of the host and of the terminal. Its log is the
other one with events moved ahead of writes: the terminal performed the same operations in the same
order, the callbacks noted the same events in the same order, and these lie in the same way between
the reads. -/
theorem runOn_flatMap_hoists (t : Terminal ε τ) {self : Console ε (σ × List (Entry η)) α}
    {f : α → Host ε (σ × List (Entry η)) (Console ε (σ × List (Entry η)) β)} (hself : self.Logs)
    (hf : ∀ a, Host.Logs Logs (f a)) (s : σ) (log : List (Entry η)) (c : τ) :
    (t.Succeeds → ∃ b s' log' c', runThen t.logged self f ((s, log), c) = .ok b ((s', log'), c')) ∧
    ∀ b s' log' c', runThen t.logged self f ((s, log), c) = .ok b ((s', log'), c') →
      ∃ moved, buildThenRun t.logged self f ((s, log), c) = .ok b ((s', moved), c') ∧
        Hoisted log' moved ∧
        moved.filterMap Entry.operation? = log'.filterMap Entry.operation? ∧
        moved.filterMap Entry.event? = log'.filterMap Entry.event? ∧
        moved.filterMap Entry.unlessWrite? = log'.filterMap Entry.unlessWrite? := by
  refine ⟨fun ht => ?_, fun b s' log' c' h => ?_⟩
  · obtain ⟨a, s₁, log₁, c₁, hrun⟩ := hself.exists_ok ht s log c
    obtain ⟨next, s₂, events, hlogs, hnext⟩ := hf a s₁
    obtain ⟨b, s₃, log₃, c₃, hgoes⟩ := hlogs.exists_ok ht s₂ (log₁ ++ events.map .event) c₁
    refine ⟨b, s₃, log₃, c₃, ?_⟩
    rw [runThen, bind_of_ok hrun, bind_of_ok (onHost_of_ok (hnext log₁)), hgoes]
  · obtain ⟨joined, s₁, events, -, hbuilt, hmoved⟩ := buildsHoisted_bind t hself hf s
    obtain ⟨moved, hrun, hhoisted⟩ := hmoved log c b s' log' c' h
    refine ⟨moved, ?_, hhoisted, ?_, ?_, ?_⟩
    · rw [buildThenRun, flatMap_eq_bind, bind_of_ok (onHost_of_ok (hbuilt log)), hrun]
    · exact (hhoisted.filterMap_eq fun _ _ => .inr rfl).symm
    · exact (hhoisted.filterMap_eq fun _ _ => .inl rfl).symm
    · exact (hhoisted.filterMap_eq fun _ _ => .inl rfl).symm

/-- Two events, one noted at the first program's result and one by the continuation, move ahead of
the write before them. The event noted at the answer stays behind the read, and the last write
behind all of them. The host counts its answers beside the log. -/
theorem runOn_flatMap_hoists_two :
    let t : Terminal (Thrown Empty) Unit := ⟨pure "x", fun _ => pure ()⟩
    let self : Console (Thrown Empty) (Nat × List (Entry String)) String :=
      .write "a" (.ask fun line => do
        modify fun (count, log) => (count + 1, log)
        Host.note "asked"
        return .write "b" (.sync (do Host.note "forced"; return line)))
    let f := fun line : String => do
      Host.note "continued"
      return (writeLine line : Console (Thrown Empty) (Nat × List (Entry String)) Unit)
    let sequential : List (Entry String) :=
      [.operation (.write "a"), .operation (.read "x"), .event "asked", .operation (.write "b"),
        .event "forced", .event "continued", .operation (.write "x")]
    let moved : List (Entry String) :=
      [.operation (.write "a"), .operation (.read "x"), .event "asked", .event "forced",
        .event "continued", .operation (.write "b"), .operation (.write "x")]
    runThen t.logged self f ((0, []), ()) = .ok () ((1, sequential), ()) ∧
      buildThenRun t.logged self f ((0, []), ()) = .ok () ((1, moved), ()) ∧
      Hoisted sequential moved := by
  intro t self f sequential moved
  have ht : t.Succeeds := ⟨fun _ => ⟨"x", (), rfl⟩, fun _ _ => ⟨(), rfl⟩⟩
  have hself : self.Logs := .write (logs_ask fun line => (Host.logs_modify (· + 1)).bind fun _ _ =>
    (Host.logs_note "asked").bind fun _ _ => Host.logs_pure (.write (.done
      ((Host.logs_note "forced").bind fun _ _ => Host.logs_pure trivial))))
  have hf : ∀ line, Host.Logs Logs (f line) := fun line =>
    (Host.logs_note "continued").bind fun _ _ =>
      Host.logs_pure (.write (.done (Host.logs_pure trivial)))
  obtain ⟨hreturns, hhoists⟩ := runOn_flatMap_hoists t hself hf 0 [] ()
  obtain ⟨b, s', log, c', hsequential⟩ := hreturns ht
  obtain ⟨log', hmoved, hhoisted, -⟩ := hhoists b s' log c' hsequential
  cases hsequential
  cases hmoved
  exact ⟨rfl, rfl, hhoisted⟩

end Console

end Teletype
