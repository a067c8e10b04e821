import Teletype.Proofs.Terminal.Logged
import Teletype.Terminal.Scripted

/-!
# A fault cuts a run

One operation of a terminal, the read or the write of a certain number, raises instead of being
performed. A run on that terminal and the run on the same terminal without the fault stand at the
same nodes until one asks for that operation (`Fault.Strikes`); there the fault is raised, and
nothing is done after it. The counts of the operations say whether a run ever asks for it. What the
log says of the script (`Recorded`) holds at every node that the loop comes to.
-/

namespace Teletype

open Host
open Console (Position Turn Stop Reaches Agree)

variable {V σ τ η α : Type}

/-- The one operation that is to fail, counted from one. -/
inductive Fault where
  | read (number : Nat)
  | write (number : Nat)

namespace Fault

def number : Fault → Nat
  | read number => number
  | write number => number

/-- The terminal is to fail at this operation and at no other. -/
def faults : Fault → Faults
  | read number => { read? := some number }
  | write number => { write? := some number }

/-- What is raised in place of the operation. -/
def failure : Fault → Failure
  | read number => .plain s!"read {number} failed"
  | write number => .plain s!"write {number} failed"

/-- How many operations of the kind have been asked for. -/
def tally : Fault → Counted τ → Nat
  | read _, c => c.reads
  | write _, c => c.writes

/-- The line, if the entry is an operation of the kind. -/
def line? : Fault → Entry η → Option String
  | read _ => Entry.readLine?
  | write _ => Entry.writtenLine?

/-- The node asks for an operation of the kind. -/
def meets {ε : Type} : Fault → Console ε σ α → Bool
  | read _, .read _ => true
  | write _, .write _ _ => true
  | _, _ => false

/-- At this position the operation is asked for that is to fail. -/
def Strikes {ε : Type} (fault : Fault) (x : Position ε σ (Counted τ) α) : Prop :=
  fault.meets x.1 = true ∧ fault.tally x.2.2 + 1 = fault.number

/-! ## One operation at a time -/

section

variable {fault : Fault} {t : Terminal (Thrown V) τ} {c : Counted τ} {line : String}

/-- A read that is not the one to fail is done as on the terminal without the fault. -/
theorem readLine_faulty_eq (h : fault ≠ .read (c.reads + 1)) :
    (t.faulty fault.faults).readLine c = (t.faulty {}).readLine c := by
  obtain ⟨device, reads, writes⟩ := c
  cases fault with
  | read number =>
    have hnumber : number ≠ reads + 1 := fun he => h (congrArg Fault.read he)
    simp [Terminal.faulty, faults, hnumber]
  | write number => simp [Terminal.faulty, faults]

theorem writeLine_faulty_eq (h : fault ≠ .write (c.writes + 1)) :
    (t.faulty fault.faults).writeLine line c = (t.faulty {}).writeLine line c := by
  obtain ⟨device, reads, writes⟩ := c
  cases fault with
  | read number => simp [Terminal.faulty, faults]
  | write number =>
    have hnumber : number ≠ writes + 1 := fun he => h (congrArg Fault.write he)
    simp [Terminal.faulty, faults, hnumber]

variable {x y : Position (Thrown V) (σ × List (Entry η)) (Counted τ) α}
  {r : Except (Thrown V) α × (σ × List (Entry η)) × Counted τ}

/-- The two terminals agree wherever the fault does not strike. -/
theorem agree_of_not_strikes (h : ¬ fault.Strikes x) :
    Agree id (t.faulty {}).logged (t.faulty fault.faults).logged x := by
  obtain ⟨program, w, c⟩ := x
  cases program with
  | done value => exact .done
  | write line next =>
    have hother : fault ≠ .write (c.writes + 1) := by
      rintro rfl
      exact h ⟨rfl, rfl⟩
    have hop : (t.faulty fault.faults).logged.writeLine line (w, c) =
        (t.faulty {}).logged.writeLine line (w, c) := by
      simp only [Terminal.logged, Terminal.journaled, writeLine_faulty_eq hother]
    exact .write (outcomeOf_congr hop)
  | read next =>
    have hother : fault ≠ .read (c.reads + 1) := by
      rintro rfl
      exact h ⟨rfl, rfl⟩
    have hop : (t.faulty fault.faults).logged.readLine (w, c) =
        (t.faulty {}).logged.readLine (w, c) := by
      simp only [Terminal.logged, Terminal.journaled, readLine_faulty_eq hother]
    exact .read (outcomeOf_congr hop)

/-- With no fault to come, what the counting terminal does is what the terminal does. -/
theorem agree_device (t : Terminal (Thrown V) τ)
    (x : Position (Thrown V) (σ × List (Entry η)) (Counted τ) α) :
    Agree Counted.device (t.faulty {}).logged t.logged x := by
  obtain ⟨program, w, device, reads, writes⟩ := x
  cases program with
  | done value => exact .done
  | write line next =>
    refine .write ?_
    cases h : t.writeLine line device <;>
      simp [Console.seen, Terminal.logged, Terminal.journaled, Terminal.faulty, outcomeOf, h]
  | read next =>
    refine .read ?_
    cases h : t.readLine device <;>
      simp [Console.seen, Terminal.logged, Terminal.journaled, Terminal.faulty, outcomeOf, h]

/-- Where the fault strikes the run ends, with the host and the device as they were. -/
theorem Strikes.exists_stop (h : fault.Strikes x) :
    ∃ c, c.device = x.2.2.device ∧ Stop (t.faulty fault.faults).logged x
      (.error (.failure fault.failure), x.2.1, c) := by
  obtain ⟨program, w, device, reads, writes⟩ := x
  obtain ⟨hmeets, hnumber⟩ := h
  cases fault with
  | read number =>
    cases program with
    | read next =>
      obtain rfl : reads + 1 = number := hnumber
      refine ⟨⟨device, reads + 1, writes⟩, rfl, .readFailed ?_⟩
      simp [Terminal.logged, Terminal.journaled, Terminal.faulty, faults, failure]
    | done | write => cases hmeets
  | write number =>
    cases program with
    | write line next =>
      obtain rfl : writes + 1 = number := hnumber
      refine ⟨⟨device, reads, writes + 1⟩, rfl, .writeFailed ?_⟩
      simp [Terminal.logged, Terminal.journaled, Terminal.faulty, faults, failure]
    | done | read => cases hmeets

/-- Without a fault, a run on the counting terminal is the run on the terminal. -/
theorem runOn_uncounted (t : Terminal (Thrown V) τ)
    (program : Console (Thrown V) (σ × List (Entry η)) α) (w : (σ × List (Entry η)) × Counted τ) :
    Prod.map id (Console.seen Counted.device)
        (outcomeOf (Console.runOn (t.faulty {}).logged program) w) =
      outcomeOf (Console.runOn t.logged program) (Console.seen Counted.device w) := by
  have hdiffer := Console.exists_first_difference (fun _ => False)
    (fun x _ => agree_device t x) (program, w)
  rcases hdiffer with ⟨_, _, _, hmarked⟩ | ⟨_, hend⟩
  · exact hmarked.elim
  · exact hend.symm

/-! ## Counting the operations -/

/-- A read is counted whether or not it succeeds. -/
theorem tally_readLine (fault : Fault) (t : Terminal (Thrown V) τ)
    (next : String → Host (Thrown V) (σ × List (Entry η))
      (Console (Thrown V) (σ × List (Entry η)) α)) (w : (σ × List (Entry η)) × Counted τ) :
    fault.tally (outcomeOf (t.faulty {}).logged.readLine w).2.2 =
      fault.tally w.2 + (fault.meets (.read next)).toNat := by
  obtain ⟨⟨s, log⟩, device, reads, writes⟩ := w
  cases h : t.readLine device <;> cases fault <;>
    simp [outcomeOf, Terminal.logged, Terminal.journaled, Terminal.faulty, tally, meets, h]

/-- A write is counted whether or not it succeeds. -/
theorem tally_writeLine (fault : Fault) (t : Terminal (Thrown V) τ) (line : String)
    (next : Console (Thrown V) (σ × List (Entry η)) α) (w : (σ × List (Entry η)) × Counted τ) :
    fault.tally (outcomeOf ((t.faulty {}).logged.writeLine line) w).2.2 =
      fault.tally w.2 + (fault.meets (.write line next)).toNat := by
  obtain ⟨⟨s, log⟩, device, reads, writes⟩ := w
  cases h : t.writeLine line device <;> cases fault <;>
    simp [outcomeOf, Terminal.logged, Terminal.journaled, Terminal.faulty, tally, meets, h]

/-- One operation more has been asked for if the node asks for one of the kind. -/
theorem tally_turn (fault : Fault) (h : Turn (t.faulty {}).logged x y) :
    fault.tally y.2.2 = fault.tally x.2.2 + (fault.meets x.1).toNat := by
  cases h with
  | @write line next w w' hwrite =>
    have hcount := tally_writeLine fault t line next w
    rwa [outcomeOf_eq_ok.2 hwrite] at hcount
  | @read next line program w s s' c hread _ =>
    have hcount := tally_readLine fault t next w
    rwa [outcomeOf_eq_ok.2 hread] at hcount

theorem tally_stop (fault : Fault) (h : Stop (t.faulty {}).logged x r) :
    fault.tally r.2.2 = fault.tally x.2.2 + (fault.meets x.1).toNat := by
  cases h with
  | @value value w c =>
    have hcount : (outcomeOf (onHost value) (w, c)).2.2 = c := by
      unfold outcomeOf onHost
      cases value w <;> rfl
    rw [hcount]
    cases fault <;> rfl
  | @writeFailed line next w w' e hwrite =>
    have hcount := tally_writeLine fault t line next w
    rwa [outcomeOf_eq_error.2 hwrite] at hcount
  | @readFailed next w w' e hread =>
    have hcount := tally_readLine fault t next w
    rwa [outcomeOf_eq_error.2 hread] at hcount
  | @replyFailed next line w s s' c e hread _ =>
    have hcount := tally_readLine fault t next w
    rwa [outcomeOf_eq_ok.2 hread] at hcount

theorem tally_le_of_reaches (fault : Fault) (h : Reaches (t.faulty {}).logged x y) :
    fault.tally x.2.2 ≤ fault.tally y.2.2 := by
  induction h with
  | refl => exact Nat.le_refl _
  | tail _ hturn ih =>
    have hcount := tally_turn fault hturn
    omega

theorem tally_le_of_run (fault : Fault) (t : Terminal (Thrown V) τ)
    (x : Position (Thrown V) (σ × List (Entry η)) (Counted τ) α) :
    fault.tally x.2.2 ≤
      fault.tally (outcomeOf (Console.runOn (t.faulty {}).logged x.1) x.2).2.2 := by
  obtain ⟨last, hreaches, hstop⟩ := Console.exists_stop (t.faulty {}).logged x.1 x.2
  have hto : fault.tally x.2.2 ≤ fault.tally last.2.2 := tally_le_of_reaches fault hreaches
  have hlast := tally_stop fault hstop
  omega

/-- A run that comes to where the fault strikes asks for the operation. -/
theorem Strikes.number_le_tally (h : fault.Strikes x) :
    fault.number ≤ fault.tally (outcomeOf (Console.runOn (t.faulty {}).logged x.1) x.2).2.2 := by
  obtain ⟨hmeets, hnumber⟩ := h
  obtain ⟨last, hreaches, hstop⟩ := Console.exists_stop (t.faulty {}).logged x.1 x.2
  rcases hreaches.cases_head with rfl | ⟨y, hturn, -⟩
  · have hcount := tally_stop fault hstop
    rw [hmeets] at hcount
    exact Nat.le_of_eq (hcount.trans hnumber).symm
  · have hcount := tally_turn fault hturn
    have hrest := tally_le_of_run fault t y
    rw [hmeets] at hcount
    rw [hturn.outcomeOf_eq]
    exact Nat.le_trans (Nat.le_of_eq (hcount.trans hnumber).symm) hrest

/-- A run that never comes to where the fault strikes does not ask for the operation. Just before
the operation is asked for, its number is one more than the count, and there the fault strikes. -/
theorem tally_lt_of_not_strikes (hstart : fault.tally x.2.2 < fault.number)
    (hnone : ∀ y, Reaches (t.faulty {}).logged x y → ¬ fault.Strikes y) :
    fault.tally (outcomeOf (Console.runOn (t.faulty {}).logged x.1) x.2).2.2 < fault.number := by
  have hnext : ∀ y, Reaches (t.faulty {}).logged x y → fault.tally y.2.2 < fault.number →
      fault.tally y.2.2 + (fault.meets y.1).toNat < fault.number := by
    intro y hy hlt
    cases hmeets : fault.meets y.1 with
    | false => exact hlt
    | true =>
      have hother : fault.tally y.2.2 + 1 ≠ fault.number := fun he => hnone y hy ⟨hmeets, he⟩
      exact Nat.lt_of_le_of_ne hlt hother
  obtain ⟨last, hreaches, hstop⟩ := Console.exists_stop (t.faulty {}).logged x.1 x.2
  have hlast : fault.tally last.2.2 < fault.number := by
    clear hstop
    induction hreaches with
    | refl => exact hstart
    | tail hto hturn ih =>
      rw [tally_turn fault hturn]
      exact hnext _ hto ih
  rw [tally_stop fault hstop]
  exact hnext last hreaches hlast

end

end Fault

/-! ## What the log says of the script -/

/-- At this position the log agrees with the terminal: the lines that were read and those that are
left are the script, the lines that were written are the output, and the counts are right. The
callbacks to come only add events. -/
structure Recorded (lines : List String)
    (x : Position (Thrown V) (σ × List (Entry η)) (Counted Script) α) : Prop where
  appends : x.1.Appends
  read : x.2.1.2.filterMap Entry.readLine? ++ x.2.2.device.remaining = lines
  written : x.2.2.device.output.toList = x.2.1.2.filterMap Entry.writtenLine?
  reads : x.2.2.reads = (x.2.1.2.filterMap Entry.readLine?).length
  writes : x.2.2.writes = (x.2.1.2.filterMap Entry.writtenLine?).length

section

variable {lines : List String}
  {x y : Position (Thrown V) (σ × List (Entry η)) (Counted Script) α}

theorem recorded_start {program : Console (Thrown V) (σ × List (Entry η)) α}
    (hprogram : program.Appends) (lines : List String) (s : σ) :
    Recorded lines (program, (s, []), { device := { remaining := lines } }) := by
  constructor
  · exact hprogram
  · rfl
  · rfl
  · rfl
  · rfl

/-- Events are neither reads nor writes. -/
theorem filterMap_events {see : Entry η → Option String} (hsee : ∀ e, see (.event e) = none)
    (events : List η) : (events.map Entry.event).filterMap see = [] := by
  rw [List.filterMap_map, List.filterMap_eq_nil_iff]
  exact fun e _ => hsee e

/-- **A turn keeps the record.** It logs its operation and what the callback behind a read notes. -/
theorem Recorded.turn (hx : Recorded lines x)
    (h : Turn (Script.terminal.faulty {}).logged x y) : Recorded lines y := by
  have happends := h.appends hx.appends
  obtain ⟨program, ⟨s, log⟩, ⟨⟨remaining, output⟩, reads, writes⟩⟩ := x
  obtain ⟨hprogram, hread, hwritten, hreads, hwrites⟩ := hx
  cases h with
  | @write line next _ w' hwrite =>
    cases hwrite
    constructor
    · exact happends
    · simpa [List.filterMap_cons] using hread
    · simpa [List.filterMap_cons] using hwritten
    · simpa [List.filterMap_cons] using hreads
    · simpa [List.filterMap_cons] using hwrites
  | @read next line program _ s₁ s₂ c hask hreply =>
    cases remaining with
    | nil => cases hask
    | cons line rest =>
      cases hask
      cases hprogram with
      | read hanswer _ =>
        obtain ⟨s', events, rfl⟩ := (hanswer line).of_ok hreply
        have hnoread := filterMap_events Entry.readLine?_event events
        have hnowrite := filterMap_events Entry.writtenLine?_event events
        constructor
        · exact happends
        · simpa [List.filterMap_cons, hnoread] using hread
        · simpa [List.filterMap_cons, hnowrite] using hwritten
        · simpa [List.filterMap_cons, hnoread] using hreads
        · simpa [List.filterMap_cons, hnowrite] using hwrites

theorem Recorded.reaches (hx : Recorded lines x)
    (h : Reaches (Script.terminal.faulty {}).logged x y) : Recorded lines y := by
  induction h with
  | refl => exact hx
  | tail _ hturn ih => exact ih.turn hturn

/-- The operations of a kind are as many as the log has. -/
theorem Recorded.tally_eq (hx : Recorded lines x) (fault : Fault) :
    fault.tally x.2.2 = (x.2.1.2.filterMap fault.line?).length := by
  cases fault with
  | read number => exact hx.reads
  | write number => exact hx.writes

/-! ## The cut -/

/-- How a run without the fault, seen by its end and its log, stands to the log of the run that the
fault cuts. It goes on with the operation, the one of the fault's number among its kind; or the
operation is a read, no line is left for it, and the run ends there too. -/
inductive Fault.Cuts (fault : Fault) (log : List (Entry η)) :
    Except (Thrown V) α → List (Entry η) → Prop
  | performed {result : Except (Thrown V) α} {entry : Entry η} {line : String}
      {more : List (Entry η)} : fault.line? entry = some line →
      (log.filterMap fault.line?).length + 1 = fault.number →
      Cuts fault log result (log ++ entry :: more)
  | attempted : fault = .read ((log.filterMap Entry.readLine?).length + 1) →
      Cuts fault log (.error (.failure (.endOfInput Script.exhaustedMessage))) log

/-- From where the fault strikes, the run without the fault goes on with the operation. -/
theorem Fault.Strikes.cuts {fault : Fault} (h : fault.Strikes x) (hx : Recorded lines x) :
    let free := outcomeOf (Console.runOn (Script.terminal.faulty {}).logged x.1) x.2
    fault.Cuts x.2.1.2 free.1 (Console.logOf free) := by
  intro free
  have hnumber : (x.2.1.2.filterMap fault.line?).length + 1 = fault.number :=
    hx.tally_eq fault ▸ h.2
  obtain ⟨program, ⟨s, log⟩, ⟨⟨remaining, output⟩, reads, writes⟩⟩ := x
  obtain ⟨hmeets, -⟩ := h
  have hprogram : program.Appends := hx.appends
  cases fault with
  | read number =>
    cases program with
    | done | write => cases hmeets
    | read next =>
      cases remaining with
      | nil =>
        have hend : free = _ := Stop.outcomeOf_eq (.readFailed rfl)
        rw [hend]
        exact .attempted (congrArg Fault.read hnumber.symm)
      | cons line rest =>
        have hlog : log ++ [.operation (.read line)] <+: Console.logOf free :=
          hprogram.prefix_logOf_read (t := Script.terminal.faulty {}) rfl
        obtain ⟨more, hmore⟩ := hlog
        rw [← hmore, List.append_assoc]
        exact .performed rfl hnumber
  | write number =>
    cases program with
    | done | read => cases hmeets
    | write line next =>
      cases hprogram with
      | write hnext =>
        have hlog : log ++ [.operation (.write line)] <+: Console.logOf free :=
          hnext.prefix_logOf_write (t := Script.terminal.faulty {}) rfl
        obtain ⟨more, hmore⟩ := hlog
        rw [← hmore, List.append_assoc]
        exact .performed rfl hnumber

end

/-- **A terminal fault cuts a run cleanly.** The callbacks may note events, change the state beside
the log and raise. Without a fault, the terminal that counts is the scripted one. With one, if the
run without the fault asks for the operation, the log is that run's log up to just before it, the
fault is what is raised, the output is the lines written in the log, and the lines read in it and
those that are left are the script; if it never asks for the operation, the runs are the same. -/
theorem Fault.cuts_run {program : Console (Thrown V) (σ × List (Entry η)) α}
    (hprogram : program.Appends) (fault : Fault) (hfault : 0 < fault.number) (lines : List String)
    (s : σ) :
    let start : (σ × List (Entry η)) × Counted Script :=
      ((s, []), { device := { remaining := lines } })
    let free := outcomeOf (Console.runOn (Script.terminal.faulty {}).logged program) start
    let faulty :=
      outcomeOf (Console.runOn (Script.terminal.faulty fault.faults).logged program) start
    Prod.map id (Console.seen Counted.device) free =
        outcomeOf (Console.runOn Script.terminal.logged program) ((s, []), { remaining := lines }) ∧
      (fault.number ≤ fault.tally free.2.2 → ∃ s' log c,
        faulty = (.error (.failure fault.failure), (s', log), c) ∧
          fault.Cuts log free.1 (Console.logOf free) ∧
          c.device.output.toList = log.filterMap Entry.writtenLine? ∧
          log.filterMap Entry.readLine? ++ c.device.remaining = lines) ∧
      (fault.tally free.2.2 < fault.number → faulty = free) := by
  intro start free faulty
  refine ⟨Fault.runOn_uncounted Script.terminal program start, ?_⟩
  have hdiffer := Console.exists_first_difference fault.Strikes
    (fun x => Fault.agree_of_not_strikes (t := Script.terminal)) (program, start)
  rcases hdiffer with ⟨x, hfree, hcut, hstrikes⟩ | ⟨hnone, hend⟩
  · -- Both runs come to the operation, in the same state; the one is cut there, the other goes on.
    have hx : Recorded lines x := (recorded_start hprogram lines s).reaches hfree
    have hasked : fault.number ≤ fault.tally free.2.2 := by
      rw [show free = _ from hfree.outcomeOf_eq]
      exact hstrikes.number_le_tally
    have hcuts : fault.Cuts x.2.1.2 free.1 (Console.logOf free) := by
      rw [show free = _ from hfree.outcomeOf_eq]
      exact hstrikes.cuts hx
    refine ⟨fun _ => ?_, fun hlt => absurd hasked (Nat.not_le_of_lt hlt)⟩
    obtain ⟨c, hdevice, hstop⟩ := hstrikes.exists_stop (t := Script.terminal)
    have hfaulty : faulty = (.error (.failure fault.failure), x.2.1, c) :=
      hcut.outcomeOf_eq.trans hstop.outcomeOf_eq
    refine ⟨x.2.1.1, x.2.1.2, c, hfaulty, hcuts, ?_, ?_⟩
    · rw [hdevice]
      exact hx.written
    · rw [hdevice]
      exact hx.read
  · -- The operation is never asked for, so the count stays below its number.
    have hbelow : fault.tally free.2.2 < fault.number := by
      have hstart : fault.tally start.2 < fault.number := by
        cases fault <;> exact hfault
      exact Fault.tally_lt_of_not_strikes hstart hnone
    exact ⟨fun hle => absurd hbelow (Nat.not_lt_of_le hle), fun _ => hend⟩

/-- The program asks for a name, greets, and asks once more when no line is left. A fault at the
greeting cuts the run in front of it, one at the second question cuts it where it ends anyway, and a
second write is never asked for. -/
theorem Fault.cuts_run_greeting :
    let program : Console (Thrown Empty) (Nat × List (Entry String)) String := .ask fun name => do
      modify fun (count, log) => (count + 1, log)
      Host.note name
      return .write ("Hello, " ++ name) .readLine
    let run := fun faults : Faults =>
      outcomeOf (Console.runOn (Script.terminal.faulty faults).logged program)
        ((0, []), { device := { remaining := ["Ada"] } })
    program.Appends ∧
      ((Fault.write 1).Cuts [.operation (.read "Ada"), .event "Ada"] (run {}).1
          (Console.logOf (run {})) ∧
        (run (Fault.write 1).faults).1 = .error (.failure (.plain "write 1 failed")) ∧
        (run (Fault.write 1).faults).2.1 = (1, [.operation (.read "Ada"), .event "Ada"])) ∧
      ((Fault.read 2).Cuts (Console.logOf (run {})) (run {}).1 (Console.logOf (run {})) ∧
        (run (Fault.read 2).faults).1 = .error (.failure (.plain "read 2 failed"))) ∧
      run (Fault.write 2).faults = run {} := by
  intro program run
  have hprogram : program.Appends := by
    refine .read (fun name => ?_) ?_
    · exact (Host.logs_modify _).appends.bind fun _ =>
        (Host.logs_note name).appends.bind fun _ => Host.appends_pure _
    · intro name w next w' hok
      cases hok
      refine .write (.read (fun line => Host.appends_pure _) ?_)
      intro line w next w' hok
      cases hok
      exact .done (Host.appends_pure line)
  have hgreeting := (Fault.cuts_run hprogram (.write 1) Nat.one_pos ["Ada"] 0).2.1
  have hquestion := (Fault.cuts_run hprogram (.read 2) Nat.two_pos ["Ada"] 0).2.1
  have hnever := (Fault.cuts_run hprogram (.write 2) Nat.two_pos ["Ada"] 0).2.2
  refine ⟨hprogram, ?_, ?_, hnever (Nat.lt_succ_self 1)⟩
  · obtain ⟨s', log, c, hrun, hcuts, -, -⟩ := hgreeting (Nat.le_refl 1)
    cases hrun
    exact ⟨hcuts, rfl, rfl⟩
  · obtain ⟨s', log, c, hrun, hcuts, -, -⟩ := hquestion (Nat.le_refl 2)
    cases hrun
    exact ⟨hcuts, rfl⟩

end Teletype
