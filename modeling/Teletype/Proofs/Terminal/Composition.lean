import Teletype.Proofs.Console.Quiet
import Teletype.Proofs.Terminal.Running
import Teletype.Terminal.Journal
import Teletype.Terminal.Scripted

/-!
# Running a sequence of two programs

Building `flatMap` runs callbacks of the first program before anything is read or written. Where
these are quiet nobody can tell: the program that was built does on every terminal what the first
program does, and then what the continuation's program does from there. The terminal is any machine
and may fail at any of its operations; the operations it performed are kept in a list beside it.
-/

namespace Teletype

open Host

variable {ε σ τ α β : Type}

/-- A terminal together with the operations that it performed, oldest first. -/
def Terminal.recorded (t : Terminal ε τ) : Terminal ε (List Operation × τ) :=
  t.journaled fun operation log => log ++ [operation]

namespace Console

/-- The first program, the callback at its result, and the program that the callback picked. -/
def runThen (t : Terminal ε (σ × τ)) (self : Console ε σ α)
    (f : α → Host ε σ (Console ε σ β)) : EStateM ε (σ × τ) β := do
  let a ← runOn t self
  let next ← onHost (f a)
  runOn t next

/-- A quiet program leaves the host's state as it is, however its run ends. -/
theorem Quiet.runOn_keeps_host (t : Terminal ε τ) {self : Console ε σ α} (hself : self.Quiet)
    (s : σ) (c : τ) :
    (∃ a c', runOn t.beside self (s, c) = .ok a (s, c')) ∨
      ∃ e c', runOn t.beside self (s, c) = .error e (s, c') := by
  induction hself generalizing c with
  | @done value hvalue =>
    obtain ⟨a, ha⟩ := hvalue s
    exact .inl ⟨a, c, runOn_sync_of_ok ha⟩
  | @write line next hnext ih =>
    cases h : t.writeLine line c with
    | ok u c' =>
      rw [runOn_write_of_ok h]
      exact ih c'
    | error e c' => exact .inr ⟨e, c', runOn_write_of_error h⟩
  | @read next hquiet hprogram ih =>
    cases h : t.readLine c with
    | ok line c' =>
      obtain ⟨program, hanswer⟩ := hquiet line s
      have hrun : runOn t.beside (.read next) (s, c) = runOn t.beside program (s, c') :=
        runOn_ask_of_ok h hanswer
      rw [hrun]
      exact ih line s program s hanswer c'
    | error e c' => exact .inr ⟨e, c', runOn_ask_of_error h⟩

/-- Sequencing quiet callbacks builds, in the state as it is, a program that runs like the two in
turn. The first program is followed node by node, with the terminal failing at any of them. -/
theorem exists_bind_eq_runThen (t : Terminal ε τ) {self : Console ε σ α}
    {f : α → Host ε σ (Console ε σ β)} (hself : self.Quiet) (hf : ∀ a, Host.Quiet (f a)) (s : σ) :
    ∃ joined, bind f self s = .ok joined s ∧
      ∀ c, runOn t.beside joined (s, c) = runThen t.beside self f (s, c) := by
  induction hself with
  | @done value hvalue =>
    obtain ⟨a, ha⟩ := hvalue s
    obtain ⟨next, hnext⟩ := hf a s
    refine ⟨next, ?_, fun c => ?_⟩
    · exact (congrFun (bind_sync f value) s).trans ((bind_of_ok ha).trans hnext)
    · have hrun : runOn t.beside (.done value) (s, c) = .ok a (s, c) := runOn_sync_of_ok ha
      exact ((bind_of_ok hrun).trans (bind_of_ok (onHost_of_ok hnext))).symm
  | @write line next hnext ih =>
    obtain ⟨joined, hbuilt, hrun⟩ := ih
    refine ⟨.write line joined, by rw [bind_write, map_of_ok hbuilt], fun c => ?_⟩
    cases h : t.writeLine line c with
    | ok u c' =>
      rw [runOn_write_of_ok h, hrun]
      exact (bind_congr_left (runOn_write_of_ok h)).symm
    | error e c' =>
      rw [runOn_write_of_error h]
      exact (bind_of_error (runOn_write_of_error h)).symm
  | @read next hquiet hprogram ih =>
    refine ⟨.ask fun line => next line >>= bind f, congrFun (bind_ask f next) s, fun c => ?_⟩
    cases h : t.readLine c with
    | ok line c' =>
      obtain ⟨program, hanswer⟩ := hquiet line s
      obtain ⟨joined, hbuilt, hrun⟩ := ih line s program s hanswer
      rw [runOn_ask_of_ok h ((bind_of_ok hanswer).trans hbuilt), hrun]
      exact (bind_congr_left (runOn_ask_of_ok h hanswer)).symm
    | error e c' =>
      rw [runOn_ask_of_error h]
      exact (bind_of_error (runOn_ask_of_error h)).symm

/-- **Running is a homomorphism.** Sequencing quiet callbacks builds a program. On every terminal,
with the operations it has performed so far in `log`, that program does what the first one does, and
at its result goes on as the program that the continuation picks. Where the terminal fails in the
first program, it fails in the same way here, and nothing of the continuation was performed. -/
theorem runOn_flatMap (t : Terminal ε τ) {self : Console ε σ α}
    {f : α → Host ε σ (Console ε σ β)} (hself : self.Quiet) (hf : ∀ a, Host.Quiet (f a)) (s : σ) :
    ∃ joined, self.flatMap f s = .ok joined s ∧ ∀ log c,
      match runOn t.recorded.beside self (s, log, c) with
      | .ok a w => w.1 = s ∧ ∃ next, f a s = .ok next s ∧
          runOn t.recorded.beside joined (s, log, c) = runOn t.recorded.beside next w
      | .error e w => w.1 = s ∧ runOn t.recorded.beside joined (s, log, c) = .error e w := by
  obtain ⟨joined, hbuilt, hrun⟩ := exists_bind_eq_runThen t.recorded hself hf s
  refine ⟨joined, by rw [flatMap_eq_bind, hbuilt], fun log c => ?_⟩
  rcases hself.runOn_keeps_host t.recorded s (log, c) with ⟨a, c', h⟩ | ⟨e, c', h⟩
  · obtain ⟨next, hnext⟩ := hf a s
    simp only [h]
    refine ⟨trivial, next, hnext, ?_⟩
    rw [hrun]
    exact (bind_of_ok h).trans (bind_of_ok (onHost_of_ok hnext))
  · simp only [h]
    refine ⟨trivial, ?_⟩
    rw [hrun]
    exact bind_of_error h

/-- The first program runs to its end, and the terminal fails at the first write of the second. -/
theorem runOn_flatMap_failing_write :
    ∃ joined, (Console.write "Name?" readLine).flatMap
        (fun name => (pure (writeLine name) : Host (Thrown Empty) Unit _)) () = .ok joined () ∧
      runOn (Script.terminal.faulty { write? := some 2 }).recorded.beside joined
          ((), [], { device := { remaining := ["Ada"] } }) =
        .error (.failure (.plain "write 2 failed"))
          ((), [.write "Name?", .read "Ada"],
            { device := { remaining := [], output := #["Name?"] }, reads := 1, writes := 2 }) := by
  have hself : Quiet (.write "Name?" readLine : Console (Thrown Empty) Unit String) :=
    .write quiet_readLine
  obtain ⟨joined, hbuilt, hrun⟩ := runOn_flatMap (Script.terminal.faulty { write? := some 2 }) hself
    (fun name => Host.quiet_pure (writeLine name)) ()
  refine ⟨joined, hbuilt, ?_⟩
  obtain ⟨-, next, hnext, hgoes⟩ := hrun [] { device := { remaining := ["Ada"] } }
  cases hnext
  exact hgoes

end Console

end Teletype
