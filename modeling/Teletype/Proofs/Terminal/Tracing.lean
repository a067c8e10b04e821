import Teletype.Proofs.Console.Plain
import Teletype.Proofs.Terminal.Running
import Teletype.Terminal.Traced

/-!
# Tracing changes nothing but the log

`attempted` keeps beside a terminal what was asked of it and how each operation went, failures
included. Keeping it changes nothing else: seen through the view that forgets it, a run is a run on
the terminal itself (`Covers`). And a plain program does the same on such a terminal whether or not
its operations are reported to the host; what is reported can be read off what was asked: every read
that succeeded, and every write.
-/

namespace Teletype

open Host

variable {ε σ τ α : Type}

/-- An operation that was asked of a terminal, and how it went. -/
inductive Attempt (ε : Type) where
  | read (outcome : Except ε String)
  | write (line : String) (outcome : Except ε Unit)

/-- What a trace says of an operation: nothing of a read that failed. -/
def Attempt.report? : Attempt ε → Option String
  | .read (.ok line) => some (readReport line)
  | .read (.error _) => none
  | .write line _ => some (writeReport line)

namespace Terminal

/-- A terminal together with what was asked of it, oldest first, and how it went. -/
def attempted (t : Terminal ε τ) : Terminal ε (List (Attempt ε) × τ) where
  readLine := fun (attempts, c) =>
    match t.readLine c with
    | .ok line c => .ok line (attempts ++ [.read (.ok line)], c)
    | .error e c => .error e (attempts ++ [.read (.error e)], c)
  writeLine line := fun (attempts, c) =>
    match t.writeLine line c with
    | .ok () c => .ok () (attempts ++ [.write line (.ok ())], c)
    | .error e c => .error e (attempts ++ [.write line (.error e)], c)

section

variable {t : Terminal ε τ} {c c' : τ} {line : String} {e : ε}

theorem readLine_attempted_of_ok (attempts : List (Attempt ε))
    (h : t.readLine c = .ok line c') :
    t.attempted.readLine (attempts, c) = .ok line (attempts ++ [.read (.ok line)], c') := by
  simp only [attempted, h]

theorem readLine_attempted_of_error (attempts : List (Attempt ε))
    (h : t.readLine c = .error e c') :
    t.attempted.readLine (attempts, c) = .error e (attempts ++ [.read (.error e)], c') := by
  simp only [attempted, h]

theorem writeLine_attempted_of_ok (attempts : List (Attempt ε))
    (h : t.writeLine line c = .ok () c') :
    t.attempted.writeLine line (attempts, c) =
      .ok () (attempts ++ [.write line (.ok ())], c') := by
  simp only [attempted, h]

theorem writeLine_attempted_of_error (attempts : List (Attempt ε))
    (h : t.writeLine line c = .error e c') :
    t.attempted.writeLine line (attempts, c) =
      .error e (attempts ++ [.write line (.error e)], c') := by
  simp only [attempted, h]

end

/-- A terminal whose operations are reported to the host, who notes them in its state. -/
def reportedTo (note : String → σ → σ) (t : Terminal ε τ) : Terminal ε (σ × τ) :=
  t.beside.traced fun message => modify fun (s, c) => (note message s, c)

end Terminal

namespace Console

variable {note : String → σ → σ} {t : Terminal ε τ} {s : σ} {c c' : τ} {line : String} {e : ε}

/-! ## Reported operations -/

theorem readLine_reportedTo_of_ok (h : t.readLine c = .ok line c') :
    (t.reportedTo note).readLine (s, c) = .ok line (note (readReport line) s, c') :=
  bind_of_ok (onDevice_of_ok h)

theorem readLine_reportedTo_of_error (h : t.readLine c = .error e c') :
    (t.reportedTo note).readLine (s, c) = .error e (s, c') :=
  bind_of_error (onDevice_of_error h)

theorem writeLine_reportedTo_of_ok (h : t.writeLine line c = .ok () c') :
    (t.reportedTo note).writeLine line (s, c) = .ok () (note (writeReport line) s, c') :=
  onDevice_of_ok (s := note (writeReport line) s) h

theorem writeLine_reportedTo_of_error (h : t.writeLine line c = .error e c') :
    (t.reportedTo note).writeLine line (s, c) = .error e (note (writeReport line) s, c') :=
  onDevice_of_error (s := note (writeReport line) s) h

/-! ## Whole runs -/

/-- What the host's state is after it noted the reports of these attempts. -/
def noting (note : String → σ → σ) (attempts : List (Attempt ε)) (s : σ) : σ :=
  (attempts.filterMap Attempt.report?).foldl (fun s message => note message s) s

/-- **Tracing is transparent, and the trace is complete.** What a plain program does on a terminal
does not depend on the host, nor on whether its operations are reported; and the host is told of
each operation that a trace speaks of, in order. The induction is on the program; each operation
joins what was attempted before the rest of the run is looked at. -/
theorem Plain.runOn_traced {program : Console ε σ α} (hprogram : program.Plain)
    (note : String → σ → σ) (t : Terminal ε τ) (attempts : List (Attempt ε)) (c : τ) :
    ∃ outcome more c', ∀ s,
      outcomeOf (runOn t.attempted.beside program) (s, attempts, c) =
          (outcome, s, attempts ++ more, c') ∧
        outcomeOf (runOn (t.attempted.reportedTo note) program) (s, attempts, c) =
          (outcome, noting note more s, attempts ++ more, c') := by
  induction hprogram generalizing attempts c with
  | succeed a =>
    refine ⟨.ok a, [], c, fun s => ?_⟩
    rw [runOn_succeed, runOn_succeed, List.append_nil]
    exact ⟨rfl, rfl⟩
  | @write line next hnext ih =>
    cases h : t.writeLine line c with
    | ok u c' =>
      have hop := Terminal.writeLine_attempted_of_ok attempts h
      obtain ⟨outcome, more, c'', hrun⟩ := ih (attempts ++ [.write line (.ok ())]) c'
      refine ⟨outcome, .write line (.ok ()) :: more, c'', fun s => ?_⟩
      rw [outcomeOf_congr (runOn_write_of_ok hop),
        outcomeOf_congr (run_write_of_ok (writeLine_reportedTo_of_ok hop)),
        List.append_cons attempts _ more]
      exact ⟨(hrun s).1, (hrun (note (writeReport line) s)).2⟩
    | error e c' =>
      have hop := Terminal.writeLine_attempted_of_error attempts h
      refine ⟨.error e, [.write line (.error e)], c', fun s => ⟨?_, ?_⟩⟩
      · exact outcomeOf_eq_error.2 (runOn_write_of_error hop)
      · exact outcomeOf_eq_error.2 (run_write_of_error (writeLine_reportedTo_of_error hop))
  | @ask next hnext ih =>
    cases h : t.readLine c with
    | ok line c' =>
      have hop := Terminal.readLine_attempted_of_ok attempts h
      obtain ⟨outcome, more, c'', hrun⟩ := ih line (attempts ++ [.read (.ok line)]) c'
      refine ⟨outcome, .read (.ok line) :: more, c'', fun s => ?_⟩
      rw [outcomeOf_congr (runOn_ask_of_ok hop rfl),
        outcomeOf_congr (run_ask_of_ok (readLine_reportedTo_of_ok hop)), onHost_pure, pure_bind,
        List.append_cons attempts _ more]
      exact ⟨(hrun s).1, (hrun (note (readReport line) s)).2⟩
    | error e c' =>
      have hop := Terminal.readLine_attempted_of_error attempts h
      refine ⟨.error e, [.read (.error e)], c', fun s => ⟨?_, ?_⟩⟩
      · exact outcomeOf_eq_error.2 (runOn_ask_of_error hop)
      · exact outcomeOf_eq_error.2 (run_ask_of_error (readLine_reportedTo_of_error hop))

end Console

/-! ## Forgetting what was asked -/

/-- Seen through the view of its state, the first action does what the second does. -/
def Covers {ω ω' : Type} (view : ω → ω') (x : EStateM ε ω α) (y : EStateM ε ω' α) : Prop :=
  ∀ w, outcomeOf y (view w) = Prod.map id view (outcomeOf x w)

namespace Covers

variable {β ω ω' : Type} {view : ω → ω'} {x : EStateM ε ω α} {y : EStateM ε ω' α} {w w' : ω} {a : α}
  {e : ε}

theorem of_ok (h : Covers view x y) (hx : x w = .ok a w') : y (view w) = .ok a (view w') :=
  ok_of_outcomeOf_view (h w) hx

theorem of_error (h : Covers view x y) (hx : x w = .error e w') :
    y (view w) = .error e (view w') := error_of_outcomeOf_view (h w) hx

theorem pure (a : α) : Covers view (Pure.pure a : EStateM ε ω α) (Pure.pure a) := fun _ => rfl

/-- Sequencing from states that the view relates, after first actions that return. -/
theorem bind_at_ok {β' : Type} {b : β'} {z : EStateM ε ω' β'} {f : α → EStateM ε ω β}
    {g : β' → EStateM ε ω' β} (hx : x w = .ok a w') (hz : z (view w) = .ok b (view w'))
    (h : Covers view (f a) (g b)) :
    outcomeOf (z >>= g) (view w) = Prod.map id view (outcomeOf (x >>= f) w) := by
  rw [outcomeOf_congr (bind_of_ok hx), outcomeOf_congr (bind_of_ok hz)]
  exact h w'

/-- Sequencing from states that the view relates, after first actions that raise. -/
theorem bind_at_error {β' : Type} {z : EStateM ε ω' β'} {f : α → EStateM ε ω β}
    {g : β' → EStateM ε ω' β} (hx : x w = .error e w') (hz : z (view w) = .error e (view w')) :
    outcomeOf (z >>= g) (view w) = Prod.map id view (outcomeOf (x >>= f) w) := by
  rw [outcomeOf_eq_error.2 (bind_of_error hx), outcomeOf_eq_error.2 (bind_of_error hz)]
  rfl

theorem bind {f : α → EStateM ε ω β} {g : α → EStateM ε ω' β} (h : Covers view x y)
    (hf : ∀ a, Covers view (f a) (g a)) : Covers view (x >>= f) (y >>= g) := by
  intro w
  cases hx : x w with
  | ok a w' => exact bind_at_ok hx (h.of_ok hx) (hf a)
  | error e w' => exact bind_at_error hx (h.of_error hx)

end Covers

/-- Each operation of the first terminal covers the same operation of the second. -/
structure Terminal.Covers {ω ω' : Type} (view : ω → ω') (t : Terminal ε ω) (u : Terminal ε ω') :
    Prop where
  readLine : Teletype.Covers view t.readLine u.readLine
  writeLine : ∀ line, Teletype.Covers view (t.writeLine line) (u.writeLine line)

/-- The view that forgets what was asked of a terminal. -/
def forget (w : σ × List (Attempt ε) × τ) : σ × τ := (w.1, w.2.2)

theorem Terminal.attempted_covers (t : Terminal ε τ) :
    (t.attempted.beside : Terminal ε (σ × _)).Covers forget t.beside where
  readLine := by
    rintro ⟨s, attempts, c⟩
    cases h : t.readLine c <;> simp [forget, beside, attempted, onDevice, outcomeOf, h]
  writeLine line := by
    rintro ⟨s, attempts, c⟩
    cases h : t.writeLine line c <;> simp [forget, beside, attempted, onDevice, outcomeOf, h]

theorem Terminal.Covers.traced {ω ω' : Type} {view : ω → ω'} {t : Terminal ε ω}
    {u : Terminal ε ω'} (h : t.Covers view u) {report : String → EStateM ε ω Unit}
    {report' : String → EStateM ε ω' Unit}
    (hreport : ∀ message, Teletype.Covers view (report message) (report' message)) :
    (t.traced report).Covers view (u.traced report') where
  readLine := h.readLine.bind fun line => (hreport (readReport line)).bind fun _ => .pure line
  writeLine line := (hreport (writeReport line)).bind fun _ => h.writeLine line

/-- A plain program on a terminal covers itself on any terminal that is covered. -/
theorem Console.Plain.runOn_covers {τ' : Type} {view : σ × τ → σ × τ'} {t : Terminal ε (σ × τ)}
    {u : Terminal ε (σ × τ')} (h : t.Covers view u) {program : Console ε σ α}
    (hprogram : program.Plain) : Covers view (runOn t program) (runOn u program) := by
  induction hprogram with
  | succeed a =>
    rw [runOn_succeed, runOn_succeed]
    exact .pure a
  | @write line next hnext ih =>
    rw [runOn_write, runOn_write]
    exact (h.writeLine line).bind fun _ => ih
  | @ask next hnext ih =>
    simp only [runOn_ask, onHost_pure, pure_bind]
    exact h.readLine.bind ih

end Teletype
