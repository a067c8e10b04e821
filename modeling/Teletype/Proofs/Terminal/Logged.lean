import Teletype.Proofs.Terminal.Hoisting
import Teletype.Proofs.Terminal.Stepping

/-!
# Runs that are logged

On a logged terminal the host's log holds what the callbacks noted and what the terminal did, in the
order in which it was done. Where the callbacks only add to the log, so does the run: whatever it
comes to, the log so far is where the final log begins.
-/

namespace Teletype

open Host

variable {ε σ τ τ' η α : Type}

/-! ## The lines in a log -/

namespace Entry

/-- The line, if the entry is a read. -/
def readLine? : Entry η → Option String
  | operation (.read line) => some line
  | _ => none

/-- The line, if the entry is a write. -/
def writtenLine? : Entry η → Option String
  | operation (.write line) => some line
  | _ => none

@[simp] theorem readLine?_read (line : String) :
    (operation (.read line) : Entry η).readLine? = some line := rfl

@[simp] theorem readLine?_write (line : String) :
    (operation (.write line) : Entry η).readLine? = none := rfl

@[simp] theorem readLine?_event (e : η) : (event e).readLine? = none := rfl

@[simp] theorem writtenLine?_write (line : String) :
    (operation (.write line) : Entry η).writtenLine? = some line := rfl

@[simp] theorem writtenLine?_read (line : String) :
    (operation (.read line) : Entry η).writtenLine? = none := rfl

@[simp] theorem writtenLine?_event (e : η) : (event e).writtenLine? = none := rfl

end Entry

namespace Console

/-! ## The log of a run -/

section

variable {t : Terminal ε τ} {s : σ} {log : List (Entry η)} {c c' : τ} {line : String}
  {program : Console ε (σ × List (Entry η)) α}
  {reply : String → Host ε (σ × List (Entry η)) (Console ε (σ × List (Entry η)) α)}

/-- The log that a logged run leaves. -/
def logOf (outcome : Except ε α × (σ × List (Entry η)) × τ) : List (Entry η) := outcome.2.1.2

theorem prefix_logOf_onHost {action : Host ε (σ × List (Entry η)) α}
    (h : Host.Appends action) (s : σ) (log : List (Entry η)) (c : τ) :
    log <+: logOf (outcomeOf (onHost action) ((s, log), c)) := by
  cases haction : action (s, log) with
  | ok a w =>
    obtain ⟨s', events, rfl⟩ := h.of_ok haction
    rw [outcomeOf_eq_ok.2 (onHost_of_ok haction)]
    exact List.prefix_append log _
  | error e w =>
    obtain ⟨s', events, rfl⟩ := h.of_error haction
    rw [outcomeOf_eq_error.2 (onHost_of_error haction)]
    exact List.prefix_append log _

/-- What is noted while an answer is given, and behind it, stands behind the log so far. -/
theorem prefix_logOf_reply (hreply : Host.Appends (reply line))
    (hprogram : ∀ w program w', reply line w = .ok program w' → ∀ s log c,
      log <+: logOf (outcomeOf (runOn t.logged program) ((s, log), c)))
    (s : σ) (log : List (Entry η)) (c : τ) :
    log <+: logOf (outcomeOf (onHost (reply line) >>= runOn t.logged) ((s, log), c)) := by
  cases h : reply line (s, log) with
  | error e w =>
    have hlog := prefix_logOf_onHost hreply s log c
    rw [outcomeOf_eq_error.2 (onHost_of_error h)] at hlog
    rw [outcomeOf_eq_error.2 (bind_of_error (onHost_of_error h))]
    exact hlog
  | ok program w =>
    obtain ⟨s', events, rfl⟩ := hreply.of_ok h
    rw [outcomeOf_congr (bind_of_ok (onHost_of_ok h))]
    exact (List.prefix_append log _).trans (hprogram _ program _ h s' _ c)

/-- **A logged run adds to the log**, whatever it comes to. -/
theorem Appends.prefix_logOf (hprogram : program.Appends) (t : Terminal ε τ) (s : σ)
    (log : List (Entry η)) (c : τ) :
    log <+: logOf (outcomeOf (runOn t.logged program) ((s, log), c)) := by
  induction hprogram generalizing s log c with
  | @done value hvalue =>
    have hrun : runOn t.logged (.done value) = onHost value := runOn_sync _ value
    rw [hrun]
    exact prefix_logOf_onHost hvalue s log c
  | @write line next _ ih =>
    cases h : t.writeLine line c with
    | ok u c' =>
      rw [outcomeOf_congr (runOn_logged_write_of_ok h)]
      exact (List.prefix_append log _).trans (ih s _ c')
    | error e c' =>
      rw [outcomeOf_eq_error.2 (run_write_of_error (writeLine_logged_of_error h))]
      exact List.prefix_refl log
  | @read next hreply _ ih =>
    cases h : t.readLine c with
    | ok line c' =>
      rw [← ask, outcomeOf_congr (run_ask_of_ok (readLine_logged_of_ok h))]
      exact (List.prefix_append log _).trans (prefix_logOf_reply (hreply line) (ih line) s _ c')
    | error e c' =>
      rw [← ask, outcomeOf_eq_error.2 (run_ask_of_error (readLine_logged_of_error h))]
      exact List.prefix_refl log

/-- A write that succeeds is what the log goes on with. -/
theorem Appends.prefix_logOf_write (hprogram : program.Appends)
    (h : t.writeLine line c = .ok () c') :
    log ++ [.operation (.write line)] <+:
      logOf (outcomeOf (runOn t.logged (.write line program)) ((s, log), c)) := by
  rw [outcomeOf_congr (runOn_logged_write_of_ok h)]
  exact hprogram.prefix_logOf t s _ c'

/-- A read that succeeds is what the log goes on with. -/
theorem Appends.prefix_logOf_read (hprogram : Appends (.read reply))
    (h : t.readLine c = .ok line c') :
    log ++ [.operation (.read line)] <+:
      logOf (outcomeOf (runOn t.logged (.read reply)) ((s, log), c)) := by
  rw [← ask, outcomeOf_congr (run_ask_of_ok (readLine_logged_of_ok h))]
  cases hprogram with
  | read hreply hbehind =>
    exact prefix_logOf_reply (hreply line)
      (fun w program w' hok => (hbehind line w program w' hok).prefix_logOf t) s _ c'

end

/-! ## Along the turns -/

section

variable {t : Terminal ε ((σ × List (Entry η)) × τ)} {x y : Position ε (σ × List (Entry η)) τ α}

/-- Behind a node stand programs whose callbacks only add to the log, like its own. -/
theorem Turn.appends (h : Turn t x y) (hx : x.1.Appends) : y.1.Appends := by
  cases h with
  | write _ =>
    cases hx with
    | write hnext => exact hnext
  | read _ hreply =>
    cases hx with
    | read _ hbehind => exact hbehind _ _ _ _ hreply

theorem Reaches.appends (h : Reaches t x y) (hx : x.1.Appends) : y.1.Appends := by
  induction h with
  | refl => exact hx
  | tail _ hturn ih => exact hturn.appends ih

end

end Console

end Teletype
