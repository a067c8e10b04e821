import Mathlib.Data.List.Basic
import Teletype.Proofs.Command.Course
import Teletype.Proofs.Text.Quotation
import Teletype.Terminal.Journal

/-!
# A trace says what was done, and nothing else

Every operation of a traced terminal is one entry of the log: its kind, and its line between quotes.
The lines come from outside, and may hold anything that can be written to a log, entries included.
Since they are quoted they end no entry and begin none, and from the entries the operations can be
told.
-/

namespace Teletype

variable {ε V τ : Type}

/-- What a trace says of an operation. -/
def Operation.report : Operation → String
  | .read line => readReport line
  | .write line => writeReport line

theorem Operation.report_injective : Function.Injective Operation.report := by
  intro x y h
  cases x with
  | read line =>
    cases y with
    | read line' => exact congrArg read (Text.quoted_injective (String.append_right_inj _ |>.1 h))
    | write line' => simp [report, readReport, writeReport, String.ext_iff] at h
  | write line =>
    cases y with
    | read line' => simp [report, readReport, writeReport, String.ext_iff] at h
    | write line' => exact congrArg write (Text.quoted_injective (String.append_right_inj _ |>.1 h))

namespace Attempt

/-- What was asked for. -/
def request : Attempt ε → Request
  | read _ => .read
  | write line _ => .write line

/-- What the terminal answered. -/
def answer : Attempt ε → Except ε (Option String)
  | read outcome => outcome.map some
  | write _ outcome => outcome.map fun () => none

/-- The operation that a trace speaks of: a read that succeeded, or a write. -/
def operation? : Attempt ε → Option Operation
  | read (.ok line) => some (.read line)
  | read (.error _) => none
  | write line _ => some (.write line)

end Attempt

namespace Command

open Host

/-- The entry of an operation in the log. -/
def Logger.entry (logger : Logger) (operation : Operation) : String :=
  logger.line .debug operation.report

theorem Logger.entry_injective (logger : Logger) : Function.Injective logger.entry := by
  intro x y h
  exact Operation.report_injective (String.append_right_inj _ |>.1 h)

/-- In front of the quotation stand the sign of the log and the kind of the operation. -/
theorem Logger.entry_eq (logger : Logger) (line : String) :
    logger.entry (.read line) = logger.line .debug "read: " ++ Text.quoted line ∧
      logger.entry (.write line) = logger.line .debug "write: " ++ Text.quoted line := by
  simp only [entry, Logger.line, Operation.report, readReport, writeReport, String.append_assoc,
    and_self]

theorem Desk.say_nil (desk : Desk) : desk.say [] = desk := by
  simp [say]

/-- The entries of what was attempted. -/
def Logger.entries (logger : Logger) (attempts : List (Attempt ε)) : List String :=
  (attempts.filterMap Attempt.operation?).map logger.entry

/-- One request, one attempt, and its entry. -/
theorem perform_traced {logger : Logger} (hverbose : logger.verbose = true)
    (t : Terminal (Thrown V) τ) (request : Request) (desk : Desk)
    (attempts : List (Attempt (Thrown V))) (c : τ) :
    ∃ attempt c', attempt.request = request ∧
      outcomeOf (request.perform (tracedBy logger printErr t.attempted.beside))
          (desk, attempts, c) =
        (attempt.answer, desk.say (logger.entries [attempt]), attempts ++ [attempt], c') := by
  rw [tracedBy_eq logger hverbose]
  cases request with
  | read =>
    cases h : t.readLine c with
    | ok line c' =>
      have hop := Terminal.readLine_attempted_of_ok attempts h
      exact ⟨.read (.ok line), c', rfl,
        outcomeOf_eq_ok.2 (map_of_ok (Console.readLine_reportedTo_of_ok hop))⟩
    | error e c' =>
      have hop := Terminal.readLine_attempted_of_error attempts h
      refine ⟨.read (.error e), c', rfl, ?_⟩
      have hnone : logger.entries [(.read (.error e) : Attempt (Thrown V))] = [] := rfl
      rw [hnone, desk.say_nil]
      exact outcomeOf_eq_error.2 (map_of_error (Console.readLine_reportedTo_of_error hop))
  | write line =>
    cases h : t.writeLine line c with
    | ok u c' =>
      have hop := Terminal.writeLine_attempted_of_ok attempts h
      exact ⟨.write line (.ok ()), c', rfl,
        outcomeOf_eq_ok.2 (map_of_ok (Console.writeLine_reportedTo_of_ok hop))⟩
    | error e c' =>
      have hop := Terminal.writeLine_attempted_of_error attempts h
      exact ⟨.write line (.error e), c', rfl,
        outcomeOf_eq_error.2 (map_of_error (Console.writeLine_reportedTo_of_error hop))⟩

theorem Logger.entries_cons (logger : Logger) (attempt : Attempt ε) (more : List (Attempt ε)) :
    logger.entries (attempt :: more) = logger.entries [attempt] ++ logger.entries more := by
  rw [entries, entries, entries, ← List.map_append, ← List.filterMap_append, List.singleton_append]

/-- Requests in a row: one attempt for each, and the entries in their order. -/
theorem inTurn_traced {logger : Logger} (hverbose : logger.verbose = true)
    (t : Terminal (Thrown V) τ) (requests : List Request) (desk : Desk)
    (attempts : List (Attempt (Thrown V))) (c : τ) :
    ∃ more c', more.map Attempt.request = requests ∧
      inTurn (fun request =>
          outcomeOf (request.perform (tracedBy logger printErr t.attempted.beside)))
          requests (desk, attempts, c) =
        (more.map Attempt.answer, desk.say (logger.entries more), attempts ++ more, c') := by
  induction requests generalizing desk attempts c with
  | nil =>
    refine ⟨[], c, rfl, ?_⟩
    have hnone : logger.entries ([] : List (Attempt (Thrown V))) = [] := rfl
    rw [hnone, desk.say_nil, List.append_nil]
    rfl
  | cons request requests ih =>
    obtain ⟨attempt, c₁, hrequest, hfirst⟩ := perform_traced hverbose t request desk attempts c
    obtain ⟨more, c₂, hrequests, hrest⟩ :=
      ih (desk.say (logger.entries [attempt])) (attempts ++ [attempt]) c₁
    refine ⟨attempt :: more, c₂, by rw [List.map_cons, hrequest, hrequests], ?_⟩
    rw [inTurn, hfirst]
    simp only [hrest]
    rw [Desk.say_say, ← logger.entries_cons, ← List.append_cons, List.map_cons]

/-- **A trace cannot be forged.** Whatever is asked of a traced terminal, and whatever lines come
and go, the log gets one entry for each write, and for each read that got a line, in order. An entry
is its kind and the quoted line, in which no character lies below the space; and different sequences
of operations have different lists of entries. -/
theorem trace_unforgeable (color : Bool) (t : Terminal (Thrown V) τ) (requests : List Request)
    (desk : Desk) (c : τ) :
    let logger : Logger := { verbose := true, color }
    ∃ attempts c', attempts.map Attempt.request = requests ∧
      inTurn (fun request =>
          outcomeOf (request.perform (tracedBy logger printErr t.attempted.beside)))
          requests (desk, [], c) =
        (attempts.map Attempt.answer,
          desk.say ((attempts.filterMap Attempt.operation?).map logger.entry), attempts, c') ∧
      (∀ line, logger.entry (.read line) = logger.line .debug "read: " ++ Text.quoted line ∧
        logger.entry (.write line) = logger.line .debug "write: " ++ Text.quoted line ∧
        ∀ ch ∈ (Text.quoted line).toList, 0x20 ≤ ch.toNat) ∧
      Function.Injective (List.map logger.entry) := by
  intro logger
  have hverbose : logger.verbose = true := rfl
  obtain ⟨attempts, c', hrequests, hrun⟩ := inTurn_traced hverbose t requests desk [] c
  refine ⟨attempts, c', hrequests, hrun, fun line => ?_, ?_⟩
  · obtain ⟨hread, hwrite⟩ := logger.entry_eq line
    exact ⟨hread, hwrite, fun ch hch => Text.le_of_mem_quoted hch⟩
  · exact List.map_injective_iff.2 logger.entry_injective

example : Logger.entry { verbose := true, color := false } (.read "a\"\n\x1b") =
    "· read: \"a\\\"\\n\\u001b\"" := by decide

end Command

end Teletype
