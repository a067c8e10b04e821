import Teletype.Proofs.Command.Attempts

/-!
# The course of a command

What a command that runs a program comes to, said step by step: the settings are asked for debug
messages unless the arguments want them, the terminal is opened, the program is performed; the first
of these that raises ends the course (`Course`). The messages of the log are read off the course.
-/

namespace Teletype.Command

open Host Console
open Settings (Sources Store Access)

variable {V τ α : Type}

/-! ## The desk -/

/-- The desk with these lines behind what its error stream has. -/
def Desk.say (desk : Desk) (lines : List String) : Desk :=
  { desk with stderr := desk.stderr ++ lines }

theorem Desk.say_say (desk : Desk) (xs ys : List String) :
    (desk.say xs).say ys = desk.say (xs ++ ys) := by
  have hlines : desk.stderr ++ xs ++ ys = desk.stderr ++ (xs ++ ys) := by
    rw [← Array.toList_inj]
    simp only [Array.toList_appendList, List.append_assoc]
  simp only [say, hlines]

/-! ## The log -/

/-- The lines that a log makes of debug messages. -/
def Logger.debugLines (logger : Logger) (messages : List String) : List String :=
  if logger.verbose then messages.map (logger.line .debug) else []

theorem Logger.debugLines_append (logger : Logger) (xs ys : List String) :
    logger.debugLines (xs ++ ys) = logger.debugLines xs ++ logger.debugLines ys := by
  unfold debugLines
  split
  · exact List.map_append
  · rfl

theorem log_debug (logger : Logger) (message : String) (desk : Desk) (c : τ) :
    (logger.log printErr .debug message : Work V τ Unit) (desk, c) =
      .ok () (desk.say (logger.debugLines [message]), c) := by
  obtain ⟨verbose, color⟩ := logger
  cases verbose <;> rfl

/-- A verbose log is told of the operations of a terminal. -/
theorem tracedBy_eq (logger : Logger) (h : logger.verbose = true) (t : Terminal (Thrown V) τ) :
    tracedBy logger printErr t.beside =
      t.reportedTo fun message (desk : Desk) => desk.say [logger.line .debug message] := by
  obtain ⟨verbose, color⟩ := logger
  cases h
  rfl

theorem noting_say (logger : Logger) (attempts : List (Attempt (Thrown V))) (desk : Desk) :
    noting (fun message (desk : Desk) => desk.say [logger.line .debug message]) attempts desk =
      desk.say ((attempts.filterMap Attempt.report?).map (logger.line .debug)) := by
  rw [noting]
  induction attempts.filterMap Attempt.report? generalizing desk with
  | nil => rfl
  | cons message messages ih =>
    rw [List.foldl_cons, ih, Desk.say_say]
    rfl

/-! ## The steps of a course -/

/-- The log of a command, quiet or verbose. -/
def Setup.logger (setup : Setup V τ) (verbose : Bool) : Logger :=
  { verbose, color := setup.color?.getD setup.tty }

/-- Whether debug messages are wanted: the arguments say so, or else the settings are asked. -/
inductive Wanted (sources : Sources) : Bool → Store → Bool → Store → Prop
  | byArguments {store : Store} : Wanted sources true store true store
  | bySettings {store store' : Store} {debug : Bool} :
      Store.has sources "debug" store = .ok debug store' → Wanted sources false store debug store'

theorem Wanted.unique {sources : Sources} {verbose debug debug' : Bool} {store left left' : Store}
    (h : Wanted sources verbose store debug left) (h' : Wanted sources verbose store debug' left') :
    debug = debug' ∧ left = left' := by
  cases h with
  | byArguments =>
    cases h'
    exact ⟨rfl, rfl⟩
  | bySettings h =>
    obtain _ | h' := h'
    cases h.symm.trans h'
    exact ⟨rfl, rfl⟩

/-- The messages of a run: what is run, the operations that a trace speaks of, and that it is done
if it is. -/
def traceMessages (name : ProgramName) (attempts : List (Attempt (Thrown V))) (completed : Bool) :
    List String :=
  ("running " ++ name.text) ::
    (attempts.filterMap Attempt.report? ++ if completed then ["done"] else [])

/-- How a command that runs a program goes: how it ends, with which debug messages, after which
attempts on the terminal, and what it leaves of the store and of the terminal's state. -/
inductive Course (setup : Setup V τ) (verbose : Bool) (name : ProgramName) (store : Store) (c : τ) :
    Except (Thrown V) Unit → List String → List (Attempt (Thrown V)) → Store → τ → Prop
  /-- The settings cannot be read. -/
  | settings {f : Failure} {store' : Store} : verbose = false →
      Store.has setup.sources "debug" store = .error f store' →
      Course setup verbose name store c (.error (.failure f)) [] [] store' c
  /-- The terminal cannot be opened. -/
  | opening {debug : Bool} {store₁ store₂ : Store} {e : Thrown V} {c₁ : τ} :
      Wanted setup.sources verbose store debug store₁ →
      setup.connect setup.sources (store₁, c) = .error e (store₂, c₁) →
      Course setup verbose name store c (.error e) [] [] store₂ c₁
  /-- The program is performed, and returns or raises. -/
  | performed {debug : Bool} {store₁ store₂ : Store} {t : Terminal (Thrown V) τ} {c₁ c₂ : τ}
      {outcome : Except (Thrown V) Unit} {attempts : List (Attempt (Thrown V))} :
      Wanted setup.sources verbose store debug store₁ →
      setup.connect setup.sources (store₁, c) = .ok t (store₂, c₁) →
      (∀ desk, outcomeOf (name.perform t.attempted.beside) (desk, [], c₁) =
        (outcome, desk, attempts, c₂)) →
      Course setup verbose name store c outcome
        (if debug then traceMessages name attempts outcome.isOk else []) attempts store₂ c₂

/-- **A command has one course.** -/
theorem Course.unique {setup : Setup V τ} {verbose : Bool} {name : ProgramName}
    {store left left' : Store} {c c₁ c₁' : τ} {outcome outcome' : Except (Thrown V) Unit}
    {messages messages' : List String} {attempts attempts' : List (Attempt (Thrown V))}
    (h : Course setup verbose name store c outcome messages attempts left c₁)
    (h' : Course setup verbose name store c outcome' messages' attempts' left' c₁') :
    outcome = outcome' ∧ messages = messages' ∧ attempts = attempts' ∧ left = left' ∧
      c₁ = c₁' := by
  have hasks : ∀ {f : Failure} {debug : Bool} {store₁ store₂ : Store},
      Store.has setup.sources "debug" store = .error f store₁ →
        ¬ Wanted setup.sources false store debug store₂ := by
    rintro f debug store₁ store₂ herror (_ | hasked)
    cases hasked.symm.trans herror
  cases h with
  | settings hverbose herror =>
    subst hverbose
    cases h' with
    | settings _ herror' =>
      cases herror.symm.trans herror'
      exact ⟨rfl, rfl, rfl, rfl, rfl⟩
    | opening hwanted' | performed hwanted' => exact absurd hwanted' (hasks herror)
  | opening hwanted hopen =>
    cases h' with
    | settings hverbose herror' => exact absurd (hverbose ▸ hwanted) (hasks herror')
    | opening hwanted' hopen' =>
      obtain ⟨rfl, rfl⟩ := hwanted.unique hwanted'
      cases hopen.symm.trans hopen'
      exact ⟨rfl, rfl, rfl, rfl, rfl⟩
    | performed hwanted' hopen' =>
      obtain ⟨rfl, rfl⟩ := hwanted.unique hwanted'
      cases hopen.symm.trans hopen'
  | performed hwanted hopen hrun =>
    cases h' with
    | settings hverbose herror' => exact absurd (hverbose ▸ hwanted) (hasks herror')
    | opening hwanted' hopen' =>
      obtain ⟨rfl, rfl⟩ := hwanted.unique hwanted'
      cases hopen.symm.trans hopen'
    | performed hwanted' hopen' hrun' =>
      obtain ⟨rfl, rfl⟩ := hwanted.unique hwanted'
      cases hopen.symm.trans hopen'
      cases (hrun {}).symm.trans (hrun' {})
      exact ⟨rfl, rfl, rfl, rfl, rfl⟩

section

variable {setup : Setup V τ} {verbose debug : Bool} {desk : Desk} {store : Store} {c : τ}
  {f : Failure}

theorem asking_of_ok {access : Access α} {a : α} {store' : Store}
    (h : access store = .ok a store') : asking (V := V) access store = .ok a store' := by
  simp only [asking, h]

theorem asking_of_error {access : Access α} {store' : Store} (h : access store = .error f store') :
    asking (V := V) access store = .error (.failure f) store' := by
  simp only [asking, h]

theorem chooseLogger_of_wanted (h : Wanted setup.sources verbose desk.store debug store) :
    chooseLogger setup verbose (desk, c) = .ok (setup.logger debug) ({ desk with store }, c) := by
  cases h with
  | byArguments => rfl
  | bySettings h => exact bind_of_ok (onStore_of_ok (onHost_of_ok (asking_of_ok h)))

theorem chooseLogger_of_error (h : Store.has setup.sources "debug" desk.store = .error f store) :
    chooseLogger setup false (desk, c) = .error (.failure f) ({ desk with store }, c) :=
  bind_of_error (onStore_of_error (onHost_of_error (asking_of_error h)))

end

/-- The debug messages, the program between them: it does what it does by itself, and a verbose log
has the messages of the run. -/
theorem outcomeOf_performed (logger : Logger) (name : ProgramName) (t : Terminal (Thrown V) τ)
    (c : τ) : ∃ outcome attempts c',
      (∀ desk, outcomeOf (name.perform t.attempted.beside) (desk, [], c) =
        (outcome, desk, attempts, c')) ∧
      ∀ desk, outcomeOf (do
          logger.log printErr .debug ("running " ++ name.text)
          name.perform (if logger.verbose then tracedBy logger printErr t.attempted.beside
            else t.attempted.beside)
          logger.log printErr .debug "done") (desk, [], c) =
        (outcome, desk.say (logger.debugLines (traceMessages name attempts outcome.isOk)),
          attempts, c') := by
  obtain ⟨program, hplain, hperform⟩ :=
    name.exists_plain (V := V)
  obtain ⟨outcome, attempts, c', hrun⟩ := hplain.runOn_traced
    (fun message (desk : Desk) => desk.say [logger.line .debug message]) t [] c
  have hprogram : ∀ desk, outcomeOf (runOn (if logger.verbose then
        tracedBy logger printErr t.attempted.beside else t.attempted.beside) program)
      (desk, [], c) =
        (outcome, desk.say (logger.debugLines (attempts.filterMap Attempt.report?)),
          attempts, c') := fun desk => by
    cases hverbose : logger.verbose with
    | false =>
      simp only [Logger.debugLines, hverbose, Bool.false_eq_true, if_false]
      exact (hrun desk).1
    | true =>
      simp only [Logger.debugLines, hverbose, if_true, tracedBy_eq logger hverbose, ← noting_say]
      exact (hrun desk).2
  simp only [hperform]
  refine ⟨outcome, attempts, c', fun desk => (hrun desk).1, fun desk => ?_⟩
  have hbegun := hprogram (desk.say (logger.debugLines ["running " ++ name.text]))
  rw [outcomeOf_congr (bind_of_ok (log_debug logger _ desk ([], c)))]
  cases outcome with
  | error e =>
    rw [outcomeOf_eq_error.2 (bind_of_error (outcomeOf_eq_error.1 hbegun)), Desk.say_say,
      ← logger.debugLines_append]
    simp only [traceMessages, Except.isOk, Except.toBool, Bool.false_eq_true, if_false,
      List.append_nil, List.singleton_append]
  | ok u =>
    rw [outcomeOf_congr (bind_of_ok (outcomeOf_eq_ok.1 hbegun)),
      outcomeOf_eq_ok.2 (log_debug logger "done" _ (attempts, c')), Desk.say_say, Desk.say_say,
      ← logger.debugLines_append, ← logger.debugLines_append]
    simp only [traceMessages, Except.isOk, Except.toBool, if_true, List.cons_append,
      List.nil_append]

/-- Either it becomes known whether debug messages are wanted, or the settings cannot be read. -/
theorem wanted_or_error (sources : Sources) (verbose : Bool) (store : Store) :
    (∃ debug store', Wanted sources verbose store debug store') ∨
      verbose = false ∧ ∃ f store', Store.has sources "debug" store = .error f store' := by
  cases verbose with
  | true => exact .inl ⟨true, store, .byArguments⟩
  | false =>
    cases h : Store.has sources "debug" store with
    | ok debug store' => exact .inl ⟨debug, store', .bySettings h⟩
    | error f store' => exact .inr ⟨rfl, f, store', rfl⟩

/-- **Each attempt follows its course.** From any desk, with nothing yet asked of the terminal, the
attempt ends as the course does and leaves what it leaves; the error stream has the messages of the
course, and nothing else. -/
theorem attemptProgram_course (setup : Setup V τ) (verbose : Bool) (name : ProgramName)
    (desk : Desk) (c : τ) : ∃ outcome messages attempts store c',
      Course setup verbose name desk.store c outcome messages attempts store c' ∧
      outcomeOf (attemptProgram setup.attempted verbose name) (desk, [], c) =
        (outcome, Desk.say { desk with store }
          (messages.map ((setup.logger true).line .debug)), attempts, c') := by
  rcases wanted_or_error setup.sources verbose desk.store with
    ⟨debug, store₁, hwanted⟩ | ⟨rfl, f, store', hsettings⟩
  · have hlogger : chooseLogger setup.attempted verbose (desk, [], c) =
        .ok (setup.logger debug) ({ desk with store := store₁ }, [], c) :=
      chooseLogger_of_wanted hwanted
    cases hopen : setup.connect setup.sources (store₁, c) with
    | error e left =>
      obtain ⟨store₂, c₁⟩ := left
      refine ⟨.error e, [], [], store₂, c₁, .opening hwanted hopen, outcomeOf_eq_error.2 ?_⟩
      exact (bind_of_ok hlogger).trans (bind_of_error (connect_attempted_of_error hopen))
    | ok t left =>
      obtain ⟨store₂, c₁⟩ := left
      obtain ⟨outcome, attempts, c', hrun, hlogged⟩ :=
        outcomeOf_performed (setup.logger debug) name t c₁
      refine ⟨outcome, _, attempts, store₂, c', .performed hwanted hopen hrun, ?_⟩
      have hlines : (if debug then traceMessages name attempts outcome.isOk else []).map
            ((setup.logger true).line .debug) =
          (setup.logger debug).debugLines (traceMessages name attempts outcome.isOk) := by
        cases debug <;> rfl
      rw [hlines, ← hlogged]
      exact outcomeOf_congr
        ((bind_of_ok hlogger).trans (bind_of_ok (connect_attempted_of_ok hopen)))
  · have hraised : chooseLogger setup.attempted false (desk, [], c) =
        .error (.failure f) ({ desk with store := store' }, [], c) :=
      chooseLogger_of_error hsettings
    exact ⟨_, [], [], store', c, .settings rfl hsettings,
      outcomeOf_eq_error.2 (bind_of_error hraised)⟩

/-! ## Reports -/

/-- What a command makes of the end of a course: with which exit code it ends, or what it raises,
which lines it puts on the error stream, and how it leaves the terminal. -/
inductive Reported [HasText V τ] (setup : Setup V τ) : Except (Thrown V) Unit → τ →
    Except (Thrown V) ExitCode → List String → τ → Prop
  /-- There is nothing to report. -/
  | returned {c : τ} : Reported setup (.ok ()) c (.ok .success) [] c
  /-- What was raised is put into words, and reported in one line. -/
  | told {e : Thrown V} {f : Failure} {c c' : τ} : e.toFailure c = .ok f c' →
      Reported setup (.error e) c (.ok .failure) [(setup.logger false).line .error f.message] c'
  /-- What was raised cannot be put into words, and what that raises goes on. -/
  | untold {e e' : Thrown V} {c c' : τ} : e.toFailure c = .error e' c' →
      Reported setup (.error e) c (.error e') [] c'

section

variable [HasText V τ] {setup : Setup V τ}

theorem exists_reported (setup : Setup V τ) (outcome : Except (Thrown V) Unit) (c : τ) :
    ∃ result errors c', Reported setup outcome c result errors c' := by
  cases outcome with
  | ok u => exact ⟨_, _, _, .returned⟩
  | error e =>
    cases h : (e.toFailure : EStateM (Thrown V) τ Failure) c with
    | ok f c' => exact ⟨_, _, _, .told h⟩
    | error e' c' => exact ⟨_, _, _, .untold h⟩

theorem Reported.unique {outcome : Except (Thrown V) Unit} {errors errors' : List String}
    {result result' : Except (Thrown V) ExitCode} {c c₁ c₂ : τ}
    (h : Reported setup outcome c result errors c₁)
    (h' : Reported setup outcome c result' errors' c₂) :
    result = result' ∧ errors = errors' ∧ c₁ = c₂ := by
  cases h with
  | returned =>
    cases h'
    exact ⟨rfl, rfl, rfl⟩
  | told htold =>
    cases h' with
    | told htold' =>
      cases htold.symm.trans htold'
      exact ⟨rfl, rfl, rfl⟩
    | untold huntold => cases htold.symm.trans huntold
  | untold huntold =>
    cases h' with
    | told htold => cases huntold.symm.trans htold
    | untold huntold' =>
      cases huntold.symm.trans huntold'
      exact ⟨rfl, rfl, rfl⟩

/-- A command that raises could not put a bare value into words. -/
theorem Reported.exists_of_error {outcome : Except (Thrown V) Unit} {e : Thrown V}
    {errors : List String} {c c' : τ} (h : Reported setup outcome c (.error e) errors c') :
    ∃ v, outcome = .error (.value v) ∧ HasText.text v c = .error e c' := by
  cases h with
  | @untold raised _ _ _ h =>
    cases raised with
    | failure f => cases h
    | value v =>
      refine ⟨v, rfl, ?_⟩
      cases htext : HasText.text v c with
      | ok text c₁ =>
        rw [Thrown.toFailure, map_of_ok htext] at h
        cases h
      | error e' c₁ =>
        rw [Thrown.toFailure, map_of_error htext] at h
        cases h
        rfl

/-- A command is done exactly if there was nothing to report. -/
theorem Reported.isOk_eq {outcome : Except (Thrown V) Unit} {errors : List String}
    {result : Except (Thrown V) ExitCode} {c c' : τ}
    (h : Reported setup outcome c result errors c') :
    outcome.isOk = decide (result.toOption = some .success) := by
  cases h <;> rfl

/-- **A program that is run follows its course**, and what the course raised is reported behind the
messages of the course. -/
theorem runProgram_course (setup : Setup V τ) (verbose : Bool) (name : ProgramName)
    (desk : Desk) (c : τ) : ∃ outcome messages attempts store c₁ result errors c',
      Course setup verbose name desk.store c outcome messages attempts store c₁ ∧
      Reported setup outcome c₁ result errors c' ∧
      outcomeOf (runProgram setup.attempted verbose name) (desk, [], c) =
        (result, Desk.say { desk with store }
          (messages.map ((setup.logger true).line .debug) ++ errors), attempts, c') := by
  obtain ⟨outcome, messages, attempts, store, c₁, hcourse, hattempt⟩ :=
    attemptProgram_course setup verbose name desk c
  obtain ⟨result, errors, c', hreported⟩ := exists_reported setup outcome c₁
  refine ⟨outcome, messages, attempts, store, c₁, result, errors, c', hcourse, hreported, ?_⟩
  cases hreported with
  | returned =>
    refine outcomeOf_eq_ok.2 ?_
    simp only [runProgram, outcomeOf_eq_ok.1 hattempt, List.append_nil]
  | told htold =>
    refine outcomeOf_eq_ok.2 ?_
    simp only [runProgram, outcomeOf_eq_error.1 hattempt, reportRaised, toFailure_attempted]
    rw [bind_of_ok (onDevice_of_ok (onDevice_of_ok htold)), ← Desk.say_say]
    rfl
  | untold huntold =>
    refine outcomeOf_eq_error.2 ?_
    simp only [runProgram, outcomeOf_eq_error.1 hattempt, reportRaised, toFailure_attempted,
      List.append_nil]
    exact bind_of_error (onDevice_of_error (onDevice_of_error huntold))

end

/-! ## What the arguments ask for -/

section

variable [HasText V τ] {setup : Setup V τ} {args : List String} {options : Options}

theorem runCommand_of_rejected {r : Rejection} (h : parseArguments args = .error r) (desk : Desk)
    (c : τ) : runCommand setup args (desk, c) =
      .ok .usage (desk.say [Logger.line { verbose := false, color := setup.color?.getD false }
        .error r.message, usageHint], c) := by
  rw [runCommand, h]
  rfl

theorem runCommand_of_help (h : parseArguments args = .ok options) (hhelp : options.help = true)
    (desk : Desk) (c : τ) : runCommand setup args (desk, c) =
      .ok .success ({ desk with stdout := desk.stdout.push helpText }, c) := by
  rw [runCommand, h]
  simp only [hhelp]
  rfl

theorem runCommand_of_program {name : ProgramName} (h : parseArguments args = .ok options)
    (hhelp : options.help = false) (hprogram : options.program? = some name) :
    runCommand setup args = runProgram setup options.verbose name := by
  rw [runCommand, h]
  simp only [hhelp, hprogram]

end

end Teletype.Command
