import Teletype.Proofs.Command.Course
import Teletype.Proofs.Settings.History
import Teletype.Terminal.Journal
import Teletype.Terminal.Scripted

/-!
# Quiet and verbose

A command can be told to trace what it does. A verbose run does to the terminal what the quiet run
does, ends with the same code and reports the same failure; it only says more on the error stream.
The two differ in when they read the settings: a quiet run asks them for debug messages, a verbose
run does not, and leaves it to the opening of the terminal to read them if that needs them. So the
argument has two halves: opening does not depend on whether the settings were read before
(`Offered.opens`), and then both have a course on the same terminal, on which what is done does not
depend on the log (`Course.unique`).
-/

namespace Teletype.Command

open Host
open Settings (Sources Store Access)

variable {V τ : Type}

/-- The connections that a command is offered: a terminal that is given, or the descriptor. -/
inductive Connection.Offered : {τ : Type} → Connection V τ → Prop
  | given {τ : Type} (t : Terminal (Thrown V) τ) : Offered (.given t)
  | descriptor : Offered .descriptor

/-! ## Opening -/

section

variable {sources : Sources} {store loaded : Store} {path : String}

theorem load_of_has {b : Bool} (h : Store.has sources path store = .ok b loaded) :
    Store.load sources store = .ok () loaded := by
  cases hload : Store.load sources store with
  | error f left =>
    have hraised : Store.has sources path store = .error f left :=
      bind_of_error (bind_of_error (bind_of_error hload))
    rw [hraised] at h
    cases h
  | ok u left =>
    cases (map_of_ok (f := Datum.isTruthy) (Settings.get_of_load hload)).symm.trans h
    rfl

/-- How lines are read, as these settings say. -/
def lineOptions (values : Fields) : LineOptions where
  trimCarriageReturn :=
    trimSetting (Settings.lookUp (.ofText "terminal.trimCarriageReturn") (.record values))
  endOfInput := endSetting (Settings.lookUp (.ofText "terminal.endOfInput") (.record values))

theorem resolve_of_load (h : Store.load sources store = .ok () loaded) :
    ({} : LineRequest).resolve sources store = .ok (lineOptions loaded.values) loaded :=
  (bind_of_ok (map_of_ok (Settings.get_of_load h))).trans
    (bind_of_ok (map_of_ok (Settings.get_of_load (Settings.load_again h))))

theorem descriptor_of_load (h : Store.load sources store = .ok () loaded) (c : Device) :
    (Connection.descriptor : Connection V Device) sources (store, c) =
      .ok (Device.terminal (lineOptions loaded.values)) (loaded, c.reopen) :=
  bind_of_ok (onHost_of_ok (asking_of_ok (resolve_of_load h)))

/-- **Opening a terminal does not depend on whether the settings were read before**, if they can be
read. -/
theorem Connection.Offered.opens {connect : Connection V τ} (hconnect : connect.Offered)
    (h : Store.load sources store = .ok () loaded) (c : τ) : ∃ t c' left,
      connect sources (store, c) = .ok t (left, c') ∧ (left = store ∨ left = loaded) ∧
        connect sources (loaded, c) = .ok t (loaded, c') := by
  cases hconnect with
  | given t => exact ⟨t, c, store, rfl, .inl rfl, rfl⟩
  | descriptor =>
    exact ⟨_, c.reopen, loaded, descriptor_of_load h c, .inr rfl,
      descriptor_of_load (Settings.load_again h) c⟩

end

/-! ## Both runs -/

theorem parseArguments_name (name : ProgramName) :
    parseArguments [name.text] = .ok { program? := some name } := by
  cases name <;> rfl

theorem parseArguments_verbose (name : ProgramName) :
    parseArguments [name.text, "--verbose"] = .ok { program? := some name, verbose := true } := by
  cases name <;> rfl

/-- **A verbose run is the quiet run and its trace.** Let the settings be readable, and let them not
ask for debug messages. Then the quiet run and the verbose run of a program end with the same code,
after the same attempts on the terminal with the same outcomes, and leave the terminal alike. What
the quiet run has on the error stream, the verbose run has behind its trace: what is run, each read
that succeeded and each write in the order of the attempts, and that it is done exactly if the code
says so. Where a bare value cannot be put into words, there is no code, and both raise the same. -/
theorem runCommand_verbose [HasText V τ] {setup : Setup V τ} (hconnect : setup.connect.Offered)
    (name : ProgramName) {desk : Desk} {store : Store}
    (hquiet : Store.has setup.sources "debug" desk.store = .ok false store) (c : τ) :
    ∃ result attempts c' errors store',
      Ends setup [name.text] desk c result (Desk.say { desk with store } errors) attempts c' ∧
      Ends setup [name.text, "--verbose"] desk c result
        (Desk.say { desk with store := store' }
          ((traceMessages name attempts (decide (result.toOption = some .success))).map
            ((setup.logger true).line .debug) ++ errors)) attempts c' ∧
      (store' = desk.store ∨ store' = store) ∧
      ∀ e, result = .error e →
        ∃ (v : V) (c₁ : τ), HasText.text v c₁ = .error e c' := by
  obtain ⟨t, c₁, left, hopen, hleft, hopen'⟩ := hconnect.opens (load_of_has hquiet) c
  obtain ⟨outcome, attempts, c₂, hperformed, -⟩ :=
    outcomeOf_performed (setup.logger true) name t c₁
  obtain ⟨_, _, _, _, _, result, errors, c', hcourse, hreported, hrun⟩ :=
    runProgram_course setup false name desk c
  obtain ⟨_, _, _, _, _, result', errors', c'', hcourse', hreported', hrun'⟩ :=
    runProgram_course setup true name desk c
  -- both courses perform the program on the same terminal in the same state
  obtain ⟨rfl, rfl, rfl, rfl, rfl⟩ :=
    (Course.performed (Wanted.bySettings hquiet) hopen' hperformed).unique hcourse
  obtain ⟨rfl, rfl, rfl, rfl, rfl⟩ :=
    (Course.performed Wanted.byArguments hopen hperformed).unique hcourse'
  obtain ⟨rfl, rfl, rfl⟩ := hreported.unique hreported'
  refine ⟨result, attempts, c', errors, left, ends_of_attempted ?_, ends_of_attempted ?_, hleft, ?_⟩
  · exact (outcomeOf_congr
      (congrFun (runCommand_of_program (parseArguments_name name) rfl rfl) _)).trans hrun
  · rw [← hreported.isOk_eq]
    exact (outcomeOf_congr
      (congrFun (runCommand_of_program (parseArguments_verbose name) rfl rfl) _)).trans hrun'
  · rintro e rfl
    obtain ⟨v, -, htext⟩ := hreported.exists_of_error
    exact ⟨v, c₂, htext⟩

/-- The second write of the greeting fails. -/
theorem runCommand_verbose_failing_write :
    let setup : Setup Empty (Counted Script) :=
      { connect := .given (Script.terminal.faulty { write? := some 2 })
        sources := { search := fun _ => .ok none, environment := [] } }
    let script : Counted Script := ⟨⟨["Ada"], #[]⟩, 0, 0⟩
    let left : Counted Script := ⟨⟨[], #["What is your name?"]⟩, 1, 2⟩
    ∃ store attempts, Store.has setup.sources "debug" {} = .ok false store ∧
      Ends setup ["hello"] {} script (.ok .failure)
        { store, stderr := #["✗ write 2 failed"] } attempts left ∧
      Ends setup ["hello", "--verbose"] {} script (.ok .failure)
        { stderr := #["· running hello", "· write: \"What is your name?\"", "· read: \"Ada\"",
          "· write: \"Hello, Ada!\"", "✗ write 2 failed"] } attempts left := by
  intro setup script left
  have hconnect : setup.connect.Offered := .given _
  obtain ⟨store, hasked⟩ :
      ∃ store, Store.has setup.sources "debug" ({} : Desk).store = .ok false store := ⟨_, rfl⟩
  obtain ⟨result, attempts, c', errors, store', hquiet, hverbose, -⟩ :=
    runCommand_verbose hconnect .hello hasked script
  exact ⟨_, attempts, rfl, hquiet.of_run rfl, hverbose.of_run rfl⟩

end Teletype.Command
