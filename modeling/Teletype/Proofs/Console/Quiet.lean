import Teletype.Proofs.Console.Sequencing

/-!
# Quiet callbacks

A callback is quiet if it returns and leaves the host's state as it is. It may look at that state,
so what it returns need not be the same each time; but between quiet callbacks the state stays as it
was, and it does not matter whether one is run while a program is built or when it is reached.
-/

namespace Teletype

open Host

variable {ε σ α β : Type}

/-- The action returns and leaves the state alone, whatever the state is. -/
def Host.Quiet (action : Host ε σ α) : Prop := ∀ s, ∃ a, action s = .ok a s

theorem Host.quiet_pure (a : α) : Host.Quiet (pure a : Host ε σ α) := fun _ => ⟨a, rfl⟩

namespace Console

/-- All callbacks of the program are quiet, those behind its questions included. -/
inductive Quiet : Console ε σ α → Prop
  | done {value : Host ε σ α} : Host.Quiet value → Quiet (.done value)
  | write {line : String} {next : Console ε σ α} : Quiet next → Quiet (.write line next)
  | read {next : String → Host ε σ (Console ε σ α)} :
      (∀ line, Host.Quiet (next line)) →
      (∀ line s program s', next line s = .ok program s' → Quiet program) → Quiet (.read next)

theorem quiet_succeed (a : α) : Quiet (succeed a : Console ε σ α) := .done (Host.quiet_pure a)

theorem quiet_readLine : Quiet (readLine : Console ε σ String) := by
  refine .read (fun line => Host.quiet_pure _) ?_
  intro line s program s' h
  cases h
  exact quiet_succeed line

/-! ## Building quietly -/

/-- The action is quiet, and the callbacks of what it builds are. -/
def QuietBuild (x : Host ε σ (Console ε σ α)) : Prop :=
  ∀ s, ∃ program, x s = .ok program s ∧ program.Quiet

theorem QuietBuild.quiet {x : Host ε σ (Console ε σ α)} (hx : QuietBuild x) : Host.Quiet x :=
  fun s => (hx s).imp fun _ h => h.1

theorem quietBuild_pure {p : Console ε σ α} (hp : p.Quiet) : QuietBuild (pure p) :=
  fun _ => ⟨p, rfl, hp⟩

theorem quiet_ask {next : String → Host ε σ (Console ε σ α)} (h : ∀ line, QuietBuild (next line)) :
    Quiet (.ask next) := by
  refine .read (fun line => (h line).quiet) ?_
  intro line s program s' hok
  obtain ⟨program', hnext, hquiet⟩ := h line s
  rw [hnext] at hok
  cases hok
  exact hquiet

theorem Quiet.next {next : String → Host ε σ (Console ε σ α)} (h : Quiet (.read next))
    (line : String) : QuietBuild (next line) := by
  cases h with
  | read hanswer hprogram =>
    intro s
    obtain ⟨program, hnext⟩ := hanswer line s
    exact ⟨program, hnext, hprogram line s program s hnext⟩

/-- Sequencing quiet programs is quiet. -/
theorem Quiet.bind {self : Console ε σ α} {f : α → Host ε σ (Console ε σ β)} (hself : self.Quiet)
    (hf : ∀ a, QuietBuild (f a)) : QuietBuild (Console.bind f self) := by
  induction hself with
  | @done value hvalue =>
    intro s
    obtain ⟨a, ha⟩ := hvalue s
    obtain ⟨next, hnext, hquiet⟩ := hf a s
    exact ⟨next, (congrFun (bind_sync f value) s).trans ((bind_of_ok ha).trans hnext), hquiet⟩
  | @write line next hnext ih =>
    intro s
    obtain ⟨joined, hbuilt, hquiet⟩ := ih s
    exact ⟨.write line joined, by rw [bind_write, map_of_ok hbuilt], .write hquiet⟩
  | @read next hanswer hprogram ih =>
    intro s
    refine ⟨_, congrFun (bind_ask f next) s, quiet_ask fun line s => ?_⟩
    obtain ⟨program, hprogram⟩ := hanswer line s
    rw [bind_of_ok hprogram]
    exact ih line s program s hprogram s

/-- Building one program for each value, in order, is quiet if building each is. -/
theorem exists_mapM_of_quietBuild {values : List α} {body : α → Host ε σ (Console ε σ β)}
    (hbody : ∀ a ∈ values, QuietBuild (body a)) (s : σ) :
    ∃ programs, values.mapM body s = .ok programs s ∧ ∀ program ∈ programs, program.Quiet := by
  induction values with
  | nil => exact ⟨[], rfl, fun _ h => absurd h List.not_mem_nil⟩
  | cons a values ih =>
    obtain ⟨program, hprogram, hquiet⟩ := hbody a List.mem_cons_self s
    obtain ⟨programs, hprograms, hquiets⟩ :=
      ih fun b hb => hbody b (List.mem_cons_of_mem a hb)
    refine ⟨program :: programs, ?_, List.forall_mem_cons.2 ⟨hquiet, hquiets⟩⟩
    rw [List.mapM_cons, bind_of_ok hprogram, bind_of_ok hprograms]
    rfl

end Console

end Teletype
