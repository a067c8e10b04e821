import Teletype.Proofs.Terminal.Abstraction

/-!
# Ends that raise

A value at an end may raise. Sequencing asks for it when it has seen the end, and behind a question
that is before the writes in front of the end have been performed: a program that hands its result
on to `succeed` ends as it did, with the same lines left over, but what it wrote between its last
read and the end that raises is lost (`Console.RaisesBehind`). Nothing else is, and where the
program does not raise, or raises without having written since, it does the same as before.
-/

namespace Teletype

open Host

variable {ε V σ α β : Type}

/-- The action leaves the state alone, whether it returns or raises. -/
def Host.Still (action : Host ε σ α) : Prop :=
  ∀ s, (∃ a, action s = .ok a s) ∨ ∃ e, action s = .error e s

theorem Host.Still.eq_of_error {action : Host ε σ α} (h : Host.Still action) {s s' : σ} {e : ε}
    (herror : action s = .error e s') : s' = s := by
  obtain ⟨a, hok⟩ | ⟨e', herror'⟩ := h s
  · rw [hok] at herror
    cases herror
  · rw [herror'] at herror
    cases herror
    rfl

namespace Console

/-- The callbacks behind questions are quiet. The values at the ends change nothing, but they may
raise. -/
inductive QuietToEnds : Console ε σ α → Prop
  | done {value : Host ε σ α} : Host.Still value → QuietToEnds (.done value)
  | write {line : String} {next : Console ε σ α} : QuietToEnds next → QuietToEnds (.write line next)
  | read {next : String → Host ε σ (Console ε σ α)} :
      (∀ line, Host.Quiet (next line)) →
      (∀ line s program s', next line s = .ok program s' → QuietToEnds program) →
        QuietToEnds (.read next)

/-- Run from this state on these lines, the program reads one of them, writes `pending`, and comes
to an end whose value raises. -/
inductive RaisesBehind (pending : List String) : Console ε σ α → σ → List String → Prop
  | last {next : String → Host ε σ (Console ε σ α)} {line : String} {lines : List String}
      {program : Console ε σ α} {value : Host ε σ α} {s s' s'' : σ} {e : ε} :
      next line s = .ok program s' → program.unroll [] = (pending.reverse, .value value) →
        value s' = .error e s'' → RaisesBehind pending (.read next) s (line :: lines)
  | later {next : String → Host ε σ (Console ε σ α)} {line : String} {lines : List String}
      {program : Console ε σ α} {s s' : σ} :
      next line s = .ok program s' → RaisesBehind pending program s' lines →
        RaisesBehind pending (.read next) s (line :: lines)
  | write {line : String} {lines : List String} {next : Console ε σ α} {s : σ} :
      RaisesBehind pending next s lines → RaisesBehind pending (.write line next) s lines

/-! ## What stands behind the leading writes -/

section

variable {p : Console ε σ α} {value : Host ε σ α} {written pending lines : List String} {s s' : σ}
  {e : ε}

/-- The lines in front of those that are unrolled are kept below them. -/
theorem unroll_eq (p : Console ε σ α) (lines : List String) :
    p.unroll lines = ((p.unroll []).1 ++ lines, (p.unroll []).2) := by
  induction p using Console.induct generalizing lines with
  | sync value => rfl
  | write line next ih =>
    change next.unroll (line :: lines) = ((next.unroll [line]).1 ++ lines, (next.unroll [line]).2)
    rw [ih (line :: lines), ih [line], List.append_assoc, List.singleton_append]
  | ask next ih => rfl

/-- Unrolled one write further, a program has the same tip. -/
theorem exists_unroll_of_write {line : String} {tip : Tip ε σ α}
    (h : (Console.write line p).unroll [] = (written, tip)) :
    ∃ first, p.unroll [] = (first, tip) := by
  have hnext : p.unroll [line] = (written, tip) := h
  rw [unroll_eq] at hnext
  have htip : (p.unroll []).2 = tip := congrArg Prod.snd hnext
  exact ⟨(p.unroll []).1, Prod.ext rfl htip⟩

theorem QuietToEnds.still_of_unroll (hp : p.QuietToEnds)
    (h : p.unroll [] = (written, .value value)) : Host.Still value := by
  induction hp generalizing written with
  | done hvalue =>
    cases h
    exact hvalue
  | write _ ih =>
    obtain ⟨first, hfirst⟩ := exists_unroll_of_write h
    exact ih hfirst
  | read => cases h

theorem not_raisesBehind_nil {next : String → Host ε σ (Console ε σ α)} :
    ¬ (Console.ask next).RaisesBehind pending s [] := by
  unfold ask
  nofun

theorem not_raisesBehind_of_unroll (h : p.unroll [] = (written, .value value)) :
    ¬ p.RaisesBehind pending s lines := by
  intro hraises
  induction hraises generalizing written with
  | last => cases h
  | later => cases h
  | write _ ih =>
    obtain ⟨first, hfirst⟩ := exists_unroll_of_write h
    exact ih hfirst

/-- What sequencing makes of a program is decided by what stands behind its leading writes. -/
theorem bind_eq_of_unroll {tip : Tip ε σ α} (h : p.unroll [] = (written, tip))
    (f : α → Host ε σ (Console ε σ β)) : bind f p = prepend written <$> bind f tip.toConsole := by
  have hunroll := prepend_unroll p []
  rw [h] at hunroll
  rw [← bind_prepend]
  exact congrArg (bind f) hunroll.symm

/-- Where handing the result on raises while it is built, the end that raised stands behind leading
writes. -/
theorem unroll_of_bind_error (h : bind (fun a => pure (succeed a)) p s = .error e s') :
    ∃ (pending : List String) (value : Host ε σ α),
      p.unroll [] = (pending.reverse, .value value) ∧ value s = .error e s' := by
  cases hunroll : p.unroll [] with
  | mk written tip =>
    rw [bind_eq_of_unroll hunroll] at h
    cases tip with
    | question next =>
      rw [Tip.toConsole, bind_ask] at h
      cases h
    | value value =>
      refine ⟨written.reverse, value, by rw [List.reverse_reverse], ?_⟩
      rw [Tip.toConsole, bind_sync] at h
      cases hv : value s with
      | ok a s'' =>
        have hbuilt : (value >>= fun a => pure (succeed a) : Host ε σ (Console ε σ α)) s =
            .ok (succeed a) s'' := bind_of_ok hv
        rw [map_of_ok hbuilt] at h
        cases h
      | error e' s'' =>
        rw [map_of_error (bind_of_error hv)] at h
        cases h
        rfl

/-- An end that raises behind leading writes lets no program be built. -/
theorem bind_error_of_unroll (h : p.unroll [] = (written, .value value))
    (hvalue : value s = .error e s') (f : α → Host ε σ (Console ε σ β)) :
    bind f p s = .error e s' := by
  rw [bind_eq_of_unroll h, Tip.toConsole, bind_sync]
  exact map_of_error (bind_of_error hvalue)

end

end Console

/-! ## What is left out -/

/-- Both runs come to the same end with the same lines left over. What the second one wrote between
its last read and an end that raised is missing from the first one, and nothing else is. -/
structure Interpretation.Short (p : Console ε σ α) (s : σ) (script : List String)
    (x y : Interpretation ε α) : Prop where
  remainingInput : x.remainingInput = y.remainingInput
  result : x.result = y.result
  output_append : ∀ pending, p.RaisesBehind pending s script → y.output = x.output ++ pending
  output_eq : (∀ pending, p.RaisesBehind pending s script → pending = []) → y.output = x.output

section

variable {p joined : Console ε σ α} {value : Host ε σ α} {s s' s'' : σ} {script : List String}
  {line : String} {reply : String → Host ε σ (Console ε σ α)} {x y : Interpretation ε α} {e : ε}

theorem Interpretation.short_self (h : ∀ pending, ¬ p.RaisesBehind pending s script)
    (x : Interpretation ε α) : x.Short p s script x :=
  ⟨rfl, rfl, fun pending hraises => absurd hraises (h pending), fun _ => rfl⟩

theorem Interpretation.Short.after (h : x.Short p s script y)
    (line : String) : (x.after line).Short (.write line p) s script (y.after line) := by
  refine ⟨h.remainingInput, h.result, ?_, ?_⟩
  · rintro pending (_ | _ | hraises)
    exact congrArg (line :: ·) (h.output_append pending hraises)
  · intro hnone
    exact congrArg (line :: ·) (h.output_eq fun pending hraises => hnone pending (.write hraises))

theorem Interpretation.Short.eq_iff (h : x.Short p s script y) :
    x = y ↔ ∀ pending, p.RaisesBehind pending s script → pending = [] := by
  constructor
  · rintro rfl pending hraises
    exact List.self_eq_append_right.1 (h.output_append pending hraises)
  · intro hnone
    obtain ⟨output, remainingInput, result⟩ := x
    obtain ⟨rfl, rfl, -, houtput⟩ := h
    obtain rfl := houtput hnone
    rfl

/-- What is left out behind an answer is left out behind the question, if the program behind the
answer could be built. -/
theorem Interpretation.Short.behind {f : α → Host ε σ (Console ε σ α)} (h : x.Short p s' script y)
    (hreply : reply line s = .ok p s') (hbuilt : Console.bind f p s' = .ok joined s'') :
    x.Short (.ask reply) s (line :: script) y := by
  refine ⟨h.remainingInput, h.result, ?_, ?_⟩
  · rintro pending (⟨hp, hunroll, hvalue⟩ | ⟨hp, hraises⟩ | _)
    · rw [hreply] at hp
      cases hp
      rw [Console.bind_error_of_unroll hunroll hvalue] at hbuilt
      cases hbuilt
    · rw [hreply] at hp
      cases hp
      exact h.output_append pending hraises
  · intro hnone
    exact h.output_eq fun pending hraises => hnone pending (.later hreply hraises)

/-- Where it could not, the lines in front of the end that raised are left out. -/
theorem Interpretation.short_of_raise {written : List String}
    (hreply : reply line s = .ok p s') (hunroll : p.unroll [] = (written.reverse, .value value))
    (hvalue : value s' = .error e s'') :
    Interpretation.Short (.ask reply) s (line :: script)
      ⟨[], script, .error e⟩ ⟨written, script, .error e⟩ := by
  refine ⟨rfl, rfl, ?_, fun hnone => hnone written (.last hreply hunroll hvalue)⟩
  rintro pending (⟨hp, hunroll', -⟩ | ⟨hp, hraises⟩ | _)
  · rw [hreply] at hp
    cases hp
    rw [hunroll] at hunroll'
    exact List.reverse_injective (congrArg Prod.fst hunroll')
  · rw [hreply] at hp
    cases hp
    exact absurd hraises (Console.not_raisesBehind_of_unroll hunroll)

end

/-! ## Runs on a script -/

section

variable {p : Console (Thrown V) σ α} {value : Host (Thrown V) σ α}
  {reply : String → Host (Thrown V) σ (Console (Thrown V) σ α)} {script written : List String}
  {line : String} {s s' : σ} {e : Thrown V}

theorem rehearsed_ask_of_raise (h : reply line s = .error e s') :
    rehearsed (.ask reply) (line :: script) s = (⟨[], script, .error e⟩, s') := by
  rw [rehearsed, outcomeOf_eq_error.2 (Console.runOn_ask_of_raise rfl h)]

theorem rehearsed_sync_of_error (h : value s = .error e s') :
    rehearsed (.sync value) script s = (⟨[], script, .error e⟩, s') := by
  rw [rehearsed, outcomeOf_eq_error.2 (Console.runOn_sync_of_error h)]

theorem rehearsed_prepend (lines : List String) (p : Console (Thrown V) σ α) :
    rehearsed (Console.prepend lines p) script s =
      let (i, s') := rehearsed p script s
      ({ i with output := lines.reverse ++ i.output }, s') := by
  induction lines generalizing p with
  | nil => rfl
  | cons line lines ih =>
    rw [Console.prepend_cons, ih, rehearsed_write]
    simp [Interpretation.after]

/-- What the end behind the leading writes raises, the run raises when it has written them. -/
theorem rehearsed_of_unroll (h : p.unroll [] = (written.reverse, .value value))
    (hvalue : value s = .error e s') :
    rehearsed p script s = (⟨written, script, .error e⟩, s') := by
  have hunroll := Console.prepend_unroll p []
  rw [h] at hunroll
  have hp : p = Console.prepend written.reverse (.sync value) := hunroll.symm
  rw [hp, rehearsed_prepend, rehearsed_sync_of_error hvalue]
  simp

/-- What a program with ends that may raise is short of, when its result was handed on. -/
theorem rehearsed_bind_succeed {p joined : Console (Thrown V) σ α} (hp : p.QuietToEnds) {s s' : σ}
    (hbuilt : Console.bind (fun a => pure (Console.succeed a)) p s = .ok joined s')
    (script : List String) :
    s' = s ∧ (rehearsed joined script s).2 = s ∧ (rehearsed p script s).2 = s ∧
      (rehearsed joined script s).1.Short p s script (rehearsed p script s).1 := by
  induction hp generalizing joined s' script with
  | @done value hvalue =>
    rw [← Console.sync, Console.bind_sync] at hbuilt
    obtain ⟨a, ha⟩ | ⟨e, he⟩ := hvalue s
    · rw [bind_of_ok ha] at hbuilt
      cases hbuilt
      have hx : rehearsed (.succeed a : Console (Thrown V) σ α) script s =
          (⟨[], script, .ok a⟩, s) := rehearsed_sync_of_ok rfl
      rw [← Console.sync, rehearsed_sync_of_ok ha, hx]
      exact ⟨rfl, rfl, rfl,
        Interpretation.short_self (fun _ => Console.not_raisesBehind_of_unroll rfl) _⟩
    · rw [bind_of_error he] at hbuilt
      cases hbuilt
  | @write line next hnext ih =>
    rw [Console.bind_write] at hbuilt
    cases hfirst : Console.bind (fun a => pure (Console.succeed a)) next s with
    | ok joined' s'' =>
      rw [map_of_ok hfirst] at hbuilt
      cases hbuilt
      obtain ⟨hs, hx, hy, hshort⟩ := ih hfirst script
      rw [rehearsed_write, rehearsed_write]
      exact ⟨hs, hx, hy, hshort.after line⟩
    | error e s'' =>
      rw [map_of_error hfirst] at hbuilt
      cases hbuilt
  | @read next hanswer hprogram ih =>
    rw [← Console.ask, Console.bind_ask] at hbuilt
    cases hbuilt
    cases script with
    | nil =>
      rw [← Console.ask, rehearsed_ask_nil, rehearsed_ask_nil]
      exact ⟨rfl, rfl, rfl, Interpretation.short_self (fun _ => Console.not_raisesBehind_nil) _⟩
    | cons line script =>
      obtain ⟨program, hreply⟩ := hanswer line s
      rw [← Console.ask, rehearsed_ask_cons hreply]
      cases hrest : Console.bind (fun a => pure (Console.succeed a)) program s with
      | ok joined s'' =>
        obtain ⟨rfl, hx, hy, hshort⟩ := ih line s program s hreply hrest script
        rw [rehearsed_ask_cons ((bind_of_ok hreply).trans hrest)]
        exact ⟨rfl, hx, hy, hshort.behind hreply hrest⟩
      | error e s'' =>
        -- The end raises while the program behind the answer is built, before its writes.
        obtain ⟨written, value, hunroll, hvalue⟩ := Console.unroll_of_bind_error hrest
        rw [rehearsed_ask_of_raise ((bind_of_ok hreply).trans hrest),
          rehearsed_of_unroll hunroll hvalue]
        obtain rfl : s'' = s :=
          (((hprogram line s program s hreply).still_of_unroll hunroll).eq_of_error hvalue)
        exact ⟨rfl, rfl, rfl, Interpretation.short_of_raise hreply hunroll hvalue⟩

end

/-- **To hand the result on is to do the same, but for what is written in front of an end that
raises.** If the program could be built, it comes on every script to the end of the first program,
with the same result or raising the same, and with the same lines left over. The output lacks the
lines that the first program wrote between its last read and an end that raised; so the two differ
exactly where there are such lines. What was raised is reported alike. -/
theorem interpret_flatMap_succeed [HasText V σ] {p joined : Console (Thrown V) σ α}
    (hp : p.QuietToEnds) {s s' : σ}
    (hbuilt : p.flatMap (fun a => pure (.succeed a)) s = .ok joined s') (script : List String) :
    ∃ x y : Interpretation (Thrown V) α, interpret joined script s' = x.report s ∧
      interpret p script s = y.report s ∧ x.Short p s script y ∧
      (x = y ↔ ∀ pending, p.RaisesBehind pending s script → pending = []) := by
  rw [Console.flatMap_eq_bind] at hbuilt
  obtain ⟨rfl, hx, hy, hshort⟩ := rehearsed_bind_succeed hp hbuilt script
  have hjoined := interpret_eq joined script s'
  have hself := interpret_eq p script s'
  rw [hx] at hjoined
  rw [hy] at hself
  exact ⟨_, _, hjoined, hself, hshort, hshort.eq_iff⟩

/-- Two lines are written between the last read and the end, and two before. -/
theorem interpret_flatMap_succeed_raising :
    let failure : Failure := .plain "boom"
    let ending : Console (Thrown Empty) Unit Unit :=
      .write "c" (.write "d" (.sync (throw (.failure failure))))
    let p : Console (Thrown Empty) Unit Unit :=
      .write "a" (.ask fun _ => return .write "b" (.ask fun _ => return ending))
    p.QuietToEnds ∧ p.RaisesBehind ["c", "d"] () ["1", "2", "3"] ∧
      ∃ joined, p.flatMap (fun a => pure (.succeed a)) () = .ok joined () ∧
        interpret joined ["1", "2", "3"] () = .ok ⟨["a", "b"], ["3"], .error failure⟩ () ∧
        interpret p ["1", "2", "3"] () = .ok ⟨["a", "b", "c", "d"], ["3"], .error failure⟩ () := by
  intro failure ending p
  have hending : ending.QuietToEnds := .write (.write (.done fun _ => .inr ⟨_, rfl⟩))
  have hasked : (Console.ask fun _ => return ending).QuietToEnds :=
    .read (fun _ => Host.quiet_pure ending) fun _ _ program _ h => by
      cases h
      exact hending
  have hp : p.QuietToEnds := .write <| .read (fun _ => Host.quiet_pure _) fun _ _ program _ h => by
    cases h
    exact .write hasked
  have hraises : p.RaisesBehind ["c", "d"] () ["1", "2", "3"] :=
    .write (.later rfl (.write (.last rfl rfl rfl)))
  refine ⟨hp, hraises, ?_⟩
  obtain ⟨joined, hbuilt⟩ : ∃ joined, p.flatMap (fun a => pure (.succeed a)) () = .ok joined () :=
    ⟨_, rfl⟩
  obtain ⟨x, y, hx, hy, hshort, -⟩ := interpret_flatMap_succeed hp hbuilt ["1", "2", "3"]
  have hjoined : interpret joined ["1", "2", "3"] () =
      .ok ⟨["a", "b"], ["3"], .error failure⟩ () := by
    cases hbuilt
    rfl
  rw [hjoined] at hx
  obtain ⟨output, remainingInput, result⟩ := x
  obtain ⟨output', remainingInput', result'⟩ := y
  obtain ⟨rfl, rfl, houtput, -⟩ := hshort
  cases result with
  | ok u => cases hx
  | error e =>
    cases e with
    | value v => exact v.elim
    | failure f =>
      cases hx
      obtain rfl : output' = ["a", "b", "c", "d"] := houtput ["c", "d"] hraises
      exact ⟨joined, hbuilt, hjoined, hy⟩

/-- The one line that is written between the read and the end that raises is lost, and the test on
this script tells the two programs apart. -/
theorem interpret_flatMap_succeed_loses :
    let failure : Failure := .plain "boom"
    let p : Console (Thrown Empty) Unit Unit :=
      .ask fun _ => return .write "x" (.sync (throw (.failure failure)))
    p.QuietToEnds ∧ ∃ joined, p.flatMap (fun a => pure (.succeed a)) () = .ok joined () ∧
      interpret joined ["a"] () = .ok ⟨[], [], .error failure⟩ () ∧
      interpret p ["a"] () = .ok ⟨["x"], [], .error failure⟩ () ∧
      (equivalent ["a"] fun _ _ => true).eqv joined p () = .ok false () := by
  intro failure p
  have hp : p.QuietToEnds := .read (fun _ => Host.quiet_pure _) fun _ _ program _ h => by
    cases h
    exact .write (.done fun _ => .inr ⟨_, rfl⟩)
  exact ⟨hp, _, rfl, rfl, rfl, rfl⟩

end Teletype
