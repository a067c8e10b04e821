import Teletype.Proofs.Terminal.Logged
import Teletype.Terminal.Scripted

/-!
# A run and the lines it consumes

Lines behind those that a run reads make no difference to it. A script and the same script with more
lines at its end are told apart only by a question that is asked when no line is left; so a run that
asks no such question is the same on both. One that does ask it ends there on the shorter script,
and on the longer one it goes on from there, with what it logged and wrote so far.
-/

namespace Teletype

open Host

variable {V σ η α : Type}

/-- The script with more lines at its end. -/
def Script.extend (extra : List String) (script : Script) : Script :=
  { script with remaining := script.remaining ++ extra }

namespace Console

/-- At this position a line is asked for, and none is left. -/
inductive Dry : Position (Thrown V) σ Script α → Prop
  | mk (next : String → Host (Thrown V) σ (Console (Thrown V) σ α)) (s : σ)
      (output : Array String) : Dry (.read next, s, ⟨[], output⟩)

/-- The run on a script, from this state on, comes to a question when no line is left. -/
def RunsOut (program : Console (Thrown V) (σ × List (Entry η)) α)
    (w : (σ × List (Entry η)) × Script) : Prop :=
  ∃ x, Reaches Script.terminal.logged (program, w) x ∧ Dry x

section

variable {x y : Position (Thrown V) (σ × List (Entry η)) Script α}
  {r : Except (Thrown V) α × (σ × List (Entry η)) × Script}

/-- The scripts agree wherever no line is missing. -/
theorem agree_extend (extra : List String) (h : ¬ Dry x) :
    Agree (Script.extend extra) Script.terminal.logged Script.terminal.logged x := by
  obtain ⟨program, ⟨s, log⟩, remaining, output⟩ := x
  cases program with
  | done value => exact .done
  | write line next => exact .write rfl
  | read next =>
    cases remaining with
    | nil => exact absurd (Dry.mk next (s, log) output) h
    | cons line rest => exact .read rfl

/-- A run that asks for a line when none is left fails there, and leaves what it did so far. -/
theorem Dry.stop (h : Dry x) : Stop Script.terminal.logged x
    (.error (.failure (.endOfInput Script.exhaustedMessage)), x.2) := by
  obtain ⟨next, ⟨s, log⟩, output⟩ := h
  exact .readFailed rfl

/-! What was written stays written. -/

theorem Turn.output_prefix (h : Turn Script.terminal.logged x y) :
    x.2.2.output.toList <+: y.2.2.output.toList := by
  obtain ⟨program, ⟨s, log⟩, remaining, output⟩ := x
  cases h with
  | @write line next _ w' hwrite =>
    cases hwrite
    exact ⟨[line], by rw [Array.toList_push]⟩
  | read hread hreply =>
    cases remaining with
    | nil => cases hread
    | cons line rest =>
      cases hread
      exact List.prefix_refl _

theorem Stop.output_prefix (h : Stop Script.terminal.logged x r) :
    x.2.2.output.toList <+: r.2.2.output.toList := by
  obtain ⟨program, ⟨s, log⟩, remaining, output⟩ := x
  cases h with
  | @value value _ _ =>
    unfold outcomeOf onHost
    cases value (s, log) <;> exact List.prefix_refl _
  | writeFailed hwrite => cases hwrite
  | readFailed hread =>
    cases remaining with
    | nil =>
      cases hread
      exact List.prefix_refl _
    | cons line rest => cases hread
  | replyFailed hread hreply =>
    cases remaining with
    | nil => cases hread
    | cons line rest =>
      cases hread
      exact List.prefix_refl _

theorem Reaches.output_prefix (h : Reaches Script.terminal.logged x y) :
    x.2.2.output.toList <+: y.2.2.output.toList := by
  induction h with
  | refl => exact List.prefix_refl _
  | tail _ hturn ih => exact ih.trans hturn.output_prefix

theorem output_prefix_of_run (program : Console (Thrown V) (σ × List (Entry η)) α)
    (w : (σ × List (Entry η)) × Script) :
    w.2.output.toList <+:
      (outcomeOf (runOn Script.terminal.logged program) w).2.2.output.toList := by
  obtain ⟨x, hreaches, hstop⟩ := exists_stop Script.terminal.logged program w
  exact hreaches.output_prefix.trans hstop.output_prefix

end

/-- **A run depends only on the lines it consumes.** The callbacks may note events, change the state
beside the log and raise. A run that never asks for a line when none is left does the same on the
script with more lines at its end, and leaves these unread. One that does ask fails there, and what
it logged and wrote is where the log and the output on the longer script begin. -/
theorem runOn_extend {program : Console (Thrown V) (σ × List (Entry η)) α}
    (hprogram : program.Appends) (s : σ) (log : List (Entry η)) (lines extra : List String) :
    let short := outcomeOf (runOn Script.terminal.logged program) ((s, log), { remaining := lines })
    let long := outcomeOf (runOn Script.terminal.logged program)
      ((s, log), { remaining := lines ++ extra })
    (¬ program.RunsOut ((s, log), { remaining := lines }) →
      long.1 = short.1 ∧ long.2.1 = short.2.1 ∧ long.2.2.output = short.2.2.output ∧
        long.2.2.remaining = short.2.2.remaining ++ extra) ∧
    (program.RunsOut ((s, log), { remaining := lines }) →
      short.1 = .error (.failure (.endOfInput Script.exhaustedMessage)) ∧
        logOf short <+: logOf long ∧ short.2.2.output.toList <+: long.2.2.output.toList) := by
  intro short long
  have hdiffer := exists_first_difference Dry (fun x => agree_extend extra)
    (program, (s, log), { remaining := lines })
  rcases hdiffer with ⟨x, hshort, hlong, hdry⟩ | ⟨hnone, hend⟩
  · -- Both runs come to the question; the shorter script ends there, the longer one goes on.
    refine ⟨fun hruns => absurd ⟨x, hshort, hdry⟩ hruns, fun _ => ?_⟩
    have hstop : short = (.error (.failure (.endOfInput Script.exhaustedMessage)), x.2) :=
      hshort.outcomeOf_eq.trans hdry.stop.outcomeOf_eq
    have hgoes : long =
        outcomeOf (runOn Script.terminal.logged x.1) (seen (Script.extend extra) x.2) :=
      hlong.outcomeOf_eq
    have hlog := (hshort.appends hprogram).prefix_logOf Script.terminal x.2.1.1 x.2.1.2
      (x.2.2.extend extra)
    have houtput := output_prefix_of_run x.1 (seen (Script.extend extra) x.2)
    rw [hstop, hgoes]
    exact ⟨rfl, hlog, houtput⟩
  · have hsame : long = Prod.map id (seen (Script.extend extra)) short := hend
    rw [hsame]
    exact ⟨fun _ => ⟨rfl, rfl, rfl, rfl⟩, fun ⟨x, hreaches, hdry⟩ => absurd hdry (hnone x hreaches)⟩

/-- The program greets and asks once more; then it raises. With one line it runs out in front of the
second question, with two it does not, and a third is left unread. -/
theorem runOn_extend_greeting :
    let program : Console (Thrown Empty) (Nat × List (Entry String)) Unit := .ask fun name => do
      modify fun (count, log) => (count + 1, log)
      Host.note name
      return .write ("Hello, " ++ name) (.ask fun reply => do
        Host.note reply
        throw (.failure (.plain "no")))
    let run := fun lines : List String =>
      outcomeOf (runOn Script.terminal.logged program) ((0, []), { remaining := lines })
    program.Appends ∧
      (program.RunsOut ((0, []), { remaining := ["Ada"] }) ∧
        logOf (run ["Ada"]) <+: logOf (run ["Ada", "bye"])) ∧
      ¬ program.RunsOut ((0, []), { remaining := ["Ada", "bye"] }) ∧
        (run ["Ada", "bye", "more"]).1 = .error (.failure (.plain "no")) ∧
        (run ["Ada", "bye", "more"]).2.1 = (1, [.operation (.read "Ada"), .event "Ada",
          .operation (.write "Hello, Ada"), .operation (.read "bye"), .event "bye"]) ∧
        (run ["Ada", "bye", "more"]).2.2.remaining = ["more"] := by
  intro program run
  have hraises : ∀ reply, Host.Appends (do
      Host.note reply
      throw (.failure (.plain "no")) : Host (Thrown Empty) (Nat × List (Entry String))
        (Console (Thrown Empty) (Nat × List (Entry String)) Unit)) :=
    fun reply => (Host.logs_note reply).appends.bind fun _ => Host.appends_throw _
  have hprogram : program.Appends := by
    refine .read (fun name => ?_) ?_
    · exact (Host.logs_modify _).appends.bind fun _ =>
        (Host.logs_note name).appends.bind fun _ => Host.appends_pure _
    · intro name w next w' hok
      cases hok
      refine .write (.read hraises ?_)
      intro reply w next w' hok
      cases hok
  have hdry : program.RunsOut ((0, []), { remaining := ["Ada"] }) :=
    ⟨_, .head (.read rfl rfl) (.head (.write rfl) .refl), .mk _ _ _⟩
  have hwet : ¬ program.RunsOut ((0, []), { remaining := ["Ada", "bye"] }) := by
    intro hruns
    have hfails := ((runOn_extend hprogram 0 [] ["Ada", "bye"] []).2 hruns).1
    cases hfails
  obtain ⟨-, hprefix, -⟩ := (runOn_extend hprogram 0 [] ["Ada"] ["bye"]).2 hdry
  obtain ⟨hend, hhost, -, hleft⟩ := (runOn_extend hprogram 0 [] ["Ada", "bye"] ["more"]).1 hwet
  exact ⟨hprogram, ⟨hdry, hprefix⟩, hwet, hend, hhost, hleft⟩

end Console

end Teletype
