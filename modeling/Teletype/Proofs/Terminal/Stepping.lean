import Mathlib.Logic.Relation
import Teletype.Proofs.Terminal.Running

/-!
# A run, turn by turn

A run is a loop over the node it stands at. A turn performs the operation of that node and moves on;
the last one ends the run. `Turn` and `Stop` are these two, and every run is turns up to a stop
(`exists_stop`). What holds of a run is then said of one turn first, and carried along `Reaches`.

Two terminals whose states correspond are told apart only where a run comes to an operation at which
they differ (`exists_first_difference`). Up to there the two runs stand at the same nodes.
-/

namespace Teletype.Console

open Host
open Relation (ReflTransGen)

variable {ε σ τ τ' α : Type}

/-- Where a run stands: the node it has come to, and the joint state. -/
abbrev Position (ε σ τ α : Type) := Console ε σ α × σ × τ

/-- One turn of the loop that goes on: the operation of the node succeeded, and so did the callback
that picks the node behind a question. -/
inductive Turn (t : Terminal ε (σ × τ)) : Position ε σ τ α → Position ε σ τ α → Prop
  | write {line : String} {next : Console ε σ α} {w w' : σ × τ} :
      t.writeLine line w = .ok () w' → Turn t (.write line next, w) (next, w')
  | read {next : String → Host ε σ (Console ε σ α)} {line : String} {program : Console ε σ α}
      {w : σ × τ} {s s' : σ} {c : τ} : t.readLine w = .ok line (s, c) →
      next line s = .ok program s' → Turn t (.read next, w) (program, s', c)

/-- The last turn of the loop, with how the run ends and what state it leaves. -/
inductive Stop (t : Terminal ε (σ × τ)) : Position ε σ τ α → Except ε α × σ × τ → Prop
  | value {value : Host ε σ α} {s : σ} {c : τ} :
      Stop t (.done value, s, c) (outcomeOf (onHost value) (s, c))
  | writeFailed {line : String} {next : Console ε σ α} {w w' : σ × τ} {e : ε} :
      t.writeLine line w = .error e w' → Stop t (.write line next, w) (.error e, w')
  | readFailed {next : String → Host ε σ (Console ε σ α)} {w w' : σ × τ} {e : ε} :
      t.readLine w = .error e w' → Stop t (.read next, w) (.error e, w')
  | replyFailed {next : String → Host ε σ (Console ε σ α)} {line : String} {w : σ × τ} {s s' : σ}
      {c : τ} {e : ε} : t.readLine w = .ok line (s, c) → next line s = .error e s' →
      Stop t (.read next, w) (.error e, s', c)

/-- The loop comes from the one position to the other. -/
def Reaches (t : Terminal ε (σ × τ)) : Position ε σ τ α → Position ε σ τ α → Prop :=
  ReflTransGen (Turn t)

section

variable {t : Terminal ε (σ × τ)} {x y : Position ε σ τ α} {r : Except ε α × σ × τ}

/-- A turn leaves the rest of the run to do. -/
theorem Turn.outcomeOf_eq (h : Turn t x y) :
    outcomeOf (runOn t x.1) x.2 = outcomeOf (runOn t y.1) y.2 := by
  apply outcomeOf_congr
  cases h with
  | write hwrite => exact run_write_of_ok hwrite
  | read hread hreply => exact (run_ask_of_ok hread).trans (bind_of_ok (onHost_of_ok hreply))

theorem Reaches.outcomeOf_eq (h : Reaches t x y) :
    outcomeOf (runOn t x.1) x.2 = outcomeOf (runOn t y.1) y.2 := by
  induction h with
  | refl => rfl
  | tail _ hturn ih => exact ih.trans hturn.outcomeOf_eq

/-- The next turn is determined. -/
theorem Turn.unique {z : Position ε σ τ α} (h : Turn t x y) (h' : Turn t x z) : y = z := by
  cases h with
  | write hwrite =>
    cases h' with
    | write hwrite' =>
      cases hwrite.symm.trans hwrite'
      rfl
  | read hread hreply =>
    cases h' with
    | read hread' hreply' =>
      cases hread.symm.trans hread'
      cases hreply.symm.trans hreply'
      rfl

/-- Nothing comes behind the last turn. -/
theorem Stop.not_turn (h : Stop t x r) : ¬ Turn t x y := by
  intro hturn
  cases h with
  | value => cases hturn
  | writeFailed hfailed =>
    cases hturn with
    | write hwrite => cases hfailed.symm.trans hwrite
  | readFailed hfailed =>
    cases hturn with
    | read hread _ => cases hfailed.symm.trans hread
  | replyFailed hread hfailed =>
    cases hturn with
    | read hread' hreply =>
      cases hread.symm.trans hread'
      cases hfailed.symm.trans hreply

theorem Stop.outcomeOf_eq (h : Stop t x r) : outcomeOf (runOn t x.1) x.2 = r := by
  cases h with
  | @value value s c =>
    have hrun : runOn t (.done value) = onHost value := runOn_sync t value
    rw [hrun]
  | writeFailed hwrite => exact outcomeOf_eq_error.2 (run_write_of_error hwrite)
  | readFailed hread => exact outcomeOf_eq_error.2 (run_ask_of_error hread)
  | replyFailed hread hreply =>
    apply outcomeOf_eq_error.2
    exact (run_ask_of_ok hread).trans (bind_of_error (onHost_of_error hreply))

/-- **A run is turns up to a stop.** -/
theorem exists_stop (t : Terminal ε (σ × τ)) (program : Console ε σ α) (w : σ × τ) :
    ∃ x, Reaches t (program, w) x ∧ Stop t x (outcomeOf (runOn t program) w) := by
  -- A stop at the first position is the whole run; a turn puts the rest of the run behind itself.
  have hhere : ∀ {p : Console ε σ α} {v : σ × τ} {r : Except ε α × σ × τ}, Stop t (p, v) r →
      ∃ x, Reaches t (p, v) x ∧ Stop t x (outcomeOf (runOn t p) v) :=
    fun hstop => ⟨_, .refl, hstop.outcomeOf_eq.symm ▸ hstop⟩
  have hturn : ∀ {p q : Console ε σ α} {v v' : σ × τ}, Turn t (p, v) (q, v') →
      (∃ x, Reaches t (q, v') x ∧ Stop t x (outcomeOf (runOn t q) v')) →
      ∃ x, Reaches t (p, v) x ∧ Stop t x (outcomeOf (runOn t p) v) :=
    fun hturn ⟨x, hreaches, hstop⟩ => ⟨x, .head hturn hreaches, hturn.outcomeOf_eq.symm ▸ hstop⟩
  induction program using Console.induct generalizing w with
  | sync value => exact hhere .value
  | write line next ih =>
    cases hwrite : t.writeLine line w with
    | ok u w' => exact hturn (.write hwrite) (ih w')
    | error e w' => exact hhere (.writeFailed hwrite)
  | ask next ih =>
    cases hread : t.readLine w with
    | error e w' => exact hhere (.readFailed hread)
    | ok line w' =>
      cases hreply : next line w'.1 with
      | error e s' => exact hhere (.replyFailed hread hreply)
      | ok program s' => exact hturn (.read hread hreply) (ih line _ program s' hreply _)

end

/-! ## Two terminals -/

/-- The joint state with the terminal's half seen through `view`. -/
def seen (view : τ → τ') (w : σ × τ) : σ × τ' := (w.1, view w.2)

/-- At this position the two terminals do the same: the operation that the node asks for, if it asks
for one, has the same outcome on both. -/
inductive Agree (view : τ → τ') (t : Terminal ε (σ × τ)) (u : Terminal ε (σ × τ')) :
    Position ε σ τ α → Prop
  | done {value : Host ε σ α} {w : σ × τ} : Agree view t u (.done value, w)
  | write {line : String} {next : Console ε σ α} {w : σ × τ} :
      outcomeOf (u.writeLine line) (seen view w) =
        Prod.map id (seen view) (outcomeOf (t.writeLine line) w) →
      Agree view t u (.write line next, w)
  | read {next : String → Host ε σ (Console ε σ α)} {w : σ × τ} :
      outcomeOf u.readLine (seen view w) = Prod.map id (seen view) (outcomeOf t.readLine w) →
      Agree view t u (.read next, w)

section

variable {view : τ → τ'} {t : Terminal ε (σ × τ)} {u : Terminal ε (σ × τ')}
  {p q : Console ε σ α} {w w' : σ × τ} {r : Except ε α × σ × τ}

/-- Where the terminals agree, the one's turn is the other's. -/
theorem Turn.seen (h : Turn t (p, w) (q, w')) (hagree : Agree view t u (p, w)) :
    Turn u (p, seen view w) (q, seen view w') := by
  cases h with
  | write hwrite =>
    cases hagree with
    | write hsame => exact .write (ok_of_outcomeOf_view hsame hwrite)
  | read hread hreply =>
    cases hagree with
    | read hsame =>
      have hread' := ok_of_outcomeOf_view hsame hread
      exact .read hread' hreply

/-- Where the terminals agree, the one's stop is the other's. -/
theorem Stop.seen (h : Stop t (p, w) r) (hagree : Agree view t u (p, w)) :
    Stop u (p, seen view w) (Prod.map id (seen view) r) := by
  cases h with
  | @value value s c =>
    have hvalue : Prod.map id (Console.seen view) (outcomeOf (onHost value) (s, c)) =
        outcomeOf (onHost value) (s, view c) := by
      unfold outcomeOf onHost
      cases value s <;> rfl
    rw [hvalue]
    exact .value
  | writeFailed hwrite =>
    cases hagree with
    | write hsame => exact .writeFailed (error_of_outcomeOf_view hsame hwrite)
  | readFailed hread =>
    cases hagree with
    | read hsame => exact .readFailed (error_of_outcomeOf_view hsame hread)
  | replyFailed hread hreply =>
    cases hagree with
    | read hsame =>
      have hread' := ok_of_outcomeOf_view hsame hread
      exact .replyFailed hread' hreply

/-- **Terminals are told apart only where they differ.** Two terminals agree wherever a position is
not marked. Then either both runs come to the same marked position; or the one run comes to none,
and the other ends like it. The induction is on the turns up to the stop, from the first one. -/
theorem exists_first_difference (marked : Position ε σ τ α → Prop)
    (hagree : ∀ x, ¬ marked x → Agree view t u x) (x : Position ε σ τ α) :
    (∃ y, Reaches t x y ∧ Reaches u (x.1, seen view x.2) (y.1, seen view y.2) ∧ marked y) ∨
      (∀ y, Reaches t x y → ¬ marked y) ∧
        outcomeOf (runOn u x.1) (seen view x.2) =
          Prod.map id (seen view) (outcomeOf (runOn t x.1) x.2) := by
  obtain ⟨last, hreaches, hstop⟩ := exists_stop t x.1 x.2
  change Reaches t x last at hreaches
  generalize outcomeOf (runOn t x.1) x.2 = r at hstop ⊢
  induction hreaches using ReflTransGen.head_induction_on with
  | refl =>
    by_cases hlast : marked last
    · exact .inl ⟨last, .refl, .refl, hlast⟩
    · refine .inr ⟨fun y hy => ?_, (hstop.seen (hagree last hlast)).outcomeOf_eq⟩
      rcases hy.cases_head with rfl | ⟨z, hturn, -⟩
      · exact hlast
      · exact absurd hturn hstop.not_turn
  | @head x z hturn hrest ih =>
    by_cases hx : marked x
    · exact .inl ⟨x, .refl, .refl, hx⟩
    · have hturn' : Turn u (x.1, seen view x.2) (z.1, seen view z.2) := hturn.seen (hagree x hx)
      rcases ih with ⟨y, hy, hy', hmarked⟩ | ⟨hnone, hend⟩
      · exact .inl ⟨y, .head hturn hy, .head hturn' hy', hmarked⟩
      · refine .inr ⟨fun y hy => ?_, hturn'.outcomeOf_eq.trans hend⟩
        rcases hy.cases_head with rfl | ⟨z', hturn'', hy⟩
        · exact hx
        · exact hnone y (hturn.unique hturn'' ▸ hy)

end

end Teletype.Console
