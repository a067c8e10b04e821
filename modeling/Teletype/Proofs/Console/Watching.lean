import Teletype.Proofs.Console.Path

/-!
# Programs whose callbacks are watched

A watched program leaves a mark beside the host's state for each callback that is evaluated: for a
producer, and for the callback behind a question, with the line that it was given. A callback that
raises leaves its mark too. The marks are all that watching adds: a path through a watched program
is a path through the program, and its marks can be read off its operations.
-/

namespace Teletype

open Host

variable {ε σ α : Type}

/-- The evaluation of a callback of the program at this place in a list. -/
inductive Mark where
  | forced (place : Nat)
  | answered (place : Nat) (line : String)
  deriving DecidableEq

/-- The action with a mark for its evaluation. -/
def Host.marked (mark : Mark) (action : Host ε σ α) : Host ε (σ × List Mark) α := fun (s, marks) =>
  match action s with
  | .ok a s => .ok a (s, marks ++ [mark])
  | .error e s => .error e (s, marks ++ [mark])

section

variable {action : Host ε σ α} {mark : Mark} {marks : List Mark} {s s' : σ} {a : α} {e : ε}

theorem Host.marked_of_ok (h : action s = .ok a s') :
    Host.marked mark action (s, marks) = .ok a (s', marks ++ [mark]) := by
  simp only [marked, h]

theorem Host.marked_of_error (h : action s = .error e s') :
    Host.marked mark action (s, marks) = .error e (s', marks ++ [mark]) := by
  simp only [marked, h]

/-- What is marked returns only as the action does. -/
theorem Host.exists_of_marked {w : σ × List Mark}
    (h : Host.marked mark action (s, marks) = .ok a w) :
    ∃ s', action s = .ok a s' ∧ w = (s', marks ++ [mark]) := by
  cases haction : action s with
  | error e s' =>
    rw [marked_of_error haction] at h
    cases h
  | ok a' s' =>
    rw [marked_of_ok haction] at h
    cases h
    exact ⟨s', rfl, rfl⟩

end

namespace Console

mutual

/-- The program with a mark for each of its callbacks. -/
def watch (place : Nat) : Console ε σ α → Console ε (σ × List Mark) α
  | .done value => .done (Host.marked (.forced place) value)
  | .write line next => .write line (watch place next)
  | .read next => .read fun line (s, marks) =>
    watchResult place (marks ++ [.answered place line]) (next line s)

/-- The program that a callback returned is watched in its turn. -/
def watchResult (place : Nat) (marks : List Mark) : EStateM.Result ε σ (Console ε σ α) →
    EStateM.Result ε (σ × List Mark) (Console ε (σ × List Mark) α)
  | .ok program s => .ok (watch place program) (s, marks)
  | .error e s => .error e (s, marks)

end

/-- Each program of a list is watched under its place, the first one under the given place. -/
def watchAll : Nat → List (Console ε σ α) → List (Console ε (σ × List Mark) α)
  | _, [] => []
  | place, program :: programs => watch place program :: watchAll (place + 1) programs

/-- The marks of a path through the program at this place: one for each line that was read, with the
callback behind its question, and in the end one for the producer. -/
def marksOf (place : Nat) : List Operation → List Mark
  | [] => [.forced place]
  | .read line :: ops => .answered place line :: marksOf place ops
  | .write _ :: ops => marksOf place ops

/-- The marks of paths through the programs from this place on. -/
def marksInTurn : Nat → List (List Operation) → List Mark
  | _, [] => []
  | place, ops :: paths => marksOf place ops ++ marksInTurn (place + 1) paths

section

variable {place : Nat} {program : Console ε σ α} {programs : List (Console ε σ α)} {s : σ}
  {marks : List Mark} {ops : List Operation} {paths : List (List Operation)} {a : α} {as : List α}
  {w : σ × List Mark}

theorem watch_sync (place : Nat) (value : Host ε σ α) :
    watch place (.sync value) = .sync (Host.marked (.forced place) value) := by
  simp only [sync, watch]

theorem watch_write (place : Nat) (line : String) (next : Console ε σ α) :
    watch place (.write line next) = .write line (watch place next) := by
  simp only [watch]

theorem watch_ask (place : Nat) (next : String → Host ε σ (Console ε σ α)) :
    watch place (.ask next) =
      .ask fun line => watch place <$> Host.marked (.answered place line) (next line) := by
  simp only [ask, watch]
  congr 1
  funext line w
  obtain ⟨s, marks⟩ := w
  cases hnext : next line s with
  | ok program s' => exact (map_of_ok (marked_of_ok hnext)).symm
  | error e s' => exact (map_of_error (marked_of_error hnext)).symm

/-- **A path through a watched program is a path through the program**, and it leaves one mark for
each callback on it, in order. -/
theorem exists_path_of_watch (h : Path (watch place program) (s, marks) ops a w) :
    ∃ s', w = (s', marks ++ marksOf place ops) ∧ Path program s ops a s' := by
  induction program using Console.induct generalizing s marks ops with
  | sync value =>
    rw [watch_sync] at h
    cases h with
    | done hmarked =>
      obtain ⟨s', hvalue, rfl⟩ := Host.exists_of_marked hmarked
      exact ⟨s', rfl, .done hvalue⟩
  | write line next ih =>
    rw [watch_write] at h
    cases h with
    | write hwatched =>
      obtain ⟨s', rfl, hpath⟩ := ih hwatched
      exact ⟨s', rfl, .write hpath⟩
  | ask next ih =>
    rw [watch_ask] at h
    cases h with
    | @read _ line _ _ _ _ ops _ hreply hwatched =>
      obtain ⟨program, hmarked, rfl⟩ := exists_of_map_ok hreply
      obtain ⟨s₁, hnext, rfl⟩ := Host.exists_of_marked hmarked
      obtain ⟨s', rfl, hpath⟩ := ih line s program s₁ hnext hwatched
      refine ⟨s', ?_, .read hnext hpath⟩
      rw [List.append_assoc]
      rfl

theorem exists_paths_of_watchAll (h : PathsInTurn (watchAll place programs) (s, marks) paths as w) :
    ∃ s', w = (s', marks ++ marksInTurn place paths) ∧ PathsInTurn programs s paths as s' := by
  induction programs generalizing place s marks paths as with
  | nil =>
    cases h
    exact ⟨s, by rw [marksInTurn, List.append_nil], .nil⟩
  | cons program programs ih =>
    cases h with
    | @cons _ _ _ w' _ ops paths a as hwatched hothers =>
      obtain ⟨s₁, rfl, hpath⟩ := exists_path_of_watch hwatched
      obtain ⟨s', rfl, hpaths⟩ := ih hothers
      exact ⟨s', by rw [marksInTurn, List.append_assoc], .cons hpath hpaths⟩

/-! ## Watched producers -/

theorem producer?_watch (place : Nat) (program : Console ε σ α) :
    (watch place program).producer? = program.producer?.map (Host.marked (.forced place)) := by
  induction program using Console.induct with
  | sync value =>
    rw [watch_sync]
    rfl
  | write line next ih =>
    rw [watch_write]
    exact ih
  | ask next _ =>
    rw [watch_ask]
    rfl

theorem leading_watch (place : Nat) (program : Console ε σ α) :
    (watch place program).leading = program.leading := by
  induction program using Console.induct with
  | sync value =>
    rw [watch_sync]
    rfl
  | write line next ih =>
    rw [watch_write]
    exact congrArg (line :: ·) ih
  | ask next _ =>
    rw [watch_ask]
    rfl

/-- The producers with a mark each, under the places from the given one on. -/
def markAll : Nat → List (Host ε σ α) → List (Host ε (σ × List Mark) α)
  | _, [] => []
  | place, producer :: producers =>
    Host.marked (.forced place) producer :: markAll (place + 1) producers

theorem watchAll_append (place : Nat) (ended rest : List (Console ε σ α)) :
    watchAll place (ended ++ rest) =
      watchAll place ended ++ watchAll (place + ended.length) rest := by
  induction ended generalizing place with
  | nil => rfl
  | cons program ended ih =>
    have hplace : place + (ended.length + 1) = place + 1 + ended.length := by omega
    rw [List.cons_append, watchAll, watchAll, ih, List.length_cons, hplace, List.cons_append]

theorem head?_watchAll (h : ∀ program ∈ programs.head?, program.producer? = none) (place : Nat) :
    ∀ program ∈ (watchAll place programs).head?, program.producer? = none := by
  cases programs with
  | nil => nofun
  | cons program programs =>
    rintro _ ⟨⟩
    rw [producer?_watch, h program rfl]
    rfl

theorem flatMap_leading_watchAll (place : Nat) (programs : List (Console ε σ α)) :
    (watchAll place programs).flatMap leading = programs.flatMap leading := by
  induction programs generalizing place with
  | nil => rfl
  | cons program programs ih =>
    rw [watchAll, List.flatMap_cons, List.flatMap_cons, leading_watch, ih]

theorem map_producer?_watchAll {ended : List (Console ε σ α)} {producers : List (Host ε σ α)}
    (h : ended.map producer? = producers.map some) (place : Nat) :
    (watchAll place ended).map producer? = (markAll place producers).map some := by
  induction ended generalizing producers place with
  | nil =>
    obtain rfl : producers = [] := List.map_eq_nil_iff.1 h.symm
    rfl
  | cons program ended ih =>
    cases producers with
    | nil => cases h
    | cons producer producers =>
      obtain ⟨hproducer, hothers⟩ := List.cons.inj h
      rw [watchAll, markAll, List.map_cons, List.map_cons, producer?_watch, hproducer, ih hothers]
      rfl

/-- **Producers are forced in order, once each, up to the first one that raises**, which is the last
one that is forced. -/
theorem mapM_markAll (producers : List (Host ε σ α)) (place : Nat) (s : σ) (marks : List Mark) :
    (∃ values s', producers.mapM id s = .ok values s' ∧
      (markAll place producers).mapM id (s, marks) =
        .ok values (s', marks ++ (List.range' place producers.length).map .forced)) ∨
    ∃ before producer after values s₁ e s', producers = before ++ producer :: after ∧
      before.mapM id s = .ok values s₁ ∧ producer s₁ = .error e s' ∧
      (markAll place producers).mapM id (s, marks) =
        .error e (s', marks ++ (List.range' place (before.length + 1)).map .forced) := by
  induction producers generalizing place s marks with
  | nil =>
    refine .inl ⟨[], s, rfl, ?_⟩
    rw [List.length_nil, List.range'_zero, List.map_nil, List.append_nil]
    rfl
  | cons producer producers ih =>
    rw [markAll]
    cases hproducer : producer s with
    | error e s' =>
      refine .inr ⟨[], producer, producers, [], s, e, s', rfl, rfl, hproducer, ?_⟩
      rw [List.mapM_cons]
      exact bind_of_error (marked_of_error hproducer)
    | ok a s₁ =>
      have hmarked : id (Host.marked (.forced place) producer) (s, marks) =
          .ok a (s₁, marks ++ [.forced place]) := marked_of_ok hproducer
      have hmarks : ∀ n, marks ++ [.forced place] ++ (List.range' (place + 1) n).map .forced =
          marks ++ (List.range' place (n + 1)).map .forced := by
        intro n
        rw [List.range'_succ, List.map_cons, List.append_assoc, List.singleton_append]
      rcases ih (place + 1) s₁ (marks ++ [.forced place]) with
        ⟨values, s', hvalues, hothers⟩ | ⟨before, raising, after, values, s₂, e, s', rfl, hbefore,
          hraises, hothers⟩
      · refine .inl ⟨a :: values, s', mapM_cons_of_ok hproducer hvalues, ?_⟩
        rw [mapM_cons_of_ok hmarked hothers, hmarks, List.length_cons]
      · refine .inr ⟨producer :: before, raising, after, a :: values, s₂, e, s', rfl,
          mapM_cons_of_ok hproducer hbefore, hraises, ?_⟩
        rw [mapM_cons_of_error hmarked hothers, hmarks, List.length_cons]

end

end Console

end Teletype
