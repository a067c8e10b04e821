import Teletype.Proofs.Console.Watching
import Teletype.Proofs.Terminal.Composition
import Teletype.Terminal.Scripted

/-!
# When the callbacks of a collected list are evaluated

Collecting evaluates callbacks on a fixed schedule. While the list is collected, the producers of
the programs in front of the first one that reads are forced, one after the other, up to one that
raises. Whatever a run of the built program meets comes behind them: it takes a path through each of
the other programs in turn, and evaluates the callbacks on these paths and no others, on every run
anew.
-/

namespace Teletype.Console

open Host

variable {ε σ τ α : Type}

section

variable {t : Terminal ε τ} {s : σ} {log : List Operation} {c : τ} {line : String}
  {w : σ × List Operation × τ}

theorem exists_of_recorded_write (h : t.recorded.beside.writeLine line (s, log, c) = .ok () w) :
    ∃ c', w = (s, log ++ [.write line], c') := by
  cases hwrite : t.writeLine line c with
  | error e c' =>
    simp [Terminal.beside, onDevice, Terminal.recorded, Terminal.journaled, hwrite] at h
  | ok u c' =>
    simp only [Terminal.beside, onDevice, Terminal.recorded, Terminal.journaled, hwrite] at h
    cases h
    exact ⟨c', rfl⟩

theorem exists_of_recorded_read (h : t.recorded.beside.readLine (s, log, c) = .ok line w) :
    ∃ c', w = (s, log ++ [.read line], c') := by
  cases hread : t.readLine c with
  | error e c' =>
    simp [Terminal.beside, onDevice, Terminal.recorded, Terminal.journaled, hread] at h
  | ok line' c' =>
    simp only [Terminal.beside, onDevice, Terminal.recorded, Terminal.journaled, hread] at h
    cases h
    exact ⟨c', rfl⟩

end

/-- A run that comes to a value performs the operations of a path through the program. -/
theorem exists_path_of_run (t : Terminal ε τ) {program : Console ε σ α} {s : σ}
    {log : List Operation} {c : τ} {a : α} {w : σ × List Operation × τ}
    (h : runOn t.recorded.beside program (s, log, c) = .ok a w) :
    ∃ ops s' c', w = (s', log ++ ops, c') ∧ Path program s ops a s' := by
  induction program using Console.induct generalizing s log c with
  | sync value =>
    rw [runOn_sync] at h
    obtain ⟨s', hvalue, rfl⟩ := exists_of_onHost_ok h
    exact ⟨[], s', c, by rw [List.append_nil], .done hvalue⟩
  | write line next ih =>
    rw [runOn_write] at h
    obtain ⟨u, w', hwrite, hnext⟩ := exists_of_bind_ok h
    obtain ⟨c', rfl⟩ := exists_of_recorded_write hwrite
    obtain ⟨ops, s', c'', rfl, hpath⟩ := ih hnext
    exact ⟨.write line :: ops, s', c'', by rw [List.append_assoc]; rfl, .write hpath⟩
  | ask next ih =>
    rw [runOn_ask] at h
    obtain ⟨line, w', hread, hanswered⟩ := exists_of_bind_ok h
    obtain ⟨c', rfl⟩ := exists_of_recorded_read hread
    obtain ⟨program, w'', hreply, hbehind⟩ := exists_of_bind_ok hanswered
    obtain ⟨s₁, hnext, rfl⟩ := exists_of_onHost_ok hreply
    obtain ⟨ops, s', c'', rfl, hpath⟩ := ih line s program s₁ hnext hbehind
    exact ⟨.read line :: ops, s', c'', by rw [List.append_assoc]; rfl, .read hnext hpath⟩

/-- Collecting a watched list forces the marked producers, and then has the watched programs left
from the first one that reads. -/
theorem collectAll_watchAll (programs : List (Console ε σ α)) :
    collectAll (watchAll 0 programs) =
      (markAll 0 (producers programs)).mapM id >>= fun values =>
        collectFrom (watchAll (firstRead programs) (programs.drop (firstRead programs)))
          values.reverse ((programs.take (firstRead programs)).flatMap leading).reverse := by
  have hlength : (programs.take (firstRead programs)).length = firstRead programs :=
    List.length_take_of_le List.findIdx_le_length
  have hsplit : watchAll 0 programs = watchAll 0 (programs.take (firstRead programs)) ++
      watchAll (firstRead programs) (programs.drop (firstRead programs)) := by
    have happend := watchAll_append 0 (programs.take (firstRead programs))
      (programs.drop (firstRead programs))
    rwa [List.take_append_drop, hlength, Nat.zero_add] at happend
  have hproducers := map_producer?_watchAll (map_producer?_take programs) 0
  rw [collectAll, hsplit, collectFrom_append hproducers]
  simp only [flatMap_leading_watchAll, List.append_nil]

/-- **Collecting forces each element on a fixed schedule.** The programs are watched, each under its
place in the list. Building forces the producers of those in front of the first one that reads, in
order and once each. If one raises, that is what is raised, and it is the last one that was forced.
Otherwise a program is built. Every run of it that comes to a value, on any terminal and from any
state, writes the lines of those programs, without evaluating anything of them, and then takes a
path through each of the other programs in turn: its marks are the marks of these paths. -/
theorem collectAll_schedule (programs : List (Console ε σ α)) (s : σ) (marks : List Mark) :
    let j := firstRead programs
    (producers programs).length = j ∧
    ((∃ values s' joined, (producers programs).mapM id s = .ok values s' ∧
        collectAll (watchAll 0 programs) (s, marks) =
          .ok joined (s', marks ++ (List.range j).map .forced) ∧
        ∀ (τ : Type) (t : Terminal ε τ) (s₁ : σ) (marks₁ : List Mark) (log : List Operation) (c : τ)
          (results : List α) (w : (σ × List Mark) × List Operation × τ),
          runOn t.recorded.beside joined ((s₁, marks₁), log, c) = .ok results w →
          ∃ paths more s₂ c', PathsInTurn (programs.drop j) s₁ paths more s₂ ∧
            results = values ++ more ∧
            w = ((s₂, marks₁ ++ marksInTurn j paths),
              log ++ (((programs.take j).flatMap leading).map .write ++ paths.flatten), c')) ∨
      ∃ before producer after values s₁ e s', producers programs = before ++ producer :: after ∧
        before.mapM id s = .ok values s₁ ∧ producer s₁ = .error e s' ∧
        collectAll (watchAll 0 programs) (s, marks) =
          .error e (s', marks ++ (List.range (before.length + 1)).map .forced)) := by
  intro j
  refine ⟨length_producers programs, ?_⟩
  simp only [List.range_eq_range']
  rcases mapM_markAll (producers programs) 0 s marks with
    ⟨values, s', hvalues, hforced⟩ | ⟨before, producer, after, values, s₁, e, s', hlist, hbefore,
      hraises, hforced⟩
  · obtain ⟨joined, hjoined⟩ := exists_collectFrom_eq_pure
      (head?_watchAll (head?_drop_firstRead programs) j) values.reverse
      ((programs.take j).flatMap leading).reverse
    refine .inl ⟨values, s', joined, hvalues, ?_, ?_⟩
    · rw [collectAll_watchAll, bind_of_ok hforced, length_producers]
      exact congrFun hjoined _
    · -- The run is a path through what was built, and that through the watched programs in turn.
      intro τ t s₁ marks₁ log c results w hrun
      obtain ⟨ops, w', c', rfl, hpath⟩ := exists_path_of_run t hrun
      have hbuilds : BuildsPath _ (s₁, marks₁) ops results w' :=
        ⟨joined, _, congrFun hjoined _, hpath⟩
      obtain ⟨paths, more, rfl, rfl, hwatched⟩ := exists_paths_of_collectFrom hbuilds
      obtain ⟨s₂, rfl, hpaths⟩ := exists_paths_of_watchAll hwatched
      refine ⟨paths, more, s₂, c', hpaths, ?_, ?_⟩
      · rw [List.reverse_reverse]
      · rw [List.reverse_reverse]
  · refine .inr ⟨before, producer, after, values, s₁, e, s', hlist, hbefore, hraises, ?_⟩
    rw [collectAll_watchAll]
    exact bind_of_error hforced

/-- Each callback counts. Building forces the first producer, and each of two runs the callbacks of
the second program and the third producer. Where a producer raises, that one is forced last. -/
theorem collectAll_schedule_counting :
    let count : Host (Thrown Empty) Nat Nat := modifyGet fun n => (n, n + 1)
    let programs : List (Console (Thrown Empty) Nat Nat) :=
      [.sync count, .write "Name?" (.ask fun _ => do
        let _ ← count
        return .sync count), .write "Bye" (.sync count)]
    let raising : List (Console (Thrown Empty) Nat Nat) :=
      [.sync count, .sync (throw (.failure (.plain "no"))), .sync count]
    (∃ joined, collectAll (watchAll 0 programs) (0, []) = .ok joined (1, [.forced 0]) ∧
      (∃ script, runOn Script.terminal.recorded.beside joined
          ((1, [.forced 0]), [], { remaining := ["Ada", "Bob"] }) =
        .ok [0, 2, 3] ((4, [.forced 0, .answered 1 "Ada", .forced 1, .forced 2]),
          [.write "Name?", .read "Ada", .write "Bye"], script)) ∧
      (∃ script, runOn Script.terminal.recorded.beside joined
          ((4, [.forced 0]), [], { remaining := ["Bob"] }) =
        .ok [0, 5, 6] ((7, [.forced 0, .answered 1 "Bob", .forced 1, .forced 2]),
          [.write "Name?", .read "Bob", .write "Bye"], script)) ∧
      ∃ paths, PathsInTurn (programs.drop 1) 1 paths [2, 3] 4 ∧
        [.answered 1 "Ada", .forced 1, .forced 2] = marksInTurn 1 paths) ∧
    collectAll (watchAll 0 raising) (0, []) =
      .error (.failure (.plain "no")) (1, [.forced 0, .forced 1]) := by
  intro count programs raising
  refine ⟨?_, rfl⟩
  obtain ⟨-, ⟨values, s', joined, hvalues, hbuilt, hruns⟩ | hraises⟩ :=
    collectAll_schedule programs 0 []
  · cases hvalues
    cases hbuilt
    have hrun := hruns _ Script.terminal 1 [.forced 0] [] { remaining := ["Ada", "Bob"] }
      [0, 2, 3] ((4, [.forced 0, .answered 1 "Ada", .forced 1, .forced 2]), _) rfl
    obtain ⟨paths, more, s₂, c', hpaths, hresults, hleft⟩ := hrun
    obtain ⟨hhost, -⟩ := Prod.mk.inj hleft
    obtain ⟨rfl, hmarks⟩ := Prod.mk.inj hhost
    obtain rfl : more = [2, 3] := (List.cons.inj hresults).2.symm
    exact ⟨_, rfl, ⟨_, rfl⟩, ⟨_, rfl⟩, paths, hpaths, (List.cons.inj hmarks).2⟩
  · obtain ⟨_, _, _, _, _, _, _, -, -, -, hbuilt⟩ := hraises
    cases hbuilt

end Teletype.Console
