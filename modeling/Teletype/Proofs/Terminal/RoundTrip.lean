import Teletype.Proofs.Terminal.Agreement

/-!
# Reading what was written

A device writes a newline behind each line. What was written for some lines is read back as these
lines if all of them are kept (`LineOptions.KeepsUnits`), and only then. No line that is read holds
a newline, so a line that does is not among those that are read; and where no line does, each is
read by itself, and differs from what was written if a carriage return at its end is trimmed. That
is shown for texts. What is read are always the units of a text, so units that are those of no text,
because half of a pair stands alone in them, are not read back either.
-/

namespace Teletype

open Host Text

variable {ε V ω α β : Type} {o : LineOptions}

namespace LineOptions

/-- What is handed out of a piece holds no newline. -/
theorem not_mem_handedOut {piece : List Char} (h : '\n' ∉ piece) : '\n' ∉ o.handedOut piece := by
  rw [handedOut]
  split
  · exact fun hm => h (List.dropLast_subset piece hm)
  · exact h

/-- A line is handed out as it is just if it has no carriage return at its end that is trimmed. -/
theorem handedOut_eq_iff {line : String} :
    String.ofList (o.handedOut line.toList) = line ↔
      (o.trimCarriageReturn = true → ¬ ['\r'] <:+ line.toList) := by
  constructor
  · intro hsame htrim hreturn
    have hdropped : line.toList.dropLast = line.toList := by
      rw [handedOut, if_pos ⟨htrim, hreturn⟩] at hsame
      simpa using congrArg String.toList hsame
    have hnonempty : 1 ≤ line.toList.length := hreturn.length_le
    have hlength := congrArg List.length hdropped
    rw [List.length_dropLast] at hlength
    omega
  · intro hkept
    rw [handedOut, if_neg fun hr => hkept hr.1 hr.2, String.ofList_toList]

/-- A line that is answered is what was handed out of one of the pieces. -/
theorem exists_piece_of_answer (hend : o.endOfInput = .fail) {ps : List (List Char)} {line : String}
    {i : Nat} (h : o.answer ps[i]? = .ok line) :
    ∃ piece ∈ ps, String.ofList (o.handedOut piece) = line := by
  cases hpiece : ps[i]? with
  | none =>
    rw [hpiece, answer, hend] at h
    cases h
  | some piece =>
    rw [hpiece] at h
    cases h
    exact ⟨piece, List.mem_of_getElem? hpiece, rfl⟩

/-- The answers in a row are the pieces, and then end of input. -/
theorem answers_eq (hend : o.endOfInput = .fail) (ps : List (List Char)) :
    (List.range (ps.length + 1)).map (fun i => o.answer ps[i]?) =
      ps.map (fun piece => .ok (String.ofList (o.handedOut piece))) ++ [.error .endOfInput] := by
  have hpieces : (List.range ps.length).map (fun i => o.answer ps[i]?) =
      ps.map fun piece => .ok (String.ofList (o.handedOut piece)) := by
    apply List.ext_getElem
    · simp
    · intro i hi hi'
      have hlt : i < ps.length := by simpa using hi
      simp [answer, hlt]
  rw [List.range_succ, List.map_append, hpieces]
  simp [answer, hend]

end LineOptions

/-- **The lines of a text that was written are the lines, exactly if all of them are kept.** A line
that is answered holds no newline. So if the answers are the lines, none of them holds one, and each
line is handed out by itself. -/
theorem answers_ofLines_iff (hend : o.endOfInput = .fail) (lines : List String) :
    (List.range (lines.length + 1)).map (fun i => o.answer (pieces (ofLines lines).toList)[i]?) =
        lines.map .ok ++ [.error .endOfInput] ↔
      ∀ line ∈ lines, o.Keeps line := by
  -- Where no line holds a newline, the answers are what is handed out of the lines.
  have hread : (∀ line ∈ lines, '\n' ∉ line.toList) →
      (List.range (lines.length + 1)).map (fun i => o.answer (pieces (ofLines lines).toList)[i]?) =
        lines.map (fun line => .ok (String.ofList (o.handedOut line.toList))) ++
          [.error .endOfInput] := by
    intro hlines
    have hanswers := LineOptions.answers_eq hend (lines.map String.toList)
    rw [List.length_map, List.map_map] at hanswers
    rw [pieces_ofLines hlines]
    exact hanswers
  constructor
  · intro hsame
    have hlines : ∀ line ∈ lines, '\n' ∉ line.toList := by
      intro line hline
      have hanswered : .ok line ∈ (List.range (lines.length + 1)).map
          (fun i => o.answer (pieces (ofLines lines).toList)[i]?) := by
        rw [hsame]
        exact List.mem_append_left _ (List.mem_map_of_mem hline)
      obtain ⟨i, -, hi⟩ := List.mem_map.1 hanswered
      obtain ⟨piece, hpiece, rfl⟩ := LineOptions.exists_piece_of_answer hend hi
      rw [String.toList_ofList]
      exact LineOptions.not_mem_handedOut (not_mem_of_mem_pieces hpiece)
    have hhanded := List.append_cancel_right ((hread hlines).symm.trans hsame)
    intro line hline
    have hline' := List.map_inj_left.1 hhanded line hline
    exact ⟨hlines line hline, LineOptions.handedOut_eq_iff.1 (Except.ok.inj hline')⟩
  · intro hkeeps
    have hhanded : lines.map (fun line => (.ok (String.ofList (o.handedOut line.toList)) :
        Except Failure String)) = lines.map .ok := by
      apply List.map_congr_left
      intro line hline
      rw [LineOptions.handedOut_of_keeps (hkeeps line hline)]
    rw [hread fun line hline => (hkeeps line hline).1, hhanded]

theorem mapError_failure_inj {x y : Except Failure α} :
    x.mapError (Thrown.failure (V := V)) = y.mapError .failure ↔ x = y := by
  constructor
  · intro h
    cases x <;> cases y <;> cases h <;> rfl
  · rintro rfl
    rfl

/-- The same of calls, which raise what is answered as a failure. -/
theorem outcomes_ofLines_iff (hend : o.endOfInput = .fail) (lines : List String) :
    (List.range (lines.length + 1)).map (fun i =>
          (o.answer (pieces (ofLines lines).toList)[i]?).mapError (Thrown.failure (V := V))) =
        lines.map .ok ++ [.error (.failure .endOfInput)] ↔
      ∀ line ∈ lines, o.Keeps line := by
  have hexpected :
      (lines.map .ok ++ [.error (.failure .endOfInput)] : List (Except (Thrown V) String)) =
        (lines.map Except.ok ++ [Except.error Failure.endOfInput]).map (.mapError .failure) := by
    rw [List.map_append, List.map_map]
    rfl
  rw [← answers_ofLines_iff hend, ← List.map_inj_right fun _ _ => mapError_failure_inj.1,
    ← hexpected, List.map_map]
  rfl

/-- The units of what is answered are the lines just if the texts of the lines are answered, and
each line is the units of its text. -/
theorem map_ofText_eq_iff {answers : List (Except ε String)} {lines : List Units} {e : ε} :
    answers.map (Except.map Units.ofText) = lines.map .ok ++ [.error e] ↔
      answers = (lines.map Units.toText).map .ok ++ [.error e] ∧
        ∀ line ∈ lines, Units.ofText line.toText = line := by
  have hback : Except.map (ε := ε) Units.toText ∘ Except.map Units.ofText = id := by
    funext answer
    cases answer with
    | error e => rfl
    | ok text => exact congrArg Except.ok (Units.toText_ofText text)
  constructor
  · intro h
    have hanswers : answers = (lines.map Units.toText).map .ok ++ [.error e] := by
      have htexts := congrArg (List.map (Except.map Units.toText)) h
      rw [List.map_map, hback, List.map_id, List.map_append, List.map_map] at htexts
      rw [htexts, List.map_map]
      rfl
    refine ⟨hanswers, fun line hline => ?_⟩
    rw [hanswers, List.map_append, List.map_map, List.map_map] at h
    exact Except.ok.inj (List.map_inj_left.1 (List.append_cancel_right h) line hline)
  · rintro ⟨rfl, hunits⟩
    rw [List.map_append, List.map_map, List.map_map]
    exact congrArg (· ++ [.error e])
      (List.map_congr_left fun line hline => congrArg Except.ok (hunits line hline))

/-- A function may be applied to each result once all steps are taken. -/
theorem inTurn_replicate_map (f : α → β) (action : EStateM ε ω α) (n : Nat) (w : ω) :
    inTurn outcomeOf (List.replicate n (f <$> action)) w =
      ((inTurn outcomeOf (List.replicate n action) w).1.map (Except.map f),
        (inTurn outcomeOf (List.replicate n action) w).2) := by
  have hone : ∀ w, outcomeOf (f <$> action) w =
      ((outcomeOf action w).1.map f, (outcomeOf action w).2) := by
    intro w
    cases hw : action w with
    | ok a w' => rw [outcomeOf_eq_ok.2 hw, outcomeOf_eq_ok.2 (map_of_ok hw)]; rfl
    | error e w' => rw [outcomeOf_eq_error.2 hw, outcomeOf_eq_error.2 (map_of_error hw)]; rfl
  induction n generalizing w with
  | zero => rfl
  | succ n ih => simp only [List.replicate_succ, inTurn, hone, ih, List.map_cons]

namespace Device

/-- The texts that are written for lines stand behind what was written before. -/
theorem forM_writeUnits (lines : List Units) (d : Device) :
    forM lines (writeUnits (V := V)) d =
      .ok () { d with written := d.written ++ (lines.map lineText).toArray } := by
  induction lines generalizing d with
  | nil => simp [pure, EStateM.pure]
  | cons line lines ih =>
    rw [List.forM_cons, bind_of_ok (show writeUnits line d = .ok () _ from rfl), ih]
    simp [lineText]

/-- **Reading undoes writing, exactly when it can.** Writing lines adds texts to what was written.
However the bytes of these texts arrive at a newly opened reader that fails at the end of input, the
calls get the lines back, and then end of input, if and only if in no line half of a pair stands
alone, no line holds a newline and, where carriage returns are trimmed, none ends with one. -/
theorem reads_back_iff (o : LineOptions) (hend : o.endOfInput = .fail) (lines : List Units)
    (d : Device) :
    ∃ d' texts, forM lines (writeUnits (V := V)) d = .ok () d' ∧
      d'.written = d.written ++ texts ∧
      ∀ source, Delivers source (utf8 (String.join texts.toList)) →
        ∀ (reads : Nat) (written : Array String),
          ((inTurn outcomeOf (List.replicate (lines.length + 1) (readUnits (V := V) o))
                { source, reads, written }).1 =
              lines.map .ok ++ [.error (.failure .endOfInput)] ↔
            ∀ line ∈ lines, line.Paired ∧ 0x0A ∉ line ∧
              (o.trimCarriageReturn = true → ¬ [0x0D] <:+ line)) := by
  refine ⟨_, (lines.map lineText).toArray, forM_writeUnits lines d, rfl, ?_⟩
  intro source hsource reads written
  have htext : String.join (lines.map lineText) = ofLines (lines.map Units.toText) := by
    rw [ofLines, List.map_map]
    rfl
  rw [List.toList_toArray, htext] at hsource
  have hcalls := outcomes_ofLines_iff (V := V) hend (lines.map Units.toText)
  rw [List.length_map, List.forall_mem_map] at hcalls
  rw [readUnits, inTurn_replicate_map,
    outcomes_of_owes (lines.length + 1) (owes_of_delivers hsource), map_ofText_eq_iff, hcalls,
    ← forall₂_and]
  exact forall₂_congr fun line _ => and_comm.trans LineOptions.keepsUnits_iff.symm

/-- An empty line, a carriage return inside a line and a character that is cut in two all come back;
a carriage return at the end does not, unless it is left alone. -/
theorem reads_back_iff_cut :
    let source : List Delivery := [.bytes [0x0A, 0x61, 0x0D, 0xC3], .bytes [0xA9, 0x0A]]
    let ending : List Delivery := [.bytes [0x61, 0x0D], .bytes [0x0A]]
    Delivers source (utf8 (String.join ["\n", "a\ré\n"])) ∧
      Delivers ending (utf8 (String.join ["a\r\n"])) ∧
      (inTurn outcomeOf (List.replicate 3 (readUnits (V := Empty) {})) { source }).1 =
        [.ok [], .ok [0x61, 0x0D, 0xE9], .error (.failure .endOfInput)] ∧
      (inTurn outcomeOf (List.replicate 2 (readUnits (V := Empty) {})) { source := ending }).1 ≠
        [.ok [0x61, 0x0D], .error (.failure .endOfInput)] ∧
      (inTurn outcomeOf (List.replicate 2
          (readUnits (V := Empty) { trimCarriageReturn := false })) { source := ending }).1 =
        [.ok [0x61, 0x0D], .error (.failure .endOfInput)] := by
  intro source ending
  have hbytes : utf8 (String.join ["\n", "a\ré\n"]) =
      [0x0A, 0x61, 0x0D, 0xC3] ++ ([0xA9, 0x0A] ++ []) := by decide
  have hending : utf8 (String.join ["a\r\n"]) = [0x61, 0x0D] ++ ([0x0A] ++ []) := by decide
  have hsource : Delivers source (utf8 (String.join ["\n", "a\ré\n"])) :=
    hbytes ▸ .chunk (by decide) (.chunk (by decide) .exhausted)
  have hsource' : Delivers ending (utf8 (String.join ["a\r\n"])) :=
    hending ▸ .chunk (by decide) (.chunk (by decide) .exhausted)
  obtain ⟨_, texts, hwrites, htexts, hlines⟩ :=
    reads_back_iff (V := Empty) {} rfl [[], [0x61, 0x0D, 0xE9]] { source := [] }
  obtain ⟨_, texts', hwrites', htexts', htrimmed⟩ :=
    reads_back_iff (V := Empty) {} rfl [[0x61, 0x0D]] { source := [] }
  obtain ⟨_, texts'', hwrites'', htexts'', hleft⟩ :=
    reads_back_iff (V := Empty) { trimCarriageReturn := false } rfl [[0x61, 0x0D]] { source := [] }
  cases hwrites
  cases hwrites'
  cases hwrites''
  have hempty : Units.toText [] ++ "\n" = "\n" := by decide
  have hinside : Units.toText [0x61, 0x0D, 0xE9] ++ "\n" = "a\ré\n" := by decide
  have hreturn : Units.toText [0x61, 0x0D] ++ "\n" = "a\r\n" := by decide
  obtain rfl : texts = #["\n", "a\ré\n"] := by simpa [hempty, hinside] using htexts.symm
  obtain rfl : texts' = #["a\r\n"] := by simpa [hreturn] using htexts'.symm
  obtain rfl : texts'' = #["a\r\n"] := by simpa [hreturn] using htexts''.symm
  refine ⟨hsource, hsource', (hlines source hsource 0 #[]).2 (by decide), fun hback => ?_,
    (hleft ending hsource' 0 #[]).2 (by decide)⟩
  have hkept := (htrimmed ending hsource' 0 #[]).1 hback [0x61, 0x0D] List.mem_cons_self
  exact hkept.2.2 rfl (by decide)

/-- Half of a pair that stands alone does not come back, in a line without a newline and without a
carriage return: its replacement is written. -/
theorem reads_back_half :
    let line : Units := [0xD800]
    let source : List Delivery := [.bytes [0xEF, 0xBF, 0xBD, 0x0A]]
    0x0A ∉ line ∧ ¬ [0x0D] <:+ line ∧
      (∃ d, writeUnits (V := Empty) line { source := [] } = .ok () d ∧
        d.written = #["\uFFFD\n"]) ∧
      Delivers source (utf8 "\uFFFD\n") ∧
      (inTurn outcomeOf (List.replicate 2 (readUnits (V := Empty) {})) { source }).1 =
        [.ok [0xFFFD], .error (.failure .endOfInput)] := by
  intro line source
  have hbytes : utf8 "\uFFFD\n" = [0xEF, 0xBF, 0xBD, 0x0A] ++ [] := by decide
  have hsource : Delivers source (utf8 "\uFFFD\n") := by
    rw [hbytes]
    exact .chunk (by decide) .exhausted
  exact ⟨by decide, by decide, ⟨_, rfl, by decide⟩, hsource, rfl⟩

end Device

end Teletype
