/-!
# The lines of a text

`pieces` says which lines a text has, by splitting it at its newlines: a text that ends with a
newline has no further, empty line behind it, and a last line without a newline is one all the same.
`ofLines` goes the other way, and writes a newline behind each line. Nothing here speaks of how the
text arrives.
-/

namespace Teletype.Text

/-- The pieces between the newlines; behind a final newline there is none. -/
def pieces (text : List Char) : List (List Char) :=
  if (text.splitOn '\n').getLast? = some [] then (text.splitOn '\n').dropLast
  else text.splitOn '\n'

theorem pieces_nil : pieces [] = [] := rfl

/-- The line in front of the first newline is the first piece. -/
theorem pieces_append_newline {line : List Char} (h : '\n' ∉ line) (rest : List Char) :
    pieces (line ++ '\n' :: rest) = line :: pieces rest := by
  have hsplit : (line ++ '\n' :: rest).splitOn '\n' = line :: rest.splitOn '\n' :=
    List.splitOn_append_cons_self_of_not_mem h rest
  obtain ⟨first, others, hrest⟩ := List.exists_cons_of_ne_nil (List.splitOn_ne_nil '\n' rest)
  rw [pieces, pieces, hsplit, hrest, List.getLast?_cons_cons]
  split
  · rw [List.dropLast_cons_of_ne_nil (List.cons_ne_nil first others)]
  · rfl

/-- What stands behind the last newline is a piece if it is anything at all. -/
theorem pieces_of_not_mem {line : List Char} (h : '\n' ∉ line) (hne : line ≠ []) :
    pieces line = [line] := by
  rw [pieces, List.splitOn_eq_singleton h, List.getLast?_singleton, if_neg]
  exact fun he => hne (Option.some.inj he)

/-- No piece holds a newline. The induction takes the text apart at its first newline. -/
theorem not_mem_of_mem_pieces {text piece : List Char} (h : piece ∈ pieces text) :
    '\n' ∉ piece := by
  induction hlength : text.length using Nat.strongRecOn generalizing text with
  | ind n ih =>
    by_cases hm : '\n' ∈ text
    · obtain ⟨line, rest, rfl, hline⟩ := List.eq_append_cons_of_mem hm
      rw [pieces_append_newline hline] at h
      rcases List.mem_cons.1 h with rfl | hrest
      · exact hline
      · have hshorter : rest.length < n := by
          rw [← hlength, List.length_append, List.length_cons]
          omega
        exact ih rest.length hshorter hrest rfl
    · by_cases hne : text = []
      · subst hne
        cases h
      · rw [pieces_of_not_mem hm hne, List.mem_singleton] at h
        exact h ▸ hm

/-- A text with so many newlines begins with so many lines, and they are its first pieces. -/
theorem exists_lines_of_le_count {n : Nat} {text : List Char} (h : n ≤ text.count '\n') :
    ∃ lines rest, lines.length = n ∧ (∀ line ∈ lines, '\n' ∉ line) ∧
      text = lines.flatMap (· ++ ['\n']) ++ rest ∧ pieces text = lines ++ pieces rest := by
  induction n generalizing text with
  | zero => exact ⟨[], text, rfl, nofun, rfl, rfl⟩
  | succ n ih =>
    obtain ⟨line, rest, rfl, hline⟩ :=
      List.eq_append_cons_of_mem (List.count_pos_iff.1 (Nat.lt_of_lt_of_le n.succ_pos h))
    have hcount : n ≤ rest.count '\n' := by
      rw [List.count_append, List.count_eq_zero.2 hline, List.count_cons_self] at h
      omega
    obtain ⟨lines, rest', hlength, hlines, rfl, hpieces⟩ := ih hcount
    refine ⟨line :: lines, rest', by rw [List.length_cons, hlength],
      List.forall_mem_cons.2 ⟨hline, hlines⟩, ?_, ?_⟩
    · rw [List.flatMap_cons, List.append_assoc, List.append_assoc]
      rfl
    · rw [pieces_append_newline hline, hpieces, List.cons_append]

/-! ## The text of lines -/

/-- The text that holds the lines, each with a newline behind it. -/
def ofLines (lines : List String) : String := String.join (lines.map (· ++ "\n"))

theorem toList_ofLines_cons (line : String) (lines : List String) :
    (ofLines (line :: lines)).toList = line.toList ++ '\n' :: (ofLines lines).toList := by
  simp only [ofLines, List.map_cons, String.join_cons, String.toList_append, List.append_assoc]
  rfl

/-- Lines that hold no newline are the pieces of their text. -/
theorem pieces_ofLines {lines : List String} (h : ∀ line ∈ lines, '\n' ∉ line.toList) :
    pieces (ofLines lines).toList = lines.map String.toList := by
  induction lines with
  | nil => rfl
  | cons line lines ih =>
    have hline : '\n' ∉ line.toList := h line List.mem_cons_self
    have hlines := ih fun other hother => h other (List.mem_cons_of_mem line hother)
    rw [toList_ofLines_cons, pieces_append_newline hline, hlines, List.map_cons]

end Teletype.Text
