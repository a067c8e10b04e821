import Teletype.Proofs.Settings.Variables

/-!
# A name for each path

A path of camel-case keys has a name among the variables: in each key an underscore goes before each
capital, all letters become capitals, and two underscores go between keys. A key in a name never
ends with an underscore, and no underscore in it stands before another one (`lowered`). So the name,
cut from the left at double underscores, comes apart where it was joined, also where a key begins
with a capital and three underscores stand in a row; and then each underscore that is left makes a
capital.
-/

namespace Teletype

namespace Text

variable {c : Char}

theorem forall_ascii {P : Char → Prop} (h : ∀ n < 128, P (Char.ofNat n)) (hc : c.toNat < 128) :
    P c := by
  have hn := h c.toNat hc
  rwa [Char.ofNat_toNat] at hn

theorem toNat_lt_of_isAlphanum (h : c.isAlphanum = true) : c.toNat < 128 := by
  have hclass : ((c.isUpper || c.isLower) || c.isDigit) = true := h
  have hlast : c.val ≤ 'z'.val := by
    rcases Bool.or_eq_true_iff.1 hclass with hletter | hdigit
    · rcases Bool.or_eq_true_iff.1 hletter with hupper | hlower
      · exact UInt32.le_trans (of_decide_eq_true hupper).2 (by decide)
      · exact of_decide_eq_true (Bool.and_eq_true_iff.1 hlower).2
    · exact UInt32.le_trans (of_decide_eq_true (Bool.and_eq_true_iff.1 hdigit).2) (by decide)
  exact Nat.lt_of_le_of_lt (UInt32.le_iff_toNat_le.1 hlast) (by decide)

theorem ne_of_isAlphanum (h : c.isAlphanum = true) : c ≠ '_' ∧ c ≠ '.' := by
  constructor
  · rintro rfl
    exact absurd h (by decide)
  · rintro rfl
    exact absurd h (by decide)

end Text

namespace Settings

open Text

/-- A key as it stands in the name of a variable: an underscore before each capital, and then all
in capitals. -/
def spelled (key : List Char) : List Char :=
  (key.flatMap fun c => if c.isUpper then ['_', c] else [c]).map upper

/-- The variable that sets a path. -/
def variableName (path : Path) : String :=
  variableMark ++ "__".intercalate (path.map fun key => String.ofList (spelled key.toList))

/-- A character of a key as it stands in a name in lower case. -/
def lowered (c : Char) : List Char := if c.isUpper then ['_', lower c] else [c]

variable {c : Char} {key rest : List Char} {keys : List (List Char)}

/-! ## Character by character -/

theorem map_lower_letter (h : c.isAlphanum = true) :
    ((if c.isUpper then ['_', c] else [c]).map upper).map lower = lowered c := by
  refine forall_ascii (P := fun c => c.isAlphanum = true →
    ((if c.isUpper then ['_', c] else [c]).map upper).map lower = lowered c) ?_
    (toNat_lt_of_isAlphanum h) h
  decide +kernel

/-- A capital that was made a small letter becomes the capital again. -/
theorem lower_of_isUpper (h : c.isAlphanum = true) (hc : c.isUpper = true) :
    isJoint (lower c) = true ∧ upper (lower c) = c ∧ lower c ≠ '_' := by
  refine forall_ascii (P := fun c => c.isUpper = true →
    isJoint (lower c) = true ∧ upper (lower c) = c ∧ lower c ≠ '_') ?_
    (toNat_lt_of_isAlphanum h) hc
  decide +kernel

theorem map_lower_spelled (h : ∀ c ∈ key, c.isAlphanum = true) :
    (spelled key).map lower = key.flatMap lowered := by
  induction key with
  | nil => rfl
  | cons c key ih =>
    obtain ⟨hc, hkey⟩ := List.forall_mem_cons.1 h
    have hrest := ih hkey
    rw [spelled] at hrest ⊢
    rw [List.flatMap_cons, List.map_append, List.map_append, hrest, map_lower_letter hc,
      List.flatMap_cons]

/-! ## Cutting at double underscores -/

theorem splitLevels_ne_nil (cs : List Char) : splitLevels cs ≠ [] := by
  unfold splitLevels
  split
  · exact List.cons_ne_nil _ _
  · exact List.cons_ne_nil _ _
  · split <;> exact List.cons_ne_nil _ _

/-- Where no double underscore stands in front, the first character goes to the first part. -/
theorem splitLevels_cons (h : ∀ cs, c :: rest ≠ '_' :: '_' :: cs) :
    splitLevels (c :: rest) = (splitLevels rest).modifyHead (c :: ·) := by
  obtain ⟨part, parts, hrest⟩ := List.exists_cons_of_ne_nil (splitLevels_ne_nil rest)
  rw [splitLevels, hrest]
  · rfl
  · intro cs hc hcs
    exact h cs (by rw [hc, hcs])

/-- A key goes to the first part as a whole, whatever stands behind it. -/
theorem splitLevels_append (h : ∀ c ∈ key, c.isAlphanum = true) (rest : List Char) :
    splitLevels (key.flatMap lowered ++ rest) =
      (splitLevels rest).modifyHead (key.flatMap lowered ++ ·) := by
  induction key with
  | nil => exact (congrFun List.modifyHead_id (splitLevels rest)).symm
  | cons c key ih =>
    obtain ⟨hc, hkey⟩ := List.forall_mem_cons.1 h
    rw [List.flatMap_cons, List.append_assoc, lowered]
    cases hupper : c.isUpper with
    | true =>
      have hletter : lower c ≠ '_' := (lower_of_isUpper hc hupper).2.2
      rw [if_pos rfl, List.cons_append, List.cons_append, List.nil_append,
        splitLevels_cons fun cs hcs => hletter (List.cons.inj (List.cons.inj hcs).2).1,
        splitLevels_cons fun cs hcs => hletter (List.cons.inj hcs).1, ih hkey,
        List.modifyHead_modifyHead, List.modifyHead_modifyHead]
      rfl
    | false =>
      have hletter : c ≠ '_' := (ne_of_isAlphanum hc).1
      rw [if_neg Bool.false_ne_true, List.cons_append, List.nil_append,
        splitLevels_cons fun cs hcs => hletter (List.cons.inj hcs).1, ih hkey,
        List.modifyHead_modifyHead]
      rfl

/-- **A name comes apart where it was joined.** -/
theorem splitLevels_intercalate (hne : keys ≠ [])
    (h : ∀ key ∈ keys, ∀ c ∈ key, c.isAlphanum = true) :
    splitLevels (['_', '_'].intercalate (keys.map (·.flatMap lowered))) =
      keys.map (·.flatMap lowered) := by
  induction keys with
  | nil => exact absurd rfl hne
  | cons key keys ih =>
    obtain ⟨hkey, hkeys⟩ := List.forall_mem_cons.1 h
    by_cases hlast : keys = []
    · subst hlast
      have hparts := splitLevels_append hkey []
      rw [List.append_nil] at hparts
      rw [List.map_singleton, List.intercalate_singleton, hparts]
      show [key.flatMap lowered ++ []] = _
      rw [List.append_nil]
    · rw [List.map_cons, List.intercalate_cons_of_ne_nil (by simpa using hlast),
        List.append_assoc, splitLevels_append hkey, List.cons_append, List.cons_append,
        List.nil_append, splitLevels, ih hlast hkeys, List.modifyHead_cons, List.append_nil]

/-! ## Making capitals -/

theorem camelCase_cons (h : c ≠ '_') (rest : List Char) :
    camelCase (c :: rest) = c :: camelCase rest := by
  rw [camelCase]
  · exact fun hc _ => h hc
  · exact fun _ _ hc _ => h hc

/-- **Each underscore of a key makes the capital that it was put before.** -/
theorem camelCase_flatMap_lowered (h : ∀ c ∈ key, c.isAlphanum = true) :
    camelCase (key.flatMap lowered) = key := by
  induction key with
  | nil => rfl
  | cons c key ih =>
    obtain ⟨hc, hkey⟩ := List.forall_mem_cons.1 h
    rw [List.flatMap_cons, lowered]
    cases hupper : c.isUpper with
    | true =>
      obtain ⟨hjoint, hcapital, -⟩ := lower_of_isUpper hc hupper
      rw [if_pos rfl, List.cons_append, List.cons_append, List.nil_append, camelCase, if_pos hjoint,
        hcapital, ih hkey]
    | false =>
      rw [if_neg Bool.false_ne_true, List.cons_append, List.nil_append,
        camelCase_cons (ne_of_isAlphanum hc).1, ih hkey]

/-! ## Whole names -/

theorem map_intercalate {α β : Type} (f : α → β) (sep : List α) (parts : List (List α)) :
    (sep.intercalate parts).map f = (sep.map f).intercalate (parts.map (·.map f)) := by
  induction parts with
  | nil => rfl
  | cons part parts ih =>
    by_cases hlast : parts = []
    · subst hlast
      rw [List.map_singleton, List.intercalate_singleton, List.intercalate_singleton]
    · rw [List.map_cons, List.intercalate_cons_of_ne_nil hlast,
        List.intercalate_cons_of_ne_nil (by simpa using hlast), ← ih, List.map_append,
        List.map_append]

/-- The name of a path in lower case, behind the mark: its keys, with underscores before capitals
and two of them between keys. -/
theorem map_lower_variableName {path : Path}
    (h : ∀ key ∈ path, ∀ c ∈ key.toList, c.isAlphanum = true) :
    ∃ rest, (variableName path).toList = variableMark.toList ++ rest ∧
      rest.map lower =
        ['_', '_'].intercalate ((path.map String.toList).map (·.flatMap lowered)) := by
  refine ⟨_, String.toList_append, ?_⟩
  have hkeys : (path.map fun key => String.ofList (spelled key.toList)).map String.toList =
      path.map fun key => spelled key.toList := by
    rw [List.map_map]
    exact List.map_congr_left fun key _ => String.toList_ofList
  rw [String.toList_intercalate, hkeys, map_intercalate]
  show ['_', '_'].intercalate _ = _
  rw [List.map_map, List.map_map]
  congr 1
  exact List.map_congr_left fun key hkey => map_lower_spelled (h key hkey)

/-- The name of a path is read as the path. -/
theorem variablePath?_name {path : Path} (hne : path ≠ [])
    (h : ∀ key ∈ path, ∀ c ∈ key.toList, c.isAlphanum = true) :
    variablePath? (variableName path) = some path := by
  obtain ⟨rest, hname, hrest⟩ := map_lower_variableName h
  have hkeys : ∀ key ∈ path.map String.toList, ∀ c ∈ key, c.isAlphanum = true :=
    List.forall_mem_map.2 h
  have hcut : ((splitLevels (rest.map lower)).map camelCase) = path.map String.toList := by
    rw [hrest, splitLevels_intercalate (by simpa using hne) hkeys, List.map_map]
    exact (List.map_congr_left fun key hkey => camelCase_flatMap_lowered (hkeys key hkey)).trans
      (List.map_id _)
  have hpoints : ∀ key ∈ path.map String.toList, '.' ∉ key :=
    fun key hkey hpoint => (ne_of_isAlphanum (hkeys key hkey '.' hpoint)).2 rfl
  rw [variablePath?_of_append hname, hcut,
    List.splitOn_intercalate '.' hpoints (by simpa using hne), path.map_ofList_toList]

/-- **Every path of camel-case keys can be set by a variable.** Its name is read as exactly that
path; and where it is the only setting among the variables, the layer holds its value at that path
and nothing else, and over any file that can be read, the store answers for the path what the value
says. No key may be named like a member that every record has. -/
theorem variable_reaches_path {path : Path} (hne : path ≠ [])
    (h : ∀ key ∈ path, key ≠ "" ∧ ∀ c ∈ key.toList, c.isAlphanum = true) (hkeys : path.Ordinary) :
    variablePath? (variableName path) = some path ∧
      ∀ (value : String) (sources : Sources) (store : Store) (layer : Option (String × Fields)),
        sources.environment.settings = [(variableName path, value)] → store.loaded = false →
        fileLayer (sources.search store.searchFrom?) = .ok layer →
        environmentLayer sources.environment = setAt path (variableValue value) [] ∧
          ∃ store', Store.get sources path.text store = .ok (variableValue value) store' ∧
            ∀ sources', Store.get sources' path.text store' = .ok (variableValue value) store' := by
  have hpath : variablePath? (variableName path) = some path :=
    variablePath?_name hne fun key hkey => (h key hkey).2
  refine ⟨hpath, fun value sources store layer honly hloaded hfile => ?_⟩
  have hlayer : environmentLayer sources.environment = setAt path (variableValue value) [] := by
    rw [← environmentLayer_settings, honly]
    exact applyVariable_of_path hpath []
  have hordinary : Ordinary (.record (environmentLayer sources.environment)) := by
    rw [hlayer]
    exact ordinary_setAt hkeys (ordinary_variableValue value).1 .nil
  have hfind : find? path (.record (environmentLayer sources.environment)) =
      some (variableValue value) := by
    rw [hlayer, find?_setAt_self hne]
  exact ⟨hlayer, exists_get_of_find? hordinary hfind (ordinary_variableValue value).2
    (ofText_of_variablePath? hpath) hloaded hfile⟩

/-- Capitals in a row, a digit between letters and a key that begins with a capital. -/
theorem variable_reaches_path_capitals :
    let path : Path := ["lineIO2b", "URLMap", "x"]
    let sources : Sources := ⟨fun _ => .ok none, [("HOME", "/"), (variableName path, "true")]⟩
    variableName path = "LINEIO_LINE_I_O2B___U_R_L_MAP__X" ∧
      variablePath? "LINEIO_LINE_I_O2B___U_R_L_MAP__X" = some path ∧
      ∃ store', Store.get sources "lineIO2b.URLMap.x" {} = .ok (.bool true) store' := by
  intro path sources
  have hname : variableName path = "LINEIO_LINE_I_O2B___U_R_L_MAP__X" := by decide
  have hne : path ≠ [] := List.cons_ne_nil _ _
  have hall : path.all (fun key => key != "" && key.toList.all Char.isAlphanum) = true := by decide
  have hkeys : ∀ key ∈ path, key ≠ "" ∧ ∀ c ∈ key.toList, c.isAlphanum = true := by
    simpa only [List.all_eq_true, Bool.and_eq_true, bne_iff_ne] using hall
  have hordinary : path.Ordinary := by decide
  obtain ⟨hpath, hreaches⟩ := variable_reaches_path hne hkeys hordinary
  obtain ⟨-, store', hget, -⟩ := hreaches "true" sources {} none (by decide) rfl rfl
  rw [hname] at hpath
  exact ⟨hname, hpath, store', hget⟩

end Settings

end Teletype
