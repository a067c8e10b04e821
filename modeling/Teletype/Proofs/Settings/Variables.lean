import Teletype.Proofs.Settings.History
import Teletype.Proofs.Settings.Placing

/-!
# Settings in variables

Each variable that is a setting places its value at a path. Where no two of the paths go through one
another (`Clear`), it does not matter in which order the variables stand, and each value is found at
its path: the placements behind it are apart from it, and no layer below reaches through the
environment, since what a variable holds is never a record. That is for variables with names in
ASCII and paths that have no key in common with all records (`Usual`): letters beyond may change
otherwise than here when they are put in lower case, and such a key is read as the member that
every record has.
-/

namespace Teletype

namespace Text

variable {mark : Char} {cs part : List Char}

/-- No part holds the mark. -/
theorem not_mem_of_mem_splitOn (h : part ∈ cs.splitOn mark) : mark ∉ part := by
  induction cs generalizing part with
  | nil =>
    rw [List.mem_singleton.1 h]
    exact List.not_mem_nil
  | cons c rest ih =>
    rw [List.splitOn_cons_eq_if_modifyHead] at h
    split at h
    · rcases List.mem_cons.1 h with rfl | h
      · exact List.not_mem_nil
      · exact ih h
    case isFalse hc =>
      obtain ⟨first, parts, hrest⟩ :=
        List.exists_cons_of_ne_nil (List.splitOn_ne_nil mark rest)
      rw [hrest, List.modifyHead_cons] at h
      rcases List.mem_cons.1 h with rfl | h
      · have hfirst : mark ∉ first := ih (hrest ▸ List.mem_cons_self)
        intro hm
        rcases List.mem_cons.1 hm with rfl | hm
        · exact hc (beq_self_eq_true mark)
        · exact hfirst hm
      · exact ih (hrest ▸ List.mem_cons_of_mem first h)

end Text

namespace Settings

/-! ## Paths as texts -/

/-- A path with points between its keys. -/
def Path.text (path : Path) : String := ".".intercalate path

theorem Path.map_ofList_toList (path : Path) :
    (path.map String.toList).map String.ofList = path := by
  rw [List.map_map]
  exact (List.map_congr_left fun key _ => String.ofList_toList).trans (List.map_id path)

theorem Path.ofText_text {path : Path} (hne : path ≠ [])
    (h : ∀ key ∈ path, '.' ∉ key.toList) : Path.ofText path.text = path := by
  have hparts : ∀ part ∈ path.map String.toList, '.' ∉ part := List.forall_mem_map.2 h
  rw [Path.ofText, Path.text, String.toList_intercalate]
  show ((['.'].intercalate _).splitOn '.').map _ = _
  rw [List.splitOn_intercalate '.' hparts (by simpa using hne), path.map_ofList_toList]

/-! ## Which variables are settings -/

/-- Whether the name of a variable marks it as a setting. -/
def isSetting (name : String) : Bool := variableMark.toList.isPrefixOf name.toList

/-- The variables that are settings. -/
def Environment.settings (env : Environment) : Environment := env.filter (isSetting ·.1)

variable {env env' : Environment} {entry x y : String × String} {name value : String} {path : Path}
  {fields : Fields}

theorem afterMark?_append (mark rest : List Char) : afterMark? mark (mark ++ rest) = some rest := by
  induction mark with
  | nil => rfl
  | cons m mark ih => rw [List.cons_append, afterMark?, if_pos rfl, ih]

theorem afterMark?_eq_none {mark name : List Char} (h : ¬ mark <+: name) :
    afterMark? mark name = none := by
  induction mark generalizing name with
  | nil => exact absurd List.nil_prefix h
  | cons m mark ih =>
    cases name with
    | nil => rfl
    | cons c name =>
      rw [afterMark?]
      split
      case isTrue hc => exact ih fun hp => h (List.cons_prefix_cons.2 ⟨hc, hp⟩)
      case isFalse => rfl

/-- The path of a variable whose name goes on like this behind the mark. -/
theorem variablePath?_of_append {rest : List Char} (h : name.toList = variableMark.toList ++ rest) :
    variablePath? name = some (((['.'].intercalate
      ((splitLevels (rest.map Text.lower)).map camelCase)).splitOn '.').map String.ofList) := by
  have hrest := afterMark?_append variableMark.toList rest
  rw [← h] at hrest
  rw [variablePath?, hrest]
  rfl

/-- **A variable places a value exactly if it is a setting.** -/
theorem variablePath?_isSome (name : String) : (variablePath? name).isSome = isSetting name := by
  cases h : isSetting name with
  | true =>
    obtain ⟨rest, hrest⟩ := List.isPrefixOf_iff_prefix.1 h
    rw [variablePath?_of_append hrest.symm, Option.isSome_some]
  | false =>
    have hnone : ¬ variableMark.toList <+: name.toList := by
      rw [← List.isPrefixOf_iff_prefix]
      exact Bool.eq_false_iff.1 h
    rw [variablePath?, afterMark?_eq_none hnone]
    rfl

theorem isSetting_of_variablePath? (h : variablePath? name = some path) :
    isSetting name = true := by
  rw [← variablePath?_isSome, h, Option.isSome_some]

/-- The path of a variable is one that can be written with points. -/
theorem ofText_of_variablePath? (h : variablePath? name = some path) :
    Path.ofText path.text = path := by
  obtain ⟨rest, hrest⟩ := List.isPrefixOf_iff_prefix.1 (isSetting_of_variablePath? h)
  rw [variablePath?_of_append hrest.symm] at h
  cases h
  refine Path.ofText_text ?_ ?_
  · simp
  · refine List.forall_mem_map.2 fun part hpart => ?_
    rw [String.toList_ofList]
    exact Text.not_mem_of_mem_splitOn hpart

theorem applyVariable_of_path (h : variablePath? name = some path) (fields : Fields) :
    applyVariable fields (name, value) = setAt path (variableValue value) fields := by
  rw [applyVariable, h]

theorem applyVariable_of_not_isSetting (h : isSetting entry.1 = false) (fields : Fields) :
    applyVariable fields entry = fields := by
  have hnone : variablePath? entry.1 = none := by
    rw [← Option.not_isSome_iff_eq_none, variablePath?_isSome, h]
    exact Bool.false_ne_true
  rw [applyVariable, hnone]

/-- Only settings count. -/
theorem environmentLayer_settings (env : Environment) :
    environmentLayer env.settings = environmentLayer env := by
  rw [environmentLayer, Environment.settings, List.foldl_filter, environmentLayer]
  congr 1
  funext fields entry
  split
  case isTrue => rfl
  case isFalse h => rw [applyVariable_of_not_isSetting (by simpa using h)]

/-! ## Variables that are clear of one another -/

/-- The paths of two variables are apart. -/
def ClearOf (x y : String × String) : Prop :=
  ∀ p q, variablePath? x.1 = some p → variablePath? y.1 = some q → p.Apart q

/-- The settings have names in ASCII, and no key of their paths is named like a member that every
record has. -/
def Environment.Usual (env : Environment) : Prop :=
  ∀ entry ∈ env.settings, (∀ c ∈ entry.1.toList, c.toNat < 128) ∧
    ∀ path, variablePath? entry.1 = some path → path.Ordinary

/-- No path of a setting goes through that of another. -/
def Environment.Clear (env : Environment) : Prop := env.settings.Pairwise ClearOf

theorem clearOf_of_apart {p q : Path} (hx : variablePath? x.1 = some p)
    (hy : variablePath? y.1 = some q) (h : p.Apart q) : ClearOf x y := by
  intro p' q' hp' hq'
  cases hx.symm.trans hp'
  cases hy.symm.trans hq'
  exact h

theorem ClearOf.symm (h : ClearOf x y) : ClearOf y x := fun p q hp hq => (h q p hq hp).symm

theorem applyVariable_comm (h : ClearOf x y) (fields : Fields) :
    applyVariable (applyVariable fields x) y = applyVariable (applyVariable fields y) x := by
  cases hx : variablePath? x.1 with
  | none => simp only [applyVariable, hx]
  | some p =>
    cases hy : variablePath? y.1 with
    | none => simp only [applyVariable, hx, hy]
    | some q =>
      simp only [applyVariable, hx, hy]
      exact (setAt_comm (h p q hx hy) _ _ fields).symm

/-- **The order of the variables does not matter**, nor do those that are no settings. -/
theorem environmentLayer_of_perm (h : env.Clear) (hperm : env'.settings.Perm env.settings) :
    environmentLayer env' = environmentLayer env := by
  rw [← environmentLayer_settings env', ← environmentLayer_settings env]
  have hclear : env.settings.Pairwise ClearOf := h
  -- Two variables of the list are clear of one another or are the same one.
  have hcomm := List.Pairwise.forall_of_forall_of_flip (l := env.settings)
    (R := fun x y => ∀ fields, applyVariable (applyVariable fields x) y =
      applyVariable (applyVariable fields y) x)
    (fun x _ fields => rfl) (hclear.imp applyVariable_comm)
    (hclear.imp fun hxy => applyVariable_comm hxy.symm)
  exact (hperm.symm.foldl_eq' (fun x hx y hy fields => hcomm hx hy fields) []).symm

/-- Variables whose paths are apart leave alone what is found at a path. -/
theorem find?_foldl_applyVariable (hpath : variablePath? name = some path)
    (h : ∀ other ∈ env, ClearOf (name, value) other) (fields : Fields) :
    find? path (.record (env.foldl applyVariable fields)) = find? path (.record fields) := by
  induction env generalizing fields with
  | nil => rfl
  | cons other rest ih =>
    obtain ⟨hother, hrest⟩ := List.forall_mem_cons.1 h
    rw [List.foldl_cons, ih hrest]
    cases hq : variablePath? other.1 with
    | none => simp only [applyVariable, hq]
    | some q =>
      simp only [applyVariable, hq]
      exact find?_setAt_of_apart (hother path q hpath hq) _ fields

/-- **Each setting is found at its path.** The variables behind it are apart from it; what those in
front of it placed does not matter. -/
theorem find?_environmentLayer (h : env.Clear) (hmem : (name, value) ∈ env)
    (hpath : variablePath? name = some path) :
    find? path (.record (environmentLayer env)) = some (variableValue value) := by
  have hsetting : (name, value) ∈ env.settings :=
    List.mem_filter.2 ⟨hmem, isSetting_of_variablePath? hpath⟩
  obtain ⟨before, after, hsplit⟩ := List.append_of_mem hsetting
  have hclear : env.settings.Pairwise ClearOf := h
  rw [hsplit] at hclear
  have hafter : ∀ other ∈ after, ClearOf (name, value) other :=
    (List.pairwise_cons.1 (List.pairwise_append.1 hclear).2.1).1
  have hne : path ≠ [] := by
    rintro rfl
    have htext : Path.ofText (Path.text []) = [] := ofText_of_variablePath? hpath
    exact absurd htext (by decide)
  rw [← environmentLayer_settings, hsplit, environmentLayer, List.foldl_append, List.foldl_cons,
    find?_foldl_applyVariable hpath hafter, applyVariable_of_path hpath, find?_setAt_self hne]

/-! ## Asking for a setting -/

theorem ordinary_variableValue (value : String) :
    Ordinary (variableValue value) ∧ (variableValue value).isRecord = false := by
  have hrecord : (variableValue value).isRecord = false ∧
      (variableValue value).isHidden = false := by
    unfold variableValue
    split
    · exact ⟨rfl, rfl⟩
    split
    · exact ⟨rfl, rfl⟩
    dsimp only
    split
    · exact ⟨rfl, rfl⟩
    · exact ⟨rfl, rfl⟩
  exact ⟨.leaf hrecord.1 hrecord.2, hrecord.1⟩

/-- The layer of usual settings is ordinary. -/
theorem ordinary_environmentLayer (h : env.Usual) : Ordinary (.record (environmentLayer env)) := by
  have hfold : ∀ (entries : Environment) (fields : Fields),
      (∀ entry ∈ entries, ∀ path, variablePath? entry.1 = some path → path.Ordinary) →
      Ordinary (.record fields) → Ordinary (.record (entries.foldl applyVariable fields)) := by
    intro entries
    induction entries with
    | nil => exact fun fields _ hfields => hfields
    | cons entry rest ih =>
      intro fields hpaths hfields
      obtain ⟨hentry, hrest⟩ := List.forall_mem_cons.1 hpaths
      refine ih _ hrest ?_
      cases hpath : variablePath? entry.1 with
      | none =>
        rw [applyVariable, hpath]
        exact hfields
      | some path =>
        rw [applyVariable, hpath]
        exact ordinary_setAt (hentry path hpath) (ordinary_variableValue entry.2).1 hfields
  rw [← environmentLayer_settings]
  exact hfold env.settings [] (fun entry hentry => (h entry hentry).2) .nil

variable {sources : Sources} {store : Store} {layer : Option (String × Fields)} {v : Datum}

/-- What the environment holds at a path, and is no record, is what the store answers for it, over
any file; and so it is from then on. -/
theorem exists_get_of_find? (hordinary : Ordinary (.record (environmentLayer sources.environment)))
    (hfind : find? path (.record (environmentLayer sources.environment)) = some v)
    (hleaf : v.isRecord = false) (hpath : Path.ofText path.text = path)
    (hloaded : store.loaded = false)
    (hfile : fileLayer (sources.search store.searchFrom?) = .ok layer) :
    ∃ store', Store.get sources path.text store = .ok v store' ∧
      ∀ sources', Store.get sources' path.text store' = .ok v store' := by
  have hvalue : lookUp path (.record (layered
      [defaults, fileFields layer, environmentLayer sources.environment])) = v := by
    have hlayers := layered_concat_of_ne_nil (List.cons_ne_nil defaults [fileFields layer])
      (environmentLayer sources.environment)
    rw [List.cons_append, List.singleton_append] at hlayers
    rw [hlayers, ← overlay_record]
    exact lookUp_overlay_of_leaf hfind hleaf hordinary _
  have hreads := reads_fileLayer (sources.search store.searchFrom?)
  rw [hfile] at hreads
  have hload := load_of_ok hloaded hreads
  have hget : Store.get sources path.text store = _ := get_of_load hload
  rw [hpath] at hget
  refine ⟨_, hget.trans (congrArg (EStateM.Result.ok · _) hvalue), fun sources' => ?_⟩
  have hagain : Store.get sources' path.text _ = _ :=
    get_of_load (load_of_loaded (loaded_of_load hload))
  rw [hpath] at hagain
  exact hagain.trans (congrArg (EStateM.Result.ok · _) hvalue)

/-- **Settings in variables do not depend on their order and do not shadow one another.** Let the
settings be usual, and let no path of one go through that of another. Then the layer is the same in
whatever order the settings stand and whatever other variables there are; and over any file that can
be read, the store answers for the path of each setting what its value says, at once and from then
on. -/
theorem environment_of_clear {env : Environment} (husual : env.Usual) (h : env.Clear) :
    (∀ env' : Environment, env'.settings.Perm env.settings →
      environmentLayer env' = environmentLayer env) ∧
    ∀ name value, (name, value) ∈ env → isSetting name = true →
      ∃ path, variablePath? name = some path ∧
        ∀ (sources : Sources) (store : Store) (layer : Option (String × Fields)),
          sources.environment.settings.Perm env.settings → store.loaded = false →
          fileLayer (sources.search store.searchFrom?) = .ok layer →
          ∃ store', Store.get sources path.text store = .ok (variableValue value) store' ∧
            ∀ sources', Store.get sources' path.text store' = .ok (variableValue value) store' := by
  refine ⟨fun env' hperm => environmentLayer_of_perm h hperm, fun name value hmem hsetting => ?_⟩
  rw [← variablePath?_isSome] at hsetting
  obtain ⟨path, hpath⟩ := Option.isSome_iff_exists.1 hsetting
  refine ⟨path, hpath, fun sources store layer hperm hloaded hfile => ?_⟩
  have hsame := environmentLayer_of_perm h hperm
  have hordinary : Ordinary (.record (environmentLayer sources.environment)) := by
    rw [hsame]
    exact ordinary_environmentLayer husual
  have hfind : find? path (.record (environmentLayer sources.environment)) =
      some (variableValue value) := by
    rw [hsame]
    exact find?_environmentLayer h hmem hpath
  exact exists_get_of_find? hordinary hfind (ordinary_variableValue value).2
    (ofText_of_variablePath? hpath) hloaded hfile

/-- Two settings share a record, which the file does not have, and they stand the other way round
with another variable between them. -/
theorem environment_of_clear_terminal :
    let env : Environment := [("LINEIO_DEBUG", "1"), ("LINEIO_TERMINAL__END_OF_INPUT", "empty"),
      ("LINEIO_TERMINAL__PROMPT__WIDTH", "07")]
    let env' : Environment := [("LINEIO_TERMINAL__PROMPT__WIDTH", "07"), ("LINEIO", "x"),
      ("LINEIO_TERMINAL__END_OF_INPUT", "empty"), ("LINEIO_DEBUG", "1")]
    let sources : Sources :=
      ⟨fun _ => .ok (some ("/.lineiorc", .record [("terminal", .text "plain")])), env'⟩
    env.Usual ∧ env.Clear ∧ env'.settings.Perm env.settings ∧
      environmentLayer env' = environmentLayer env ∧
      ∃ store', Store.get sources "terminal.endOfInput" {} = .ok (.text "empty") store' ∧
        ∀ sources',
          Store.get sources' "terminal.endOfInput" store' = .ok (.text "empty") store' := by
  intro env env' sources
  have hdebug : variablePath? "LINEIO_DEBUG" = some ["debug"] := by decide
  have hend : variablePath? "LINEIO_TERMINAL__END_OF_INPUT" = some ["terminal", "endOfInput"] := by
    decide
  have hwidth : variablePath? "LINEIO_TERMINAL__PROMPT__WIDTH" =
      some ["terminal", "prompt", "width"] := by decide
  have hsettings : env.settings = env := by decide
  have hordinary : ∀ {name : String} {p : Path}, variablePath? name = some p → p.Ordinary →
      ∀ path, variablePath? name = some path → path.Ordinary := by
    intro name p hp hkeys path hpath
    cases hp.symm.trans hpath
    exact hkeys
  have husual : env.Usual := by
    simp only [Environment.Usual, hsettings, env, List.forall_mem_cons]
    exact ⟨⟨by simp, hordinary hdebug (by decide)⟩, ⟨by simp, hordinary hend (by decide)⟩,
      ⟨by simp, hordinary hwidth (by decide)⟩, nofun⟩
  have hclear : env.Clear := by
    simp only [Environment.Clear, hsettings, env, List.pairwise_cons, List.forall_mem_cons]
    exact ⟨⟨clearOf_of_apart hdebug hend ⟨by decide, by decide⟩,
      clearOf_of_apart hdebug hwidth ⟨by decide, by decide⟩, nofun⟩,
      ⟨clearOf_of_apart hend hwidth ⟨by decide, by decide⟩, nofun⟩, nofun, .nil⟩
  have hperm : env'.settings.Perm env.settings := by decide
  obtain ⟨hsame, hget⟩ := environment_of_clear husual hclear
  obtain ⟨path, hpath, hanswers⟩ :=
    hget "LINEIO_TERMINAL__END_OF_INPUT" "empty" (by decide) (by decide)
  cases hend.symm.trans hpath
  exact ⟨husual, hclear, hperm, hsame env' hperm, hanswers sources {} _ hperm rfl rfl⟩

end Settings

end Teletype
