import Teletype.Proofs.Settings.Merging

/-!
# Walks along a path

A walk follows a path through the records of a value. It arrives at the last key; or something that
is no record bars the way; or a record does not have the next key. A key with the value `undefined`
is not missing, and bars the way to what would stand below it.

What a record merged from ordinary ones has along a path is decided by the walk in the upper of the
two (`find?_overlay_eq`). Where it arrives, the value there counts, over what the lower one has
there; where it is barred, nothing is found, whatever the lower one has; and only where a key is
missing does the lower one count alone. Looking up follows this, and only loses the difference
between `undefined` at the end of a path and a path without an end. What is no record in the upper
one is found over any record at all (`lookUp_merge_of_leaf`).
-/

namespace Teletype.Settings

variable {a b d v : Datum} {fields : Fields} {key : String} {path rest : Path}

/-- How a walk along a path ends. -/
inductive Walk where
  /-- The last key is there, and this is its value. -/
  | arrives (value : Datum)
  /-- Something that is no record is in the way. -/
  | barred
  /-- A record on the way does not have the next key. -/
  | missing

def walk : Path → Datum → Walk
  | [], d => .arrives d
  | key :: rest, .record fields =>
    match Fields.get? fields key with
    | some v => walk rest v
    | none => .missing
  | _ :: _, _ => .barred

/-- Induction along a path: at each key there is no record, or none that has the key, or the walk
goes on from the value of the key. -/
@[elab_as_elim]
theorem walk_induct {motive : Path → Datum → Prop} (arrive : ∀ d, motive [] d)
    (bar : ∀ key rest d, d.isRecord = false → motive (key :: rest) d)
    (miss : ∀ key rest fields, Fields.get? fields key = none →
      motive (key :: rest) (.record fields))
    (step : ∀ key rest fields v, Fields.get? fields key = some v → motive rest v →
      motive (key :: rest) (.record fields))
    (path : Path) (d : Datum) : motive path d := by
  induction path generalizing d with
  | nil => exact arrive d
  | cons key rest ih =>
    cases hd : d.isRecord with
    | false => exact bar key rest d hd
    | true =>
      obtain ⟨fields, rfl⟩ := Datum.eq_record_of_isRecord hd
      cases hkey : Fields.get? fields key with
      | none => exact miss key rest fields hkey
      | some v => exact step key rest fields v hkey (ih v)

theorem walk_of_not_isRecord (h : d.isRecord = false) (key : String) (rest : Path) :
    walk (key :: rest) d = .barred := by
  cases d with
  | record => cases h
  | _ => rfl

section

variable (rest)

theorem walk_of_some (h : Fields.get? fields key = some v) :
    walk (key :: rest) (.record fields) = walk rest v := by
  simp only [walk, h]

theorem walk_of_none (h : Fields.get? fields key = none) :
    walk (key :: rest) (.record fields) = .missing := by
  simp only [walk, h]

theorem find?_of_some (h : Fields.get? fields key = some v) :
    find? (key :: rest) (.record fields) = find? rest v := by
  rw [find?, h, Option.bind_some]

theorem find?_of_none (h : Fields.get? fields key = none) :
    find? (key :: rest) (.record fields) = none := by
  rw [find?, h, Option.bind_none]

end

/-! ## Merged records -/

/-- What is found along a path, after a walk in the upper of two values and with what is found in
the lower one. -/
def Walk.over : Walk → Option Datum → Option Datum
  | .arrives above, below? => overlay? below? (some above)
  | .barred, _ => none
  | .missing, below? => below?

/-- Over nothing, there is what the walk arrives at. -/
theorem find?_eq_over_none (path : Path) (d : Datum) : find? path d = (walk path d).over none := by
  induction path, d using walk_induct with
  | arrive d => rfl
  | bar key rest d hd =>
    rw [find?_of_not_isRecord hd, walk_of_not_isRecord hd]
    rfl
  | miss key rest fields hkey =>
    rw [find?_of_none rest hkey, walk_of_none rest hkey]
    rfl
  | step key rest fields v hkey ih => rw [find?_of_some rest hkey, walk_of_some rest hkey, ih]

/-- Below a record, what is no record counts as one without fields. -/
theorem overlay_record_right (a : Datum) (h : Ordinary (.record fields)) :
    overlay a (.record fields) = .record (merge (a.fields?.getD []) fields) := by
  cases ha : a.isRecord with
  | false => rw [overlay_of_lower ha, Datum.fields?_eq_none.2 ha, Option.getD_none, nil_merge h]
  | true =>
    obtain ⟨lower, rfl⟩ := Datum.eq_record_of_isRecord ha
    exact overlay_record lower fields

theorem find?_cons (key : String) (rest : Path) (d : Datum) :
    find? (key :: rest) d = (Fields.get? (d.fields?.getD []) key).bind (find? rest) := by
  cases d with
  | record fields => rfl
  | _ => rfl

/-- **The walk in the upper value decides** what is found in two values laid over one another. -/
theorem find?_overlay_eq (path : Path) (ha : Ordinary a) (hb : Ordinary b) :
    find? path (overlay a b) = (walk path b).over (find? path a) := by
  induction path, b using walk_induct generalizing a with
  | arrive b => rfl
  | bar key rest b hrecord =>
    rw [overlay_of_upper a hrecord, find?_of_not_isRecord hrecord, walk_of_not_isRecord hrecord]
    rfl
  | miss key rest upper hkey =>
    rw [overlay_record_right a hb, find?, get?_merge (ordinary_fields ha) hb, hkey, overlay?_none,
      walk_of_none rest hkey, ← find?_cons]
    rfl
  | step key rest upper above hkey ih =>
    rw [overlay_record_right a hb, find?, get?_merge (ordinary_fields ha) hb, hkey,
      walk_of_some rest hkey, find?_cons key]
    cases hbelow : Fields.get? (a.fields?.getD []) key with
    | none => exact find?_eq_over_none rest above
    | some below => exact ih ((ordinary_fields ha).get? hbelow).2 (hb.get? hkey).2

/-! ## How walks end -/

theorem walk_eq_arrives_iff : walk path d = .arrives v ↔ find? path d = some v := by
  rw [find?_eq_over_none]
  cases walk path d with
  | arrives w => simp only [Walk.over, none_overlay?, Walk.arrives.injEq, Option.some.injEq]
  | barred => simp only [Walk.over, reduceCtorEq]
  | missing => simp only [Walk.over, reduceCtorEq]

/-- A walk along the path comes to this value, with this key still to follow. -/
def Meets (path : Path) (d : Datum) (key : String) (v : Datum) : Prop :=
  ∃ front rest, path = front ++ key :: rest ∧ find? front d = some v

theorem Meets.cons {next : String} (h : Meets rest v next d)
    (hkey : Fields.get? fields key = some v) : Meets (key :: rest) (.record fields) next d := by
  obtain ⟨front, back, rfl, hfront⟩ := h
  exact ⟨key :: front, back, rfl, (find?_of_some front hkey).trans hfront⟩

/-- What the upper of two values has at the end of a path is read there, unless it is a record. The
lower one may have anything, parents included. -/
theorem lookUp_overlay_of_leaf (hfind : find? path b = some v) (hleaf : v.isRecord = false)
    (hb : Ordinary b) (a : Datum) : lookUp path (overlay a b) = v := by
  induction path, b using walk_induct generalizing a with
  | arrive b =>
    cases hfind
    rw [overlay_of_upper a hleaf, lookUp]
  | bar key rest b hrecord =>
    rw [find?_of_not_isRecord hrecord] at hfind
    cases hfind
  | miss key rest upper hkey =>
    rw [find?_of_none rest hkey] at hfind
    cases hfind
  | step key rest upper above hkey ih =>
    have habove : Ordinary above := (hb.get? hkey).2
    have hmerged := get?_merge_ordinary (a.fields?.getD []) hb key
    rw [hkey, Option.map_some, Option.some_or] at hmerged
    rw [overlay_record_right a hb, lookUp, member_of_some hmerged (isHidden_overlay habove _)]
    exact ih ((find?_of_some rest hkey).symm.trans hfind) habove _

end Teletype.Settings
