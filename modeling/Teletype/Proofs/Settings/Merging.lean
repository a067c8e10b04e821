import Teletype.Proofs.Settings.Ordinary

/-!
# One record over another, key by key

What a key has in a merged record is decided by what it has in the upper record and what is read
under it in the lower one (`get?_merge_ordinary`); if both records are ordinary, by what it has in
each of the two (`get?_merge`). `find?` follows a path as `lookUp` does, but through the fields of
records only, and it tells a path with `undefined` at its end from one that has no end: a record
defines a path if `find?` finds a value there.
-/

namespace Teletype.Settings

variable {fields lower middle upper : Fields} {d v w : Datum} {key : String} {path : Path}

/-! ## Merging -/

theorem overlay_record (lower upper : Fields) :
    overlay (.record lower) (.record upper) = .record (merge lower upper) := by
  simp only [overlay, merge]

theorem overlay_of_lower (h : v.isRecord = false) (w : Datum) : overlay v w = w := by
  cases w with
  | record =>
    cases v with
    | record => cases h
    | _ => simp only [overlay]
  | _ => simp only [overlay]

theorem overlay_of_upper (v : Datum) (h : w.isRecord = false) : overlay v w = w := by
  cases w with
  | record => cases h
  | _ => simp only [overlay]

theorem isRecord_overlay (v w : Datum) : (overlay v w).isRecord = w.isRecord := by
  cases hw : w.isRecord with
  | false => rw [overlay_of_upper v hw, hw]
  | true =>
    obtain ⟨upper, rfl⟩ := Datum.eq_record_of_isRecord hw
    cases hv : v.isRecord with
    | false => rw [overlay_of_lower hv]; rfl
    | true =>
      obtain ⟨lower, rfl⟩ := Datum.eq_record_of_isRecord hv
      rw [overlay_record]
      rfl

theorem isHidden_overlay (hw : Ordinary w) (v : Datum) : (overlay v w).isHidden = false := by
  cases hrecord : w.isRecord with
  | false => rw [overlay_of_upper v hrecord, hw.isHidden_eq]
  | true =>
    obtain ⟨fields, hfields⟩ :=
      Datum.eq_record_of_isRecord ((isRecord_overlay v w).trans hrecord)
    rw [hfields]
    rfl

/-- What is there where there may be a value below and one above. -/
def overlay? : Option Datum → Option Datum → Option Datum
  | some v, some w => some (overlay v w)
  | v?, none => v?
  | none, w? => w?

theorem none_overlay? (w? : Option Datum) : overlay? none w? = w? := by
  cases w? <;> rfl

theorem overlay?_none (v? : Option Datum) : overlay? v? none = v? := by
  cases v? <;> rfl

theorem overlay?_some (v? : Option Datum) (w : Datum) :
    overlay? v? (some w) = some (overlay (v?.getD .undefined) w) := by
  cases v? with
  | none => exact congrArg some (overlay_of_lower rfl w).symm
  | some v => rfl

/-- The fields with other values for some keys. -/
def revalued (values : String → Option Datum) (fields : Fields) : Fields :=
  fields.map fun field => (field.1, (values field.1).getD field.2)

theorem revalued_append (values : String → Option Datum) (x y : Fields) :
    revalued values (x ++ y) = revalued values x ++ revalued values y := List.map_append

/-- New values under the same keys. -/
theorem get?_map (f : String → Datum → Datum) (fields : Fields) (key : String) :
    Fields.get? (fields.map fun field => (field.1, f field.1 field.2)) key =
      (Fields.get? fields key).map (f key) := by
  induction fields with
  | nil => rfl
  | cons field rest ih =>
    obtain ⟨k, v⟩ := field
    rw [List.map_cons, Fields.get?_cons, Fields.get?_cons, ih]
    by_cases hkey : key = k
    · rw [if_pos hkey, if_pos hkey, hkey, Option.map_some]
    · rw [if_neg hkey, if_neg hkey]

theorem get?_newFields (lower upper : Fields) (key : String) :
    Fields.get? (newFields lower upper) key =
      if (Fields.get? lower key).isNone then Fields.get? upper key else none := by
  induction upper with
  | nil => exact (ite_self none).symm
  | cons field rest ih =>
    obtain ⟨k, w⟩ := field
    by_cases hkey : key = k
    · subst hkey
      cases h : Fields.get? lower key with
      | none => simp [newFields, Fields.get?_cons, h]
      | some v => simpa [newFields, h] using ih
    · cases h : Fields.get? lower k with
      | none => simpa [newFields, Fields.get?_cons, h, hkey] using ih
      | some v => simpa [newFields, Fields.get?_cons, h, hkey] using ih

theorem get?_replaceFields (fields above : Fields) (key : String) :
    Fields.get? (replaceFields fields above) key =
      (Fields.get? above key).or (Fields.get? fields key) := by
  rw [replaceFields, Fields.get?_append, get?_map fun key v => (Fields.get? above key).getD v,
    get?_newFields]
  cases Fields.get? fields key <;> cases Fields.get? above key <;> rfl

theorem newFields_append (lower x y : Fields) :
    newFields lower (x ++ y) = newFields lower x ++ newFields lower y := List.filter_append ..

/-- A field is new by its key, and other values keep the keys. -/
theorem newFields_revalued (lower : Fields) (values : String → Option Datum) (fields : Fields) :
    newFields lower (revalued values fields) = revalued values (newFields lower fields) := by
  simp only [revalued, newFields, List.filter_map]
  rfl

/-- **What a merged record has for a key**, if the upper record is ordinary: what is read in the
lower one with what the upper one has over it, or else the own field of the lower one. -/
theorem get?_merge_ordinary (lower : Fields) (h : Ordinary (.record upper)) (key : String) :
    Fields.get? (merge lower upper) key =
      ((Fields.get? upper key).map (overlay (member key (.record (own lower))))).or
        (Fields.get? (own lower) key) := by
  rw [merge, get?_replaceFields, laidFields_of_ordinary _ h,
    get?_map fun key => overlay (member key (.record (own lower)))]

/-- A record over an empty one. -/
theorem nil_merge (h : Ordinary (.record upper)) : merge [] upper = upper := by
  have hfield : ∀ field ∈ upper,
      (field.1, overlay (member field.1 (.record [])) field.2) = field := by
    intro field hfield
    have hleaf : member field.1 (.record []) = .undefined :=
      member_of_ordinary .nil (h.isCommon_eq hfield)
    rw [hleaf, overlay_of_lower rfl]
  have hnew : newFields [] upper = upper := List.filter_eq_self.2 fun _ _ => rfl
  rw [merge, own, List.filter_nil, laidFields_of_ordinary _ h, List.map_congr_left hfield,
    List.map_id', replaceFields, hnew]
  rfl

/-! ## Ordinary records -/

/-- What a key of an ordinary record comes to that is laid over another one. -/
def laid? (lower upper : Fields) (key : String) : Option Datum :=
  (Fields.get? upper key).map (overlay ((Fields.get? lower key).getD .undefined))

section

variable (hlower : Ordinary (.record lower)) (hupper : Ordinary (.record upper))

include hlower hupper

/-- What a key has in each of two ordinary records decides what it has in the merged one. -/
theorem get?_merge (key : String) :
    Fields.get? (merge lower upper) key =
      overlay? (Fields.get? lower key) (Fields.get? upper key) := by
  rw [get?_merge_ordinary lower hupper, hlower.own_eq]
  cases habove : Fields.get? upper key with
  | none => rw [overlay?_none]; rfl
  | some w => rw [overlay?_some, member_of_ordinary hlower (hupper.get? habove).1]; rfl

/-- The fields below keep their places, and those that are new follow them. -/
theorem merge_eq :
    merge lower upper = revalued (laid? lower upper) lower ++ newFields lower upper := by
  have hlaid : laidFields lower upper = upper.map fun field =>
      (field.1, overlay ((Fields.get? lower field.1).getD .undefined) field.2) := by
    rw [laidFields_of_ordinary lower hupper]
    refine List.map_congr_left fun field hfield => ?_
    rw [member_of_ordinary hlower (hupper.isCommon_eq hfield)]
  have hnew : newFields lower (laidFields lower upper) = newFields lower upper := by
    rw [hlaid, newFields, List.filter_map]
    refine (List.map_congr_left fun field hfield => ?_).trans (List.map_id' _)
    have hnone : Fields.get? lower field.1 = none :=
      Option.isNone_iff_eq_none.1 (List.mem_filter.1 hfield).2
    rw [hnone, Option.getD_none, overlay_of_lower rfl]
  rw [merge, hlower.own_eq, replaceFields, hnew, hlaid,
    funext (get?_map (fun key => overlay ((Fields.get? lower key).getD .undefined)) upper)]
  rfl

end

/-- **What is laid over something ordinary is ordinary again**, if it is so itself. -/
theorem ordinary_overlay (hv : Ordinary v) (hw : Ordinary w) : Ordinary (overlay v w) := by
  induction hw generalizing v with
  | leaf hrecord hidden =>
    rw [overlay_of_upper v hrecord]
    exact .leaf hrecord hidden
  | @record upper hkeys hvalues ih =>
    have hupper : Ordinary (.record upper) := .record hkeys hvalues
    cases hrecord : v.isRecord with
    | false =>
      rw [overlay_of_lower hrecord]
      exact hupper
    | true =>
      obtain ⟨lower, rfl⟩ := Datum.eq_record_of_isRecord hrecord
      have hbelow : ∀ key, Ordinary ((Fields.get? lower key).getD .undefined) := by
        intro key
        cases hkey : Fields.get? lower key with
        | none => exact .leaf rfl rfl
        | some below => exact (hv.get? hkey).2
      rw [overlay_record, merge_eq hv hupper]
      refine .record ?_ ?_
      · simp only [List.forall_mem_append, revalued, List.forall_mem_map]
        exact ⟨fun field hfield => hv.isCommon_eq hfield,
          fun field hfield => hkeys field (List.mem_filter.1 hfield).1⟩
      · simp only [List.forall_mem_append, revalued, List.forall_mem_map]
        refine ⟨fun field hfield => ?_, fun field hfield => hvalues field
          (List.mem_filter.1 hfield).1⟩
        rw [laid?]
        cases habove : Fields.get? upper field.1 with
        | none => exact hv.value hfield
        | some above => exact ih _ (Fields.mem_of_get? habove) (hbelow field.1)

theorem ordinary_merge (hlower : Ordinary (.record lower)) (hupper : Ordinary (.record upper)) :
    Ordinary (.record (merge lower upper)) := by
  rw [← overlay_record]
  exact ordinary_overlay hlower hupper

/-- An empty record over another. -/
theorem merge_nil (h : Ordinary (.record lower)) : merge lower [] = lower := by
  rw [merge_eq h .nil]
  exact (List.append_nil _).trans (List.map_id' lower)

/-- A field is new to a merged record if it is new to both. -/
theorem newFields_merge (hlower : Ordinary (.record lower)) (hmiddle : Ordinary (.record middle))
    (upper : Fields) : newFields (merge lower middle) upper =
      newFields lower (newFields middle upper) := by
  have hnone : ∀ key, (Fields.get? (merge lower middle) key).isNone =
      ((Fields.get? lower key).isNone && (Fields.get? middle key).isNone) := fun key => by
    rw [get?_merge hlower hmiddle]
    cases Fields.get? lower key <;> cases Fields.get? middle key <;> rfl
  simp only [newFields, hnone, List.filter_filter]

/-! ## Paths -/

def find? : Path → Datum → Option Datum
  | [], d => some d
  | key :: rest, .record fields => (Fields.get? fields key).bind (find? rest)
  | _ :: _, _ => none

theorem find?_of_not_isRecord (h : d.isRecord = false) (key : String) (rest : Path) :
    find? (key :: rest) d = none := by
  cases d with
  | record => cases h
  | _ => rfl

/-- Along keys that are named like nothing that every record has. -/
def Path.Ordinary (path : Path) : Prop := ∀ key ∈ path, isCommon key = false

instance : DecidablePred Path.Ordinary := fun path =>
  inferInstanceAs (Decidable (∀ key ∈ path, isCommon key = false))

/-- What is found in ordinary data is ordinary, and so are the keys on the way. -/
theorem ordinary_of_find? (h : Ordinary d) (hfind : find? path d = some v) :
    path.Ordinary ∧ Ordinary v := by
  induction path generalizing d with
  | nil =>
    cases hfind
    exact ⟨nofun, h⟩
  | cons key rest ih =>
    cases d with
    | record fields =>
      obtain ⟨w, hkey, hrest⟩ := Option.bind_eq_some_iff.1 hfind
      obtain ⟨hpath, hv⟩ := ih (h.get? hkey).2 hrest
      exact ⟨List.forall_mem_cons.2 ⟨(h.get? hkey).1, hpath⟩, hv⟩
    | _ => cases hfind

theorem lookUp_undefined (path : Path) : lookUp path .undefined = .undefined := by
  cases path <;> rfl

theorem lookUp_eq (hpath : path.Ordinary) (h : Ordinary d) :
    lookUp path d = (find? path d).getD .undefined := by
  induction path generalizing d with
  | nil => rfl
  | cons key rest ih =>
    obtain ⟨hkey, hrest⟩ := List.forall_mem_cons.1 hpath
    cases d with
    | record fields =>
      rw [lookUp, find?, member_of_ordinary h hkey]
      cases hfield : Fields.get? fields key with
      | none => rw [Option.getD_none, lookUp_undefined, Option.bind_none, Option.getD_none]
      | some v => rw [Option.getD_some, Option.bind_some, ih hrest (h.get? hfield).2]
    | _ => rfl

end Teletype.Settings
