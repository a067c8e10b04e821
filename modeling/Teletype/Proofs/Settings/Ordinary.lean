import Teletype.Settings.Path

/-!
# Ordinary records

Every record has the members of the root. A key that is named like one of them does not tell whether
the record has a field, and `__proto__` changes what other keys stand for. In an ordinary record no
key has such a name, at any depth, so what is read under another key is the record's own field or
nothing (`member_of_ordinary`); and laid over a record it gives it no parent, whatever that record
has (`laidFields_of_ordinary`).
-/

namespace Teletype

/-- Induction into the fields of records; everything but a record is a leaf. -/
@[elab_as_elim]
theorem Datum.induct {motive : Datum → Prop} (leaf : ∀ d, d.fields? = none → motive d)
    (record : ∀ fields : Fields, (∀ field ∈ fields, motive field.2) → motive (.record fields)) :
    ∀ d, motive d
  | .record fields => record fields fun field _ => Datum.induct leaf record field.2
  | .null => leaf _ rfl
  | .undefined => leaf _ rfl
  | .bool _ => leaf _ rfl
  | .number _ => leaf _ rfl
  | .text _ => leaf _ rfl
  | .list _ => leaf _ rfl
  | .builtin _ => leaf _ rfl
  | .hidden _ => leaf _ rfl
termination_by d => sizeOf d
decreasing_by
  have hfields : sizeOf field < sizeOf fields := List.sizeOf_lt_of_mem ‹field ∈ fields›
  have hvalue : sizeOf field.2 < sizeOf field := by
    obtain ⟨key, value⟩ := field
    simp only [Prod.mk.sizeOf_spec]
    omega
  simp only [Datum.record.sizeOf_spec]
  omega

def Datum.isRecord (d : Datum) : Bool := d.fields?.isSome

theorem Datum.fields?_eq_none {d : Datum} : d.fields? = none ↔ d.isRecord = false := by
  unfold isRecord
  cases d.fields? <;> simp

theorem Datum.eq_record_of_isRecord {d : Datum} (h : d.isRecord = true) :
    ∃ fields, d = .record fields := by
  cases d with
  | record fields => exact ⟨fields, rfl⟩
  | _ => cases h

theorem Fields.get?_cons (k key : String) (v : Datum) (rest : Fields) :
    get? ((k, v) :: rest) key = if key = k then some v else get? rest key := by
  rw [get?, List.lookup_cons]
  by_cases h : key = k
  · rw [if_pos h, beq_iff_eq.2 h]
  · rw [if_neg h, beq_eq_false_iff_ne.2 h, get?]

theorem Fields.get?_append (lower upper : Fields) (key : String) :
    get? (lower ++ upper) key = (get? lower key).or (get? upper key) := List.lookup_append

theorem Fields.mem_of_get? {fields : Fields} {key : String} {v : Datum}
    (h : get? fields key = some v) : (key, v) ∈ fields := by
  obtain ⟨before, after, rfl, -⟩ := List.lookup_eq_some_iff.1 h
  exact List.mem_append_right before List.mem_cons_self

namespace Settings

/-- No key in the value is named like a member that every record has. -/
inductive Ordinary : Datum → Prop
  | leaf {d : Datum} : d.isRecord = false → d.isHidden = false → Ordinary d
  | record {fields : Fields} : (∀ field ∈ fields, isCommon field.1 = false) →
      (∀ field ∈ fields, Ordinary field.2) → Ordinary (.record fields)

variable {d v : Datum} {fields lower upper : Fields} {field : String × Datum} {key : String}

namespace Ordinary

theorem isHidden_eq (h : Ordinary d) : d.isHidden = false := by
  cases h with
  | leaf _ hidden => exact hidden
  | record => rfl

theorem isCommon_eq (h : Ordinary (.record fields)) (hfield : field ∈ fields) :
    isCommon field.1 = false := by
  cases h with
  | leaf hrecord => cases hrecord
  | record hkeys => exact hkeys field hfield

theorem value (h : Ordinary (.record fields)) (hfield : field ∈ fields) : Ordinary field.2 := by
  cases h with
  | leaf hrecord => cases hrecord
  | record _ hvalues => exact hvalues field hfield

theorem get? (h : Ordinary (.record fields)) (hv : Fields.get? fields key = some v) :
    isCommon key = false ∧ Ordinary v :=
  ⟨h.isCommon_eq (Fields.mem_of_get? hv), h.value (Fields.mem_of_get? hv)⟩

theorem nil : Ordinary (.record []) := .record nofun nofun

theorem cons (hkey : isCommon key = false) (hv : Ordinary v) (h : Ordinary (.record fields)) :
    Ordinary (.record ((key, v) :: fields)) :=
  .record (List.forall_mem_cons.2 ⟨hkey, fun _ hfield => h.isCommon_eq hfield⟩)
    (List.forall_mem_cons.2 ⟨hv, fun _ hfield => h.value hfield⟩)

theorem tail (h : Ordinary (.record (field :: fields))) : Ordinary (.record fields) :=
  .record (fun _ hfield => h.isCommon_eq (List.mem_cons_of_mem field hfield))
    fun _ hfield => h.value (List.mem_cons_of_mem field hfield)

/-- All fields of an ordinary record are its own. -/
theorem own_eq (h : Ordinary (.record fields)) : own fields = fields :=
  List.filter_eq_self.2 fun field hfield => by rw [(h.value hfield).isHidden_eq]; rfl

end Ordinary

theorem ordinary_fields (h : Ordinary d) : Ordinary (.record (d.fields?.getD [])) := by
  cases h with
  | leaf hrecord =>
    rw [Datum.fields?_eq_none.2 hrecord]
    exact .nil
  | record hkeys hvalues => exact .record hkeys hvalues

theorem ne_parentKey (h : isCommon key = false) : key ≠ parentKey := by
  rintro rfl
  exact absurd h (by decide)

theorem rootMember_of_not_isCommon (h : isCommon key = false) : rootMember key = .undefined := by
  rw [isCommon, Bool.or_eq_false_iff] at h
  rw [rootMember, if_neg (of_decide_eq_false h.1), if_neg (Bool.eq_false_iff.1 h.2)]

/-! ## Reading -/

theorem member_of_some (hv : Fields.get? fields key = some v) (h : v.isHidden = false) :
    member key (.record fields) = v := by
  cases v with
  | hidden => cases h
  | _ => simp only [member, hv]

theorem member_of_none (h : Fields.get? fields key = none) :
    member key (.record fields) = inherited key fields := by
  simp only [member, h]

/-- What has no hidden members has the root for its parent. -/
theorem inherited_of_ordinary (h : Ordinary (.record fields)) (key : String) :
    inherited key fields = rootMember key := by
  induction fields with
  | nil => simp only [inherited]
  | cons field rest ih =>
    obtain ⟨k, v⟩ := field
    have hv : v.isHidden = false := (h.value List.mem_cons_self).isHidden_eq
    cases v with
    | hidden => cases hv
    | _ => simpa only [inherited] using ih h.tail

/-- **What is read in an ordinary record is its own field**, or nothing. -/
theorem member_of_ordinary (h : Ordinary (.record fields)) (hkey : isCommon key = false) :
    member key (.record fields) = (Fields.get? fields key).getD .undefined := by
  cases hv : Fields.get? fields key with
  | some v => exact member_of_some hv (h.get? hv).2.isHidden_eq
  | none => rw [member_of_none hv, inherited_of_ordinary h, rootMember_of_not_isCommon hkey]; rfl

/-! ## Laying over -/

/-- **An ordinary record gives no parent**: each of its fields goes over what is read under its key
from the beginning. -/
theorem laidFields_of_ordinary (lower : Fields) (h : Ordinary (.record upper)) :
    laidFields lower upper =
      upper.map fun field => (field.1, overlay (member field.1 (.record lower)) field.2) := by
  induction upper with
  | nil => simp only [laidFields, List.map_nil]
  | cons field rest ih =>
    obtain ⟨k, v⟩ := field
    have hkey := ne_parentKey (h.isCommon_eq List.mem_cons_self)
    have hv : v.isHidden = false := (h.value List.mem_cons_self).isHidden_eq
    simp only [laidFields, hv, hkey, false_and, if_false, Bool.false_eq_true, List.map_cons,
      ih h.tail]

end Settings

end Teletype
