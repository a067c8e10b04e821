import Mathlib.Data.String.Basic
import Teletype.Proofs.Settings.Merging

/-!
# Values placed at paths

What is placed at a path is found there, and nothing else changes along the paths that are apart
from it: neither is the front of the other (`Path.Apart`). The records that a placement makes on its
way are shared by the paths that go through them, so placements at paths that are apart can be made
in either order (`setAt_comm`).
-/

namespace Teletype

namespace Fields

variable {a b key : String} {v w : Datum} {fields : Fields}

theorem put_put_self (key : String) (v w : Datum) (fields : Fields) :
    put key v (put key w fields) = put key v fields := by
  induction fields with
  | nil => simp only [put, if_true]
  | cons field rest ih =>
    obtain ⟨k, x⟩ := field
    by_cases hkey : k = key
    · simp only [put, hkey, if_true]
    · by_cases hlt : key < k
      · simp only [put, hkey, hlt, if_true, if_false]
      · simp only [put, hkey, hlt, if_false, ih]

/-- A key in front of the first one is put in front. -/
theorem put_cons_of_lt {k : String} (h : a < k) (v x : Datum) (rest : Fields) :
    put a v ((k, x) :: rest) = (a, v) :: (k, x) :: rest := by
  rw [put, if_neg h.ne', if_pos h]

/-- A key behind the first one is put among the others. -/
theorem put_cons_of_gt {k : String} (h : k < a) (v x : Datum) (rest : Fields) :
    put a v ((k, x) :: rest) = (k, x) :: put a v rest := by
  rw [put, if_neg h.ne, if_neg (lt_asymm h)]

theorem put_cons_self (v x : Datum) (rest : Fields) :
    put a v ((a, x) :: rest) = (a, v) :: rest := by
  rw [put, if_pos rfl]

theorem put_comm_of_lt (h : a < b) (v w : Datum) (fields : Fields) :
    put a v (put b w fields) = put b w (put a v fields) := by
  induction fields with
  | nil =>
    show put a v [(b, w)] = put b w [(a, v)]
    rw [put_cons_of_lt h, put_cons_of_gt h, put]
  | cons field rest ih =>
    obtain ⟨k, x⟩ := field
    rcases lt_trichotomy k a with hka | rfl | hak
    · rw [put_cons_of_gt (hka.trans h), put_cons_of_gt hka, put_cons_of_gt hka,
        put_cons_of_gt (hka.trans h), ih]
    · rw [put_cons_of_gt h, put_cons_self, put_cons_self, put_cons_of_gt h]
    · -- Whatever `b` does to the fields, their first key stays behind `a`.
      rw [put_cons_of_lt hak, put_cons_of_gt h]
      rcases lt_trichotomy k b with hkb | rfl | hbk
      · rw [put_cons_of_gt hkb, put_cons_of_lt hak]
      · rw [put_cons_self, put_cons_of_lt hak]
      · rw [put_cons_of_lt hbk, put_cons_of_lt h]

theorem mem_of_mem_put {field : String × Datum} (h : field ∈ put key v fields) :
    field = (key, v) ∨ field ∈ fields := by
  induction fields with
  | nil => exact .inl (List.mem_singleton.1 h)
  | cons first rest ih =>
    obtain ⟨k, x⟩ := first
    rw [put] at h
    split at h
    · rcases List.mem_cons.1 h with rfl | h
      · exact .inl rfl
      · exact .inr (List.mem_cons_of_mem _ h)
    · split at h
      · rcases List.mem_cons.1 h with rfl | h
        · exact .inl rfl
        · exact .inr h
      · rcases List.mem_cons.1 h with rfl | h
        · exact .inr List.mem_cons_self
        · exact (ih h).imp_right (List.mem_cons_of_mem _)

/-- **Fields under different keys can be put in either order.** -/
theorem put_comm (h : a ≠ b) (v w : Datum) (fields : Fields) :
    put a v (put b w fields) = put b w (put a v fields) := by
  rcases lt_or_gt_of_ne h with hlt | hgt
  · exact put_comm_of_lt hlt v w fields
  · exact (put_comm_of_lt hgt w v fields).symm

end Fields

namespace Settings

/-- Neither path is the front of the other; in particular they differ. -/
def Path.Apart (p q : Path) : Prop := ¬ p <+: q ∧ ¬ q <+: p

variable {p q rest : Path} {key k : String} {v w : Datum} {fields : Fields}

theorem Path.Apart.symm (h : p.Apart q) : q.Apart p := And.symm h

theorem Path.Apart.ne_nil (h : p.Apart q) : p ≠ [] := by
  rintro rfl
  exact h.1 List.nil_prefix

/-- Paths that begin alike are apart behind that. -/
theorem Path.Apart.tail (h : Path.Apart (key :: p) (key :: q)) : p.Apart q :=
  ⟨fun hp => h.1 (List.cons_prefix_cons.2 ⟨rfl, hp⟩),
    fun hq => h.2 (List.cons_prefix_cons.2 ⟨rfl, hq⟩)⟩

/-! ## One placement -/

/-- What stands under a key when a value is placed at the rest of a path, over these fields. -/
def placed (rest : Path) (v : Datum) (fields : Fields) : Datum :=
  if rest = [] then v else .record (setAt rest v fields)

theorem setAt_cons (key : String) (rest : Path) (v : Datum) (fields : Fields) :
    setAt (key :: rest) v fields =
      Fields.put key (placed rest v (childFields key fields)) fields := by
  cases rest with
  | nil => rw [setAt, placed, if_pos rfl]
  | cons next rest => rw [setAt, placed, if_neg (List.cons_ne_nil next rest)]; exact nofun

theorem placed_of_ne_nil (h : rest ≠ []) (v : Datum) (fields : Fields) :
    placed rest v fields = .record (setAt rest v fields) := if_neg h

theorem childFields_put_self (key : String) (v : Datum) (fields : Fields) :
    childFields key (Fields.put key v fields) = v.fields?.getD [] := by
  rw [childFields, Fields.get?_put_self, Option.bind_some]

theorem childFields_put_of_ne (h : k ≠ key) (v : Datum) (fields : Fields) :
    childFields k (Fields.put key v fields) = childFields k fields := by
  rw [childFields, Fields.get?_put_of_ne h, childFields]

/-- Below a key, the fields of the record there tell what is found. -/
theorem find?_childFields (h : rest ≠ []) (key : String) (fields : Fields) :
    find? rest (.record (childFields key fields)) = (Fields.get? fields key).bind (find? rest) := by
  obtain ⟨next, rest, rfl⟩ := List.exists_cons_of_ne_nil h
  cases hkey : Fields.get? fields key with
  | none =>
    rw [childFields, hkey]
    rfl
  | some d =>
    rw [childFields, hkey, Option.bind_some, Option.bind_some]
    cases d with
    | record children => rfl
    | _ => rfl

/-- What is placed in ordinary fields along an ordinary path leaves them ordinary. -/
theorem ordinary_setAt (hp : p.Ordinary) (hv : Ordinary v) (h : Ordinary (.record fields)) :
    Ordinary (.record (setAt p v fields)) := by
  induction p generalizing fields with
  | nil => exact h
  | cons key rest ih =>
    obtain ⟨hkey, hrest⟩ := List.forall_mem_cons.1 hp
    have hchildren : Ordinary (.record (childFields key fields)) := by
      rw [childFields]
      cases hchild : Fields.get? fields key with
      | none => exact .nil
      | some d => exact ordinary_fields (h.get? hchild).2
    have hplaced : Ordinary (placed rest v (childFields key fields)) := by
      rw [placed]
      split
      · exact hv
      · exact ih hrest hchildren
    rw [setAt_cons]
    refine .record (fun field hfield => ?_) fun field hfield => ?_
    · rcases Fields.mem_of_mem_put hfield with rfl | hfield
      · exact hkey
      · exact h.isCommon_eq hfield
    · rcases Fields.mem_of_mem_put hfield with rfl | hfield
      · exact hplaced
      · exact h.value hfield

/-- A value is found where it was placed. -/
theorem find?_setAt_self (h : p ≠ []) (v : Datum) (fields : Fields) :
    find? p (.record (setAt p v fields)) = some v := by
  induction p generalizing fields with
  | nil => exact absurd rfl h
  | cons key rest ih =>
    rw [setAt_cons, find?, Fields.get?_put_self, Option.bind_some]
    by_cases hrest : rest = []
    · rw [hrest]
      rfl
    · rw [placed_of_ne_nil hrest]
      exact ih hrest _

/-- **Frame**: along a path that is apart, everything is found as before. -/
theorem find?_setAt_of_apart (h : p.Apart q) (v : Datum) (fields : Fields) :
    find? p (.record (setAt q v fields)) = find? p (.record fields) := by
  induction p generalizing q fields with
  | nil => exact absurd rfl h.ne_nil
  | cons key p ih =>
    obtain ⟨k, q, rfl⟩ := List.exists_cons_of_ne_nil h.symm.ne_nil
    rw [setAt_cons, find?, find?]
    by_cases hkey : key = k
    · subst hkey
      have hrest := h.tail
      rw [Fields.get?_put_self, Option.bind_some, placed_of_ne_nil hrest.symm.ne_nil, ih hrest,
        find?_childFields hrest.ne_nil]
    · rw [Fields.get?_put_of_ne hkey]

/-- **Placements at paths that are apart can be made in either order.** -/
theorem setAt_comm (h : p.Apart q) (v w : Datum) (fields : Fields) :
    setAt p v (setAt q w fields) = setAt q w (setAt p v fields) := by
  induction p generalizing q fields with
  | nil => exact absurd rfl h.ne_nil
  | cons key p ih =>
    obtain ⟨k, q, rfl⟩ := List.exists_cons_of_ne_nil h.symm.ne_nil
    simp only [setAt_cons]
    by_cases hkey : key = k
    · -- Both go into the record under the one key, and only the later of the two puts it there.
      subst hkey
      have hrest := h.tail
      simp only [placed_of_ne_nil hrest.ne_nil, placed_of_ne_nil hrest.symm.ne_nil,
        childFields_put_self, Datum.fields?, Option.getD_some, Fields.put_put_self]
      rw [ih hrest]
    · rw [childFields_put_of_ne hkey, childFields_put_of_ne (Ne.symm hkey), Fields.put_comm hkey]

end Settings

end Teletype
