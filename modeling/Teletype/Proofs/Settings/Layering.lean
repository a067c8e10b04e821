import Mathlib.Data.List.Induction
import Teletype.Proofs.Settings.Walking
import Teletype.Settings.Store

/-!
# Layers of settings

Settings are records in layers, each over the one before. Where a record stands over something that
is none, or the other way round, the lower one is covered as a whole, and then it matters how the
merges are grouped. Layers are compatible if that does not happen: wherever two of them have a
value, either both are records or neither is. Merging keeps layers compatible with one another
(`Compatible.overlay_left`), so that by induction over the layers each path has what the last layer
has there, and any grouping of the merges gives the same record.

All of this is about ordinary layers. A layer with a record under `__proto__` gives the merged
record a parent, whose members are read at paths that no layer defines.
-/

namespace Teletype.Settings

variable {a b c v w : Datum} {lower middle upper : Fields} {path : Path}

/-- Wherever both have a value, either both values are records or neither is. -/
def Compatible (a b : Datum) : Prop :=
  ∀ path v w, find? path a = some v → find? path b = some w → v.isRecord = w.isRecord

theorem compatible_refl (a : Datum) : Compatible a a := by
  intro path v w hv hw
  rw [hv] at hw
  cases hw
  rfl

theorem Compatible.symm (h : Compatible a b) : Compatible b a :=
  fun path v w hv hw => (h path w v hw hv).symm

theorem Compatible.isRecord_eq (h : Compatible a b) : a.isRecord = b.isRecord :=
  h [] a b rfl rfl

/-- What compatible records have for a key is compatible. -/
theorem Compatible.field (h : Compatible (.record lower) (.record upper)) {key : String}
    (hv : Fields.get? lower key = some v) (hw : Fields.get? upper key = some w) :
    Compatible v w := by
  intro path v' w' hv' hw'
  refine h (key :: path) v' w' ?_ ?_
  · rw [find?, hv, Option.bind_some, hv']
  · rw [find?, hw, Option.bind_some, hw']

theorem compatible_record
    (h : ∀ key v w, Fields.get? lower key = some v → Fields.get? upper key = some w →
      Compatible v w) : Compatible (.record lower) (.record upper) := by
  intro path v w hv hw
  cases path with
  | nil =>
    cases hv
    cases hw
    rfl
  | cons key rest =>
    obtain ⟨v', hlower, hv⟩ := Option.bind_eq_some_iff.1 hv
    obtain ⟨w', hupper, hw⟩ := Option.bind_eq_some_iff.1 hw
    exact h key v' w' hlower hupper rest v w hv hw

theorem compatible_singleton {key : String}
    (h : ∀ v, Fields.get? lower key = some v → Compatible v w) :
    Compatible (.record lower) (.record [(key, w)]) := by
  refine compatible_record fun k v w' hv hw' => ?_
  rw [Fields.get?_cons] at hw'
  split at hw'
  case isTrue hkey =>
    cases hw'
    exact h v (hkey ▸ hv)
  case isFalse => cases hw'

theorem compatible_leaf (ha : a.isRecord = false) (hb : b.isRecord = false) : Compatible a b := by
  intro path v w hv hw
  cases path with
  | nil =>
    cases hv
    cases hw
    rw [ha, hb]
  | cons key rest =>
    rw [find?_of_not_isRecord ha] at hv
    cases hv

/-! ## Compatibility is kept -/

/-- What a merged record has at the end of a path comes from one of the two, or it is a record
because the upper one is. -/
theorem find?_overlay (ha : Ordinary a) (hb : Ordinary b)
    (h : find? path (overlay a b) = some v) :
    find? path a = some v ∨ ∃ w, find? path b = some w ∧ v.isRecord = w.isRecord := by
  rw [find?_overlay_eq path ha hb] at h
  cases hwalk : walk path b with
  | arrives w =>
    refine .inr ⟨w, walk_eq_arrives_iff.1 hwalk, ?_⟩
    rw [hwalk] at h
    cases hbelow : find? path a with
    | none =>
      rw [hbelow] at h
      cases h
      rfl
    | some u =>
      rw [hbelow] at h
      cases h
      exact isRecord_overlay u w
  | barred =>
    rw [hwalk] at h
    cases h
  | missing =>
    rw [hwalk] at h
    exact .inl h

theorem Compatible.overlay_left (ha : Ordinary a) (hb : Ordinary b) (hac : Compatible a c)
    (hbc : Compatible b c) : Compatible (overlay a b) c := by
  intro path v w hv hw
  obtain hv | ⟨u, hu, huv⟩ := find?_overlay ha hb hv
  · exact hac path v w hv hw
  · rw [huv]
    exact hbc path u w hu hw

/-! ## Merges may be grouped -/

section

variable {la lb lc : Fields} (hla : Ordinary (.record la)) (hlb : Ordinary (.record lb))
  (hlc : Ordinary (.record lc))

include hla hlb

/-- Values under two layers are those under the two merged, if each of them may be grouped. -/
theorem revalued_revalued (hlc : Ordinary (.record lc))
    (hgrouped : ∀ key b c, Fields.get? lb key = some b → Fields.get? lc key = some c →
      overlay (overlay ((Fields.get? la key).getD .undefined) b) c =
        overlay ((Fields.get? la key).getD .undefined) (overlay b c)) :
    revalued (laid? (merge la lb) lc) (revalued (laid? la lb) la) =
      revalued (laid? la (merge lb lc)) la := by
  simp only [revalued, List.map_map]
  refine List.map_congr_left fun field _ => Prod.ext rfl ?_
  simp only [Function.comp_apply, laid?, get?_merge hlb hlc, get?_merge hla hlb]
  cases hb : Fields.get? lb field.1 with
  | none => rw [overlay?_none, none_overlay?]; rfl
  | some b =>
    cases hc : Fields.get? lc field.1 with
    | none => rfl
    | some c =>
      rw [overlay?_some]
      exact hgrouped field.1 b c hb hc

/-- What is new to the lowest layer is under the uppermost one as if there were no lowest. -/
theorem revalued_newFields :
    revalued (laid? (merge la lb) lc) (newFields la lb) =
      revalued (laid? lb lc) (newFields la lb) := by
  refine List.map_congr_left fun field hfield => Prod.ext rfl ?_
  have hnew : Fields.get? la field.1 = none :=
    Option.isNone_iff_eq_none.1 (List.mem_filter.1 hfield).2
  simp only [laid?, get?_merge hla hlb, hnew, none_overlay?]

end

/-- **Grouping does not matter** as long as the two upper ones of three are compatible. -/
theorem overlay_assoc (ha : Ordinary a) (hb : Ordinary b) (hc : Ordinary c) (h : Compatible b c) :
    overlay (overlay a b) c = overlay a (overlay b c) := by
  induction a using Datum.induct generalizing b c with
  | leaf a hleaf =>
    -- What is no record is covered by whatever comes above it, in one merge or in two.
    have hleaf := Datum.fields?_eq_none.1 hleaf
    rw [overlay_of_lower hleaf, overlay_of_lower hleaf]
  | record la ih =>
    cases hrecord : c.isRecord with
    | false =>
      rw [overlay_of_upper _ hrecord, overlay_of_upper _ hrecord, overlay_of_upper _ hrecord]
    | true =>
      obtain ⟨lb, rfl⟩ := Datum.eq_record_of_isRecord (h.isRecord_eq.trans hrecord)
      obtain ⟨lc, rfl⟩ := Datum.eq_record_of_isRecord hrecord
      have hgrouped : ∀ key b c, Fields.get? lb key = some b → Fields.get? lc key = some c →
          overlay (overlay ((Fields.get? la key).getD .undefined) b) c =
            overlay ((Fields.get? la key).getD .undefined) (overlay b c) := by
        intro key b c hb' hc'
        cases hkey : Fields.get? la key with
        | none =>
          rw [Option.getD_none, overlay_of_lower (v := .undefined) rfl,
            overlay_of_lower (v := .undefined) rfl]
        | some v =>
          exact ih _ (Fields.mem_of_get? hkey) (ha.get? hkey).2 (hb.get? hb').2 (hc.get? hc').2
            (h.field hb' hc')
      -- The fields of `la` stay in front; what is new to them is what `lb` has under `lc`, and then
      -- what is new to both.
      have hfields : merge (merge la lb) lc = merge la (merge lb lc) := calc
        merge (merge la lb) lc
          = revalued (laid? (merge la lb) lc) (revalued (laid? la lb) la) ++
              revalued (laid? (merge la lb) lc) (newFields la lb) ++
              newFields (merge la lb) lc := by
            rw [← revalued_append, ← merge_eq ha hb, ← merge_eq (ordinary_merge ha hb) hc]
        _ = revalued (laid? la (merge lb lc)) la ++
              (newFields la (revalued (laid? lb lc) lb) ++ newFields la (newFields lb lc)) := by
            rw [revalued_revalued ha hb hc hgrouped, revalued_newFields ha hb, newFields_revalued,
              newFields_merge ha hb, List.append_assoc]
        _ = merge la (merge lb lc) := by
            rw [← newFields_append, ← merge_eq hb hc, ← merge_eq ha (ordinary_merge hb hc)]
      simp only [overlay_record, hfields]

theorem merge_assoc (hlower : Ordinary (.record lower)) (hmiddle : Ordinary (.record middle))
    (hupper : Ordinary (.record upper)) (h : Compatible (.record middle) (.record upper)) :
    merge (merge lower middle) upper = merge lower (merge middle upper) := by
  have hrecords := overlay_assoc hlower hmiddle hupper h
  simp only [overlay_record] at hrecords
  exact Datum.record.inj hrecords

/-! ## Layers -/

/-- Layers laid over one another, the first one lowest. -/
def layered : List Fields → Fields
  | [] => []
  | layer :: layers => layers.foldl merge layer

theorem layered_concat_of_ne_nil {layers : List Fields} (h : layers ≠ []) (layer : Fields) :
    layered (layers ++ [layer]) = merge (layered layers) layer := by
  obtain ⟨first, rest, rfl⟩ := List.exists_cons_of_ne_nil h
  rw [List.cons_append, layered, layered, List.foldl_append]
  rfl

theorem layered_concat (layers : List Fields) {layer : Fields} (h : Ordinary (.record layer)) :
    layered (layers ++ [layer]) = merge (layered layers) layer := by
  by_cases hlayers : layers = []
  · rw [hlayers, layered, nil_merge h]
    rfl
  · exact layered_concat_of_ne_nil hlayers layer

def OrdinaryLayers (layers : List Fields) : Prop := ∀ layer ∈ layers, Ordinary (.record layer)

theorem OrdinaryLayers.layered {layers : List Fields} (h : OrdinaryLayers layers) :
    Ordinary (.record (layered layers)) := by
  induction layers using List.reverseRecOn with
  | nil => exact .nil
  | append_singleton layers layer ih =>
    obtain ⟨hlayers, hlayer⟩ := List.forall_mem_append.1 h
    have hlast := hlayer layer (List.mem_singleton_self layer)
    rw [layered_concat layers hlast]
    exact ordinary_merge (ih hlayers) hlast

/-- Layers that are compatible, each with each. -/
def CompatibleLayers (layers : List Fields) : Prop :=
  layers.Pairwise fun lower upper => Compatible (.record lower) (.record upper)

theorem CompatibleLayers.of_mem {layers : List Fields} (h : CompatibleLayers layers)
    (hlower : lower ∈ layers) (hupper : upper ∈ layers) :
    Compatible (.record lower) (.record upper) := by
  have hpairs : layers.Pairwise fun x y => Compatible (.record x) (.record y) := h
  exact hpairs.forall_of_forall_of_flip (fun x _ => compatible_refl (.record x))
    (hpairs.imp fun hxy => hxy.symm) hlower hupper

/-- **Merging keeps compatibility**: what is compatible with each layer is compatible with all of
them laid over one another. -/
theorem compatible_layered {layers : List Fields} {upper : Fields}
    (hordinary : OrdinaryLayers layers)
    (h : ∀ layer ∈ layers, Compatible (.record layer) (.record upper)) :
    Compatible (.record (layered layers)) (.record upper) := by
  induction layers using List.reverseRecOn with
  | nil =>
    exact compatible_record nofun
  | append_singleton layers layer ih =>
    obtain ⟨hlayers, hlayer⟩ := List.forall_mem_append.1 hordinary
    obtain ⟨hrest, hcompatible⟩ := List.forall_mem_append.1 h
    have hlast := hlayer layer (List.mem_singleton_self layer)
    rw [layered_concat layers hlast, ← overlay_record]
    exact (ih hlayers hrest).overlay_left (OrdinaryLayers.layered hlayers) hlast
      (hcompatible layer (List.mem_singleton_self layer))

/-- The value that the last layer has at the end of the path, among those that define it. -/
def lastDefined? (path : Path) (layers : List Fields) : Option Datum :=
  layers.reverse.findSome? fun layer => find? path (.record layer)

theorem lastDefined?_concat (path : Path) (layers : List Fields) (layer : Fields) :
    lastDefined? path (layers ++ [layer]) =
      (find? path (.record layer)).or (lastDefined? path layers) := by
  rw [lastDefined?, List.reverse_append, List.reverse_singleton, List.singleton_append,
    List.findSome?_cons]
  cases find? path (.record layer) <;> rfl

/-- Between compatible values a path can be followed in both at once. -/
theorem find?_overlay_of_compatible (ha : Ordinary a) (hb : Ordinary b) (h : Compatible a b) :
    find? path (overlay a b) = overlay? (find? path a) (find? path b) := by
  induction path generalizing a b with
  | nil => rfl
  | cons key rest ih =>
    cases hrecord : b.isRecord with
    | false =>
      have hlower := h.isRecord_eq.trans hrecord
      rw [overlay_of_upper a hrecord, find?_of_not_isRecord hlower, find?_of_not_isRecord hrecord]
      rfl
    | true =>
      obtain ⟨lower, rfl⟩ := Datum.eq_record_of_isRecord (h.isRecord_eq.trans hrecord)
      obtain ⟨upper, rfl⟩ := Datum.eq_record_of_isRecord hrecord
      rw [overlay_record, find?, find?, find?, get?_merge ha hb]
      cases hlower : Fields.get? lower key with
      | none => simp only [none_overlay?, Option.bind_none]
      | some v =>
        cases hupper : Fields.get? upper key with
        | none => simp only [overlay?_none, Option.bind_none]
        | some w => exact ih (ha.get? hlower).2 (hb.get? hupper).2 (h.field hlower hupper)

/-- **Where no layer has a record, the last layer that has anything counts.** -/
theorem find?_layered {layers : List Fields} (hordinary : OrdinaryLayers layers)
    (h : CompatibleLayers layers) {path : Path} (hpath : path ≠ [])
    (hleaf : ∀ layer ∈ layers, ∀ v, find? path (.record layer) = some v → v.isRecord = false) :
    find? path (.record (layered layers)) = lastDefined? path layers := by
  induction layers using List.reverseRecOn with
  | nil =>
    cases path with
    | nil => exact absurd rfl hpath
    | cons key rest => rfl
  | append_singleton layers layer ih =>
    obtain ⟨hlayers, hlayer⟩ := List.forall_mem_append.1 hordinary
    obtain ⟨hcompatible, -, hupper⟩ := List.pairwise_append.1 h
    obtain ⟨hleaves, hlastLeaf⟩ := List.forall_mem_append.1 hleaf
    have hmem := List.mem_singleton_self layer
    have hbelow := compatible_layered hlayers fun other hother => hupper other hother layer hmem
    rw [layered_concat layers (hlayer layer hmem), ← overlay_record,
      find?_overlay_of_compatible (OrdinaryLayers.layered hlayers) (hlayer layer hmem) hbelow,
      ih hlayers hcompatible hleaves, lastDefined?_concat]
    cases hlast : find? path (.record layer) with
    | none => rw [overlay?_none, Option.none_or]
    | some w =>
      rw [overlay?_some, overlay_of_upper _ (hlastLeaf layer hmem w hlast), Option.some_or]

/-- A way to lay layers over one another, one over one. -/
inductive Grouping where
  | layer (fields : Fields)
  | stack (lower upper : Grouping)

namespace Grouping

/-- The layers, lowest first. -/
def layers : Grouping → List Fields
  | .layer fields => [fields]
  | .stack lower upper => lower.layers ++ upper.layers

def merged : Grouping → Fields
  | .layer fields => fields
  | .stack lower upper => merge lower.merged upper.merged

end Grouping

/-- One pile of layers over another, each laid for itself. -/
theorem merge_layered {lower upper : List Fields} (hlower : OrdinaryLayers lower)
    (hupper : OrdinaryLayers upper) (h : CompatibleLayers upper) :
    merge (layered lower) (layered upper) = layered (lower ++ upper) := by
  induction upper using List.reverseRecOn with
  | nil =>
    rw [List.append_nil]
    exact merge_nil hlower.layered
  | append_singleton upper layer ih =>
    obtain ⟨hrest, hlayer⟩ := List.forall_mem_append.1 hupper
    obtain ⟨hcompatible, -, hlast⟩ := List.pairwise_append.1 h
    have hmem := List.mem_singleton_self layer
    have hbelow := compatible_layered hrest fun other hother => hlast other hother layer hmem
    rw [layered_concat upper (hlayer layer hmem),
      ← merge_assoc hlower.layered (OrdinaryLayers.layered hrest) (hlayer layer hmem) hbelow,
      ih hrest hcompatible, ← layered_concat _ (hlayer layer hmem), List.append_assoc]

theorem Grouping.merged_eq {g : Grouping} (hordinary : OrdinaryLayers g.layers)
    (h : CompatibleLayers g.layers) : g.merged = layered g.layers := by
  induction g with
  | layer fields => rfl
  | stack lower upper ihlower ihupper =>
    obtain ⟨hlower, hupper⟩ := List.forall_mem_append.1 hordinary
    obtain ⟨hbelow, habove, -⟩ := List.pairwise_append.1 h
    rw [merged, layers, ihlower hlower hbelow, ihupper hupper habove,
      merge_layered hlower hupper habove]

/-- **Precedence holds path by path.** Of ordinary layers that are compatible, each with each, laid
over one another: where some layer has a value that is no record, there is the value of the last
layer that has one there; no path is defined that no layer defines; and the record is the same
however the merges are grouped. -/
theorem layered_of_compatible {layers : List Fields} (hordinary : OrdinaryLayers layers)
    (h : CompatibleLayers layers) :
    (∀ path, (∃ layer ∈ layers, ∃ v, find? path (.record layer) = some v ∧ v.isRecord = false) →
      ∃ v, lastDefined? path layers = some v ∧ find? path (.record (layered layers)) = some v ∧
        lookUp path (.record (layered layers)) = v) ∧
    (∀ path : Path, path ≠ [] → (∀ layer ∈ layers, find? path (.record layer) = none) →
      find? path (.record (layered layers)) = none ∧
        (path.Ordinary → lookUp path (.record (layered layers)) = .undefined)) ∧
    ∀ g : Grouping, g.layers = layers → g.merged = layered layers := by
  have hlayered : Ordinary (.record (layered layers)) := OrdinaryLayers.layered hordinary
  refine ⟨?_, fun path hpath hnone => ?_, fun g hg => ?_⟩
  · rintro path ⟨layer, hlayer, v, hv, hleaf⟩
    have hpath : path ≠ [] := by
      rintro rfl
      cases hv
      cases hleaf
    have hfind := find?_layered hordinary h hpath fun other hother w hw =>
      (h.of_mem hother hlayer path w v hw hv).trans hleaf
    have hsome : (lastDefined? path layers).isSome := by
      rw [lastDefined?, List.findSome?_isSome_iff]
      exact ⟨layer, List.mem_reverse.2 hlayer, by rw [hv]; rfl⟩
    obtain ⟨u, hu⟩ := Option.isSome_iff_exists.1 hsome
    have hkeys : path.Ordinary := (ordinary_of_find? (hordinary layer hlayer) hv).1
    refine ⟨u, hu, hfind.trans hu, ?_⟩
    rw [lookUp_eq hkeys hlayered, hfind, hu, Option.getD_some]
  · have hfind : find? path (.record (layered layers)) = none := by
      rw [find?_layered hordinary h hpath fun layer hlayer v hv => ?_]
      · exact List.findSome?_eq_none_iff.2 fun layer hlayer =>
          hnone layer (List.mem_reverse.1 hlayer)
      · rw [hnone layer hlayer] at hv
        cases hv
    refine ⟨hfind, fun hkeys => ?_⟩
    rw [lookUp_eq hkeys hlayered, hfind, Option.getD_none]
  · subst hg
    exact Grouping.merged_eq hordinary h

/-- The defaults under a file that changes what happens at the end of input and an environment that
turns on debugging, merged from either side. -/
theorem layered_of_compatible_settings :
    let file : Fields := [("terminal", .record [("endOfInput", .text "empty")])]
    let environment : Fields := [("debug", .bool true)]
    let layers := [defaults, file, environment]
    OrdinaryLayers layers ∧ CompatibleLayers layers ∧
      lookUp ["terminal", "endOfInput"] (.record (layered layers)) = .text "empty" ∧
      lookUp ["terminal", "trimCarriageReturn"] (.record (layered layers)) = .bool true ∧
      lookUp ["debug"] (.record (layered layers)) = .bool true ∧
      find? ["terminal", "prompt"] (.record (layered layers)) = none ∧
      merge defaults (merge file environment) = layered layers := by
  intro file environment layers
  have hordinary : OrdinaryLayers layers := by
    simp only [OrdinaryLayers, layers, List.forall_mem_cons]
    exact ⟨.cons rfl (.leaf rfl rfl)
        (.cons rfl (.cons rfl (.leaf rfl rfl) (.cons rfl (.leaf rfl rfl) .nil)) .nil),
      .cons rfl (.cons rfl (.leaf rfl rfl) .nil) .nil, .cons rfl (.leaf rfl rfl) .nil, nofun⟩
  have hfile : Compatible (.record defaults) (.record file) := by
    refine compatible_singleton fun v hv => ?_
    cases hv
    refine compatible_singleton fun v hv => ?_
    cases hv
    exact compatible_leaf rfl rfl
  have hdefaults : Compatible (.record defaults) (.record environment) := by
    refine compatible_singleton fun v hv => ?_
    cases hv
    exact compatible_leaf rfl rfl
  have henvironment : Compatible (.record file) (.record environment) :=
    compatible_singleton nofun
  have hcompatible : CompatibleLayers layers := by
    simp only [CompatibleLayers, layers, List.pairwise_cons, List.forall_mem_cons]
    exact ⟨⟨hfile, hdefaults, nofun⟩, ⟨henvironment, nofun⟩, nofun, List.Pairwise.nil⟩
  obtain ⟨hdefined, hundefined, hgrouped⟩ := layered_of_compatible hordinary hcompatible
  have hlast : ∀ {path layer v w}, layer ∈ layers → find? path (.record layer) = some v →
      v.isRecord = false → lastDefined? path layers = some w →
      lookUp path (.record (layered layers)) = w := by
    intro path layer v w hlayer hv hleaf hw
    obtain ⟨u, hu, -, hvalue⟩ := hdefined path ⟨layer, hlayer, v, hv, hleaf⟩
    rw [hvalue]
    exact Option.some.inj (hu.symm.trans hw)
  have hmem : defaults ∈ layers ∧ file ∈ layers ∧ environment ∈ layers := by simp [layers]
  obtain ⟨hinDefaults, hinFile, hinEnvironment⟩ := hmem
  refine ⟨hordinary, hcompatible, hlast hinFile rfl rfl rfl, hlast hinDefaults rfl rfl rfl,
    hlast hinEnvironment rfl rfl rfl, ?_, ?_⟩
  · refine (hundefined ["terminal", "prompt"] (List.cons_ne_nil _ _) ?_).1
    simp only [layers, List.forall_mem_cons]
    exact ⟨rfl, rfl, rfl, nofun⟩
  · exact hgrouped (.stack (.layer defaults) (.stack (.layer file) (.layer environment))) rfl

/-- Two compatible layers, of which the upper one has a record under `__proto__`: in the merged
record that is a parent, and its member is read at a path that no layer defines. -/
theorem layered_of_parent :
    let lower : Fields := [("terminal", .record [("a", .bool true)])]
    let upper : Fields :=
      [("terminal", .record [("__proto__", .record [("b", .number (.ofNat 2))])])]
    CompatibleLayers [lower, upper] ∧
      (∀ layer ∈ [lower, upper], find? ["terminal", "b"] (.record layer) = none ∧
        lookUp ["terminal", "b"] (.record layer) = .undefined) ∧
      lookUp ["terminal", "b"] (.record (layered [lower, upper])) = .number (.ofNat 2) := by
  intro lower upper
  have hcompatible : Compatible (.record lower) (.record upper) := by
    refine compatible_singleton fun v hv => ?_
    cases hv
    exact compatible_singleton nofun
  refine ⟨List.pairwise_pair.2 hcompatible, ?_, rfl⟩
  simp only [List.forall_mem_cons]
  exact ⟨⟨rfl, rfl⟩, ⟨rfl, rfl⟩, nofun⟩

end Teletype.Settings
