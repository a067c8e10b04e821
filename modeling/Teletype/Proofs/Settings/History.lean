import Mathlib.Data.List.DropRight
import Teletype.Proofs.Host
import Teletype.Proofs.Settings.Layering
import Teletype.Proofs.Terminal.Running
import Teletype.Settings.Surroundings
import Teletype.Terminal.Steps

/-!
# What the store holds, said by its history

The store is read when it is first asked for something, and what is asked may fail on the way. What
it holds after any calls can be said without following it: look at the accesses since the last
reset. Those whose file could not be read raised that and count for nothing. If there are no others,
nothing has been read. Otherwise the first of the others read the file and the environment, and the
settings are these layers over the defaults, with what was set since then on top (`Follows`). A call
keeps this up whatever it does (`follows_take`), and so does a whole run. A session with files and
variables is such a run, with sources that change on the way.
-/

namespace Teletype.Settings

/-- A call of the store's interface: an access or a reset. -/
inductive Call where
  | get (path : String)
  | has (path : String)
  | getAll
  | filePath
  | set (value : Datum)
  /-- Forget everything; no place to search is the working directory. -/
  | reset (searchFrom? : Option String)

namespace Call

def isAccess : Call → Bool
  | .reset _ => false
  | _ => true

/-- What a call lays over all settings. -/
def values? : Call → Option Fields
  | .set value => value.members?
  | _ => none

/-- Whether a call can return: what has no members cannot be set. -/
def canReturn : Call → Bool
  | .set value => value.members?.isSome
  | _ => true

/-- The place that a reset gives to the search. -/
def place? : Call → Option (Option String)
  | .reset searchFrom? => some searchFrom?
  | _ => none

def perform (sources : Sources) : Call → Access Datum
  | .get path => Store.get sources path
  | .has path => Datum.bool <$> Store.has sources path
  | .getAll => Datum.record <$> Store.getAll sources
  | .filePath => (fun path? => path?.elim .undefined .text) <$> Store.filePath sources
  | .set value => (fun () => .undefined) <$> Store.setMembers sources value
  | .reset searchFrom? => fun store => .ok .undefined (store.reset searchFrom?)

/-- What a call answers when the store has been read. -/
def reply (store : Store) : Call → Except Failure Datum
  | .get path => .ok (lookUp (.ofText path) (.record store.values))
  | .has path => .ok (.bool (lookUp (.ofText path) (.record store.values)).isTruthy)
  | .getAll => .ok (.record store.values)
  | .filePath => .ok (store.filePath?.elim .undefined .text)
  | .set value => value.members?.elim (.error .noMembers) fun _ => .ok .undefined
  | .reset _ => .ok .undefined

/-- What a call leaves of a store that has been read. -/
def leave (store : Store) (call : Call) : Store :=
  { store with values := call.values?.toList.foldl merge store.values }

theorem reply_leave (store : Store) (call : Call) :
    call.reply (call.leave store) = call.reply store := by
  cases call <;> rfl

theorem isOk_reply (store : Store) (call : Call) : (call.reply store).isOk = call.canReturn := by
  cases call with
  | set value =>
    rw [reply, canReturn]
    cases value.members? <;> rfl
  | _ => rfl

theorem exists_reset {call : Call} (h : call.isAccess = false) :
    ∃ searchFrom?, call = .reset searchFrom? := by
  cases call with
  | reset searchFrom? => exact ⟨searchFrom?, rfl⟩
  | _ => cases h

end Call

/-! ## The file -/

/-- The path and the settings that a search gives: none if it finds nothing, those of a file that
holds a record, and a failure if the file holds anything else or the search fails. -/
inductive Reads : Except Failure (Option (String × Datum)) →
    Except Failure (Option String × Fields) → Prop
  | nothing : Reads (.ok none) (.ok (none, []))
  | record (path : String) (fields : Fields) :
      Reads (.ok (some (path, .record fields))) (.ok (some path, fields))
  | noRecord (path : String) {value : Datum} : value.isRecord = false →
      Reads (.ok (some (path, value))) (.error (notARecord path))
  | failed (f : Failure) : Reads (.error f) (.error f)

/-- The settings of a layer that a search found; there may be none. -/
def fileFields (layer : Option (String × Fields)) : Fields := (layer.map Prod.snd).getD []

/-- The file layer is what the search gives. -/
theorem reads_fileLayer (found : Except Failure (Option (String × Datum))) :
    Reads found ((fileLayer found).map fun layer => (layer.map Prod.fst, fileFields layer)) := by
  match found with
  | .error f => exact .failed f
  | .ok none => exact .nothing
  | .ok (some (path, value)) =>
    cases hrecord : value.isRecord with
    | true =>
      obtain ⟨fields, rfl⟩ := Datum.eq_record_of_isRecord hrecord
      exact .record path fields
    | false =>
      simp only [fileLayer, Datum.fields?_eq_none.2 hrecord]
      exact .noRecord path hrecord

theorem Reads.unique {found : Except Failure (Option (String × Datum))}
    {x y : Except Failure (Option String × Fields)} (hx : Reads found x) (hy : Reads found y) :
    x = y := by
  cases hx with
  | noRecord path h =>
    cases hy with
    | record => cases h
    | noRecord => rfl
  | record =>
    cases hy with
    | record => rfl
    | noRecord _ h => cases h
  | nothing | failed => cases hy; rfl

/-! ## One call -/

variable {sources : Sources} {store store' : Store} {call : Call} {f : Failure}
  {path? : Option String} {fields : Fields}

theorem load_of_loaded (h : store.loaded = true) : Store.load sources store = .ok () store := by
  rw [Store.load, if_pos h]

theorem load_of_error (h : store.loaded = false)
    (hfile : Reads (sources.search store.searchFrom?) (.error f)) :
    Store.load sources store = .error f store := by
  have hlayer := (reads_fileLayer (sources.search store.searchFrom?)).unique hfile
  cases hfound : fileLayer (sources.search store.searchFrom?) with
  | ok layer => rw [hfound] at hlayer; cases hlayer
  | error f' =>
    rw [hfound] at hlayer
    cases hlayer
    simp only [Store.load, h, hfound, Bool.false_eq_true, if_false]

theorem load_of_ok (h : store.loaded = false)
    (hfile : Reads (sources.search store.searchFrom?) (.ok (path?, fields))) :
    Store.load sources store = .ok () { store with
      values := layered [defaults, fields, environmentLayer sources.environment]
      loaded := true
      filePath? := path?.or store.filePath? } := by
  have hlayer := (reads_fileLayer (sources.search store.searchFrom?)).unique hfile
  cases hfound : fileLayer (sources.search store.searchFrom?) with
  | error f => rw [hfound] at hlayer; cases hlayer
  | ok layer =>
    rw [hfound] at hlayer
    cases hlayer
    simp only [Store.load, h, hfound, Bool.false_eq_true, if_false]
    rfl

theorem loaded_of_load (h : Store.load sources store = .ok () store') : store'.loaded = true := by
  cases hloaded : store.loaded with
  | true =>
    cases (load_of_loaded hloaded).symm.trans h
    exact hloaded
  | false =>
    have hfile := reads_fileLayer (sources.search store.searchFrom?)
    cases hfound : fileLayer (sources.search store.searchFrom?) with
    | error f =>
      rw [hfound] at hfile
      cases (load_of_error hloaded hfile).symm.trans h
    | ok layer =>
      rw [hfound] at hfile
      cases (load_of_ok hloaded hfile).symm.trans h
      rfl

theorem load_again (h : Store.load sources store = .ok () store') :
    Store.load sources store' = .ok () store' := load_of_loaded (loaded_of_load h)

/-- Setting the members of a value reads the layers twice, and the second time does nothing. -/
theorem setMembers_of_load (h : Store.load sources store = .ok () store') (value : Datum) :
    outcomeOf (Store.setMembers sources value) store =
      (value.members?.elim (.error .noMembers) fun _ => .ok (),
        (Call.set value).leave store') := by
  rw [Store.setMembers, outcomeOf_congr (Host.bind_of_ok h), Call.leave, Call.values?]
  cases value.members? with
  | none => rfl
  | some fields => exact outcomeOf_eq_ok.2 (Host.bind_of_ok (load_again h))

/-- **An access whose layers can be read**: what it answers and leaves depends only on what was
read. -/
theorem perform_of_load (haccess : call.isAccess = true)
    (h : Store.load sources store = .ok () store') :
    outcomeOf (call.perform sources) store = (call.reply store', call.leave store') := by
  have hall : Store.getAll sources store = .ok store'.values store' := Host.bind_of_ok h
  have hget : ∀ path, Store.get sources path store =
      .ok (lookUp (.ofText path) (.record store'.values)) store' := fun path => Host.map_of_ok hall
  cases call with
  | get path => exact outcomeOf_eq_ok.2 (hget path)
  | has path => exact outcomeOf_eq_ok.2 (Host.map_of_ok (Host.map_of_ok (hget path)))
  | getAll => exact outcomeOf_eq_ok.2 (Host.map_of_ok hall)
  | filePath => exact outcomeOf_eq_ok.2 (Host.map_of_ok (Host.bind_of_ok h))
  | set value =>
    have hset := setMembers_of_load h value
    rw [Call.perform, Call.reply]
    cases hmembers : value.members? with
    | none =>
      rw [hmembers] at hset
      exact outcomeOf_eq_error.2 (Host.map_of_error (outcomeOf_eq_error.1 hset))
    | some fields =>
      rw [hmembers] at hset
      exact outcomeOf_eq_ok.2 (Host.map_of_ok (outcomeOf_eq_ok.1 hset))
  | reset => cases haccess

theorem get_of_load {path : String} (h : Store.load sources store = .ok () store') :
    Store.get sources path store =
      .ok (lookUp (.ofText path) (.record store'.values)) store' := by
  have haccess : (Call.get path).isAccess = true := rfl
  exact outcomeOf_eq_ok.1 (perform_of_load haccess h)

/-- **An access whose layers cannot be read raises and leaves everything.** -/
theorem perform_of_load_error (haccess : call.isAccess = true)
    (h : Store.load sources store = .error f store) :
    call.perform sources store = .error f store := by
  have hall : Store.getAll sources store = .error f store := Host.bind_of_error h
  have hget : ∀ path, Store.get sources path store = .error f store :=
    fun path => Host.bind_of_error hall
  cases call with
  | get path => exact hget path
  | has path => exact Host.map_of_error (Host.bind_of_error (hget path))
  | getAll => exact Host.map_of_error hall
  | filePath => exact Host.map_of_error (Host.bind_of_error h)
  | set value => exact Host.map_of_error (Host.bind_of_error h)
  | reset => cases haccess

/-! ## Calls in turn -/

/-- A call, and the sources as they are when it is made. -/
structure Moment where
  sources : Sources
  call : Call

/-- A call that was made, and what it returned or raised. -/
structure Event extends Moment where
  answer : Except Failure Datum

def Moment.take (m : Moment) (store : Store) : Event × Store :=
  let (answer, store) := outcomeOf (m.call.perform m.sources) store
  ({ m with answer }, store)

variable {m : Moment} {e : Event} {events : List Event}

theorem take_of_load (haccess : m.call.isAccess = true)
    (h : Store.load m.sources store = .ok () store') :
    m.take store = ({ m with answer := m.call.reply store' }, m.call.leave store') := by
  rw [Moment.take, perform_of_load haccess h]

theorem take_of_load_error (haccess : m.call.isAccess = true)
    (h : Store.load m.sources store = .error f store) :
    m.take store = ({ m with answer := .error f }, store) := by
  rw [Moment.take, outcomeOf_eq_error.2 (perform_of_load_error haccess h)]

theorem take_of_reset {searchFrom? : Option String} (h : m.call = .reset searchFrom?) :
    m.take store = ({ m with answer := .ok .undefined }, { searchFrom? }) := by
  rw [Moment.take, h]
  rfl

/-! ## History -/

/-- The accesses since the last reset. -/
def accesses (events : List Event) : List Event := events.rtakeWhile (·.call.isAccess)

/-- The place that the last reset gave to the search. -/
def searchPlace (events : List Event) : Option String :=
  (events.reverse.findSome? (·.call.place?)).join

/-- The file could not be read when the call was made, and the call raised that. -/
def Event.Fails (place : Option String) (e : Event) : Prop :=
  ∃ f, Reads (e.sources.search place) (.error f) ∧ e.answer = .error f

/-- What the store holds after these events: nothing but a place to search if every access since the
last reset failed for its file; else the file and the environment as the first other access found
them, over the defaults, and over that what was set since, in order. That access and all since have
returned, but for attempts to set what has no members. -/
inductive Follows (events : List Event) : Store → Prop
  | unread (h : ∀ e ∈ accesses events, e.Fails (searchPlace events)) :
      Follows events { searchFrom? := searchPlace events }
  | read {failed rest : List Event} {first : Event} {path? : Option String} {fields : Fields}
      (h : accesses events = failed ++ first :: rest)
      (hfailed : ∀ e ∈ failed, e.Fails (searchPlace events))
      (hfile : Reads (first.sources.search (searchPlace events)) (.ok (path?, fields)))
      (hanswers : ∀ e ∈ first :: rest, e.answer.isOk = e.call.canReturn) :
      Follows events {
        values := layered ([defaults, fields, environmentLayer first.sources.environment] ++
          (first :: rest).filterMap (·.call.values?))
        loaded := true
        filePath? := path?
        searchFrom? := searchPlace events }

theorem accesses_reset (h : e.call.isAccess = false) : accesses (events ++ [e]) = [] := by
  have hnot : ¬e.call.isAccess = true := by simp [h]
  exact List.rtakeWhile_concat_neg (fun e : Event => e.call.isAccess) _ _ hnot

theorem accesses_access (h : e.call.isAccess = true) :
    accesses (events ++ [e]) = accesses events ++ [e] :=
  List.rtakeWhile_concat_pos (fun e : Event => e.call.isAccess) _ _ h

theorem searchPlace_concat (events : List Event) (e : Event) :
    searchPlace (events ++ [e]) = e.call.place?.getD (searchPlace events) := by
  rw [searchPlace, List.reverse_append, List.reverse_singleton, List.singleton_append,
    List.findSome?_cons]
  cases e.call.place? <;> rfl

theorem searchPlace_access (events : List Event) (h : e.call.isAccess = true) :
    searchPlace (events ++ [e]) = searchPlace events := by
  rw [searchPlace_concat]
  cases hcall : e.call with
  | reset => rw [hcall] at h; cases h
  | _ => rfl

/-- What a call sets lies over all layers before it. -/
theorem layered_values_concat (layer : Fields) (layers : List Fields) (calls : List Event)
    (e : Event) :
    layered (layer :: layers ++ (calls ++ [e]).filterMap (·.call.values?)) =
      e.call.values?.toList.foldl merge
        (layered (layer :: layers ++ calls.filterMap (·.call.values?))) := by
  have hlast : [e].filterMap (·.call.values?) = e.call.values?.toList := by
    cases h : e.call.values? <;> simp [h]
  rw [List.filterMap_append, hlast, ← List.append_assoc, List.cons_append, List.cons_append,
    layered, List.foldl_append, layered]

/-- A reset starts anew. -/
theorem follows_reset {searchFrom? : Option String} (h : e.call = .reset searchFrom?) :
    Follows (events ++ [e]) { searchFrom? } := by
  have hplace : searchPlace (events ++ [e]) = searchFrom? := by
    rw [searchPlace_concat, h]
    rfl
  have hnone : accesses (events ++ [e]) = [] := accesses_reset (by rw [h]; rfl)
  rw [← hplace]
  refine .unread fun other hother => ?_
  rw [hnone] at hother
  cases hother

section

variable (h : Follows events store) (haccess : e.call.isAccess = true)

include h haccess

/-- An access whose file cannot be read counts for nothing. -/
theorem Follows.fails (hloaded : store.loaded = false)
    (hfails : e.Fails store.searchFrom?) : Follows (events ++ [e]) store := by
  have hplace := searchPlace_access events haccess
  cases h with
  | read => cases hloaded
  | unread hfailed =>
    rw [← hplace]
    refine .unread fun other hother => ?_
    rw [accesses_access haccess, List.mem_append, List.mem_singleton] at hother
    rw [hplace]
    rcases hother with hother | rfl
    · exact hfailed other hother
    · exact hfails

/-- The first access whose file can be read has read the layers. -/
theorem Follows.reads (hloaded : store.loaded = false)
    (hfile : Reads (e.sources.search store.searchFrom?) (.ok (path?, fields)))
    (hanswer : e.answer.isOk = e.call.canReturn) :
    Follows (events ++ [e]) (e.call.leave { store with
      values := layered [defaults, fields, environmentLayer e.sources.environment]
      loaded := true
      filePath? := path?.or store.filePath? }) := by
  have hplace := searchPlace_access events haccess
  cases h with
  | read => cases hloaded
  | unread hfailed =>
    rw [← hplace] at hfailed hfile ⊢
    have hread := Follows.read (accesses_access haccess) hfailed hfile
      (List.forall_mem_singleton.2 hanswer)
    have hvalues := layered_values_concat defaults
      [fields, environmentLayer e.sources.environment] [] e
    rw [List.nil_append] at hvalues
    rw [hvalues] at hread
    rw [Option.or_none]
    exact hread

/-- A later access lays over them what it sets. -/
theorem Follows.next (hloaded : store.loaded = true) (hanswer : e.answer.isOk = e.call.canReturn) :
    Follows (events ++ [e]) (e.call.leave store) := by
  have hplace := searchPlace_access events haccess
  cases h with
  | unread => cases hloaded
  | @read failed rest first path? fields h hfailed hfile hanswers =>
    have haccesses : accesses (events ++ [e]) = failed ++ first :: (rest ++ [e]) := by
      rw [accesses_access haccess, h, List.append_assoc, List.cons_append]
    rw [← hplace] at hfailed hfile ⊢
    have hread := Follows.read haccesses hfailed hfile
      (List.forall_mem_append.2 ⟨hanswers, List.forall_mem_singleton.2 hanswer⟩)
    rw [← List.cons_append, layered_values_concat] at hread
    exact hread

end

/-- **Each call keeps the history and the store together.** -/
theorem follows_take (h : Follows events store) (m : Moment) :
    Follows (events ++ [(m.take store).1]) (m.take store).2 := by
  cases haccess : m.call.isAccess with
  | false =>
    obtain ⟨searchFrom?, hcall⟩ := Call.exists_reset haccess
    rw [take_of_reset hcall]
    exact follows_reset hcall
  | true =>
    cases hloaded : store.loaded with
    | true =>
      rw [take_of_load haccess (load_of_loaded hloaded)]
      exact h.next haccess hloaded (m.call.isOk_reply store)
    | false =>
      have hfile := reads_fileLayer (m.sources.search store.searchFrom?)
      cases hfound : fileLayer (m.sources.search store.searchFrom?) with
      | error f =>
        rw [hfound] at hfile
        rw [take_of_load_error haccess (load_of_error hloaded hfile)]
        exact h.fails haccess hloaded ⟨f, hfile, rfl⟩
      | ok layer =>
        rw [hfound] at hfile
        rw [take_of_load haccess (load_of_ok hloaded hfile)]
        exact h.reads haccess hloaded hfile (m.call.isOk_reply _)

/-- After any calls, the store is what their history says. -/
theorem follows_inTurn (h : Follows events store) (moments : List Moment) :
    Follows (events ++ (inTurn Moment.take moments store).1)
      (inTurn Moment.take moments store).2 := by
  induction moments generalizing events store with
  | nil =>
    rw [inTurn, List.append_nil]
    exact h
  | cons m rest ih =>
    have hrest := ih (follows_take h m)
    rw [List.append_assoc] at hrest
    exact hrest

/-- **A store that has been read answers alike wherever its sources are by now.** -/
theorem inTurn_of_loaded (h : store.loaded = true) {xs ys : List Moment}
    (hcalls : xs.map (·.call) = ys.map (·.call)) (haccess : ∀ m ∈ xs, m.call.isAccess = true) :
    (inTurn Moment.take xs store).1.map (·.answer) =
      (inTurn Moment.take ys store).1.map (·.answer) ∧
    (inTurn Moment.take xs store).2 = (inTurn Moment.take ys store).2 := by
  induction xs generalizing ys store with
  | nil =>
    obtain rfl := List.map_eq_nil_iff.1 hcalls.symm
    exact ⟨rfl, rfl⟩
  | cons x xs ih =>
    obtain ⟨y, ys, rfl, hcall, hcalls⟩ := List.map_eq_cons_iff.1 hcalls.symm
    obtain ⟨hx, haccess⟩ := List.forall_mem_cons.1 haccess
    have hy : y.call.isAccess = true := by rw [hcall]; exact hx
    have htakex := take_of_load hx (load_of_loaded h)
    have htakey := take_of_load hy (load_of_loaded h)
    have hleft : (x.call.leave store).loaded = true := h
    obtain ⟨hanswers, hstore⟩ := ih hleft hcalls.symm haccess
    simp only [inTurn, htakex, htakey, hcall, List.map_cons]
    exact ⟨congrArg _ hanswers, hstore⟩

/-- **The layered specification.** However the sources change from call to call: after any calls
the store is what their history says; an access whose file is invalid raises that failure and leaves
everything in the store, and any other access answers what the settings say; and once the settings
have been read, nothing that happens to the sources is seen before a reset. -/
theorem store_follows_history (moments : List Moment) :
    let run := inTurn Moment.take moments {}
    let store := run.2
    Follows run.1 store ∧
      (∀ (m : Moment) (f : Failure), m.call.isAccess = true → store.loaded = false →
        Reads (m.sources.search store.searchFrom?) (.error f) →
        m.take store = ({ m with answer := .error f }, store)) ∧
      (∀ m : Moment, m.call.isAccess = true →
        (store.loaded = false → ∃ path? fields,
          Reads (m.sources.search store.searchFrom?) (.ok (path?, fields))) →
        ∃ store', m.take store = ({ m with answer := m.call.reply store' }, store') ∧
          store'.loaded = true) ∧
      (store.loaded = true → ∀ xs ys : List Moment, xs.map (·.call) = ys.map (·.call) →
        (∀ m ∈ xs, m.call.isAccess = true) →
        (inTurn Moment.take xs store).1.map (·.answer) =
            (inTurn Moment.take ys store).1.map (·.answer) ∧
          (inTurn Moment.take xs store).2 = (inTurn Moment.take ys store).2) := by
  intro run store
  refine ⟨?_, ?_, ?_, ?_⟩
  · have hempty : Follows [] {} := .unread nofun
    exact follows_inTurn hempty moments
  · intro m f haccess hloaded hfile
    exact take_of_load_error haccess (load_of_error hloaded hfile)
  · intro m haccess hreadable
    obtain ⟨store', hload⟩ : ∃ store', Store.load m.sources store = .ok () store' := by
      cases hloaded : store.loaded with
      | true => exact ⟨store, load_of_loaded hloaded⟩
      | false =>
        obtain ⟨path?, fields, hfile⟩ := hreadable hloaded
        exact ⟨_, load_of_ok hloaded hfile⟩
    have hloaded : (m.call.leave store').loaded = true := by
      rw [Call.leave, loaded_of_load hload]
    refine ⟨m.call.leave store', ?_, hloaded⟩
    rw [take_of_load haccess hload, Call.reply_leave]
  · intro hloaded xs ys hcalls haccess
    exact inTurn_of_loaded hloaded hcalls haccess

/-- A file that holds a list, which is then mended: what was to be set in between counts for
nothing, the first access that can read the file makes its setting count over the default, and then
it does not matter that the file is spoiled again, nor that what has no members is to be set. -/
theorem store_follows_history_mended :
    let spoiled : Sources :=
      { search := fun _ => .ok (some (".lineiorc", .list [])), environment := [] }
    let mended : Sources :=
      { search := fun _ => .ok (some (".lineiorc", .record [("debug", .bool true)]))
        environment := [] }
    let quiet : Datum := .record [("debug", .bool false)]
    let before := inTurn Moment.take [⟨spoiled, .get "debug"⟩, ⟨spoiled, .set quiet⟩] {}
    let after := inTurn Moment.take
      [⟨spoiled, .set quiet⟩, ⟨mended, .has "debug"⟩, ⟨spoiled, .set .null⟩] {}
    (before.2.loaded = false ∧
      (Moment.mk spoiled .getAll).take before.2 =
        ({ sources := spoiled, call := .getAll, answer := .error (notARecord ".lineiorc") },
          before.2) ∧
      ∃ store', ((Moment.mk mended .getAll).take before.2).2 = store' ∧ store'.loaded = true) ∧
    Follows after.1 after.2 ∧ after.2.loaded = true ∧
      lookUp ["debug"] (.record after.2.values) = .bool true ∧
      after.2.filePath? = some ".lineiorc" ∧
      (inTurn Moment.take [⟨spoiled, .get "debug"⟩] after.2).1.map (·.answer) =
        (inTurn Moment.take [⟨mended, .get "debug"⟩] after.2).1.map (·.answer) := by
  intro spoiled mended quiet before after
  have hbefore : before.2.loaded = false := rfl
  have hafter : after.2.loaded = true := rfl
  obtain ⟨-, hraises, hreturns, -⟩ := store_follows_history
    [⟨spoiled, .get "debug"⟩, ⟨spoiled, .set quiet⟩]
  obtain ⟨hfollows, -, -, hblind⟩ := store_follows_history
    [⟨spoiled, .set quiet⟩, ⟨mended, .has "debug"⟩, ⟨spoiled, .set .null⟩]
  refine ⟨⟨hbefore, hraises _ _ rfl hbefore (.noRecord ".lineiorc" rfl), ?_⟩, hfollows, hafter,
    rfl, rfl, ?_⟩
  · obtain ⟨store', htake, hloaded⟩ := hreturns ⟨mended, .getAll⟩ rfl
      fun _ => ⟨some ".lineiorc", [("debug", .bool true)], .record _ _⟩
    exact ⟨store', congrArg Prod.snd htake, hloaded⟩
  · exact (hblind hafter _ _ rfl (by simp [Call.isAccess])).1

/-! ## Sessions -/

/-- The call that a step of a session makes. -/
def Step.call? : Step → Option Call
  | .get path => some (.get path)
  | .has path => some (.has path)
  | .set value => some (.set value)
  | .getAll => some .getAll
  | .filePath => some .filePath
  | .reset place => some (.reset (some place))
  | .resetAt _ => some (.reset none)
  | _ => none

theorem perform_of_access {step : Step} {s : Surroundings} {access : Access Datum}
    (h : step.access? s.sources = some access) (store : Store) :
    step.perform s store = ((outcomeOf access store).1, s, (outcomeOf access store).2) := by
  simp only [Step.perform, h, outcomeOf]
  cases access store <;> rfl

/-- A step that makes a call makes it with the surroundings as the sources. -/
theorem perform_of_call? {step : Step} (h : step.call? = some call) (s : Surroundings)
    (store : Store) : step.perform s store =
      (((Moment.mk s.sources call).take store).1.answer, (step.change s store).1,
        ((Moment.mk s.sources call).take store).2) := by
  cases step with
  | get | has | set | getAll | filePath =>
    cases h
    rw [perform_of_access rfl]
    rfl
  | reset | resetAt =>
    cases h
    rfl
  | setVariable | unsetVariable | writeFile | removeFile => cases h

/-- A step that makes no call only changes the surroundings. -/
theorem perform_of_no_call {step : Step} (h : step.call? = none) (s : Surroundings)
    (store : Store) : (step.perform s store).2.2 = store := by
  cases step with
  | setVariable | unsetVariable | writeFile | removeFile => rfl
  | _ => cases h

/-- **The store of a session is what its calls leave**, each made with the sources as they were at
that step: so it follows their history, whatever happens to files and variables in between. -/
theorem exists_moments_of_session (steps : List Step) (s : Surroundings) (store : Store) :
    ∃ moments : List Moment, moments.map (·.call) = steps.filterMap Step.call? ∧
      (inTurn (fun step (here : Surroundings × Store) => step.perform here.1 here.2) steps
          (s, store)).2.2 = (inTurn Moment.take moments store).2 := by
  induction steps generalizing s store with
  | nil => exact ⟨[], rfl, rfl⟩
  | cons step rest ih =>
    obtain ⟨moments, hcalls, hstore⟩ :=
      ih (step.perform s store).2.1 (step.perform s store).2.2
    cases hcall : step.call? with
    | none =>
      refine ⟨moments, ?_, hstore.trans ?_⟩
      · rw [hcalls, List.filterMap_cons_none hcall]
      · rw [perform_of_no_call hcall]
    | some call =>
      refine ⟨⟨s.sources, call⟩ :: moments, ?_, hstore.trans ?_⟩
      · rw [List.map_cons, hcalls, List.filterMap_cons_some hcall]
      · rw [perform_of_call? hcall]
        rfl

end Teletype.Settings
