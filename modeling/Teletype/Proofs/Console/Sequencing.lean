import Teletype.Proofs.Host

/-!
# The loop and the recursion of sequencing

`flatMapFrom` walks over the leading writes and puts them back behind its back; `bind` descends the
tree one node at a time. They are the same action. A program that stands behind a question is known
only through the callback that returned it, which is why the read case speaks of what the callback
returned.

The recursion has one equation for each node (`IsSequencing`). The loop satisfies the equations, and
nothing else does, so the algebra of sequencing is done on `bind`, from its equations.
-/

namespace Teletype.Console

open Host

variable {ε σ α β γ : Type}

theorem prepend_cons (line : String) (lines : List String) (program : Console ε σ α) :
    prepend (line :: lines) program = prepend lines (.write line program) := rfl

/-- **The loop is the recursion**, with the lines seen so far put back in front. -/
theorem flatMapFrom_eq (f : α → Host ε σ (Console ε σ β)) (self : Console ε σ α)
    (lines : List String) : flatMapFrom f self lines = prepend lines <$> bind f self := by
  induction self using Console.rec
    (motive_2 := fun result => flatMapResult f result = bindResult f result) generalizing lines with
  | done value =>
    funext s
    rw [show bind f (.done value) = value >>= f from bind_sync f value]
    simp only [flatMapFrom]
    cases hv : value s with
    | error e s' => rw [map_of_error (bind_of_error hv)]
    | ok a s' =>
      simp only
      cases hf : f a s' with
      | error e s'' => rw [map_of_error ((bind_of_ok hv).trans hf)]
      | ok program s'' => rw [map_of_ok ((bind_of_ok hv).trans hf)]
  | write line next ih =>
    have hloop : flatMapFrom f (.write line next) lines = flatMapFrom f next (line :: lines) := by
      funext s
      simp only [flatMapFrom]
    rw [hloop, ih (line :: lines), bind_write, Functor.map_map]
    rfl
  | read next ih =>
    funext s
    have hnext : (fun line s => flatMapResult f (next line s)) =
        fun line s => bindResult f (next line s) := funext fun line => funext fun s => ih line s
    simp only [flatMapFrom, hnext, bind]
    rfl
  | ok program s ih =>
    simp only [flatMapResult, bindResult, ih]
    exact congrFun (id_map (bind f program)) s
  | error e s => simp only [flatMapResult, bindResult]

/-- Sequencing as written is sequencing by recursion. -/
theorem flatMap_eq_bind (self : Console ε σ α) (f : α → Host ε σ (Console ε σ β)) :
    self.flatMap f = bind f self := by
  rw [flatMap, flatMapFrom_eq]
  exact id_map (bind f self)

/-! ## The equations of sequencing -/

/-- The equations of sequencing into `f`, one for each node. -/
structure IsSequencing (f : α → Host ε σ (Console ε σ β))
    (seq : Console ε σ α → Host ε σ (Console ε σ β)) : Prop where
  /-- At the end, on from the value that is asked for there. -/
  sync : ∀ value, seq (.sync value) = value >>= f
  /-- Past a write, which stays in front. -/
  write : ∀ line next, seq (.write line next) = Console.write line <$> seq next
  /-- Past a question, without running anything until it is answered. -/
  ask : ∀ next, seq (.ask next) = pure (.ask fun line => next line >>= seq)

theorem isSequencing_bind (f : α → Host ε σ (Console ε σ β)) : IsSequencing f (bind f) where
  sync := bind_sync f
  write := bind_write f
  ask := bind_ask f

/-- The equations leave no choice: each tells what is built at a node from what is built behind
it, and behind a question only the programs count that its callback returns. -/
theorem IsSequencing.eq_bind {f : α → Host ε σ (Console ε σ β)}
    {seq : Console ε σ α → Host ε σ (Console ε σ β)} (h : IsSequencing f seq)
    (self : Console ε σ α) : seq self = bind f self := by
  induction self using Console.induct with
  | sync value => rw [h.sync, bind_sync]
  | write line next ih => rw [h.write, ih, bind_write]
  | ask next ih =>
    have hnext : ∀ line, next line >>= seq = next line >>= bind f := fun line =>
      bind_congr_of_ok fun s program s' hprogram => ih line s program s' hprogram
    rw [h.ask, bind_ask]
    simp only [hnext]

/-- **The loop is the one solution of the equations**, as an action of the host: whatever satisfies
them runs the same callbacks in the same order, raises the same, and gives the same tree, in which
every question is followed by the same actions. -/
theorem isSequencing_iff_flatMap_eq (f : α → Host ε σ (Console ε σ β))
    (seq : Console ε σ α → Host ε σ (Console ε σ β)) :
    IsSequencing f seq ↔ ∀ self, self.flatMap f = seq self := by
  constructor
  · intro h self
    rw [flatMap_eq_bind, h.eq_bind]
  · intro h
    have hseq : seq = bind f := funext fun self => (h self).symm.trans (flatMap_eq_bind self f)
    rw [hseq]
    exact isSequencing_bind f

/-! ## The algebra of sequencing -/

theorem map_eq_bind (self : Console ε σ α) (f : α → Host ε σ β) :
    self.map f = bind (fun a => pure (.sync (f a))) self := flatMap_eq_bind self _

/-- A value that is there already is handed straight on. -/
theorem bind_succeed (f : α → Host ε σ (Console ε σ β)) (a : α) : bind f (succeed a) = f a := by
  rw [succeed, bind_sync, pure_bind]

/-- Lines in front of a program stay in front of what it is sequenced into. -/
theorem bind_prepend (f : α → Host ε σ (Console ε σ β)) (lines : List String)
    (self : Console ε σ α) : bind f (prepend lines self) = prepend lines <$> bind f self := by
  induction lines generalizing self with
  | nil => exact (id_map (bind f self)).symm
  | cons line lines ih =>
    rw [prepend_cons, ih, bind_write, Functor.map_map]
    rfl

/-- Two continuations in a row are one: the second is pushed behind whatever the first builds. -/
theorem bind_bind (f : α → Host ε σ (Console ε σ β)) (g : β → Host ε σ (Console ε σ γ))
    (self : Console ε σ α) : (bind f self >>= bind g) = bind (fun a => f a >>= bind g) self := by
  have hseq : IsSequencing (fun a => f a >>= bind g) fun self => bind f self >>= bind g := {
    sync := fun value => by rw [bind_sync, bind_assoc]
    write := fun line next => by simp only [bind_write, bind_map_left, map_bind]
    ask := fun next => by simp only [bind_ask, pure_bind, bind_assoc] }
  exact hseq.eq_bind self

/-- What goes on from a pair of results goes on from the second one, with the first at hand. -/
theorem zip_bind (f : α × β → Host ε σ (Console ε σ γ)) (self : Console ε σ α)
    (other : Console ε σ β) :
    (self.zip other >>= bind f) = bind (fun a => bind (fun b => f (a, b)) other) self := by
  have hpair : ∀ a b, bind f (.sync (pure (a, b))) = f (a, b) := fun a b => bind_succeed f (a, b)
  simp only [zip, zipWith, flatMap_eq_bind, map_eq_bind, bind_bind, pure_bind, hpair]

theorem zipRight_eq_bind (self : Console ε σ α) (other : Console ε σ β) :
    self.zipRight other = bind (fun _ => bind (fun b => pure (succeed b)) other) self := by
  simp only [zipRight, map_eq_bind, zip_bind]
  rfl

theorem zipLeft_eq_bind (self : Console ε σ α) (other : Console ε σ β) :
    self.zipLeft other = bind (fun a => bind (fun _ => pure (succeed a)) other) self := by
  simp only [zipLeft, map_eq_bind, zip_bind]
  rfl

/-- **Sequencing is associative**, as an action of the host: whichever way two continuations are
nested, building does the same to the host's state, raises the same, and gives the same tree, in
which every question is followed by the same actions. -/
theorem flatMap_assoc (self : Console ε σ α) (f : α → Host ε σ (Console ε σ β))
    (g : β → Host ε σ (Console ε σ γ)) :
    (do let program ← self.flatMap f; program.flatMap g) =
      self.flatMap fun a => (do let program ← f a; program.flatMap g) := by
  simp only [flatMap_eq_bind]
  exact bind_bind f g self

end Teletype.Console
