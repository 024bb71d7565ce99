import SecureBoot.Proofs.Except
import SecureBoot.Update

/-!
# Runs in place

A program has one store and changes it where it lies, and an error does not take back what was
changed before it.  Here a run keeps its state at an error, so that a change which is left behind
can be seen.

* `InPlace.reading`, `InPlace.atomic` — a read, and a change that is made as a whole or not at
  all;
* `InPlaceStore` — a store with its writes as they are done in place, which are atomic;
* `Update.applyInPlace`, `Update.applyInPlace_eq` — an update on such a store is atomic as well:
  all that it reads and checks comes before its one write.
-/

namespace SecureBoot

namespace InPlace

variable {ε ε' σ α β : Type} {s s' : σ}

/-- Reads from the state. -/
def reading (f : σ → Except ε α) : EStateM ε σ α := fun s =>
  match f s with
  | .ok a => .ok a s
  | .error e => .error e s

/-- Changes the state as a whole or not at all. -/
def atomic (f : σ → Except ε (α × σ)) : EStateM ε σ α := fun s =>
  match f s with
  | .ok (a, s') => .ok a s'
  | .error e => .error e s

/-- The state that is left after a run, whatever it answers. -/
def left : EStateM.Result ε σ α → σ
  | .ok _ s => s
  | .error _ s => s

theorem ext_run {x y : EStateM ε σ α} (h : ∀ s, x.run s = y.run s) : x = y := funext h

theorem run_bind_of_ok {x : EStateM ε σ α} {f : α → EStateM ε σ β} {b : α}
    (h : x.run s = .ok b s') : (x >>= f).run s = (f b).run s' := by
  show EStateM.bind x f s = _
  rw [EStateM.run] at h
  rw [EStateM.bind, h]
  rfl

theorem run_bind_of_error {x : EStateM ε σ α} {f : α → EStateM ε σ β} {e : ε}
    (h : x.run s = .error e s') : (x >>= f).run s = .error e s' := by
  show EStateM.bind x f s = _
  rw [EStateM.run] at h
  rw [EStateM.bind, h]

theorem run_modify_bind (f : σ → σ) (x : PUnit → EStateM ε σ β) :
    (modify f >>= x).run s = (x ⟨⟩).run (f s) := run_bind_of_ok rfl

/-- What is read first decides on the change that follows. -/
theorem run_reading_bind (f : σ → Except ε α) (x : α → EStateM ε σ β) :
    (reading f >>= x).run s = match f s with
      | .ok b => (x b).run s
      | .error e => .error e s := by
  cases h : f s with
  | ok b => exact run_bind_of_ok (by rw [EStateM.run, reading, h])
  | error e => exact run_bind_of_error (by rw [EStateM.run, reading, h])

theorem run_atomic (f : σ → Except ε (α × σ)) :
    (atomic f).run s = match f s with
      | .ok (b, s') => .ok b s'
      | .error e => .error e s := rfl

theorem run_atomic_eq_ok {f : σ → Except ε (α × σ)} {b : α} :
    (atomic f).run s = .ok b s' ↔ f s = .ok (b, s') := by
  rw [run_atomic]
  cases f s with
  | ok after => simp [Prod.ext_iff]
  | error e => simp

theorem run_atomic_eq_error {f : σ → Except ε (α × σ)} {e : ε} :
    (atomic f).run s = .error e s' ↔ f s = .error e ∧ s' = s := by
  rw [run_atomic]
  cases f s with
  | ok after => simp
  | error e' => simp [eq_comm]

theorem adaptExcept_atomic (g : ε → ε') (f : σ → Except ε (α × σ)) :
    (atomic f).adaptExcept g = atomic fun s => (f s).mapError g := by
  funext s
  rw [EStateM.adaptExcept, atomic, atomic]
  cases f s <;> rfl

end InPlace

/-- A store with its writes as they are done where it lies.  A write that fails there has changed
nothing, and one that succeeds has done what the store says. -/
structure InPlaceStore (σ : Type) extends VariableStore σ where
  setInPlace : VariableId → Attributes → Bytes → EStateM StoreError σ Unit
  setInPlace_eq : ∀ id a data,
    setInPlace id a data = InPlace.atomic fun s => (set s id a data).map ((), ·)

/-- A write in place with its error as that of another computation. -/
theorem InPlaceStore.run_setInPlace {ε σ : Type} (store : InPlaceStore σ) (g : StoreError → ε)
    (id : VariableId) (a : Attributes) (data : Bytes) (s : σ) :
    ((store.setInPlace id a data).adaptExcept g).run s = match store.set s id a data with
      | .ok s' => .ok () s'
      | .error e => .error (g e) s := by
  rw [store.setInPlace_eq, InPlace.adaptExcept_atomic, InPlace.run_atomic]
  cases store.set s id a data <;> rfl

namespace Update

variable {σ : Type} {store : InPlaceStore σ} {s s' : σ}

/-- Plans an update and does the write where the store lies. -/
def applyInPlace (u : Update) (store : InPlaceStore σ) : EStateM UpdateError σ UpdateOutcome := do
  match ← InPlace.reading fun s => u.plan (store.get s) with
  | .alreadyPresent place => return .alreadyPresent place
  | .write attributes data =>
    (store.setInPlace u.target.id attributes data).adaptExcept UpdateError.store
    return .written attributes data.length

/-- **An update is applied as a whole.** -/
theorem applyInPlace_eq (u : Update) (store : InPlaceStore σ) :
    u.applyInPlace store = InPlace.atomic (u.apply store.toVariableStore) := by
  refine InPlace.ext_run fun s => ?_
  rw [applyInPlace, InPlace.run_reading_bind, InPlace.run_atomic, apply]
  cases u.plan (store.get s) with
  | error e => rfl
  | ok plan =>
    cases plan with
    | alreadyPresent place => rfl
    | write a data =>
      simp only [ok_bind]
      have hwrite := store.run_setInPlace UpdateError.store u.target.id a data s
      cases hset : store.set s u.target.id a data with
      | error e =>
        rw [hset] at hwrite
        rw [InPlace.run_bind_of_error hwrite]
        rfl
      | ok s' =>
        rw [hset] at hwrite
        rw [InPlace.run_bind_of_ok hwrite]
        rfl

theorem run_applyInPlace_eq_ok {u : Update} {outcome : UpdateOutcome} :
    (u.applyInPlace store).run s = .ok outcome s' ↔
      u.apply store.toVariableStore s = .ok (outcome, s') := by
  rw [applyInPlace_eq, InPlace.run_atomic_eq_ok]

theorem run_applyInPlace_eq_error {u : Update} {e : UpdateError} :
    (u.applyInPlace store).run s = .error e s' ↔
      u.apply store.toVariableStore s = .error e ∧ s' = s := by
  rw [applyInPlace_eq, InPlace.run_atomic_eq_error]

/-- The state that an update leaves in place, whether it succeeds or fails. -/
def leaves (u : Update) (store : InPlaceStore σ) (s : σ) : σ :=
  InPlace.left ((u.applyInPlace store).run s)

end Update

end SecureBoot
