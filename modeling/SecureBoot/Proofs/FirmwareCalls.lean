import SecureBoot.Proofs.FirmwareRuns
import SecureBoot.Proofs.InPlaceRuns

/-!
# Calls of firmware, step by step

Firmware keeps its variables in one table and changes them where they lie.  An error does not
take back what was changed before it, and the errors of a call come from lookups and checks
that stand between and around the changes.  This file follows a call through the table.

* `InPlace.setTimeBased`, `InPlace.setPlain`, `InPlace.call` — a call as it looks up, checks and
  changes in turn;
* `InPlace.run_call` — no error comes after a change, so that a call answers and leaves what
  the services of firmware do, and `InPlace.store` is a store in place;
* `call_changes_named` — a refused call changes nothing, and an accepted one at most the
  variable that it names;
* `stored_afterCalls`, `reachable_afterCalls` — from it, what is left after any calls, refused
  ones among them.
-/

namespace SecureBoot

open InPlace

namespace Firmware

variable {scheme : SignatureScheme} {f : Firmware} {id : VariableId} {c : Call}
  {α : Type}

/-- A computation that changes firmware where it lies: what is changed before an error stays
changed. -/
abbrev InPlace (α : Type) := EStateM FirmwareStatus Firmware α

namespace InPlace

/-- What is stored under an id. -/
def lookup (id : VariableId) : InPlace (Option StoredVariable) := do
  return (← getThe Firmware).stored id

/-- Stores a variable under an id. -/
def insert (id : VariableId) (v : StoredVariable) : InPlace Unit := modify (·.update id (some v))

/-- Removes what is stored under an id, and tells whether anything was. -/
def remove (id : VariableId) : InPlace Bool := do
  let stored ← lookup id
  modify (·.update id none)
  return stored.isSome

/-- Puts data behind those that are stored under an id, and tells whether anything is. -/
def extend (id : VariableId) (data : Bytes) : InPlace Bool := do
  match ← lookup id with
  | some stored =>
    insert id { stored with data := stored.data ++ data }
    return true
  | none => return false

/-- Leaves what an accepted envelope makes of a variable. -/
def leave (id : VariableId) (a : Attributes) (e : Envelope) : InPlace Unit := do
  let merged := mergedData (← lookup id) a e.payload
  if merged.isEmpty && !a.isAppend then
    let _ ← remove id
  else
    let timestamp := mergedTimestamp (← lookup id) e.timestamp
    insert id ⟨⟨a.difference .appendWrite, merged⟩, timestamp⟩

/-- A write with an envelope. -/
def setTimeBased (scheme : SignatureScheme) (id : VariableId) (a : Attributes) (data : Bytes) :
    InPlace Unit := do
  let e ← ofExcept ((Envelope.parse data).mapError fun _ => FirmwareStatus.securityViolation)
  let f ← getThe Firmware
  if !f.isSetupMode then ofExcept (f.checkSignature scheme id a e)
  if let some stored ← lookup id then ofExcept (checkReplacement stored a e.timestamp)
  let merged := mergedData (← lookup id) a e.payload
  if let some v := SecureVariable.ofId? id then
    if !(a.isAppend && e.payload.isEmpty) then
      ofExcept ((v.validatePayload merged).mapError fun _ => FirmwareStatus.invalidParameter)
  leave id a e

/-- A write without an envelope to a variable that needs none. -/
def setOpen (id : VariableId) (a : Attributes) (data : Bytes) : InPlace Unit := do
  let fresh : StoredVariable := ⟨⟨a.difference .appendWrite, data⟩, .zero⟩
  if a.isAppend then
    if !(← extend id data) then insert id fresh
  else if data.isEmpty then
    if !(← remove id) then throw .notFound
  else insert id fresh

/-- A write without an envelope. -/
def setPlain (id : VariableId) (a : Attributes) (data : Bytes) : InPlace Unit := do
  if let some v := SecureVariable.ofId? id then
    if v.requiresEnvelope then throw .securityViolation
  setOpen id a data

/-- A call that writes a variable. -/
def call (scheme : SignatureScheme) (c : Call) : InPlace Unit := do
  if (StatusVariable.ofId? c.id).isSome then throw .writeProtected
  if c.attributes.isTimeBased then setTimeBased scheme c.id c.attributes c.data
  else setPlain c.id c.attributes c.data

/-! ## No error comes after a change -/

theorem run_ofExcept {ε σ α : Type} (x : Except ε α) (s : σ) :
    (ofExcept x : EStateM ε σ α).run s = match x with
      | .ok b => .ok b s
      | .error e => .error e s := by
  cases x <;> rfl

theorem run_lookup : (lookup id).run f = .ok (f.stored id) f := rfl

theorem run_remove : (remove id).run f = .ok (f.stored id).isSome (f.update id none) := rfl

theorem run_extend (data : Bytes) :
    (extend id data).run f = match f.stored id with
      | some stored => .ok true (f.update id (some { stored with data := stored.data ++ data }))
      | none => .ok false f := by
  rw [extend, EStateM.run_bind, run_lookup]
  cases f.stored id <;> rfl

/-- What an answer makes of firmware: new firmware takes the place of the old, and an error
leaves it. -/
def settle (f : Firmware) :
    Except FirmwareStatus Firmware → EStateM.Result FirmwareStatus Firmware Unit
  | .ok f' => .ok () f'
  | .error status => .error status f

/-- What is computed from firmware as it is decides on the rest. -/
theorem run_ofExcept_bind {x : Except FirmwareStatus α} {k : α → InPlace Unit}
    {g : α → Except FirmwareStatus Firmware} (h : ∀ b, (k b).run f = settle f (g b)) :
    (ofExcept x >>= k).run f = settle f (x >>= g) := by
  rw [EStateM.run_bind, run_ofExcept]
  cases x with
  | ok b => exact h b
  | error e => rfl

/-- A check of firmware as it is, made on a condition only, decides on the rest. -/
theorem run_check_bind {p : Prop} [Decidable p] {x : Except FirmwareStatus Unit}
    {k : Unit → InPlace Unit} {g : Unit → Except FirmwareStatus Firmware}
    (h : (k ()).run f = settle f (g ())) :
    (if p then ofExcept x >>= k else k ()).run f = settle f (if p then x >>= g else g ()) := by
  by_cases hp : p
  · rw [if_pos hp, if_pos hp]
    exact run_ofExcept_bind fun _ => h
  · rw [if_neg hp, if_neg hp]
    exact h

theorem run_get_bind (k : Firmware → InPlace α) : (getThe Firmware >>= k).run f = (k f).run f :=
  rfl

theorem run_lookup_bind (k : Option StoredVariable → InPlace α) :
    (lookup id >>= k).run f = (k (f.stored id)).run f := rfl

theorem run_leave {stored : Option StoredVariable} (hstored : f.stored id = stored)
    (a : Attributes) (e : Envelope) :
    (leave id a e).run f = settle f
      (if (mergedData stored a e.payload).isEmpty && !a.isAppend then pure (f.update id none)
      else pure (f.update id (some ⟨⟨a.difference .appendWrite, mergedData stored a e.payload⟩,
        mergedTimestamp stored e.timestamp⟩))) := by
  rw [leave, run_lookup_bind, hstored]
  by_cases hremoves : ((mergedData stored a e.payload).isEmpty && !a.isAppend) = true
  · rw [if_pos hremoves, if_pos hremoves]
    rfl
  · rw [if_neg hremoves, if_neg hremoves, run_lookup_bind, hstored]
    rfl

/-- **A write with an envelope changes firmware after its last check.** -/
theorem run_setTimeBased (scheme : SignatureScheme) (f : Firmware) (id : VariableId)
    (a : Attributes) (data : Bytes) :
    (setTimeBased scheme id a data).run f = settle f (f.setTimeBased scheme id a data) := by
  refine run_ofExcept_bind fun e => ?_
  rw [run_get_bind]
  apply run_check_bind
  rw [run_lookup_bind]
  cases hstored : f.stored id
  case' some stored => refine run_ofExcept_bind fun _ => ?_
  -- the replacement is checked if there is one, and the rest is the same
  all_goals
    rw [run_lookup_bind, hstored]
    cases SecureVariable.ofId? id with
    | none => exact run_leave hstored a e
    | some v =>
      apply run_check_bind
      exact run_leave hstored a e

/-- A write without an envelope is refused before it changes anything, but for the removal of
what is not there. -/
theorem run_setPlain (f : Firmware) (id : VariableId) (a : Attributes) (data : Bytes) :
    (setPlain id a data).run f = settle f (f.setPlain id a data) := by
  have hopen : (setOpen id a data).run f = settle f
      (if a.isAppend then
        match f.stored id with
        | some stored => pure (f.update id (some { stored with data := stored.data ++ data }))
        | none => pure (f.update id (some ⟨⟨a.difference .appendWrite, data⟩, .zero⟩))
      else if data.isEmpty then
        match f.stored id with
        | some _ => pure (f.update id none)
        | none => throw .notFound
      else pure (f.update id (some ⟨⟨a.difference .appendWrite, data⟩, .zero⟩))) := by
    by_cases happend : a.isAppend = true
    · rw [setOpen, if_pos happend, if_pos happend, EStateM.run_bind, run_extend]
      cases f.stored id <;> rfl
    · rw [setOpen, if_neg happend, if_neg happend]
      by_cases hempty : data.isEmpty = true
      · rw [if_pos hempty, if_pos hempty, EStateM.run_bind, run_remove]
        cases hstored : f.stored id with
        | some stored => rfl
        | none =>
          -- the error comes after a change that changed nothing
          rw [update_eq_self hstored]
          rfl
      · rw [if_neg hempty, if_neg hempty]
        rfl
  unfold setPlain Firmware.setPlain
  cases SecureVariable.ofId? id with
  | none => exact hopen
  | some v =>
    by_cases hrequires : v.requiresEnvelope = true
    · simp only [hrequires, if_true]
      rfl
    · simp only [hrequires]
      exact hopen

/-- **No error of a call comes after a change.** -/
theorem run_call (scheme : SignatureScheme) (f : Firmware) (c : Call) :
    (call scheme c).run f =
      settle f ((services scheme).setVariable f c.name c.guid c.attributes c.data) := by
  show (call scheme c).run f = settle f (f.setVariable scheme c.id c.attributes c.data)
  unfold call setVariable
  by_cases hstatus : (StatusVariable.ofId? c.id).isSome = true
  · rw [if_pos hstatus, if_pos hstatus]
    rfl
  · rw [if_neg hstatus, if_neg hstatus]
    by_cases htime : c.attributes.isTimeBased = true
    · rw [if_pos htime, if_pos htime]
      exact run_setTimeBased scheme f c.id c.attributes c.data
    · rw [if_neg htime, if_neg htime]
      exact run_setPlain f c.id c.attributes c.data

/-- **A call is done as a whole.** -/
theorem call_eq (scheme : SignatureScheme) (c : Call) :
    call scheme c = atomic fun f =>
      ((services scheme).setVariable f c.name c.guid c.attributes c.data).map ((), ·) := by
  refine ext_run fun f => ?_
  rw [run_call, run_atomic]
  cases (services scheme).setVariable f c.name c.guid c.attributes c.data <;> rfl

/-- A write through the services of firmware. -/
def set (scheme : SignatureScheme) (id : VariableId) (a : Attributes) (data : Bytes) :
    EStateM StoreError Firmware Unit :=
  (call scheme ⟨Text.Utf16.terminated id.name, id.guid, a, data⟩).adaptExcept
    (RuntimeServices.writeError id)

theorem set_eq (scheme : SignatureScheme) (id : VariableId) (a : Attributes) (data : Bytes) :
    set scheme id a data =
      atomic fun f => ((Firmware.store scheme).set f id a data).map ((), ·) := by
  simp only [set, call_eq, adaptExcept_atomic, mapError_map, Firmware.store,
    RuntimeServices.store]

/-- The store over the services of firmware, with its writes in place. -/
def store (scheme : SignatureScheme) : InPlaceStore Firmware where
  toVariableStore := Firmware.store scheme
  setInPlace := set scheme
  setInPlace_eq := set_eq scheme

theorem left_settle (answer : Except FirmwareStatus Firmware) :
    left (settle f answer) = answer.toOption.getD f := by
  cases answer <;> rfl

end InPlace

/-! ## What calls leave -/

/-- A variable that a call does not name is left as it was, whatever the call answers. -/
theorem stored_left_call (h : id ≠ c.id) :
    (InPlace.left ((InPlace.call scheme c).run f)).stored id = f.stored id := by
  rw [InPlace.run_call, InPlace.left_settle]
  cases hanswer : (services scheme).setVariable f c.name c.guid c.attributes c.data with
  | ok f' => exact setVariable_frame hanswer h
  | error status => rfl

/-- The firmware that is left after calls, one after the other, whatever they answer. -/
def afterCalls (scheme : SignatureScheme) (f : Firmware) (cs : List Call) : Firmware :=
  cs.foldl (fun f c => InPlace.left ((InPlace.call scheme c).run f)) f

/-- **A variable that no call of a run names is left as it was.** -/
theorem stored_afterCalls {cs : List Call} (h : ∀ c ∈ cs, id ≠ c.id) :
    (afterCalls scheme f cs).stored id = f.stored id := by
  induction cs generalizing f with
  | nil => rfl
  | cons c cs ih =>
    obtain ⟨hc, hcs⟩ := List.forall_mem_cons.1 h
    rw [afterCalls, List.foldl_cons, ← afterCalls, ih hcs, stored_left_call hc]

/-- A call leaves firmware as it is or is accepted. -/
theorem left_call_eq_or_accepts (scheme : SignatureScheme) (f : Firmware) (c : Call) :
    InPlace.left ((InPlace.call scheme c).run f) = f ∨
      Accepts scheme f c (InPlace.left ((InPlace.call scheme c).run f)) := by
  rw [InPlace.run_call, InPlace.left_settle, Accepts]
  cases (services scheme).setVariable f c.name c.guid c.attributes c.data with
  | ok f' => exact .inr rfl
  | error status => exact .inl rfl

/-- **Refused calls add no state to a run**: what calls leave is left by accepted ones alone. -/
theorem reachable_afterCalls {cs : List Call} (h : Reachable scheme f) :
    Reachable scheme (afterCalls scheme f cs) := by
  induction cs generalizing f with
  | nil => exact h
  | cons c cs ih =>
    have hfirst : Reachable scheme (InPlace.left ((InPlace.call scheme c).run f)) := by
      rcases left_call_eq_or_accepts scheme f c with hsame | haccepts
      · rw [hsame]
        exact h
      · exact h.tail ⟨c, trivial, haccepts⟩
    exact ih hfirst

/-- **A refused call changes nothing, and an accepted one at most the variable that it names**,
of all that is stored: attributes, data and timestamp. -/
theorem call_changes_named (scheme : SignatureScheme) (f after : Firmware) (c : Call) :
    (∀ status, (InPlace.call scheme c).run f = .error status after →
      (services scheme).setVariable f c.name c.guid c.attributes c.data = .error status ∧
        ∀ id, after.stored id = f.stored id) ∧
    ((InPlace.call scheme c).run f = .ok () after →
      (services scheme).setVariable f c.name c.guid c.attributes c.data = .ok after ∧
        ∀ id, id ≠ c.id → after.stored id = f.stored id) := by
  rw [InPlace.run_call]
  cases hanswer : (services scheme).setVariable f c.name c.guid c.attributes c.data with
  | ok f' =>
    refine ⟨fun _ hrun => by simp [InPlace.settle] at hrun, fun hrun => ?_⟩
    cases hrun
    exact ⟨rfl, fun _ hid => setVariable_frame hanswer hid⟩
  | error status =>
    refine ⟨fun _ hrun => ?_, fun hrun => by simp [InPlace.settle] at hrun⟩
    cases hrun
    exact ⟨rfl, fun _ => rfl⟩

/-- The call that removes a variable of the boot. -/
def bootRemoval : Call := ⟨Text.Utf16.terminated "BootOrder", .globalVariable, .bootNonVolatile, []⟩

/-- The call that writes KEK with the signature of the platform key. -/
def kekCall : Call := .ofVariable .kek .authenticatedDatabase kekWrite

/-- The removal of what is not there is refused, and a signed write spares the platform key. -/
theorem owned_changes_kek :
    (∃ after, (InPlace.call plainScheme bootRemoval).run owned = .error .notFound after ∧
      ∀ id, after.stored id = owned.stored id) ∧
      ∃ after, (InPlace.call plainScheme kekCall).run owned = .ok () after ∧
        after.stored SecureVariable.kek.id ≠ owned.stored SecureVariable.kek.id ∧
        after.stored SecureVariable.pk.id = owned.stored SecureVariable.pk.id := by
  have hmissing : failure? ((services plainScheme).setVariable owned bootRemoval.name
      bootRemoval.guid bootRemoval.attributes bootRemoval.data) = some .notFound := by
    decide +kernel
  have hwritten : ((services plainScheme).setVariable owned kekCall.name kekCall.guid
      kekCall.attributes kekCall.data).toOption.map (·.stored SecureVariable.kek.id) =
        some (some ⟨⟨.authenticatedDatabase, ownerList⟩, .zero⟩) := by decide +kernel
  obtain ⟨after, hset, hkek⟩ := Option.map_eq_some_iff.1 hwritten
  have hremoval : (InPlace.call plainScheme bootRemoval).run owned = .error .notFound owned := by
    rw [InPlace.run_call, failure?_eq_some.1 hmissing]
    rfl
  have hwrite : (InPlace.call plainScheme kekCall).run owned = .ok () after := by
    rw [InPlace.run_call, toOption_eq_some.1 hset]
    rfl
  obtain ⟨-, hunchanged⟩ :=
    (call_changes_named plainScheme owned owned bootRemoval).1 .notFound hremoval
  obtain ⟨-, hspared⟩ := (call_changes_named plainScheme owned after kekCall).2 hwrite
  refine ⟨⟨owned, hremoval, hunchanged⟩, after, hwrite, ?_, hspared _ (by decide)⟩
  rw [hkek]
  decide

end Firmware

end SecureBoot
