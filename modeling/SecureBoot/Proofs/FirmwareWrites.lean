import SecureBoot.Proofs.Except
import SecureBoot.Store.Firmware

/-!
# What firmware does with a write

Every fact about the variables of firmware comes from two descriptions.

* `Firmware.setTimeBased_eq_ok` — a write with an envelope is accepted exactly
  under the conditions `Firmware.AcceptsEnvelope`, and then leaves
  `Firmware.envelopeResult` under its id and nothing else changed.
* `Firmware.setPlain_eq_ok` — the same of a write without one, with
  `Firmware.AcceptsPlain` and `Firmware.plainResult`.

A refused write gives no firmware, so it changes nothing.
-/

namespace SecureBoot

/-! ## Ids -/

/-- A registered variable is found by its id. -/
@[simp] theorem SecureVariable.ofId?_id (v : SecureVariable) : ofId? v.id = some v := by
  cases v <;> decide

theorem SecureVariable.id_injective {v w : SecureVariable} (h : v.id = w.id) : v = w := by
  have hv := ofId?_id v
  rw [h, ofId?_id w] at hv
  exact (Option.some.inj hv).symm

/-- A status variable is found by its id. -/
@[simp] theorem StatusVariable.ofId?_id (w : StatusVariable) : ofId? w.id = some w := by
  cases w <;> decide

/-- No registered variable is a status variable. -/
@[simp] theorem StatusVariable.ofId?_secureVariable (v : SecureVariable) :
    ofId? v.id = none := by
  cases v <;> decide

namespace Firmware

theorem stored_update_self (f : Firmware) (id : VariableId) (s : Option StoredVariable) :
    (f.update id s).stored id = s := if_pos rfl

theorem stored_update_of_ne {f : Firmware} {id other : VariableId} {s : Option StoredVariable}
    (h : other ≠ id) : (f.update id s).stored other = f.stored other := if_neg h

/-- The last of two changes under an id counts. -/
theorem update_update (f : Firmware) (id : VariableId) (s s' : Option StoredVariable) :
    (f.update id s).update id s' = f.update id s' := by
  unfold update
  congr 1
  funext other
  by_cases h : other = id <;> simp [h]

/-- To remove what is not there changes nothing. -/
theorem update_eq_self {f : Firmware} {id : VariableId} (h : f.stored id = none) :
    f.update id none = f := by
  have hstored : (f.update id none).stored = f.stored := by
    funext other
    by_cases hother : other = id
    · rw [hother, stored_update_self, h]
    · exact stored_update_of_ne hother
  cases f
  exact congrArg mk hstored

/-! ## Writes with an envelope -/

/-- The data of a write: an append follows what is stored. -/
def mergedData (stored : Option StoredVariable) (a : Attributes) (payload : Bytes) : Bytes :=
  match stored with
  | some s => if a.isAppend then s.data ++ payload else payload
  | none => payload

/-- The timestamp of a write: never earlier than what is stored. -/
def mergedTimestamp (stored : Option StoredVariable) (t : Timestamp) : Timestamp :=
  match stored with
  | some s => s.timestamp.later t
  | none => t

/-- What an accepted write with an envelope leaves under its id. -/
def envelopeResult (stored : Option StoredVariable) (a : Attributes) (e : Envelope) :
    Option StoredVariable :=
  if (mergedData stored a e.payload).isEmpty && !a.isAppend then none
  else some ⟨⟨a.difference .appendWrite, mergedData stored a e.payload⟩,
    mergedTimestamp stored e.timestamp⟩

/-- The conditions on a write with an envelope. -/
structure AcceptsEnvelope (scheme : SignatureScheme) (f : Firmware) (id : VariableId)
    (a : Attributes) (e : Envelope) : Prop where
  signed : f.isSetupMode = false → f.checkSignature scheme id a e = .ok ()
  replaces : ∀ s, f.stored id = some s → checkReplacement s a e.timestamp = .ok ()
  valid : ∀ v, SecureVariable.ofId? id = some v →
    (!(a.isAppend && e.payload.isEmpty)) = true →
      v.validatePayload (mergedData (f.stored id) a e.payload) = .ok ()

/-- A write keeps the stored attributes, and is later than what it replaces. -/
theorem checkReplacement_eq_ok {stored : StoredVariable} {a : Attributes} {t : Timestamp} :
    checkReplacement stored a t = .ok () ↔
      stored.attributes = a.difference .appendWrite ∧
        (a.isAppend = false → t.isAfter stored.timestamp = true) := by
  simp only [checkReplacement, guard_eq_ok, guard_last_eq_ok, ne_eq, Decidable.not_not]
  cases a.isAppend <;> cases t.isAfter stored.timestamp <;> simp [pure_eq_ok]

/-- A write with an envelope is accepted under its conditions, and changes what is
stored under its id. -/
theorem setTimeBased_eq_ok {scheme : SignatureScheme} {f f' : Firmware} {id : VariableId}
    {a : Attributes} {data : Bytes} :
    f.setTimeBased scheme id a data = .ok f' ↔
      ∃ e, Envelope.parse data = .ok e ∧ AcceptsEnvelope scheme f id a e ∧
        f' = f.update id (envelopeResult (f.stored id) a e) := by
  rw [setTimeBased, bind_eq_ok]
  simp only [mapError_eq_ok]
  refine exists_congr fun e => and_congr_right fun _ => ?_
  have conditions : AcceptsEnvelope scheme f id a e ↔
      ((!f.isSetupMode) = true → f.checkSignature scheme id a e = .ok ()) ∧
      (∀ s, f.stored id = some s → checkReplacement s a e.timestamp = .ok ()) ∧
      ∀ v, SecureVariable.ofId? id = some v → (!(a.isAppend && e.payload.isEmpty)) = true →
        v.validatePayload (mergedData (f.stored id) a e.payload) = .ok () := by
    rw [Bool.not_eq_true']
    exact ⟨fun ⟨h1, h2, h3⟩ => ⟨h1, h2, h3⟩, fun ⟨h1, h2, h3⟩ => ⟨h1, h2, h3⟩⟩
  have result : (f' = f.update id (envelopeResult (f.stored id) a e)) ↔
      (if ((mergedData (f.stored id) a e.payload).isEmpty && !a.isAppend) = true then
        f.update id none
      else f.update id (some ⟨⟨a.difference .appendWrite, mergedData (f.stored id) a e.payload⟩,
        mergedTimestamp (f.stored id) e.timestamp⟩)) = f' := by
    rw [envelopeResult, apply_ite (f.update id)]
    exact eq_comm
  rw [conditions, result]
  -- what is stored and the contents of a registered variable are checked only where there is one
  cases hs : f.stored id <;> cases hv : SecureVariable.ofId? id <;>
    simp [seq_eq_ok, check_eq_ok, mapError_eq_ok, ite_pure_eq_ok, mergedData, mergedTimestamp,
      and_assoc]

/-! ## Writes without an envelope -/

/-- What an accepted write without an envelope leaves under its id. -/
def plainResult (stored : Option StoredVariable) (a : Attributes) (data : Bytes) :
    Option StoredVariable :=
  if a.isAppend then
    match stored with
    | some s => some { s with data := s.data ++ data }
    | none => some ⟨⟨a.difference .appendWrite, data⟩, .zero⟩
  else if data.isEmpty then none
  else some ⟨⟨a.difference .appendWrite, data⟩, .zero⟩

/-- The conditions on a write without an envelope. -/
structure AcceptsPlain (f : Firmware) (id : VariableId) (a : Attributes) (data : Bytes) :
    Prop where
  unprotected : ∀ v, SecureVariable.ofId? id = some v → v.requiresEnvelope = false
  deletes : a.isAppend = false → data = [] → f.stored id ≠ none

/-- A write without an envelope is accepted under its conditions, and changes what
is stored under its id. -/
theorem setPlain_eq_ok {f f' : Firmware} {id : VariableId} {a : Attributes} {data : Bytes} :
    f.setPlain id a data = .ok f' ↔
      AcceptsPlain f id a data ∧ f' = f.update id (plainResult (f.stored id) a data) := by
  have conditions : AcceptsPlain f id a data ↔
      (∀ v, SecureVariable.ofId? id = some v → ¬v.requiresEnvelope = true) ∧
      (a.isAppend = false → data = [] → f.stored id ≠ none) := by
    simp only [Bool.not_eq_true]
    exact ⟨fun ⟨h1, h2⟩ => ⟨h1, h2⟩, fun ⟨h1, h2⟩ => ⟨h1, h2⟩⟩
  rw [setPlain, conditions, eq_comm (a := f')]
  cases hv : SecureVariable.ofId? id <;> cases hs : f.stored id <;> cases data <;>
    by_cases ha : a.isAppend = true <;>
    simp [guard_eq_ok, pure_eq_ok, throw_eq_ok, plainResult, ha, -bind_pure_comp]

/-! ## Writes -/

/-- An accepted write spares the status variables, and is one with an envelope or
one without. -/
theorem setVariable_eq_ok {scheme : SignatureScheme} {f f' : Firmware} {id : VariableId}
    {a : Attributes} {data : Bytes} :
    f.setVariable scheme id a data = .ok f' ↔
      StatusVariable.ofId? id = none ∧
        (a.isTimeBased = true ∧ f.setTimeBased scheme id a data = .ok f' ∨
          a.isTimeBased = false ∧ f.setPlain id a data = .ok f') := by
  rw [setVariable]
  cases hstatus : StatusVariable.ofId? id <;> cases ha : a.isTimeBased <;> simp

/-- An accepted write changes nothing but what is stored under its id. -/
theorem setVariable_frame {scheme : SignatureScheme} {f f' : Firmware} {id other : VariableId}
    {a : Attributes} {data : Bytes} (h : f.setVariable scheme id a data = .ok f')
    (hother : other ≠ id) : f'.stored other = f.stored other := by
  obtain ⟨-, ⟨-, h⟩ | ⟨-, h⟩⟩ := setVariable_eq_ok.1 h
  · obtain ⟨e, -, -, rfl⟩ := setTimeBased_eq_ok.1 h
    exact stored_update_of_ne hother
  · obtain ⟨-, rfl⟩ := setPlain_eq_ok.1 h
    exact stored_update_of_ne hother

end Firmware

end SecureBoot
