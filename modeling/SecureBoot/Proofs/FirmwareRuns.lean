import Mathlib.Logic.Relation
import SecureBoot.Proofs.Authorization
import SecureBoot.Proofs.Envelopes
import SecureBoot.Proofs.StoreContents

/-!
# Runs of firmware

Firmware starts without variables and takes calls.  A refused call leaves it as it
is, so a run is a chain of accepted ones.

* `Firmware.Accepts.stored_cases` — what one call can do to a variable, and
  `Firmware.Accepts.protected_cases` to one that is written with an envelope;
* `Firmware.ReachableBy.stored_induction` — from it, what every run keeps of such a
  variable;
* `Firmware.Reachable.database` — PK, KEK, db, dbx and dbt always hold signature
  databases.
-/

namespace SecureBoot

namespace Firmware

variable {scheme : SignatureScheme} {f f' : Firmware} {v : SecureVariable}

/-! ## Calls and runs -/

/-- A call that writes a variable. -/
structure Call where
  name : List UInt16
  guid : Guid
  attributes : Attributes
  data : Bytes

/-- The variable that a call names.  A name ends at its first zero. -/
def Call.id (c : Call) : VariableId := ⟨Text.Utf16.ofTerminated c.name, c.guid⟩

/-- Firmware accepts a call and is another one after it. -/
def Accepts (scheme : SignatureScheme) (f : Firmware) (c : Call) (f' : Firmware) : Prop :=
  (services scheme).setVariable f c.name c.guid c.attributes c.data = .ok f'

/-- The call that writes a registered variable. -/
def Call.ofVariable (v : SecureVariable) (a : Attributes) (data : Bytes) : Call :=
  ⟨Text.Utf16.terminated v.id.name, v.id.guid, a, data⟩

theorem Call.id_ofVariable (v : SecureVariable) (a : Attributes) (data : Bytes) :
    (ofVariable v a data).id = v.id := services_id v

/-- Firmware accepts some call that a condition holds of. -/
def Step (scheme : SignatureScheme) (p : Firmware → Call → Prop) (f f' : Firmware) : Prop :=
  ∃ c, p f c ∧ Accepts scheme f c f'

/-- The states of firmware after calls that a condition holds of. -/
def ReachableBy (scheme : SignatureScheme) (p : Firmware → Call → Prop) (f : Firmware) : Prop :=
  Relation.ReflTransGen (Step scheme p) fresh f

/-- The states of firmware after any calls. -/
def Reachable (scheme : SignatureScheme) (f : Firmware) : Prop :=
  ReachableBy scheme (fun _ _ => True) f

/-- A call that spares the status variables is accepted when the envelope it carries is. -/
theorem AcceptsEnvelope.accepts_of_id {c : Call} {id : VariableId} {e : Envelope}
    (h : AcceptsEnvelope scheme f id c.attributes e) (hid : c.id = id)
    (hstatus : StatusVariable.ofId? id = none) (htime : c.attributes.isTimeBased = true)
    (hparse : Envelope.parse c.data = .ok e) :
    Accepts scheme f c (f.update id (envelopeResult (f.stored id) c.attributes e)) := by
  show f.setVariable scheme c.id c.attributes c.data = _
  rw [hid, setVariable_eq_ok]
  exact ⟨hstatus, .inl ⟨htime, setTimeBased_eq_ok.2 ⟨e, hparse, h, rfl⟩⟩⟩

/-- A call is accepted when the envelope it carries is. -/
theorem AcceptsEnvelope.accepts {c : Call} {e : Envelope}
    (h : AcceptsEnvelope scheme f v.id c.attributes e) (hid : c.id = v.id)
    (htime : c.attributes.isTimeBased = true) (hparse : Envelope.parse c.data = .ok e) :
    Accepts scheme f c (f.update v.id (envelopeResult (f.stored v.id) c.attributes e)) :=
  h.accepts_of_id hid (StatusVariable.ofId?_secureVariable v) htime hparse

/-- A call that spares the status variables is accepted when its plain data are. -/
theorem AcceptsPlain.accepts {c : Call} {id : VariableId}
    (h : AcceptsPlain f id c.attributes c.data) (hid : c.id = id)
    (hstatus : StatusVariable.ofId? id = none) (hplain : c.attributes.isTimeBased = false) :
    Accepts scheme f c (f.update id (plainResult (f.stored id) c.attributes c.data)) := by
  show f.setVariable scheme c.id c.attributes c.data = _
  rw [hid, setVariable_eq_ok]
  exact ⟨hstatus, .inr ⟨hplain, setPlain_eq_ok.2 ⟨h, rfl⟩⟩⟩

/-- The call that writes a variable with an envelope around a payload, and no signature. -/
def Call.unsigned (id : VariableId) (a : Attributes) (t : Timestamp) (payload : Bytes) : Call :=
  ⟨Text.Utf16.terminated id.name, id.guid, a,
    (Envelope.encode ⟨t, [], payload⟩).toOption.getD []⟩

theorem Call.id_unsigned {id : VariableId} (hname : '\x00' ∉ id.name.toList) (a : Attributes)
    (t : Timestamp) (payload : Bytes) : (unsigned id a t payload).id = id :=
  services_terminated hname

theorem Call.parse_unsigned (id : VariableId) (a : Attributes) (t : Timestamp) (payload : Bytes) :
    Envelope.parse (unsigned id a t payload).data = .ok ⟨t, [], payload⟩ := by
  obtain ⟨bs, hbs⟩ : ∃ bs, Envelope.encode ⟨t, [], payload⟩ = .ok bs := ⟨_, rfl⟩
  show Envelope.parse ((Envelope.encode ⟨t, [], payload⟩).toOption.getD []) = _
  rw [hbs]
  exact Envelope.parse_of_encode hbs

/-- Setup mode takes a write without a signature that fits what is stored. -/
theorem accepts_unsigned {id : VariableId} {a : Attributes} {t : Timestamp} {payload : Bytes}
    (hsetup : f.isSetupMode = true) (hname : '\x00' ∉ id.name.toList)
    (hstatus : StatusVariable.ofId? id = none) (htime : a.isTimeBased = true)
    (hreplaces : ∀ s, f.stored id = some s → checkReplacement s a t = .ok ())
    (hvalid : ∀ v, SecureVariable.ofId? id = some v →
      v.validatePayload (mergedData (f.stored id) a payload) = .ok ()) :
    Accepts scheme f (.unsigned id a t payload)
      (f.update id (envelopeResult (f.stored id) a ⟨t, [], payload⟩)) := by
  have haccepts : AcceptsEnvelope scheme f id a ⟨t, [], payload⟩ := by
    refine ⟨fun huser => ?_, hreplaces, fun v hv _ => hvalid v hv⟩
    rw [hsetup] at huser
    cases huser
  exact haccepts.accepts_of_id (Call.id_unsigned hname a t payload) hstatus htime
    (Call.parse_unsigned id a t payload)

/-- A variable other than the one a call names stays as it is.  The one it names takes the
payload of the envelope or the plain data that the call carries, if they are accepted. -/
theorem Accepts.stored_cases {c : Call} (h : Accepts scheme f c f') (id : VariableId) :
    (c.id ≠ id ∧ f'.stored id = f.stored id) ∨
      (c.id = id ∧ c.attributes.isTimeBased = true ∧ ∃ e, Envelope.parse c.data = .ok e ∧
        AcceptsEnvelope scheme f id c.attributes e ∧
        f'.stored id = envelopeResult (f.stored id) c.attributes e) ∨
      (c.id = id ∧ c.attributes.isTimeBased = false ∧ AcceptsPlain f id c.attributes c.data ∧
        f'.stored id = plainResult (f.stored id) c.attributes c.data) := by
  have hset : f.setVariable scheme c.id c.attributes c.data = .ok f' := h
  by_cases hid : c.id = id
  · right
    rw [hid] at hset
    obtain ⟨-, ⟨htime, hset⟩ | ⟨hplain, hset⟩⟩ := setVariable_eq_ok.1 hset
    · obtain ⟨e, hparse, haccepts, rfl⟩ := setTimeBased_eq_ok.1 hset
      exact .inl ⟨hid, htime, e, hparse, haccepts, stored_update_self _ _ _⟩
    · obtain ⟨haccepts, rfl⟩ := setPlain_eq_ok.1 hset
      exact .inr ⟨hid, hplain, haccepts, stored_update_self _ _ _⟩
  · exact .inl ⟨hid, setVariable_frame hset (Ne.symm hid)⟩

/-- No plain data are accepted for a variable that is written with an envelope. -/
theorem AcceptsPlain.eq_mokList {a : Attributes} {data : Bytes}
    (h : AcceptsPlain f v.id a data) : v = .mokList := by
  by_contra hv
  have hopen := h.unprotected v (SecureVariable.ofId?_id v)
  rw [SecureVariable.requiresEnvelope_of_ne hv] at hopen
  cases hopen

/-- A variable other than the one a call names stays as it is, and one that is written
with an envelope takes the payload of the call if that has one that is accepted. -/
theorem Accepts.protected_cases {c : Call} (hv : v ≠ .mokList) (h : Accepts scheme f c f') :
    f'.stored v.id = f.stored v.id ∨
      ∃ e, c.id = v.id ∧ Envelope.parse c.data = .ok e ∧
        AcceptsEnvelope scheme f v.id c.attributes e ∧
        f'.stored v.id = envelopeResult (f.stored v.id) c.attributes e := by
  rcases h.stored_cases v.id with
    ⟨-, hsame⟩ | ⟨hid, -, e, hparse, haccepts, hresult⟩ | ⟨-, -, hplain, -⟩
  · exact .inl hsame
  · exact .inr ⟨e, hid, hparse, haccepts, hresult⟩
  · exact absurd hplain.eq_mokList hv

/-- **What every run keeps of a variable that is written with an envelope**: a property
of what is stored that holds where nothing is and that accepted envelopes keep. -/
theorem ReachableBy.stored_induction {p : Firmware → Call → Prop}
    {motive : Option StoredVariable → Prop} (h : ReachableBy scheme p f) (hv : v ≠ .mokList)
    (missing : motive none)
    (written : ∀ {f c e}, p f c → c.id = v.id → Envelope.parse c.data = .ok e →
      AcceptsEnvelope scheme f v.id c.attributes e → motive (f.stored v.id) →
        motive (envelopeResult (f.stored v.id) c.attributes e)) :
    motive (f.stored v.id) := by
  induction h with
  | refl => exact missing
  | tail _ hstep ih =>
    obtain ⟨c, hc, haccepts⟩ := hstep
    rcases haccepts.protected_cases hv with hsame | ⟨e, hid, hparse, henvelope, hresult⟩
    · rw [hsame]
      exact ih
    · rw [hresult]
      exact written hc hid hparse henvelope ih

/-! ## Contents -/

/-- An accepted envelope that appends nothing leaves the data as they are. -/
theorem storedData_of_appends_nothing {stored : Option StoredVariable} {a : Attributes}
    {e : Envelope} (happend : a.isAppend = true) (hnothing : e.payload = []) :
    storedData (envelopeResult stored a e) = storedData stored := by
  rw [storedData_envelopeResult, if_pos happend, hnothing, List.append_nil]

/-- What an accepted envelope leaves is valid for its variable, unless it appends
nothing to what was there. -/
theorem AcceptsEnvelope.valid_or_same {a : Attributes} {e : Envelope}
    (h : AcceptsEnvelope scheme f v.id a e) :
    v.validatePayload (storedData (envelopeResult (f.stored v.id) a e)) = .ok () ∨
      (a.isAppend = true ∧ e.payload = []) := by
  by_cases hnothing : a.isAppend = true ∧ e.payload = []
  · exact .inr hnothing
  · left
    rw [storedData_envelopeResult, ← mergedData_eq]
    refine h.valid v (SecureVariable.ofId?_id v) ?_
    rw [Bool.not_eq_true', Bool.eq_false_iff, ne_eq, Bool.and_eq_true, List.isEmpty_iff]
    exact hnothing

end Firmware

/-- What is valid for a variable is a signature database. -/
theorem SecureVariable.parseDatabase_of_validatePayload {v : SecureVariable} {bs : Bytes}
    (h : v.validatePayload bs = .ok ()) : ∃ lists, parseDatabase bs = .ok lists := by
  unfold validatePayload at h
  obtain ⟨lists, hlists, -⟩ := bind_eq_ok.1 h
  exact ⟨lists, mapError_eq_ok.1 hlists⟩

/-- An accepted envelope leaves a signature database where there was one before. -/
theorem Firmware.AcceptsEnvelope.database {scheme : SignatureScheme} {f : Firmware}
    {v : SecureVariable} {a : Attributes} {e : Envelope} (h : AcceptsEnvelope scheme f v.id a e)
    (hbefore : ∃ lists, parseDatabase (storedData (f.stored v.id)) = .ok lists) :
    ∃ lists, parseDatabase (storedData (envelopeResult (f.stored v.id) a e)) = .ok lists := by
  rcases h.valid_or_same with hvalid | ⟨happend, hnothing⟩
  · exact SecureVariable.parseDatabase_of_validatePayload hvalid
  · rw [storedData_of_appends_nothing happend hnothing]
    exact hbefore

/-- **PK, KEK, db, dbx and dbt always hold signature databases.** -/
theorem Firmware.Reachable.database {scheme : SignatureScheme} {f : Firmware} {v : SecureVariable}
    (h : Reachable scheme f) (hv : v ≠ .mokList) :
    ∃ lists, parseDatabase (storedData (f.stored v.id)) = .ok lists :=
  h.stored_induction (motive := fun stored =>
    ∃ lists, parseDatabase (storedData stored) = .ok lists) hv ⟨[], parseDatabase_nil⟩
    fun _ _ _ haccepts ih => haccepts.database ih

end SecureBoot
