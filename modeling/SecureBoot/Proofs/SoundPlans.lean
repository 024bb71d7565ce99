import SecureBoot.Proofs.PlannedWrites

/-!
# What an update hands to a store

An update takes any bytes from its caller, reads any contents from the store and may get
an envelope that someone else made.  What it writes is well formed all the same
(`Update.SoundWrite`).

* `Update.soundWrite_of_edit` and `Update.soundWrite_of_preSigned` — the two ways to a
  write, with their own checks;
* `Update.writes_sound` — every planned write is sound, and nothing else ever reaches a
  store.
-/

namespace SecureBoot

/-! ## Sound writes -/

/-- Payloads that a variable takes with some attributes: a signature database, and where it
replaces what is stored, one that is valid for the variable. -/
def SecureVariable.Takes (v : SecureVariable) (a : Attributes) (payload : Bytes) : Prop :=
  (∃ lists, parseDatabase payload = .ok lists) ∧
    (a.isAppend = false → v.validatePayload payload = .ok ())

/-- A write that is fit for the variable of an update: the registered attributes, where PK
is never appended to, and a payload that the variable takes.  It stands in an envelope if
the variable needs one, and an envelope that the update made is authenticated for the
attributes of this very write. -/
structure Update.SoundWrite (u : Update) (a : Attributes) (data : Bytes) : Prop where
  attributes : a = u.target.attributes ∨
    (u.target ≠ .pk ∧ a = u.target.attributes.union .appendWrite)
  enveloped : u.target.requiresEnvelope = true →
    ∃ e, Envelope.parse data = .ok e ∧ u.target.Takes a e.payload ∧
      ∀ edit, u.action = .edit edit → ∃ mode, u.mode = some mode ∧
        mode.Authenticates e.timestamp
          (signedMessage u.target.name u.target.guid a e.timestamp e.payload) e.certificateData
  bare : u.target.requiresEnvelope = false → u.target.Takes a data

namespace SecureVariable

variable {v : SecureVariable} {append : Bool} {payload : Bytes}

/-- A payload that was checked as the lists of an append or as a replacement is one that
the variable takes. -/
theorem takes_of_checked
    (h : if append then v ≠ .pk ∧ ∃ found, parseDatabase payload = .ok found
      else v.validatePayload payload = .ok ()) :
    v.Takes (Update.writeAttributes v append) payload := by
  rw [Takes, isAppend_writeAttributes]
  cases append with
  | true =>
    refine ⟨h.2, ?_⟩
    rintro ⟨⟩
  | false => exact ⟨parseDatabase_of_validatePayload h, fun _ => h⟩

/-- The flag of an append is only set where lists were checked for one, and never for PK. -/
theorem writeAttributes_of_checked
    (h : if append then v ≠ .pk ∧ ∃ found, parseDatabase payload = .ok found
      else v.validatePayload payload = .ok ()) :
    Update.writeAttributes v append = v.attributes ∨
      (v ≠ .pk ∧ Update.writeAttributes v append = v.attributes.union .appendWrite) := by
  cases append with
  | true => exact .inr ⟨h.1, rfl⟩
  | false => exact .inl rfl

end SecureVariable

/-! ## The ways to a write -/

namespace Update

variable {u : Update} {read : VariableReader} {a : Attributes} {data : Bytes}

/-- The write of an edit is sound, whatever the edit and the current contents are. -/
theorem soundWrite_of_edit {edit : DatabaseEdit} (hedit : u.action = .edit edit)
    (h : u.plan read = .ok (.write a data)) : u.SoundWrite a data := by
  obtain ⟨append, payload, rfl, hpayload, hchecked⟩ := planned_edit hedit h
  have htakes := SecureVariable.takes_of_checked hchecked
  refine ⟨SecureVariable.writeAttributes_of_checked hchecked, fun henvelope => ?_,
    fun hbare => ?_⟩
  · obtain ⟨mode, e, _, hmode, -, hbuild, hencode, hdata⟩ :=
      (planPayload_eq_ok henvelope).1 hpayload
    cases hdata
    obtain ⟨hauthenticates, -, he⟩ := Envelope.build_eq_ok.1 hbuild
    have htimestamp : e.timestamp = u.timestamp := congrArg Envelope.timestamp he
    have hcarried : e.payload = payload := congrArg Envelope.payload he
    refine ⟨e, Envelope.parse_of_encode hencode, ?_, fun _ _ => ⟨mode, hmode, ?_⟩⟩
    · rw [hcarried]
      exact htakes
    · rw [htimestamp, hcarried]
      exact hauthenticates
  · obtain ⟨_, hdata, hcarries⟩ := carries_of_planPayload hpayload
    cases hdata
    have hwhole : data = payload := by simpa [SecureVariable.Carries, hbare] using hcarries
    rw [hwhole]
    exact htakes

/-- The write of an envelope that was made before is sound, whoever made it. -/
theorem soundWrite_of_preSigned {envelope : Bytes} {append : Bool}
    (haction : u.action = .preSigned envelope append) (h : u.plan read = .ok (.write a data)) :
    u.SoundWrite a data := by
  rw [plan, haction] at h
  obtain ⟨henvelope, e, hparse, hchecked, -, hwrite⟩ := planPreSigned_eq_ok.1 h
  cases hwrite
  refine ⟨SecureVariable.writeAttributes_of_checked hchecked, fun _ => ?_, fun hbare => ?_⟩
  · refine ⟨e, hparse, SecureVariable.takes_of_checked hchecked, fun edit hedit => ?_⟩
    rw [haction] at hedit
    cases hedit
  · rw [henvelope] at hbare
    cases hbare

/-! ## The main result -/

/-- **Every planned write is sound, and no other write ever reaches a store**: two stores
that read alike and take sound writes alike give the update the same outcome, whatever
they would do with the rest. -/
theorem writes_sound (u : Update) :
    (∀ {read a data}, u.plan read = .ok (.write a data) → u.SoundWrite a data) ∧
      ∀ {σ : Type} {store store' : VariableStore σ}, store.get = store'.get →
        (∀ s a data, u.SoundWrite a data →
          store.set s u.target.id a data = store'.set s u.target.id a data) →
        ∀ s, u.apply store s = u.apply store' s := by
  have hplanned {read : VariableReader} {a : Attributes} {data : Bytes}
      (h : u.plan read = .ok (.write a data)) : u.SoundWrite a data := by
    cases haction : u.action with
    | edit edit => exact soundWrite_of_edit haction h
    | preSigned envelope append => exact soundWrite_of_preSigned haction h
  refine ⟨hplanned, fun {σ store store'} hget hset s => ?_⟩
  rw [apply, apply, ← hget]
  cases hplan : u.plan (store.get s) with
  | error e => rfl
  | ok plan =>
    cases plan with
    | alreadyPresent place => rfl
    | write a data =>
      simp only [ok_bind]
      rw [hset s a data (hplanned hplan)]

/-- Enrolls a certificate in KEK, signed by the owner of the platform key and merged by the
store. -/
def kekEnrollment : Update where
  target := .kek
  action := .edit (.enrollCertificate [0x30, 2] .globalVariable)
  mode := some (.signed Firmware.ownerSigner)
  timestamp := { Timestamp.zero with year := 2025 }

/-- The store over firmware, behind a check of the attributes. -/
def checkedStore : VariableStore Firmware where
  get := (Firmware.store Firmware.plainScheme).get
  set f id a data :=
    if a.difference .appendWrite = .authenticatedDatabase then
      (Firmware.store Firmware.plainScheme).set f id a data
    else .error (.refused id.name .invalidParameter)

/-- The write that is planned for `kekEnrollment`. -/
def kekEnrollmentWrite : Bytes :=
  match kekEnrollment.plan (checkedStore.get Firmware.owned) with
  | .ok (.write _ data) => data
  | _ => []

theorem owned_plans_kekEnrollment :
    kekEnrollment.plan (checkedStore.get Firmware.owned) =
        .ok (.write (.union .authenticatedDatabase .appendWrite) kekEnrollmentWrite) ∧
      kekEnrollment.SoundWrite (.union .authenticatedDatabase .appendWrite) kekEnrollmentWrite ∧
      kekEnrollment.apply checkedStore Firmware.owned =
        kekEnrollment.apply (Firmware.store Firmware.plainScheme) Firmware.owned := by
  have hplan : kekEnrollment.plan (checkedStore.get Firmware.owned) =
      .ok (.write (.union .authenticatedDatabase .appendWrite) kekEnrollmentWrite) := by
    decide +kernel
  have hget : checkedStore.get = (Firmware.store Firmware.plainScheme).get := by rw [checkedStore]
  have hagree : ∀ f a data, kekEnrollment.SoundWrite a data →
      checkedStore.set f kekEnrollment.target.id a data =
        (Firmware.store Firmware.plainScheme).set f kekEnrollment.target.id a data := by
    intro f a data hsound
    have hregistered : a.difference .appendWrite = .authenticatedDatabase := by
      rcases hsound.attributes with rfl | ⟨-, rfl⟩ <;> decide
    simp only [checkedStore, hregistered, if_true]
  exact ⟨hplan, (writes_sound kekEnrollment).1 hplan,
    (writes_sound kekEnrollment).2 hget hagree Firmware.owned⟩

end Update

end SecureBoot
