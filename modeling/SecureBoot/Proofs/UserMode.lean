import SecureBoot.Proofs.PlannedWrites

/-!
# What is planned in user mode

An update asks the store which mode the platform is in and who its authorities are, and takes
any answer: a store may have no status variables, and its authorities may be anything.

* `PlatformStatus.mode_of_tellsUserMode` and `PlatformStatus.mode_of_tellsNoMode` — what
  SetupMode tells;
* `Update.signed_in_user_mode` — both ways to a write end with a signature in user mode;
* `Update.enrolled_signer` — the signer of an edit is enrolled wherever that can be told;
* `Update.user_mode_writes` — both together, for every store.
-/

namespace SecureBoot

/-! ## What SetupMode tells -/

/-- SetupMode is there, and its first byte is not 1. -/
def VariableReader.TellsUserMode (read : VariableReader) : Prop :=
  ∃ stored b, read StatusVariable.setupMode.id = .ok stored ∧ stored.data.head? = some b ∧ b ≠ 1

/-- SetupMode is missing, cannot be read or has no data. -/
def VariableReader.TellsNoMode (read : VariableReader) : Prop :=
  ∀ stored, read StatusVariable.setupMode.id = .ok stored → stored.data = []

theorem VariableReader.optional_eq_some {read : VariableReader} {id : VariableId} {x : Variable} :
    read.optional id = .ok (some x) ↔ read id = .ok x := by
  rw [optional]
  cases read id with
  | ok y => rw [Except.ok.injEq, Except.ok.injEq, Option.some.injEq]
  | error e => cases e <;> simp

namespace PlatformStatus

variable {read : VariableReader} {status : PlatformStatus}

theorem readFlag_eq_ok {v : StatusVariable} {flag : Option Bool} :
    readFlag read v = .ok flag ↔
      ∃ stored, read.optional v.id = .ok stored ∧
        flag = (stored.bind (·.data.head?)).map (· == 1) := by
  simp only [readFlag, bind_eq_ok, pure_eq_ok, eq_comm (a := flag)]

/-- The mode is what the first byte of SetupMode says. -/
theorem exists_setupMode (h : PlatformStatus.read read = .ok status) :
    ∃ stored, read.optional StatusVariable.setupMode.id = .ok stored ∧
      status.setupMode = (stored.bind (·.data.head?)).map (· == 1) := by
  simp only [PlatformStatus.read, bind_eq_ok, pure_eq_ok, readFlag_eq_ok] at h
  obtain ⟨_, ⟨stored, hstored, rfl⟩, _, -, rfl⟩ := h
  exact ⟨stored, hstored, rfl⟩

theorem mode_of_tellsUserMode (huser : read.TellsUserMode)
    (h : PlatformStatus.read read = .ok status) : status.mode = .user := by
  obtain ⟨stored, hstored, hflag⟩ := exists_setupMode h
  obtain ⟨setup, b, hread, hhead, hb⟩ := huser
  rw [VariableReader.optional_eq_some.2 hread] at hstored
  cases hstored
  have hone : (b == 1) = false := by simpa using hb
  rw [Option.bind_some, hhead, Option.map_some, hone] at hflag
  rw [mode, hflag]

theorem mode_of_tellsNoMode (hunknown : read.TellsNoMode)
    (h : PlatformStatus.read read = .ok status) : status.mode = .unknown := by
  obtain ⟨stored, hstored, hflag⟩ := exists_setupMode h
  cases stored with
  | none =>
    rw [Option.bind_none, Option.map_none] at hflag
    rw [mode, hflag]
  | some setup =>
    have hnil := hunknown setup (VariableReader.optional_eq_some.1 hstored)
    rw [Option.bind_some, hnil, List.head?_nil, Option.map_none] at hflag
    rw [mode, hflag]

end PlatformStatus

namespace Update

variable {u : Update} {read : VariableReader} {a : Attributes} {data : Bytes}

/-! ## Signed writes -/

/-- In user mode nothing is authorized without a signature. -/
theorem not_authorize_unsigned {v : SecureVariable} (huser : read.TellsUserMode) :
    authorize v read .unsigned ≠ .ok () := by
  intro h
  obtain ⟨status, hstatus, hmode⟩ := authorize_unsigned_eq_ok.1 h
  exact hmode (PlatformStatus.mode_of_tellsUserMode huser hstatus)

/-- **In user mode every planned write is signed**, whoever made its envelope. -/
theorem signed_in_user_mode (hv : u.target ≠ .mokList)
    (hsigns : ∀ signer, u.mode = some (.signed signer) →
      ∀ message signature, signer.sign message = .ok signature → signature ≠ [])
    (huser : read.TellsUserMode) (h : u.plan read = .ok (.write a data)) :
    ∃ e, Envelope.parse data = .ok e ∧ e.certificateData ≠ [] := by
  cases haction : u.action with
  | edit edit =>
    obtain ⟨append, lists, -, hpayload, -⟩ := planned_edit haction h
    obtain ⟨mode, e, _, hmode, hauthorized, hbuild, hencode, hdata⟩ :=
      (planPayload_eq_ok (SecureVariable.requiresEnvelope_of_ne hv)).1 hpayload
    cases hdata
    refine ⟨e, Envelope.parse_of_encode hencode, ?_⟩
    cases mode with
    | unsigned => exact absurd hauthorized (not_authorize_unsigned huser)
    | signed signer =>
      obtain ⟨⟨-, hsigned⟩, -, -⟩ := Envelope.build_eq_ok.1 hbuild
      exact hsigns signer hmode _ _ hsigned
  | preSigned envelope append =>
    rw [plan, haction] at h
    obtain ⟨-, e, hparse, -, hunsigned, hwrite⟩ := planPreSigned_eq_ok.1 h
    cases hwrite
    refine ⟨e, hparse, ?_⟩
    intro hnil
    have hempty : e.isUnsigned = true := by
      rw [Envelope.isUnsigned, hnil]
      rfl
    exact not_authorize_unsigned huser (hunsigned hempty)

/-! ## Enrolled signers -/

/-- **The signer of an edit is enrolled** where a planned write is for user mode, and in an
unknown mode where the authority has lists. -/
theorem enrolled_signer {edit : DatabaseEdit} {signer : Signer} {authority : SecureVariable}
    (hedit : u.action = .edit edit) (hmode : u.mode = some (.signed signer))
    (hauthority : u.target.authority? = some authority)
    (h : u.plan read = .ok (.write a data)) :
    ∃ bs, read.contents authority = .ok bs ∧
      (read.TellsUserMode ∨ (read.TellsNoMode ∧ bs ≠ []) →
        HoldsCertificate bs signer.certificate) := by
  have hv : u.target ≠ .mokList := by
    intro hv
    rw [hv] at hauthority
    cases hauthority
  obtain ⟨append, lists, -, hpayload, -⟩ := planned_edit hedit h
  obtain ⟨_, -, -, hmode', hauthorized, -⟩ :=
    (planPayload_eq_ok (SecureVariable.requiresEnvelope_of_ne hv)).1 hpayload
  cases hmode.symm.trans hmode'
  obtain ⟨status, hstatus, henrolled⟩ := authorize_signed_eq_ok.1 hauthorized
  obtain ⟨db, hcurrent, hholds⟩ := henrolled authority hauthority
  refine ⟨db.bytes, current_eq_ok.1 hcurrent, ?_⟩
  rintro (huser | ⟨hunknown, hne⟩)
  · exact hholds (.inl (PlatformStatus.mode_of_tellsUserMode huser hstatus))
  · exact hholds (.inr ⟨PlatformStatus.mode_of_tellsNoMode hunknown hstatus, hne⟩)

/-! ## The main result -/

/-- **What is planned for PK, KEK, db, dbx and dbt can stand in user mode.**  On every store
that tells of user mode a planned write has a signature, be it of an edit or an envelope that
was made before, and the certificate of the signer of an edit is enrolled: in PK for PK and KEK,
in KEK for the others.  It is enrolled as well on a store that does not tell the mode, if the
authority has any data.  Signers are only taken to give signatures that are not empty. -/
theorem user_mode_writes (hv : u.target ≠ .mokList)
    (hsigns : ∀ signer, u.mode = some (.signed signer) →
      ∀ message signature, signer.sign message = .ok signature → signature ≠ [])
    (h : u.plan read = .ok (.write a data)) :
    (read.TellsUserMode → ∃ e, Envelope.parse data = .ok e ∧ e.certificateData ≠ []) ∧
      ∀ edit signer, u.action = .edit edit → u.mode = some (.signed signer) →
        ∃ bs, read.contents (if u.target = .pk ∨ u.target = .kek then .pk else .kek) = .ok bs ∧
          (read.TellsUserMode ∨ (read.TellsNoMode ∧ bs ≠ []) →
            HoldsCertificate bs signer.certificate) := by
  constructor
  · intro huser
    exact signed_in_user_mode hv hsigns huser h
  · intro edit signer hedit hmode
    exact enrolled_signer hedit hmode (SecureVariable.authority?_of_ne hv) h

/-- A store with a platform key and nothing else, not even status variables. -/
def readPlatformKey : VariableReader := fun id =>
  if id = SecureVariable.pk.id then .ok ⟨.authenticatedDatabase, Firmware.ownerList⟩
  else .error (.notFound id)

theorem rekeying_enrolled :
    Firmware.rekeying.plan readPlatformKey =
        .ok (.write .authenticatedDatabase Firmware.rekeyWrite) ∧
      (∃ e, Envelope.parse Firmware.rekeyWrite = .ok e ∧ e.certificateData ≠ []) ∧
      HoldsCertificate Firmware.ownerList Firmware.ownerSigner.certificate := by
  have hsigns : ∀ signer, Firmware.rekeying.mode = some (.signed signer) →
      ∀ message signature, signer.sign message = .ok signature → signature ≠ [] := by
    rintro signer ⟨⟩ message _ ⟨⟩
    exact List.cons_ne_nil _ _
  have huser : ((Firmware.store Firmware.plainScheme).get Firmware.owned).TellsUserMode :=
    ⟨_, 0, Firmware.store_get_status _ _ _, rfl, by decide⟩
  have hplan : Firmware.rekeying.plan
      ((Firmware.store Firmware.plainScheme).get Firmware.owned) =
        .ok (.write .authenticatedDatabase Firmware.rekeyWrite) := by decide +kernel
  have hunknown : readPlatformKey.TellsNoMode := by
    rintro stored ⟨⟩
  have hplan' : Firmware.rekeying.plan readPlatformKey =
      .ok (.write .authenticatedDatabase Firmware.rekeyWrite) := by decide +kernel
  refine ⟨hplan', (user_mode_writes (by decide) hsigns hplan).1 huser, ?_⟩
  obtain ⟨bs, hbs, hholds⟩ :=
    (user_mode_writes (by decide) hsigns hplan').2 _ Firmware.ownerSigner rfl rfl
  cases hbs
  exact hholds (.inr ⟨hunknown, by decide⟩)

end Update

end SecureBoot
