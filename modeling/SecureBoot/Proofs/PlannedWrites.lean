import SecureBoot.Proofs.AppendedLists
import SecureBoot.Proofs.PlatformKey
import SecureBoot.Proofs.UpdateContents

/-!
# Firmware takes what an update plans

An update and firmware both know the rules of Secure Boot.

* **What an update checks** — `Update.planned_edit` for the payload and
  `Update.authorize_user` for the signer.
* **What firmware asks** — `Firmware.checkSignature_of_authorize` and
  `Firmware.Reachable.valid_of_planned` show that these checks are enough.
* **Together** — `Firmware.planned_write_accepted`.
-/

namespace SecureBoot

/-! ## Payloads -/

/-- Every database is valid for a variable other than PK. -/
theorem SecureVariable.validatePayload_of_ne_pk {v : SecureVariable} {bs : Bytes}
    {lists : List ListView} (hv : v ≠ .pk) (h : parseDatabase bs = .ok lists) :
    v.validatePayload bs = .ok () := by
  have hpk : ¬(v = .pk ∧ bs ≠ []) := fun hc => hv hc.1
  rw [validatePayload, h, mapError_ok, ok_bind, if_neg hpk]
  rfl

/-- PK signs for itself and KEK, and KEK for db, dbx and dbt. -/
theorem SecureVariable.authority?_of_ne {v : SecureVariable} (hv : v ≠ .mokList) :
    v.authority? = some (if v = .pk ∨ v = .kek then .pk else .kek) := by
  cases v with
  | mokList => exact absurd rfl hv
  | _ => rfl

theorem SecureVariable.difference_writeAttributes (v : SecureVariable) (append : Bool) :
    (Update.writeAttributes v append).difference .appendWrite = v.attributes := by
  cases v <;> cases append <;> decide

/-- The lists that are left to the store to append are a database, and never for PK. -/
def PayloadChange.Appendable (v : SecureVariable) : PayloadChange → Prop
  | .append lists => v ≠ .pk ∧ ∃ found, parseDatabase lists = .ok found
  | .replace _ => True

namespace Update

variable {u : Update} {read : VariableReader}

/-- A change leaves to the store what the store can append. -/
theorem Changes.appendable {edit : DatabaseEdit} {c : PayloadChange} (h : u.Changes read edit c) :
    c.Appendable u.target := by
  cases h with
  | left adds ne_pk strategy_eq parse_eq => exact ⟨ne_pk, _, parse_eq⟩
  | _ => trivial

/-- **What is planned for an edit.**  Attributes are the registered ones, with the flag of
an append for lists that the store can append; other lists are valid for the variable
on their own. -/
theorem planned_edit {edit : DatabaseEdit} {a : Attributes} {data : Bytes}
    (hedit : u.action = .edit edit) (h : u.plan read = .ok (.write a data)) :
    ∃ append lists, a = writeAttributes u.target append ∧
      u.planPayload read a lists = .ok (.write a data) ∧
      if append then u.target ≠ .pk ∧ ∃ found, parseDatabase lists = .ok found
      else u.target.validatePayload lists = .ok () := by
  obtain ⟨c, hchanges, hattributes, hvalid, hpayload, -⟩ := plan_edit_eq_write hedit h
  refine ⟨c.isAppend, c.lists, hattributes, hpayload, ?_⟩
  cases c with
  | append lists => exact hchanges.appendable
  | replace lists => exact hvalid rfl

/-! ## Authorization -/

theorem checkSigner_eq_ok {signer : Signer} {authority : SecureVariable}
    {db : SignatureDatabase} :
    checkSigner signer authority db = .ok () ↔ HoldsCertificate db.bytes signer.certificate := by
  rw [checkSigner, mapError_eq_ok, Signer.checkAuthority,
    ← SignatureDatabase.containsCertificate_iff]
  cases db.containsCertificate signer.certificate <;> simp

/-- Unsigned writes are for every mode but user mode. -/
theorem authorize_unsigned_eq_ok {v : SecureVariable} :
    authorize v read .unsigned = .ok () ↔
      ∃ status, PlatformStatus.read read = .ok status ∧ status.mode ≠ .user := by
  simp only [authorize, bind_eq_ok, mapError_eq_ok, guard_last_eq_ok, pure_eq_ok, and_true]

/-- **When a signer is let through**: the authority of the variable, if it has one, is a
database, and it holds the certificate of the signer in user mode, and in an unknown mode
where it is not empty. -/
theorem authorize_signed_eq_ok {v : SecureVariable} {signer : Signer} :
    authorize v read (.signed signer) = .ok () ↔
      ∃ status, PlatformStatus.read read = .ok status ∧
        ∀ authority, v.authority? = some authority →
          ∃ db, current read authority = .ok db ∧
            (status.mode = .user ∨ (status.mode = .unknown ∧ db.bytes ≠ []) →
              HoldsCertificate db.bytes signer.certificate) := by
  rw [authorize, bind_eq_ok]
  simp only [mapError_eq_ok]
  refine exists_congr fun status => and_congr_right fun _ => ?_
  cases v.authority? with
  | none => simp [pure_eq_ok]
  | some authority =>
    simp only [Option.some.injEq, forall_eq', current]
    cases read.optional authority.id with
    | error e =>
      constructor
      · intro h
        cases h
      · rintro ⟨_, h, _⟩
        cases h
    | ok stored =>
      cases stored with
      | none =>
        simp only [mapError_ok, ok_bind, pure_eq_ok, exists_eq_left']
        cases status.mode <;> simp [pure_eq_ok, checkSigner_eq_ok, SignatureDatabase.empty]
      | some stored =>
        simp only [mapError_ok, ok_bind, bind_eq_ok, map_eq_ok, exists_exists_and_eq_and]
        refine exists_congr fun db => and_congr_right fun _ => ?_
        by_cases hnil : db.bytes = []
        · cases status.mode <;> simp [hnil, pure_eq_ok, checkSigner_eq_ok]
        · cases status.mode <;> simp [hnil, pure_eq_ok, checkSigner_eq_ok]

/-- **In user mode an update has a signer**, with a certificate that the authority of the
variable holds. -/
theorem authorize_user {v : SecureVariable} {mode : EnvelopeMode} {status : PlatformStatus}
    (hv : v ≠ .mokList) (hstatus : PlatformStatus.read read = .ok status)
    (huser : status.mode = .user) (h : authorize v read mode = .ok ()) :
    ∃ signer authority bs, mode = .signed signer ∧ v.authority? = some authority ∧
      read.contents authority = .ok bs ∧ HoldsCertificate bs signer.certificate := by
  cases mode with
  | unsigned =>
    obtain ⟨_, hstatus', hmode⟩ := authorize_unsigned_eq_ok.1 h
    cases hstatus.symm.trans hstatus'
    exact absurd huser hmode
  | signed signer =>
    obtain ⟨_, hstatus', hauthorized⟩ := authorize_signed_eq_ok.1 h
    cases hstatus.symm.trans hstatus'
    have hauthority := SecureVariable.authority?_of_ne hv
    obtain ⟨db, hcurrent, hholds⟩ := hauthorized _ hauthority
    exact ⟨signer, _, db.bytes, rfl, hauthority, current_eq_ok.1 hcurrent, hholds (.inl huser)⟩

end Update

/-! ## Signers -/

/-- What is relied on between a signer and those who check its signatures: its certificate
counts as one, signatures are not empty, and they are accepted over the message that was
signed whenever the certificate is trusted. -/
structure SignatureScheme.Honours (scheme : SignatureScheme) (signer : Signer) : Prop where
  certificate : scheme.isCertificate signer.certificate = true
  signature_ne : ∀ {message signature}, signer.sign message = .ok signature → signature ≠ []
  verifies : ∀ {message signature trusted}, signer.sign message = .ok signature →
    (∀ c ∈ trusted, scheme.isCertificate c = true) → signer.certificate ∈ trusted →
      scheme.verify signature message trusted = .ok ()

namespace Firmware

variable {scheme : SignatureScheme} {f : Firmware}

/-! ## What an update reads of firmware -/

/-- Firmware tells its status variables in one byte. -/
theorem store_get_status (scheme : SignatureScheme) (f : Firmware) (v : StatusVariable) :
    (store scheme).get f v.id = .ok ⟨statusAttributes, [if f.status v then 1 else 0]⟩ := by
  have hname : '\x00' ∉ v.id.name.toList := by cases v <;> decide
  rw [store_get_eq scheme f hname, find?, StatusVariable.ofId?_id]
  rfl

theorem readFlag_status (scheme : SignatureScheme) (f : Firmware) (v : StatusVariable) :
    PlatformStatus.readFlag ((store scheme).get f) v = .ok (some (f.status v)) := by
  rw [PlatformStatus.readFlag, VariableReader.optional, store_get_status]
  cases f.status v <;> rfl

/-- The platform status of firmware tells its mode. -/
theorem read_platformStatus (scheme : SignatureScheme) (f : Firmware) :
    PlatformStatus.read ((store scheme).get f) = .ok ⟨some f.isSetupMode, some !f.isSetupMode⟩ := by
  rw [PlatformStatus.read, readFlag_status, readFlag_status]
  rfl

theorem mode_of_user (h : f.isSetupMode = false) :
    PlatformStatus.mode ⟨some f.isSetupMode, some !f.isSetupMode⟩ = .user := by
  rw [h]
  rfl

/-- Every certificate that the authority of a variable holds is trusted. -/
theorem authorityCertificates_complete {v authority : SecureVariable} {c : Bytes}
    (hauthority : v.authority? = some authority)
    (hholds : HoldsCertificate (storedData (f.stored authority.id)) c)
    (hc : scheme.isCertificate c = true) :
    ∃ trusted, f.authorityCertificates scheme v = .ok trusted ∧ c ∈ trusted ∧
      ∀ x ∈ trusted, scheme.isCertificate x = true := by
  cases hstored : f.stored authority.id with
  | none =>
    rw [hstored] at hholds
    exact absurd hholds (not_holdsCertificate_nil c)
  | some stored =>
    rw [hstored] at hholds
    replace hholds : HoldsCertificate stored.data c := hholds
    obtain ⟨lists, hlists, -⟩ := id hholds
    obtain ⟨db, hbytes, -⟩ := SignatureDatabase.exists_of_parseDatabase hlists
    have hdb : SignatureDatabase.ofBytes stored.data = .ok db :=
      SignatureDatabase.ofBytes_eq_ok.2 hbytes
    rw [← hbytes] at hholds
    refine ⟨db.certificates.filter scheme.isCertificate, ?_, ?_, ?_⟩
    · rw [authorityCertificates, hauthority, Option.bind_some, hstored]
      simp only [hdb]
    · exact List.mem_filter.2 ⟨SignatureDatabase.mem_certificates.2 hholds, hc⟩
    · intro x hx
      exact (List.mem_filter.1 hx).2

/-! ## What firmware asks of a planned write -/

/-- The signature of an authorized write is accepted. -/
theorem checkSignature_of_authorize {v : SecureVariable} {mode : EnvelopeMode} {a : Attributes}
    {payload : Bytes} {t : Timestamp} {e : Envelope} (hv : v ≠ .mokList)
    (huser : f.isSetupMode = false)
    (hauthorized : Update.authorize v ((store scheme).get f) mode = .ok ())
    (hbuild : Envelope.build v.name v.guid a payload mode t = .ok e)
    (hscheme : ∀ signer, mode = .signed signer → scheme.Honours signer) :
    f.checkSignature scheme v.id a e = .ok () := by
  obtain ⟨signer, authority, bs, rfl, hauthority, hcontents, hholds⟩ :=
    Update.authorize_user hv (read_platformStatus scheme f) (mode_of_user huser) hauthorized
  obtain ⟨⟨-, hsigned⟩, -, he⟩ := Envelope.build_eq_ok.1 hbuild
  have htimestamp : e.timestamp = t := congrArg Envelope.timestamp he
  have hpayload : e.payload = payload := congrArg Envelope.payload he
  have hsigner := hscheme signer rfl
  rw [contents_eq, Except.ok.injEq] at hcontents
  rw [← hcontents] at hholds
  obtain ⟨trusted, htrusted, hmem, hcertificates⟩ :=
    authorityCertificates_complete hauthority hholds hsigner.certificate
  refine checkSignature_eq_ok.2 ⟨hsigner.signature_ne hsigned, trusted,
    List.ne_nil_of_mem hmem, htrusted, ?_⟩
  rw [htimestamp, hpayload]
  exact hsigner.verifies hsigned hcertificates hmem

/-- What is stored and the lists of a planned write make valid contents. -/
theorem Reachable.valid_of_planned (h : Reachable scheme f) {v : SecureVariable}
    (hv : v ≠ .mokList) {append : Bool} {lists : Bytes}
    (hlists : if append then v ≠ .pk ∧ ∃ found, parseDatabase lists = .ok found
      else v.validatePayload lists = .ok ()) :
    v.validatePayload (mergedData (f.stored v.id) (Update.writeAttributes v append) lists) =
      .ok () := by
  rw [mergedData_eq, v.isAppend_writeAttributes]
  cases append with
  | false => exact hlists
  | true =>
    obtain ⟨hpk, found, hfound⟩ := hlists
    obtain ⟨before, hbefore⟩ := h.database hv
    exact SecureVariable.validatePayload_of_ne_pk hpk (parseDatabase_append hbefore hfound)

/-- **Firmware takes what an update plans.**  Take a state that firmware reaches, an edit of
PK, KEK, db, dbx or dbt, and the write that is planned for it.  The write is accepted if
the variable, where it is stored, has its registered attributes and, where it is replaced,
an earlier timestamp than the envelope. -/
theorem planned_write_accepted (hreachable : Reachable scheme f) {u : Update}
    (hv : u.target ≠ .mokList) {edit : DatabaseEdit} (hedit : u.action = .edit edit)
    {a : Attributes} {data : Bytes}
    (hplan : u.plan ((store scheme).get f) = .ok (.write a data))
    (hscheme : ∀ signer, u.mode = some (.signed signer) → scheme.Honours signer)
    (hstored : ∀ s, f.stored u.target.id = some s → s.attributes = u.target.attributes ∧
      (a.isAppend = false → ∀ e, Envelope.parse data = .ok e →
        e.timestamp.isAfter s.timestamp = true)) :
    ∃ f', Accepts scheme f (.ofVariable u.target a data) f' := by
  obtain ⟨append, lists, rfl, hpayload, hlists⟩ := Update.planned_edit hedit hplan
  obtain ⟨mode, e, _, hmode, hauthorized, hbuild, hencode, hdata⟩ :=
    (Update.planPayload_eq_ok (SecureVariable.requiresEnvelope_of_ne hv)).1 hpayload
  cases hdata
  obtain ⟨-, -, he⟩ := Envelope.build_eq_ok.1 hbuild
  have hparse : Envelope.parse data = .ok e := Envelope.parse_of_encode hencode
  have haccepts : AcceptsEnvelope scheme f u.target.id
      (Update.writeAttributes u.target append) e := by
    refine ⟨fun huser => ?_, fun s hs => ?_, fun w hw _ => ?_⟩
    · refine checkSignature_of_authorize hv huser hauthorized hbuild ?_
      rintro signer rfl
      exact hscheme signer hmode
    · obtain ⟨hattributes, hlater⟩ := hstored s hs
      rw [checkReplacement_eq_ok, u.target.difference_writeAttributes]
      exact ⟨hattributes, fun happend => hlater happend e hparse⟩
    · cases (SecureVariable.ofId?_id u.target).symm.trans hw
      rw [he]
      exact hreachable.valid_of_planned hv hlists
  have htime : (Update.writeAttributes u.target append).isTimeBased = true := by
    rw [SecureVariable.isTimeBased_writeAttributes]
    exact SecureVariable.requiresEnvelope_of_ne hv
  exact ⟨_, haccepts.accepts (c := .ofVariable ..) (Call.id_ofVariable ..) htime hparse⟩

/-- The owner of the platform key of `owned`. -/
def ownerSigner : Signer where
  certificate := [0x30, 1]
  subject := "owner"
  sign message := .ok ([0x30, 1] ++ message)

theorem plainScheme_honours_ownerSigner : plainScheme.Honours ownerSigner where
  certificate := rfl
  signature_ne := by
    rintro message _ ⟨⟩
    exact List.cons_ne_nil _ _
  verifies := by
    rintro message _ trusted ⟨⟩ - hmem
    refine if_pos (List.any_eq_true.2 ⟨_, hmem, ?_⟩)
    exact beq_self_eq_true _

/-- Puts another certificate in place of the platform key. -/
def rekeying : Update where
  target := .pk
  action := .edit (.enrollCertificate [0x30, 2] .globalVariable)
  mode := some (.signed ownerSigner)
  timestamp := { Timestamp.zero with year := 2025 }

/-- The write that is planned for `rekeying`. -/
def rekeyWrite : Bytes :=
  match rekeying.plan ((store plainScheme).get owned) with
  | .ok (.write _ data) => data
  | _ => []

theorem owned_takes_rekeying :
    Reachable plainScheme owned ∧
      rekeying.plan ((store plainScheme).get owned) =
        .ok (.write .authenticatedDatabase rekeyWrite) ∧
      ∃ f', Accepts plainScheme owned (.ofVariable .pk .authenticatedDatabase rekeyWrite) f' := by
  have hreachable : Reachable plainScheme owned :=
    .single ⟨ownerCall, trivial, fresh_accepts_ownerCall plainScheme⟩
  have hplan : rekeying.plan ((store plainScheme).get owned) =
      .ok (.write .authenticatedDatabase rekeyWrite) := by decide +kernel
  have hlater : (Envelope.parse rekeyWrite).toOption.map (·.timestamp.isAfter .zero) =
      some true := by decide +kernel
  refine ⟨hreachable, hplan, planned_write_accepted hreachable (u := rekeying) (by decide) rfl
    hplan ?_ ?_⟩
  · rintro signer ⟨⟩
    exact plainScheme_honours_ownerSigner
  · rintro s ⟨⟩
    refine ⟨rfl, fun _ e hparse => ?_⟩
    rw [hparse] at hlater
    exact Option.some.inj hlater

end Firmware

end SecureBoot
