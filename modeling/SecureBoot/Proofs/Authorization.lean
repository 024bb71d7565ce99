import SecureBoot.Proofs.FirmwareWrites
import SecureBoot.Proofs.SignatureLists

/-!
# Who may change an authenticated variable

With a platform key, firmware changes PK, KEK, db, dbx and dbt only on a
signature.  `SignatureDatabase.mem_certificates` says what a database holds as
certificates, `Firmware.authorityCertificates_sound` where the trusted
certificates of a write come from, and `Firmware.checkSignature_eq_ok` what the
signature check accepts.  The main result is `authenticated_change_signed`.
-/

namespace SecureBoot

/-! ## The certificates of a database -/

/-- The entries of a list of sound geometry, each with the type of the list. -/
def ListView.typedEntries (l : ListView) : List (SignatureType × SignatureEntry) :=
  l.entryList.map (l.type, ·)

namespace SignatureDatabase

/-- A byte string is read as the database with these bytes. -/
theorem ofBytes_eq_ok {bs : Bytes} {db : SignatureDatabase} :
    ofBytes bs = .ok db ↔ db.bytes = bs := by
  constructor
  · intro h
    rw [ofBytes] at h
    split at h
    · cases h
      rfl
    · cases h
  · rintro rfl
    obtain ⟨bytes, valid⟩ := db
    rw [ofBytes]
    split
    · rfl
    · rename_i e he
      obtain ⟨lists, hlists⟩ := valid
      rw [hlists] at he
      cases he

/-- The lists of a database are those it parses as. -/
theorem parseDatabase_bytes (db : SignatureDatabase) : parseDatabase db.bytes = .ok db.lists := by
  obtain ⟨lists, hlists⟩ := db.valid
  obtain ⟨hconsecutive, hbytes, -⟩ := parseDatabase_eq_ok.1 hlists
  have hscan := scanFrom_flatMap [] hconsecutive
  rw [List.append_nil, ← hbytes, scanFrom_nil, List.append_nil] at hscan
  rw [hlists, SignatureDatabase.lists, scan, hscan]

/-- What parses is the bytes of a database with these lists. -/
theorem exists_of_parseDatabase {bs : Bytes} {lists : List ListView}
    (h : parseDatabase bs = .ok lists) :
    ∃ db : SignatureDatabase, db.bytes = bs ∧ db.lists = lists := by
  let db : SignatureDatabase := ⟨bs, lists, h⟩
  have hlists : parseDatabase bs = .ok db.lists := db.parseDatabase_bytes
  rw [h] at hlists
  exact ⟨db, rfl, (Except.ok.inj hlists).symm⟩

theorem wellFormed_of_mem_lists {db : SignatureDatabase} {l : ListView} (h : l ∈ db.lists) :
    l.WellFormed :=
  (parseDatabase_eq_ok.1 db.parseDatabase_bytes).2.2 l h

/-- The entries of one list, each with the type of the list. -/
theorem map_locate {l : ListView} (h : l.WellFormed) (index : Nat) :
    (locate index l).map (fun x => (x.type, x.entry)) = l.typedEntries := by
  rw [locate, ListView.entries_eq_ok.2 ⟨h, rfl⟩, ListView.typedEntries]
  refine List.ext_getElem (by simp) fun i _ _ => ?_
  simp

/-- **The entries of a database** are those of its lists, in their order and each with the
type of its list. -/
theorem map_entries (db : SignatureDatabase) :
    db.entries.map (fun x => (x.type, x.entry)) = db.lists.flatMap ListView.typedEntries := by
  have hlists : (db.lists.mapIdx locate).map (List.map fun x => (x.type, x.entry)) =
      db.lists.map ListView.typedEntries := by
    refine List.ext_getElem (by simp) fun i hi _ => ?_
    rw [List.length_map, List.length_mapIdx] at hi
    rw [List.getElem_map, List.getElem_mapIdx, List.getElem_map]
    exact map_locate (wellFormed_of_mem_lists (List.getElem_mem hi)) i
  rw [entries, List.map_flatten, hlists, List.flatMap_def]

theorem mem_entries {db : SignatureDatabase} {t : SignatureType} {e : SignatureEntry} :
    (∃ x ∈ db.entries, x.type = t ∧ x.entry = e) ↔
      ∃ l ∈ db.lists, l.type = t ∧ e ∈ l.entryList := by
  have hmem : (∃ x ∈ db.entries, x.type = t ∧ x.entry = e) ↔
      (t, e) ∈ db.entries.map (fun x => (x.type, x.entry)) := by
    simp only [List.mem_map, Prod.mk.injEq]
  rw [hmem, map_entries, List.mem_flatMap]
  simp only [ListView.typedEntries, List.mem_map, Prod.mk.injEq]
  constructor
  · rintro ⟨l, hl, e, he, rfl, rfl⟩
    exact ⟨l, hl, rfl, he⟩
  · rintro ⟨l, hl, rfl, he⟩
    exact ⟨l, hl, e, he, rfl, rfl⟩

end SignatureDatabase

/-- Whether the data of a variable are a signature database in which a certificate
list has an entry with these bytes. -/
def HoldsCertificate (data certificate : Bytes) : Prop :=
  ∃ lists, parseDatabase data = .ok lists ∧ ∃ l ∈ lists, l.type = .x509 ∧
    ∃ es, l.entries = .ok es ∧ ∃ e ∈ es, e.data = certificate

/-- The certificates of a database are what its certificate lists hold. -/
theorem SignatureDatabase.mem_certificates {db : SignatureDatabase} {c : Bytes} :
    c ∈ db.certificates ↔ HoldsCertificate db.bytes c := by
  have located : c ∈ db.certificates ↔
      ∃ e, (∃ x ∈ db.entries, x.type = .x509 ∧ x.entry = e) ∧ e.data = c := by
    simp only [certificates, List.mem_map, List.mem_filter, beq_iff_eq]
    constructor
    · rintro ⟨x, ⟨hx, htype⟩, rfl⟩
      exact ⟨x.entry, ⟨x, hx, htype, rfl⟩, rfl⟩
    · rintro ⟨e, ⟨x, hx, htype, rfl⟩, rfl⟩
      exact ⟨x, ⟨hx, htype⟩, rfl⟩
  rw [located, HoldsCertificate]
  constructor
  · rintro ⟨e, he, rfl⟩
    obtain ⟨l, hl, htype, he⟩ := mem_entries.1 he
    exact ⟨db.lists, db.parseDatabase_bytes, l, hl, htype, l.entryList,
      ListView.entries_eq_ok.2 ⟨wellFormed_of_mem_lists hl, rfl⟩, e, he, rfl⟩
  · rintro ⟨lists, hlists, l, hl, htype, es, hes, e, he, rfl⟩
    rw [db.parseDatabase_bytes] at hlists
    cases hlists
    obtain ⟨-, rfl⟩ := ListView.entries_eq_ok.1 hes
    exact ⟨e, mem_entries.2 ⟨l, hl, htype, he⟩, rfl⟩

/-- No data hold no certificate. -/
theorem not_holdsCertificate_nil (c : Bytes) : ¬HoldsCertificate [] c := by
  rintro ⟨lists, hlists, l, hl, -⟩
  rw [parseDatabase_nil] at hlists
  cases hlists
  cases hl

/-- The certificates of a database are those that it finds. -/
theorem SignatureDatabase.containsCertificate_iff {db : SignatureDatabase} {c : Bytes} :
    db.containsCertificate c = true ↔ HoldsCertificate db.bytes c := by
  rw [← mem_certificates, containsCertificate, findCertificate?, findHash?, find?,
    Option.isSome_map, List.find?_isSome]
  simp only [certificates, List.mem_map, List.mem_filter, Bool.and_eq_true, beq_iff_eq, and_assoc]

/-! ## The signature check -/

namespace Firmware

variable {scheme : SignatureScheme} {f f' : Firmware}

/-- A trusted certificate is one that the authority of the variable holds. -/
theorem authorityCertificates_sound {v : SecureVariable} {trusted : List Bytes} {c : Bytes}
    (h : f.authorityCertificates scheme v = .ok trusted) (hc : c ∈ trusted) :
    ∃ authority stored, v.authority? = some authority ∧ f.stored authority.id = some stored ∧
      HoldsCertificate stored.data c := by
  rw [authorityCertificates] at h
  split at h
  · cases h
    cases hc
  · rename_i stored hstored
    obtain ⟨authority, hauthority, hstored⟩ := Option.bind_eq_some_iff.1 hstored
    split at h
    · rename_i db hdb
      cases h
      have hbytes : db.bytes = stored.data := SignatureDatabase.ofBytes_eq_ok.1 hdb
      refine ⟨authority, stored, hauthority, hstored, ?_⟩
      rw [← hbytes]
      exact SignatureDatabase.mem_certificates.1 (List.mem_filter.1 hc).1
    · cases h

/-- The signature check of a registered variable needs a signature and a trusted
certificate, and asks the scheme about the message of the write. -/
theorem checkSignature_eq_ok {v : SecureVariable} {a : Attributes} {e : Envelope} :
    f.checkSignature scheme v.id a e = .ok () ↔
      e.certificateData ≠ [] ∧ ∃ trusted, trusted ≠ [] ∧
        f.authorityCertificates scheme v = .ok trusted ∧
        scheme.verify e.certificateData
          (signedMessage v.name v.guid a e.timestamp e.payload) trusted = .ok () := by
  simp only [checkSignature, SecureVariable.ofId?_id, bind_eq_ok, guard_eq_ok, mapError_eq_ok,
    Envelope.isUnsigned, Option.isSome_some, Bool.true_and, Bool.or_eq_true, List.isEmpty_iff,
    not_or]
  constructor
  · rintro ⟨trusted, htrusted, ⟨hsigned, hne⟩, hverify⟩
    exact ⟨hsigned, trusted, hne, htrusted, hverify⟩
  · rintro ⟨hsigned, trusted, hne, htrusted, hverify⟩
    exact ⟨trusted, htrusted, ⟨hsigned, hne⟩, hverify⟩

end Firmware

/-- PK, KEK, db, dbx and dbt take writes with an envelope only. -/
theorem SecureVariable.requiresEnvelope_of_ne {v : SecureVariable} (h : v ≠ .mokList) :
    v.requiresEnvelope = true := by
  cases v with
  | mokList => exact absurd rfl h
  | _ => rfl

/-- The variable whose certificates sign writes: PK for itself and KEK, KEK for the rest. -/
theorem SecureVariable.authority?_eq {v w : SecureVariable} (h : v.authority? = some w) :
    w = if v = .pk ∨ v = .kek then .pk else .kek := by
  cases v <;> cases h <;> rfl

/-! ## The main result -/

namespace Firmware

/-- **Firmware with a platform key changes an authenticated variable only on a
signature.**  Take PK, KEK, db, dbx or dbt and a call after which anything that
is stored under it differs.  The call named this variable and carried an envelope
with a signature, and the signature over the message of the call was accepted
with trusted certificates, at least one, that the authority held before the call. -/
theorem authenticated_change_signed (scheme : SignatureScheme) (f f' : Firmware)
    (name : List UInt16) (guid : Guid) (a : Attributes) (data : Bytes) (v : SecureVariable)
    (hv : v ≠ .mokList) (hpk : f.stored SecureVariable.pk.id ≠ none)
    (hset : (services scheme).setVariable f name guid a data = .ok f')
    (hchange : f'.stored v.id ≠ f.stored v.id) :
    Text.Utf16.ofTerminated name = v.name ∧ guid = v.guid ∧ a.isTimeBased = true ∧
      ∃ e, Envelope.parse data = .ok e ∧ e.certificateData ≠ [] ∧
        ∃ stored trusted,
          f.stored (if v = .pk ∨ v = .kek then SecureVariable.pk else .kek).id = some stored ∧
          trusted ≠ [] ∧ (∀ c ∈ trusted, HoldsCertificate stored.data c) ∧
          scheme.verify e.certificateData
            (signedMessage v.name v.guid a e.timestamp e.payload) trusted = .ok () := by
  have hid : v.id = ⟨Text.Utf16.ofTerminated name, guid⟩ := by
    by_cases hid : v.id = ⟨Text.Utf16.ofTerminated name, guid⟩
    · exact hid
    · exact absurd (setVariable_frame hset hid) hchange
  have hwrite : f.setVariable scheme v.id a data = .ok f' := by
    rw [hid]
    exact hset
  have huser : f.isSetupMode = false := by
    rw [isSetupMode, Option.isNone_eq_false_iff, Option.isSome_iff_ne_none]
    exact hpk
  obtain ⟨-, ⟨htime, hwrite⟩ | ⟨-, hwrite⟩⟩ := setVariable_eq_ok.1 hwrite
  · obtain ⟨e, hparse, haccepts, -⟩ := setTimeBased_eq_ok.1 hwrite
    obtain ⟨hsigned, trusted, hne, htrusted, hverify⟩ :=
      checkSignature_eq_ok.1 (haccepts.signed huser)
    -- there is a trusted certificate, so the authority is stored
    obtain ⟨c, hc⟩ := List.exists_mem_of_ne_nil trusted hne
    obtain ⟨authority, stored, hauthority, hstored, -⟩ := authorityCertificates_sound htrusted hc
    refine ⟨(congrArg VariableId.name hid).symm, (congrArg VariableId.guid hid).symm, htime, e,
      hparse, hsigned, stored, trusted, ?_, hne, ?_, hverify⟩
    · rw [← SecureVariable.authority?_eq hauthority]
      exact hstored
    · intro c hc
      obtain ⟨authority', stored', hauthority', hstored', hholds⟩ :=
        authorityCertificates_sound htrusted hc
      cases hauthority.symm.trans hauthority'
      cases hstored.symm.trans hstored'
      exact hholds
  · obtain ⟨hplain, -⟩ := setPlain_eq_ok.1 hwrite
    have hopen := hplain.unprotected v (SecureVariable.ofId?_id v)
    rw [SecureVariable.requiresEnvelope_of_ne hv] at hopen
    cases hopen

/-- Signatures that are the certificate of the signer followed by the message. -/
def plainScheme : SignatureScheme where
  isCertificate bs := !bs.isEmpty
  verify signature message trusted :=
    if trusted.any fun c => signature == c ++ message then .ok () else .error .signingFailed
  encoded := .ok

/-- A database with one certificate. -/
def ownerList : Bytes := (SignatureList.ofOwner .x509 .globalVariable [[0x30, 1]]).toBytes 2

/-- Firmware with a platform key and nothing else. -/
def owned : Firmware :=
  fresh.update SecureVariable.pk.id (some ⟨⟨.authenticatedDatabase, ownerList⟩, .zero⟩)

/-- A write to KEK, signed by the platform key. -/
def kekWrite : Bytes :=
  let envelope : Envelope := {
    timestamp := .zero
    certificateData := [0x30, 1] ++
      signedMessage "KEK" .globalVariable .authenticatedDatabase .zero ownerList
    payload := ownerList }
  envelope.encode.toOption.getD []

theorem owned_takes_signed_kek :
    ∃ f', (services plainScheme).setVariable owned (Text.Utf16.terminated "KEK") .globalVariable
        .authenticatedDatabase kekWrite = .ok f' ∧
      f'.stored SecureVariable.kek.id ≠ owned.stored SecureVariable.kek.id ∧
      ∃ e, Envelope.parse kekWrite = .ok e ∧ e.certificateData ≠ [] ∧
        ∃ stored trusted, owned.stored SecureVariable.pk.id = some stored ∧ trusted ≠ [] ∧
          (∀ c ∈ trusted, HoldsCertificate stored.data c) ∧
          plainScheme.verify e.certificateData (signedMessage "KEK" .globalVariable
            .authenticatedDatabase e.timestamp e.payload) trusted = .ok () := by
  have hafter : ((services plainScheme).setVariable owned (Text.Utf16.terminated "KEK")
      .globalVariable .authenticatedDatabase kekWrite).toOption.map
        (·.stored SecureVariable.kek.id) =
      some (some ⟨⟨.authenticatedDatabase, ownerList⟩, .zero⟩) := by decide +kernel
  obtain ⟨f', hset, hstored⟩ := Option.map_eq_some_iff.1 hafter
  have hchange : f'.stored SecureVariable.kek.id ≠ owned.stored SecureVariable.kek.id := by
    rw [hstored]
    decide
  obtain ⟨-, -, -, hsigned⟩ := authenticated_change_signed plainScheme owned f' _ _ _ _ .kek
    (by decide) (by decide) (toOption_eq_some.1 hset) hchange
  exact ⟨f', toOption_eq_some.1 hset, hchange, hsigned⟩

end Firmware

end SecureBoot
