import SecureBoot.Proofs.Envelopes
import SecureBoot.Proofs.FirmwareRuns

/-!
# The platform key

PK has one certificate, and the platform is in user mode while PK is there.  One
call breaks this: to append nothing is taken without a look at the contents, and
where PK is missing it leaves PK there with no data.

* `Firmware.platformKey_of_reachable` — every other run leaves PK missing or with
  exactly one entry, a certificate;
* `Firmware.accepts_of_blanksPlatformKey` — every platform in setup mode takes that
  call, and is in user mode after it;
* `Firmware.blank_platformKey_stays` — no calls after it change PK and KEK again.
-/

namespace SecureBoot

/-! ## Counting entries -/

/-- The counts of lists of sound geometry add up. -/
theorem foldlM_entryCount {ls : List ListView} (h : ∀ l ∈ ls, l.WellFormed) (n : Nat) :
    ls.foldlM (fun n l => (n + ·) <$> l.entryCount) n =
      (.ok (n + (ls.flatMap (·.entryList)).length) : Except ListError Nat) := by
  induction ls generalizing n with
  | nil => rfl
  | cons l ls ih =>
    rw [List.forall_mem_cons] at h
    rw [List.foldlM_cons, h.1.entryCount_eq, List.flatMap_cons, List.length_append,
      ← Nat.add_assoc]
    exact ih h.2 _

namespace SignatureDatabase

variable {p : SignatureType → Bool}

/-- The entries of a list are located with its type. -/
theorem countP_locate {l : ListView} (h : l.WellFormed) (index : Nat) :
    (locate index l).countP (p ·.type) = if p l.type then l.entryList.length else 0 := by
  rw [locate, ListView.entries_eq_ok.2 ⟨h, rfl⟩]
  by_cases hp : p l.type = true
  · rw [if_pos hp, List.countP_eq_length.2, List.length_mapIdx]
    intro x hx
    obtain ⟨j, hj, rfl⟩ := List.mem_mapIdx.1 hx
    exact hp
  · rw [if_neg hp, List.countP_eq_zero]
    intro x hx
    obtain ⟨j, hj, rfl⟩ := List.mem_mapIdx.1 hx
    exact hp

/-- The index at which the lists are located does not matter to the count. -/
theorem countP_flatten_mapIdx {ls : List ListView} {f : Nat → ListView → List LocatedEntry}
    (h : ∀ l ∈ ls, ∀ i,
      (f i l).countP (p ·.type) = if p l.type then l.entryList.length else 0) :
    (ls.mapIdx f).flatten.countP (p ·.type) =
      ((ls.filter (p ·.type)).flatMap (·.entryList)).length := by
  induction ls generalizing f with
  | nil => rfl
  | cons l ls ih =>
    rw [List.forall_mem_cons] at h
    rw [List.mapIdx_cons, List.flatten_cons, List.countP_append, h.1,
      ih fun l hl i => h.2 l hl _, List.filter_cons]
    by_cases hp : p l.type = true
    · rw [if_pos hp, if_pos hp, List.flatMap_cons, List.length_append]
    · rw [if_neg hp, if_neg hp, Nat.zero_add]

/-- Counting the entries of the lists is counting those of the database. -/
theorem countEntries_lists (db : SignatureDatabase) (p : SignatureType → Bool) :
    SecureVariable.countEntries p db.lists = .ok (db.entries.countP (p ·.type)) := by
  have hwf : ∀ l ∈ db.lists, l.WellFormed := fun l hl => wellFormed_of_mem_lists hl
  have hfilter : ∀ l ∈ db.lists.filter (p ·.type), l.WellFormed :=
    fun l hl => hwf l (List.mem_filter.1 hl).1
  rw [SecureVariable.countEntries, foldlM_entryCount hfilter, entries,
    countP_flatten_mapIdx fun l hl i => countP_locate (hwf l hl) i, Nat.zero_add]

end SignatureDatabase

/-! ## What PK takes -/

/-- A signature database with one entry, which stands in a certificate list. -/
def IsPlatformKey (bs : Bytes) : Prop :=
  ∃ db : SignatureDatabase, db.bytes = bs ∧ ∃ x, db.entries = [x] ∧ x.type = .x509

theorem not_isPlatformKey_nil : ¬IsPlatformKey [] := by
  rintro ⟨db, hbytes, x, hx, -⟩
  have hlists : db.lists = [] := by
    have hparse := db.parseDatabase_bytes
    rw [hbytes, parseDatabase_nil] at hparse
    exact (Except.ok.inj hparse).symm
  rw [SignatureDatabase.entries, hlists] at hx
  cases hx

/-- Nothing, or one certificate, is valid for PK. -/
theorem SecureVariable.eq_nil_or_isPlatformKey {bs : Bytes} (h : pk.validatePayload bs = .ok ()) :
    bs = [] ∨ IsPlatformKey bs := by
  by_cases hnil : bs = []
  · exact .inl hnil
  · right
    obtain ⟨lists, hlists⟩ := parseDatabase_of_validatePayload h
    obtain ⟨db, rfl, rfl⟩ := SignatureDatabase.exists_of_parseDatabase hlists
    simp only [validatePayload, hlists, mapError_ok, ok_bind, hnil, ne_eq, not_false_eq_true,
      and_self, if_true, db.countEntries_lists, guard_last_eq_ok, Decidable.not_not] at h
    obtain ⟨⟨hfound, hx509⟩, -⟩ := h
    rw [List.countP_true] at hfound
    obtain ⟨x, hx⟩ := List.length_eq_one_iff.1 hfound
    refine ⟨db, rfl, x, hx, ?_⟩
    rw [hx] at hx509
    simpa using hx509

namespace Firmware

variable {scheme : SignatureScheme} {f f' : Firmware}

/-! ## Every run but one kind -/

/-- A call that appends nothing to PK where PK is missing. -/
def BlanksPlatformKey (f : Firmware) (c : Call) : Prop :=
  c.id = SecureVariable.pk.id ∧ f.stored SecureVariable.pk.id = none ∧
    c.attributes.isAppend = true ∧ ∃ e, Envelope.parse c.data = .ok e ∧ e.payload = []

/-- What firmware may have stored as PK. -/
def PlatformKeyOr (blank : Prop) (stored : Option StoredVariable) : Prop :=
  ∀ s, stored = some s → IsPlatformKey s.data ∨ (s.data = [] ∧ blank)

/-- Only to append nothing leaves a variable there without data: an append of something
is longer, and a replacement by nothing removes the variable. -/
theorem appends_nothing_of_data_nil {stored : Option StoredVariable} {a : Attributes}
    {e : Envelope} {s : StoredVariable} (hs : envelopeResult stored a e = some s)
    (hnil : s.data = []) : a.isAppend = true ∧ e.payload = [] := by
  have hdata := storedData_envelopeResult stored a e
  rw [hs, storedData, Option.map_some, Option.getD_some, hnil] at hdata
  cases happend : a.isAppend with
  | true =>
    rw [happend, if_pos rfl] at hdata
    exact ⟨rfl, (List.append_eq_nil_iff.1 hdata.symm).2⟩
  | false =>
    rw [happend, if_neg Bool.false_ne_true] at hdata
    rw [envelopeResult, mergedData_eq, happend, if_neg Bool.false_ne_true, ← hdata] at hs
    cases hs

/-- An accepted write to PK leaves a platform key, unless it appends nothing. -/
theorem AcceptsEnvelope.isPlatformKey {a : Attributes} {e : Envelope} {s : StoredVariable}
    (h : AcceptsEnvelope scheme f SecureVariable.pk.id a e)
    (hsomething : ¬(a.isAppend = true ∧ e.payload = []))
    (hs : envelopeResult (f.stored SecureVariable.pk.id) a e = some s) :
    IsPlatformKey s.data := by
  rcases h.valid_or_same with hvalid | hnothing
  · rw [hs] at hvalid
    rcases SecureVariable.eq_nil_or_isPlatformKey hvalid with hnil | hkey
    · exact absurd (appends_nothing_of_data_nil hs hnil) hsomething
    · exact hkey
  · exact absurd hnothing hsomething

/-- **PK is missing or has exactly one entry, a certificate**, unless a call of the run
appended nothing to a PK that was missing; then it may be there without data. -/
theorem platformKey_of_reachable {p : Firmware → Call → Prop} {s : StoredVariable}
    (h : ReachableBy scheme p f) (hs : f.stored SecureVariable.pk.id = some s) :
    IsPlatformKey s.data ∨ (s.data = [] ∧ ∃ g c, p g c ∧ BlanksPlatformKey g c) := by
  refine h.stored_induction
    (motive := PlatformKeyOr (∃ g c, p g c ∧ BlanksPlatformKey g c)) (by decide) ?_ ?_ s hs
  · rintro s ⟨⟩
  · intro g c e hp hid hparse haccepts ih s hs
    by_cases hnothing : c.attributes.isAppend = true ∧ e.payload = []
    · obtain ⟨happend, hnil⟩ := hnothing
      have hsame : storedData (some s) = storedData (g.stored SecureVariable.pk.id) := by
        rw [← hs, storedData_of_appends_nothing happend hnil]
      cases hbefore : g.stored SecureVariable.pk.id with
      | none =>
        rw [hbefore] at hsame
        exact .inr ⟨hsame, g, c, hp, hid, hbefore, happend, e, hparse, hnil⟩
      | some before =>
        rw [hbefore] at hsame
        have hdata : s.data = before.data := hsame
        rw [hdata]
        exact ih before hbefore
    · exact .inl (haccepts.isPlatformKey hnothing hs)

/-- A write of PK with one certificate and no signature. -/
def ownerWrite : Bytes :=
  let envelope : Envelope := { timestamp := .zero, certificateData := [], payload := ownerList }
  envelope.encode.toOption.getD []

/-- The call that enrolls a platform key in setup mode. -/
def ownerCall : Call := .ofVariable .pk .authenticatedDatabase ownerWrite

theorem fresh_accepts_ownerCall (scheme : SignatureScheme) :
    Accepts scheme fresh ownerCall owned := by
  have hparse : Envelope.parse ownerWrite = .ok ⟨.zero, [], ownerList⟩ := by decide +kernel
  have hvalid : SecureVariable.pk.validatePayload ownerList = .ok () := by decide +kernel
  have haccepts : AcceptsEnvelope scheme fresh SecureVariable.pk.id .authenticatedDatabase
      ⟨.zero, [], ownerList⟩ := by
    refine ⟨?_, ?_, ?_⟩
    · rintro ⟨⟩
    · rintro s ⟨⟩
    · rintro v hv -
      cases (SecureVariable.ofId?_id .pk).symm.trans hv
      exact hvalid
  exact haccepts.accepts (c := ownerCall) (Call.id_ofVariable ..) (by decide) hparse

theorem owned_platformKey :
    ReachableBy plainScheme (fun g c => ¬BlanksPlatformKey g c) owned ∧
      ∃ s, owned.stored SecureVariable.pk.id = some s ∧ IsPlatformKey s.data := by
  have hreachable : ReachableBy plainScheme (fun g c => ¬BlanksPlatformKey g c) owned := by
    refine .single ⟨ownerCall, ?_, fresh_accepts_ownerCall plainScheme⟩
    rintro ⟨-, -, happend, -⟩
    revert happend
    decide
  refine ⟨hreachable, _, rfl, ?_⟩
  rcases platformKey_of_reachable hreachable rfl with hkey | ⟨-, g, c, hsound, hblank⟩
  · exact hkey
  · exact absurd hblank hsound

/-! ## The call that leaves PK without a certificate -/

/-- Firmware in setup mode takes a call that appends nothing to PK, and is in user mode
after it. -/
theorem accepts_of_blanksPlatformKey (scheme : SignatureScheme) {c : Call}
    (h : BlanksPlatformKey f c) (htime : c.attributes.isTimeBased = true) :
    ∃ f', Accepts scheme f c f' ∧ f'.isSetupMode = false ∧
      ∃ s, f'.stored SecureVariable.pk.id = some s ∧ s.data = [] := by
  obtain ⟨hid, hmissing, happend, e, hparse, hnothing⟩ := h
  have haccepts : AcceptsEnvelope scheme f SecureVariable.pk.id c.attributes e := by
    refine ⟨fun huser => ?_, fun s hs => ?_, fun v _ hwrites => ?_⟩
    · rw [isSetupMode, hmissing] at huser
      cases huser
    · rw [hmissing] at hs
      cases hs
    · rw [happend, hnothing] at hwrites
      cases hwrites
  have hresult : envelopeResult (f.stored SecureVariable.pk.id) c.attributes e =
      some ⟨⟨c.attributes.difference .appendWrite, []⟩, e.timestamp⟩ := by
    rw [hmissing, envelopeResult, happend, Bool.not_true, Bool.and_false,
      if_neg Bool.false_ne_true, mergedData, hnothing]
    rfl
  have hset := haccepts.accepts hid htime hparse
  rw [hresult] at hset
  refine ⟨_, hset, ?_, _, stored_update_self _ _ _, rfl⟩
  rw [isSetupMode, stored_update_self]
  rfl

/-- An envelope with nothing in it. -/
def blankWrite : Bytes :=
  let envelope : Envelope := { timestamp := .zero, certificateData := [], payload := [] }
  envelope.encode.toOption.getD []

/-- The call that appends nothing to PK. -/
def blankCall : Call :=
  .ofVariable .pk (Attributes.authenticatedDatabase.union .appendWrite) blankWrite

theorem fresh_blanked : BlanksPlatformKey fresh blankCall :=
  ⟨Call.id_ofVariable .., rfl, by decide, ⟨.zero, [], []⟩, by decide +kernel, rfl⟩

theorem not_platformKey_of_reachable :
    ¬∀ f, Reachable .pkcs7 f → ∀ s, f.stored SecureVariable.pk.id = some s →
      IsPlatformKey s.data := by
  intro h
  obtain ⟨f, haccepts, -, s, hs, hnil⟩ :=
    accepts_of_blanksPlatformKey .pkcs7 fresh_blanked (by decide)
  have hkey := h f (.single ⟨blankCall, trivial, haccepts⟩) s hs
  rw [hnil] at hkey
  exact not_isPlatformKey_nil hkey

/-- A PK without data holds no certificate that could sign, and setup mode, where none
is needed, is over. -/
theorem Accepts.stored_eq_of_blank {c : Call} {s : StoredVariable}
    (h : Accepts scheme f c f') (hs : f.stored SecureVariable.pk.id = some s)
    (hnil : s.data = []) {v : SecureVariable} (hv : v.authority? = some .pk) :
    f'.stored v.id = f.stored v.id := by
  have huser : f.isSetupMode = false := by
    rw [isSetupMode, hs]
    rfl
  have hprotected : v ≠ .mokList := by
    rintro rfl
    cases hv
  rcases h.protected_cases hprotected with hsame | ⟨e, -, -, haccepts, -⟩
  · exact hsame
  · exfalso
    obtain ⟨-, trusted, hne, htrusted, -⟩ := checkSignature_eq_ok.1 (haccepts.signed huser)
    obtain ⟨certificate, hmem⟩ := List.exists_mem_of_ne_nil trusted hne
    obtain ⟨authority, stored, hauthority, hstored, hholds⟩ :=
      authorityCertificates_sound htrusted hmem
    cases hv.symm.trans hauthority
    cases hs.symm.trans hstored
    rw [hnil] at hholds
    exact not_holdsCertificate_nil certificate hholds

/-- **A PK without data locks PK and KEK**: no run changes them again. -/
theorem blank_platformKey_stays {p : Firmware → Call → Prop} {s : StoredVariable}
    (hs : f.stored SecureVariable.pk.id = some s) (hnil : s.data = [])
    (hrun : Relation.ReflTransGen (Step scheme p) f f') {v : SecureVariable}
    (hv : v.authority? = some .pk) : f'.stored v.id = f.stored v.id := by
  induction hrun generalizing v with
  | refl => rfl
  | tail _ hstep ih =>
    obtain ⟨c, -, haccepts⟩ := hstep
    have hpk := ih (v := .pk) rfl
    rw [haccepts.stored_eq_of_blank (hpk.trans hs) hnil hv, ih hv]

end Firmware

end SecureBoot
