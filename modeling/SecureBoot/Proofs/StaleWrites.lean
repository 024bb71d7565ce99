import SecureBoot.Proofs.VariableHistory

/-!
# Stale writes

A write that replaces PK, KEK, db, dbx or dbt has to be later than every write that was
accepted before, for as long as the variable stays stored.  Firmware keeps the timestamps
with the variable, so that a deletion forgets them.

* `Firmware.stale_write_refused` — while the variable stays, a replacement that is not later
  than an accepted write is refused;
* `Firmware.replay_refused` — the same call made again is a security violation;
* `Firmware.accepts_again_of_missing` — once the variable is deleted, the same call is
  accepted again.
-/

namespace SecureBoot

namespace Firmware

variable {scheme : SignatureScheme} {f f' g : Firmware} {v : SecureVariable} {c d : Call}
  {e e' : Envelope}

/-! ## Runs without a deletion -/

/-- An accepted write that is no deletion leaves its attributes, and a timestamp that is
not earlier than its own. -/
theorem Accepts.exists_stored (h : Accepts scheme f c f') (hv : v ≠ .mokList)
    (hid : c.id = v.id) (hparse : Envelope.parse c.data = .ok e) (hstays : ¬c.Deletes v.id) :
    ∃ s, f'.stored v.id = some s ∧ s.attributes = c.attributes.difference .appendWrite ∧
      e.timestamp.instant ≤ s.timestamp.instant := by
  rcases h.stored_cases v.id with
    ⟨hother, -⟩ | ⟨-, htime, e', hparse', -, hresult⟩ | ⟨-, -, hplain, -⟩
  · exact absurd hid hother
  · cases hparse.symm.trans hparse'
    obtain ⟨s, hs⟩ := exists_envelopeResult_of_not_deletes hid htime hparse hstays
    obtain ⟨hattributes, htimestamp⟩ := envelopeResult_eq_some hs
    refine ⟨s, hresult.trans hs, hattributes, ?_⟩
    rw [htimestamp]
    exact le_instant_mergedTimestamp _ _
  · exact absurd hplain.eq_mokList hv

/-- Over a run without a deletion a variable that is written with an envelope stays, with
its attributes and a timestamp that does not go back. -/
theorem succeeds_of_no_deletion (hv : v ≠ .mokList) {s : StoredVariable}
    (hrun : Relation.ReflTransGen (Step scheme fun _ d => ¬d.Deletes v.id) f g)
    (hs : f.stored v.id = some s) : ∃ s', g.stored v.id = some s' ∧ s'.Succeeds s := by
  have hsteps : Relation.ReflTransGen
      (Step scheme fun _ d => ¬d.Deletes v.id ∧ ¬d.ReplacesPlainly v.id) f g := by
    refine Relation.ReflTransGen.mono ?_ _ _ hrun
    rintro f f' ⟨d, hstays, haccepts⟩
    exact ⟨d, ⟨hstays, haccepts.not_replacesPlainly hv⟩, haccepts⟩
  exact succeeds_of_run hsteps hs

/-- What an accepted write leaves at the end of a run without a deletion. -/
theorem exists_stored_of_run (hv : v ≠ .mokList) (h : Accepts scheme f c f') (hid : c.id = v.id)
    (hparse : Envelope.parse c.data = .ok e) (hstays : ¬c.Deletes v.id)
    (hrun : Relation.ReflTransGen (Step scheme fun _ d => ¬d.Deletes v.id) f' g) :
    ∃ s, g.stored v.id = some s ∧ s.attributes = c.attributes.difference .appendWrite ∧
      e.timestamp.instant ≤ s.timestamp.instant := by
  obtain ⟨s, hs, hattributes, htimestamp⟩ := h.exists_stored hv hid hparse hstays
  obtain ⟨s', hs', hsucceeds⟩ := succeeds_of_no_deletion hv hrun hs
  exact ⟨s', hs', hsucceeds.attributes.trans hattributes,
    Nat.le_trans htimestamp hsucceeds.timestamp⟩

/-! ## Refusals -/

/-- An authority that cannot be read is a security violation. -/
theorem authorityCertificates_error {status : FirmwareStatus}
    (h : f.authorityCertificates scheme v = .error status) : status = .securityViolation := by
  rw [authorityCertificates] at h
  split at h
  · cases h
  · split at h
    · cases h
    · cases h
      rfl

/-- Every fault that the signature check finds is a security violation. -/
theorem checkSignature_error {a : Attributes} {status : FirmwareStatus}
    (h : f.checkSignature scheme v.id a e = .error status) : status = .securityViolation := by
  simp only [checkSignature, SecureVariable.ofId?_id] at h
  cases htrusted : f.authorityCertificates scheme v with
  | error status' =>
    rw [htrusted] at h
    cases h
    exact authorityCertificates_error htrusted
  | ok trusted =>
    rw [htrusted, ok_bind] at h
    split at h
    · cases h
      rfl
    · cases hverify : scheme.verify e.certificateData
        (signedMessage v.id.name v.id.guid a e.timestamp e.payload) trusted with
      | error _ =>
        rw [hverify] at h
        cases h
        rfl
      | ok _ =>
        rw [hverify] at h
        cases h

/-- A replacement with the stored attributes that is not later than what is stored is a
security violation, in setup mode and in user mode. -/
theorem setTimeBased_of_stale {a : Attributes} {data : Bytes} {s : StoredVariable}
    (hparse : Envelope.parse data = .ok e) (hs : f.stored v.id = some s)
    (hattributes : s.attributes = a.difference .appendWrite) (hreplaces : a.isAppend = false)
    (hstale : e.timestamp.instant ≤ s.timestamp.instant) :
    f.setTimeBased scheme v.id a data = .error .securityViolation := by
  have hnot : e.timestamp.isAfter s.timestamp = false := by
    rw [← Bool.not_eq_true, Timestamp.isAfter_eq_true]
    omega
  have hcheck : checkReplacement s a e.timestamp = .error .securityViolation := by
    rw [checkReplacement, if_neg (not_not_intro hattributes), hreplaces, hnot]
    rfl
  rw [setTimeBased, hparse, mapError_ok, ok_bind, hs]
  simp only [hcheck, error_bind]
  -- in user mode the signature is checked first, and its faults have the same status
  split
  · cases hsigned : f.checkSignature scheme v.id a e with
    | error status =>
      rw [checkSignature_error hsigned]
      rfl
    | ok _ => rfl
  · rfl

/-- A call with such a replacement is refused. -/
theorem refuses_stale {s : StoredVariable} (hid : d.id = v.id)
    (htime : d.attributes.isTimeBased = true) (hparse : Envelope.parse d.data = .ok e)
    (hs : f.stored v.id = some s) (hattributes : s.attributes = d.attributes.difference .appendWrite)
    (hreplaces : d.attributes.isAppend = false)
    (hstale : e.timestamp.instant ≤ s.timestamp.instant) :
    (services scheme).setVariable f d.name d.guid d.attributes d.data =
      .error .securityViolation := by
  show f.setVariable scheme d.id d.attributes d.data = _
  rw [hid, setVariable, StatusVariable.ofId?_secureVariable, htime]
  exact setTimeBased_of_stale hparse hs hattributes hreplaces hstale

/-! ## The main results -/

/-- **A stale write is refused.**  A write was accepted, and the variable was not deleted
by it or since: a write that replaces the variable and is not later is refused. -/
theorem stale_write_refused (hv : v ≠ .mokList) (h : Accepts scheme f c f') (hid : c.id = v.id)
    (hparse : Envelope.parse c.data = .ok e) (hstays : ¬c.Deletes v.id)
    (hrun : Relation.ReflTransGen (Step scheme fun _ d => ¬d.Deletes v.id) f' g)
    (hid' : d.id = v.id) (hreplaces : d.attributes.isAppend = false)
    (hparse' : Envelope.parse d.data = .ok e')
    (hstale : e'.timestamp.instant ≤ e.timestamp.instant) (g' : Firmware) :
    ¬Accepts scheme g d g' := by
  intro haccepts
  obtain ⟨s, hs, -, htimestamp⟩ := exists_stored_of_run hv h hid hparse hstays hrun
  rcases haccepts.stored_cases v.id with
    ⟨hother, -⟩ | ⟨-, -, e'', hparse'', haccepts, -⟩ | ⟨-, -, hplain, -⟩
  · exact hother hid'
  · cases hparse'.symm.trans hparse''
    obtain ⟨-, hlater⟩ := checkReplacement_eq_ok.1 (haccepts.replaces s hs)
    have hafter := Timestamp.isAfter_eq_true.1 (hlater hreplaces)
    omega
  · exact hv hplain.eq_mokList

/-- **A replay is refused.**  A call that replaced PK, KEK, db, dbx or dbt by something was
accepted, and the variable was not deleted since: the same call is a security violation. -/
theorem replay_refused (hv : v ≠ .mokList) (h : Accepts scheme f c f') (hid : c.id = v.id)
    (hreplaces : c.attributes.isAppend = false) (hparse : Envelope.parse c.data = .ok e)
    (hpayload : e.payload ≠ [])
    (hrun : Relation.ReflTransGen (Step scheme fun _ d => ¬d.Deletes v.id) f' g) :
    (services scheme).setVariable g c.name c.guid c.attributes c.data =
      .error .securityViolation := by
  have htime := h.isTimeBased hv hid
  have hstays : ¬c.Deletes v.id := by
    intro hdeletes
    have hnothing := hdeletes.nothing
    rw [if_pos htime] at hnothing
    obtain ⟨e', hparse', hnil⟩ := hnothing
    cases hparse.symm.trans hparse'
    exact hpayload hnil
  obtain ⟨s, hs, hattributes, htimestamp⟩ := exists_stored_of_run hv h hid hparse hstays hrun
  exact refuses_stale hid htime hparse hs hattributes hreplaces htimestamp

theorem stocked_refuses_dbCall :
    Accepts plainScheme fresh (dbCall .authenticatedDatabase 2 ownerList) (stocked ownerList) ∧
      Accepts plainScheme (stocked ownerList) lateAppend (stocked (ownerList ++ ownerList)) ∧
      (services plainScheme).setVariable (stocked (ownerList ++ ownerList))
        (Text.Utf16.terminated "db") .imageSecurityDatabase .authenticatedDatabase
        (dbCall .authenticatedDatabase 2 ownerList).data = .error .securityViolation := by
  have hfirst := fresh_accepts_dbCall plainScheme
  have hsecond := stocked_accepts_lateAppend plainScheme
  have hstays : ¬lateAppend.Deletes SecureVariable.db.id := by
    intro hdeletes
    exact absurd hdeletes.replaces (by decide)
  have hid : (dbCall .authenticatedDatabase 2 ownerList).id = SecureVariable.db.id :=
    Call.id_unsigned (SecureVariable.zero_not_mem_name .db) _ _ _
  refine ⟨hfirst, hsecond, ?_⟩
  exact replay_refused (v := .db) (by decide) hfirst hid (by decide)
    (Call.parse_unsigned _ _ _ _) (by decide) (.single ⟨lateAppend, hstays, hsecond⟩)

/-! ## After a deletion -/

theorem authorityCertificates_congr
    (h : ∀ w, v.authority? = some w → g.stored w.id = f.stored w.id) :
    g.authorityCertificates scheme v = f.authorityCertificates scheme v := by
  have hbind : (v.authority?.bind fun w => g.stored w.id) =
      v.authority?.bind fun w => f.stored w.id := by
    cases hw : v.authority? with
    | none => rfl
    | some w => exact h w hw
  rw [authorityCertificates, authorityCertificates, hbind]

/-- An accepted replacement is accepted in another state whose variable it can replace, in
setup mode and also where the authority of the variable holds what it held before. -/
theorem AcceptsEnvelope.again {a : Attributes} (h : AcceptsEnvelope scheme f v.id a e)
    (hreplaces : a.isAppend = false)
    (htrust : g.isSetupMode = true ∨ (f.isSetupMode = false ∧
      ∀ w, v.authority? = some w → g.stored w.id = f.stored w.id))
    (hfits : ∀ s, g.stored v.id = some s → checkReplacement s a e.timestamp = .ok ()) :
    AcceptsEnvelope scheme g v.id a e := by
  refine ⟨fun huser => ?_, hfits, fun w hw hsomething => ?_⟩
  · rcases htrust with hsetup | ⟨huser', hauthority⟩
    · rw [hsetup] at huser
      cases huser
    · have hsigned := checkSignature_eq_ok.1 (h.signed huser')
      rw [← authorityCertificates_congr hauthority] at hsigned
      exact checkSignature_eq_ok.2 hsigned
  · have hvalid := h.valid w hw hsomething
    rw [mergedData_eq, hreplaces, if_neg Bool.false_ne_true] at hvalid ⊢
    exact hvalid

/-- A call that was accepted is accepted again where its variable is missing, in setup mode
and also where the authority of the variable holds what it held before: nothing is left
that would tell the replay from a new write. -/
theorem accepts_again_of_missing (hv : v ≠ .mokList) (h : Accepts scheme f c f')
    (hid : c.id = v.id) (hreplaces : c.attributes.isAppend = false)
    (hmissing : g.stored v.id = none)
    (htrust : g.isSetupMode = true ∨ (f.isSetupMode = false ∧
      ∀ w, v.authority? = some w → g.stored w.id = f.stored w.id)) :
    ∃ g', Accepts scheme g c g' := by
  rcases h.stored_cases v.id with
    ⟨hother, -⟩ | ⟨-, htime, e, hparse, haccepts, -⟩ | ⟨-, -, hplain, -⟩
  · exact absurd hid hother
  · have hfits : ∀ s, g.stored v.id = some s →
        checkReplacement s c.attributes e.timestamp = .ok () := by
      intro s hs
      rw [hmissing] at hs
      cases hs
    have hagain := haccepts.again hreplaces htrust hfits
    exact ⟨_, hagain.accepts hid htime hparse⟩
  · exact absurd hplain.eq_mokList hv

/-- Deletes db. -/
def dbDeletion : Call := dbCall .authenticatedDatabase 3 []

theorem stocked_accepts_dbDeletion (scheme : SignatureScheme) :
    ∃ g, Accepts scheme (stocked ownerList) dbDeletion g ∧
      g.stored SecureVariable.db.id = none ∧ g.isSetupMode = true := by
  have hstored : (stocked ownerList).stored SecureVariable.db.id =
      some ⟨⟨.authenticatedDatabase, ownerList⟩, january 2⟩ := stored_update_self _ _ _
  refine ⟨_, accepts_dbCall rfl (by decide) ?_ ?_, ?_, ?_⟩
  · rw [hstored]
    rintro s ⟨⟩
    decide
  · decide +kernel
  · rw [stored_update_self]
    exact envelopeResult_eq_none.2 ⟨by decide, rfl⟩
  · rw [isSetupMode, stored_update_of_ne (by decide)]
    rfl

theorem not_replay_refused :
    ¬∀ v : SecureVariable, v ≠ .mokList → ∀ f, Reachable .pkcs7 f → ∀ c f' e,
      Accepts .pkcs7 f c f' → c.id = v.id → c.attributes.isAppend = false →
      Envelope.parse c.data = .ok e → e.payload ≠ [] → ∀ g,
      Relation.ReflTransGen (Step .pkcs7 fun _ _ => True) f' g → ∀ g', ¬Accepts .pkcs7 g c g' := by
  intro h
  have hfirst := fresh_accepts_dbCall .pkcs7
  obtain ⟨g, hdeletion, hmissing, hsetup⟩ := stocked_accepts_dbDeletion .pkcs7
  have hid : (dbCall .authenticatedDatabase 2 ownerList).id = SecureVariable.db.id :=
    Call.id_unsigned (SecureVariable.zero_not_mem_name .db) _ _ _
  obtain ⟨g', hagain⟩ := accepts_again_of_missing (v := .db) (by decide) hfirst hid (by decide)
    hmissing (.inl hsetup)
  exact h .db (by decide) fresh .refl _ _ _ hfirst hid (by decide) (Call.parse_unsigned _ _ _ _)
    (by decide) g (.single ⟨dbDeletion, trivial, hdeletion⟩) g' hagain

end Firmware

end SecureBoot
