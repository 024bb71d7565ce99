import SecureBoot.Proofs.FirmwareRuns

/-!
# What a variable keeps from write to write

A variable that stays stored keeps its attributes, and its timestamp never goes back.
A write with an envelope is checked against both.  A write without one is checked against
neither, so that it can replace a variable that was written with an envelope.

* `Firmware.succeeds_of_run` — attributes and timestamp over a run without deletions and
  plain replacements;
* `Firmware.attributes_of_accepts` — every other call keeps the attributes, and PK, KEK, db,
  dbx and dbt take no plain call;
* `Firmware.accepts_plain` — every state takes a plain write to any other variable, whatever
  is stored there.
-/

namespace SecureBoot

namespace Timestamp

theorem isAfter_eq_true {a b : Timestamp} : a.isAfter b = true ↔ b.instant < a.instant :=
  decide_eq_true_iff

theorem instant_later (a b : Timestamp) : (a.later b).instant = max a.instant b.instant := by
  rw [later]
  by_cases h : b.isAfter a = true
  · have hlater := isAfter_eq_true.1 h
    rw [if_pos h]
    omega
  · have hnot : ¬a.instant < b.instant := fun hlater => h (isAfter_eq_true.2 hlater)
    rw [if_neg h]
    omega

end Timestamp

/-- What is stored in place of something older: the same attributes, and a timestamp that
is not earlier. -/
structure StoredVariable.Succeeds (after before : StoredVariable) : Prop where
  attributes : after.attributes = before.attributes
  timestamp : before.timestamp.instant ≤ after.timestamp.instant

namespace StoredVariable.Succeeds

theorem refl (s : StoredVariable) : s.Succeeds s := ⟨rfl, Nat.le_refl _⟩

theorem trans {s s' s'' : StoredVariable} (h : s''.Succeeds s') (h' : s'.Succeeds s) :
    s''.Succeeds s :=
  ⟨h.attributes.trans h'.attributes, Nat.le_trans h'.timestamp h.timestamp⟩

end StoredVariable.Succeeds

namespace Firmware

variable {scheme : SignatureScheme} {f f' g : Firmware} {id : VariableId} {c : Call}
  {s s' : StoredVariable} {a : Attributes} {e : Envelope}

/-! ## Accepted writes -/

/-- A write with an envelope leaves nothing exactly if it replaces what is stored by
nothing. -/
theorem envelopeResult_eq_none {stored : Option StoredVariable} :
    envelopeResult stored a e = none ↔ a.isAppend = false ∧ e.payload = [] := by
  rw [envelopeResult, mergedData_eq]
  cases ha : a.isAppend with
  | true => simp
  | false => cases e.payload <;> simp

/-- What a write with an envelope leaves has the attributes of the write, and the later of
two timestamps. -/
theorem envelopeResult_eq_some {stored : Option StoredVariable}
    (h : envelopeResult stored a e = some s') :
    s'.attributes = a.difference .appendWrite ∧
      s'.timestamp = mergedTimestamp stored e.timestamp := by
  rw [envelopeResult] at h
  split at h
  · cases h
  · cases h
    exact ⟨rfl, rfl⟩

theorem le_instant_mergedTimestamp (stored : Option StoredVariable) (t : Timestamp) :
    t.instant ≤ (mergedTimestamp stored t).instant := by
  cases stored with
  | none => exact Nat.le_refl _
  | some s =>
    rw [mergedTimestamp, Timestamp.instant_later]
    exact Nat.le_max_right ..

/-- A write with an envelope is checked against what is stored, so what it leaves succeeds
that. -/
theorem AcceptsEnvelope.succeeds (h : AcceptsEnvelope scheme f id a e)
    (hs : f.stored id = some s) (hs' : envelopeResult (f.stored id) a e = some s') :
    s'.Succeeds s := by
  obtain ⟨hattributes, htimestamp⟩ := envelopeResult_eq_some hs'
  obtain ⟨hsame, -⟩ := checkReplacement_eq_ok.1 (h.replaces s hs)
  refine ⟨hattributes.trans hsame.symm, ?_⟩
  rw [htimestamp, hs, mergedTimestamp, Timestamp.instant_later]
  exact Nat.le_max_left ..

/-- What a plain append leaves has the attributes and the timestamp of what was there. -/
theorem plainResult_of_append (s : StoredVariable) (data : Bytes) (happend : a.isAppend = true) :
    ∃ s', plainResult (some s) a data = some s' ∧ s'.Succeeds s := by
  rw [plainResult, if_pos happend]
  exact ⟨_, rfl, rfl, Nat.le_refl _⟩

/-! ## Calls -/

/-- A call that replaces a variable, or deletes it, by data without an envelope. -/
structure Call.ReplacesPlainly (c : Call) (id : VariableId) : Prop where
  names : c.id = id
  plain : c.attributes.isTimeBased = false
  replaces : c.attributes.isAppend = false

/-- A call that replaces a variable by nothing. -/
structure Call.Deletes (c : Call) (id : VariableId) : Prop where
  names : c.id = id
  replaces : c.attributes.isAppend = false
  nothing : if c.attributes.isTimeBased then ∃ e, Envelope.parse c.data = .ok e ∧ e.payload = []
    else c.data = []

/-- An envelope that is no deletion leaves something. -/
theorem exists_envelopeResult_of_not_deletes {stored : Option StoredVariable} (hid : c.id = id)
    (htime : c.attributes.isTimeBased = true) (hparse : Envelope.parse c.data = .ok e)
    (hstays : ¬c.Deletes id) : ∃ s, envelopeResult stored c.attributes e = some s := by
  cases hresult : envelopeResult stored c.attributes e with
  | none =>
    obtain ⟨hreplaces, hnothing⟩ := envelopeResult_eq_none.1 hresult
    refine absurd ⟨hid, hreplaces, ?_⟩ hstays
    rw [if_pos htime]
    exact ⟨e, hparse, hnothing⟩
  | some s => exact ⟨s, rfl⟩

/-- An accepted call on PK, KEK, db, dbx or dbt carries an envelope. -/
theorem Accepts.isTimeBased {v : SecureVariable} (h : Accepts scheme f c f') (hv : v ≠ .mokList)
    (hid : c.id = v.id) : c.attributes.isTimeBased = true := by
  rcases h.stored_cases v.id with ⟨hother, -⟩ | ⟨-, htime, -⟩ | ⟨-, -, haccepts, -⟩
  · exact absurd hid hother
  · exact htime
  · exact absurd haccepts.eq_mokList hv

theorem Accepts.not_replacesPlainly {v : SecureVariable} (h : Accepts scheme f c f')
    (hv : v ≠ .mokList) : ¬c.ReplacesPlainly v.id := by
  intro hplain
  have htime := h.isTimeBased hv hplain.names
  rw [hplain.plain] at htime
  cases htime

/-- An accepted call that neither replaces a variable plainly nor deletes it leaves a
successor of what is stored. -/
theorem Accepts.succeeds (h : Accepts scheme f c f') (hs : f.stored id = some s)
    (hstays : ¬c.Deletes id) (hplain : ¬c.ReplacesPlainly id) :
    ∃ s', f'.stored id = some s' ∧ s'.Succeeds s := by
  rcases h.stored_cases id with
    ⟨-, hsame⟩ | ⟨hid, htime, e, hparse, haccepts, hresult⟩ | ⟨hid, hopen, -, hresult⟩
  · exact ⟨s, hsame.trans hs, .refl s⟩
  · obtain ⟨s', hs'⟩ := exists_envelopeResult_of_not_deletes hid htime hparse hstays
    exact ⟨s', hresult.trans hs', haccepts.succeeds hs hs'⟩
  · have happend : c.attributes.isAppend = true := by
      rw [← Bool.not_eq_false]
      exact fun hreplaces => hplain ⟨hid, hopen, hreplaces⟩
    obtain ⟨s', hs', hsucceeds⟩ := plainResult_of_append s c.data happend
    refine ⟨s', ?_, hsucceeds⟩
    rw [hresult, hs, hs']

/-- **Attributes and timestamp over a run**: as long as a variable is neither replaced
plainly nor deleted, it stays with its attributes, and its timestamp never goes back. -/
theorem succeeds_of_run
    (hrun : Relation.ReflTransGen
      (Step scheme fun _ c => ¬c.Deletes id ∧ ¬c.ReplacesPlainly id) f g)
    (hs : f.stored id = some s) : ∃ s', g.stored id = some s' ∧ s'.Succeeds s := by
  induction hrun with
  | refl => exact ⟨s, hs, .refl s⟩
  | tail _ hstep ih =>
    obtain ⟨c, ⟨hstays, hplain⟩, haccepts⟩ := hstep
    obtain ⟨s', hs', hsucceeds⟩ := ih
    obtain ⟨s'', hs'', hsucceeds'⟩ := haccepts.succeeds hs' hstays hplain
    exact ⟨s'', hs'', hsucceeds'.trans hsucceeds⟩

/-! ## Attributes -/

/-- **A call keeps the attributes of a variable** that is there before and after it, unless
it replaces the variable plainly.  A call with an envelope has these attributes itself,
apart from the flag of an append.  PK, KEK, db, dbx and dbt only take calls with an
envelope, so that they are neither replaced nor appended to plainly. -/
theorem attributes_of_accepts (h : Accepts scheme f c f') (hs : f.stored id = some s)
    (hs' : f'.stored id = some s') :
    ((s'.attributes = s.attributes ∧ (c.id = id → c.attributes.isTimeBased = true →
        c.attributes.difference .appendWrite = s.attributes)) ∨ c.ReplacesPlainly id) ∧
      ∀ v : SecureVariable, v ≠ .mokList → c.id = v.id → c.attributes.isTimeBased = true := by
  refine ⟨?_, fun v hv hid => h.isTimeBased hv hid⟩
  rcases h.stored_cases id with
    ⟨hother, hsame⟩ | ⟨-, -, e, -, haccepts, hresult⟩ | ⟨hid, hopen, -, hresult⟩
  · left
    cases hs'.symm.trans (hsame.trans hs)
    exact ⟨rfl, fun hid => absurd hid hother⟩
  · left
    rw [hs'] at hresult
    obtain ⟨hsame, -⟩ := checkReplacement_eq_ok.1 (haccepts.replaces s hs)
    exact ⟨(haccepts.succeeds hs hresult.symm).attributes, fun _ _ => hsame.symm⟩
  · cases happend : c.attributes.isAppend with
    | true =>
      left
      obtain ⟨s'', hs'', hsucceeds⟩ := plainResult_of_append s c.data happend
      rw [hs, hs''] at hresult
      cases hs'.symm.trans hresult
      refine ⟨hsucceeds.attributes, fun _ htime => ?_⟩
      rw [hopen] at htime
      cases htime
    | false => exact .inr ⟨hid, hopen, happend⟩

/-- A day of January 2025. -/
def january (day : UInt8) : Timestamp := { Timestamp.zero with year := 2025, month := 1, day }

/-- A write of db without a signature. -/
def dbCall (a : Attributes) (day : UInt8) (payload : Bytes) : Call :=
  .unsigned SecureVariable.db.id a (january day) payload

/-- Firmware in setup mode with certificates in db and nothing else. -/
def stocked (lists : Bytes) : Firmware :=
  fresh.update SecureVariable.db.id (some ⟨⟨.authenticatedDatabase, lists⟩, january 2⟩)

theorem accepts_dbCall {day : UInt8} {payload : Bytes} (hsetup : f.isSetupMode = true)
    (htime : a.isTimeBased = true)
    (hreplaces : ∀ s, f.stored SecureVariable.db.id = some s →
      checkReplacement s a (january day) = .ok ())
    (hvalid : SecureVariable.db.validatePayload
      (mergedData (f.stored SecureVariable.db.id) a payload) = .ok ()) :
    Accepts scheme f (dbCall a day payload)
      (f.update SecureVariable.db.id
        (envelopeResult (f.stored SecureVariable.db.id) a ⟨january day, [], payload⟩)) := by
  refine accepts_unsigned hsetup (SecureVariable.zero_not_mem_name .db)
    (StatusVariable.ofId?_secureVariable .db) htime hreplaces fun v hv => ?_
  cases (SecureVariable.ofId?_id .db).symm.trans hv
  exact hvalid

/-- Firmware in setup mode with lists in db, written at some time, and nothing else. -/
def dbHolds (lists : Bytes) (t : Timestamp) : Firmware :=
  fresh.update SecureVariable.db.id (some ⟨⟨.authenticatedDatabase, lists⟩, t⟩)

/-- In setup mode an append to db is taken on any day, before or after the last write. -/
theorem accepts_append (scheme : SignatureScheme) {before lists : Bytes}
    (hvalid : SecureVariable.db.validatePayload (before ++ lists) = .ok ()) (t : Timestamp)
    (day : UInt8) :
    Accepts scheme (dbHolds before t)
      (dbCall (.union .authenticatedDatabase .appendWrite) day lists)
      (dbHolds (before ++ lists) (t.later (january day))) := by
  have hstored : (dbHolds before t).stored SecureVariable.db.id =
      some ⟨⟨.authenticatedDatabase, before⟩, t⟩ := stored_update_self _ _ _
  have happend : Attributes.isAppend (.union .authenticatedDatabase .appendWrite) = true := by
    decide
  have hregistered : Attributes.difference (.union .authenticatedDatabase .appendWrite)
      .appendWrite = .authenticatedDatabase := by decide
  have hresult : envelopeResult (some ⟨⟨.authenticatedDatabase, before⟩, t⟩)
      (.union .authenticatedDatabase .appendWrite) ⟨january day, [], lists⟩ =
        some ⟨⟨.authenticatedDatabase, before ++ lists⟩, t.later (january day)⟩ := by
    rw [envelopeResult, mergedData_eq, happend, if_pos rfl, hregistered, Bool.not_true,
      Bool.and_false, if_neg Bool.false_ne_true]
    rfl
  have hupdate : dbHolds (before ++ lists) (t.later (january day)) =
      (dbHolds before t).update SecureVariable.db.id
        (envelopeResult ((dbHolds before t).stored SecureVariable.db.id)
          (.union .authenticatedDatabase .appendWrite) ⟨january day, [], lists⟩) := by
    rw [hstored, hresult]
    exact (update_update _ _ _ _).symm
  rw [hupdate]
  refine accepts_dbCall rfl (by decide) ?_ ?_
  · rw [hstored]
    rintro s ⟨⟩
    refine checkReplacement_eq_ok.2 ⟨hregistered.symm, ?_⟩
    intro hreplaces
    rw [happend] at hreplaces
    cases hreplaces
  · rw [hstored, mergedData_eq, if_pos happend]
    exact hvalid

theorem fresh_accepts_dbCall (scheme : SignatureScheme) :
    Accepts scheme fresh (dbCall .authenticatedDatabase 2 ownerList) (stocked ownerList) := by
  have hresult : envelopeResult none .authenticatedDatabase ⟨january 2, [], ownerList⟩ =
      some ⟨⟨.authenticatedDatabase, ownerList⟩, january 2⟩ := by decide +kernel
  rw [stocked, ← hresult]
  refine accepts_dbCall rfl (by decide) ?_ (by decide +kernel)
  rintro s ⟨⟩

/-- An append that is older than what is stored. -/
def lateAppend : Call := dbCall (.union .authenticatedDatabase .appendWrite) 1 ownerList

theorem stocked_accepts_lateAppend (scheme : SignatureScheme) :
    Accepts scheme (stocked ownerList) lateAppend (stocked (ownerList ++ ownerList)) := by
  have hlater : (january 2).later (january 1) = january 2 := by decide
  have hvalid : SecureVariable.db.validatePayload (ownerList ++ ownerList) = .ok () := by
    decide +kernel
  have haccepts := accepts_append scheme hvalid (january 2) 1
  rw [hlater] at haccepts
  exact haccepts

theorem stocked_keeps_attributes :
    ∃ s s', (stocked ownerList).stored SecureVariable.db.id = some s ∧
      (stocked (ownerList ++ ownerList)).stored SecureVariable.db.id = some s' ∧
      Accepts plainScheme (stocked ownerList) lateAppend (stocked (ownerList ++ ownerList)) ∧
      s'.attributes = s.attributes ∧
      lateAppend.attributes.difference .appendWrite = s.attributes := by
  have haccepts := stocked_accepts_lateAppend plainScheme
  have hid : lateAppend.id = SecureVariable.db.id :=
    Call.id_unsigned (SecureVariable.zero_not_mem_name .db) _ _ _
  refine ⟨_, _, stored_update_self _ _ _, stored_update_self _ _ _, haccepts, ?_⟩
  rcases (attributes_of_accepts haccepts (stored_update_self _ _ _)
    (stored_update_self _ _ _)).1 with ⟨hsame, hcall⟩ | hplain
  · exact ⟨hsame, hcall hid (by decide)⟩
  · exact absurd hplain.plain (by decide)

/-! ## Plain writes over authenticated ones -/

/-- Every state takes a plain write to a variable that needs no envelope.  There may be a
platform key, and the variable may be stored with the attributes of authenticated writes. -/
theorem accepts_plain (hid : c.id = id) (hstatus : StatusVariable.ofId? id = none)
    (hopen : ∀ v, SecureVariable.ofId? id = some v → v.requiresEnvelope = false)
    (hplain : c.attributes.isTimeBased = false) (hdata : c.data ≠ []) :
    Accepts scheme f c (f.update id (plainResult (f.stored id) c.attributes c.data)) := by
  have haccepts : AcceptsPlain f id c.attributes c.data :=
    ⟨hopen, fun _ hnothing => absurd hnothing hdata⟩
  exact haccepts.accepts hid hstatus hplain

/-- A plain replacement leaves its own attributes, and forgets the timestamp. -/
theorem Call.ReplacesPlainly.accepts (h : c.ReplacesPlainly id)
    (hstatus : StatusVariable.ofId? id = none)
    (hopen : ∀ v, SecureVariable.ofId? id = some v → v.requiresEnvelope = false)
    (hdata : c.data ≠ []) :
    Accepts scheme f c
      (f.update id (some ⟨⟨c.attributes.difference .appendWrite, c.data⟩, .zero⟩)) := by
  have hresult : plainResult (f.stored id) c.attributes c.data =
      some ⟨⟨c.attributes.difference .appendWrite, c.data⟩, .zero⟩ := by
    simp [plainResult, h.replaces, hdata]
  rw [← hresult]
  exact accepts_plain h.names hstatus hopen h.plain hdata

/-- A variable that is not registered. -/
def policyId : VariableId := ⟨"Policy", .shimLock⟩

/-- Firmware with the policy, written with an envelope. -/
def guarded : Firmware :=
  fresh.update policyId (some ⟨⟨.authenticatedDatabase, [1]⟩, .zero⟩)

/-- A plain write of the policy. -/
def policyOverwrite : Call :=
  ⟨Text.Utf16.terminated policyId.name, policyId.guid, .bootNonVolatile, [2]⟩

theorem ofId?_policyId : SecureVariable.ofId? policyId = none := by decide

theorem reachable_guarded (scheme : SignatureScheme) : Reachable scheme guarded := by
  refine .single ⟨.unsigned policyId .authenticatedDatabase .zero [1], trivial, ?_⟩
  refine accepts_unsigned rfl (by decide) (by decide) (by decide) ?_ fun v hv => ?_
  · rintro s ⟨⟩
  · rw [ofId?_policyId] at hv
    cases hv

theorem not_attributes_of_accepts :
    ¬∀ f, Reachable .pkcs7 f → ∀ c f', Accepts .pkcs7 f c f' → ∀ id s s',
      f.stored id = some s → f'.stored id = some s' → s'.attributes = s.attributes := by
  intro h
  have hreplaces : policyOverwrite.ReplacesPlainly policyId :=
    ⟨services_terminated (by decide), by decide, by decide⟩
  have hopen : ∀ v, SecureVariable.ofId? policyId = some v → v.requiresEnvelope = false := by
    rw [ofId?_policyId]
    rintro v ⟨⟩
  have haccepts : Accepts .pkcs7 guarded policyOverwrite _ :=
    hreplaces.accepts (by decide) hopen (List.cons_ne_nil _ _)
  have hsame := h guarded (reachable_guarded .pkcs7) _ _ haccepts policyId _ _
    (stored_update_self _ _ _) (stored_update_self _ _ _)
  revert hsame
  decide

end Firmware

end SecureBoot
