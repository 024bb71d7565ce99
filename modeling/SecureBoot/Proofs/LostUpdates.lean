import SecureBoot.Proofs.MirroredWrites
import SecureBoot.Proofs.SoundPlans
import SecureBoot.Proofs.StaleWrites

/-!
# Lost updates

An update that merges lists on its own, or deletes some, writes everything it read, with
its change.  Between its plan and its write another client may have written the variable.
Firmware compares the timestamps of the two writes, and does not know what they were
computed from.

* `Session.Step` — clients that plan updates of one firmware and write what they planned, in
  any order;
* `Session.overtaken_set_refused` — a write that was planned before another one was taken is
  refused, if it is not the later one and the variable stays;
* `Firmware.Accepts.overwrite` — the later one is taken, and nothing is left of the other.
-/

namespace SecureBoot

/-! ## Updates that write what they read -/

/-- The edit writes the contents that it reads, with a change. -/
def DatabaseEdit.Rewrites (strategy : AppendStrategy) : DatabaseEdit → Prop
  | .append _ | .enrollHash .. | .enrollCertificate .. => strategy = .local
  | .deleteEntry _ | .deleteList _ => True
  | .replace _ => False

namespace Update

variable {u : Update} {read : VariableReader} {edit : DatabaseEdit} {a : Attributes}
  {data : Bytes}

/-- An edit that writes what it reads leaves nothing for the store to append. -/
theorem Changes.replace_of_rewrites {c : PayloadChange} (h : u.Changes read edit c)
    (hrewrites : edit.Rewrites u.strategy) : ∃ lists, c = .replace lists := by
  cases h with
  | left adds ne_pk strategy_eq parse_eq =>
    have hlocal : u.strategy = .local := by
      rcases adds with rfl | henrolls
      · exact hrewrites
      · cases edit with
        | enrollHash _ _ _ => exact hrewrites
        | enrollCertificate _ _ => exact hrewrites
        | _ => cases henrolls
    rw [strategy_eq] at hlocal
    cases hlocal
  | _ => exact ⟨_, rfl⟩

/-- The write of an edit that writes what it reads is no append, and stands in an envelope with
the timestamp of the update. -/
theorem plan_of_rewrites (hedit : u.action = .edit edit) (hrewrites : edit.Rewrites u.strategy)
    (hplan : u.plan read = .ok (.write a data)) :
    a = writeAttributes u.target false ∧ (u.target ≠ .mokList →
      ∃ e, Envelope.parse data = .ok e ∧ e.timestamp = u.timestamp) := by
  obtain ⟨c, hchanges, hattributes, -, hpayload, -⟩ := plan_edit_eq_write hedit hplan
  obtain ⟨lists, rfl⟩ := hchanges.replace_of_rewrites hrewrites
  refine ⟨hattributes, fun hv => ?_⟩
  obtain ⟨mode, e, _, -, -, hbuild, hencode, hdata⟩ :=
    (planPayload_eq_ok (SecureVariable.requiresEnvelope_of_ne hv)).1 hpayload
  cases hdata
  obtain ⟨-, -, he⟩ := Envelope.build_eq_ok.1 hbuild
  exact ⟨e, Envelope.parse_of_encode hencode, congrArg Envelope.timestamp he⟩

end Update

/-! ## The later timestamp wins -/

namespace Firmware

variable {scheme : SignatureScheme} {f f' g : Firmware} {v : SecureVariable} {c d : Call}
  {e e' : Envelope}

/-- What a replacement leaves does not depend on what was there. -/
theorem AcceptsEnvelope.envelopeResult_of_replaces {a : Attributes}
    (h : AcceptsEnvelope scheme f v.id a e) (hreplaces : a.isAppend = false) :
    envelopeResult (f.stored v.id) a e = FlashStore.writeResult none a e.payload e.timestamp := by
  rw [h.envelopeResult_eq, FlashStore.writeResult, FlashStore.writeResult, mergedData_eq,
    mergedData_eq, hreplaces]
  cases f.stored v.id with
  | none => rfl
  | some s => simp [FlashStore.writtenTimestamp, hreplaces]

/-- What an accepted call on PK, KEK, db, dbx or dbt makes of firmware. -/
theorem Accepts.eq_update (h : Accepts scheme f c f') (hv : v ≠ .mokList) (hid : c.id = v.id) :
    ∃ e, Envelope.parse c.data = .ok e ∧ AcceptsEnvelope scheme f v.id c.attributes e ∧
      f' = f.update v.id (envelopeResult (f.stored v.id) c.attributes e) := by
  have hset : f.setVariable scheme c.id c.attributes c.data = .ok f' := h
  rw [hid] at hset
  obtain ⟨-, ⟨-, hset⟩ | ⟨-, hset⟩⟩ := setVariable_eq_ok.1 hset
  · exact setTimeBased_eq_ok.1 hset
  · exact absurd (setPlain_eq_ok.1 hset).1.eq_mokList hv

/-- A call that spares the platform key leaves its certificates with the authorities of the
other variables. -/
theorem Accepts.same_trust (h : Accepts scheme f c f') (hpk : v ≠ .pk) (hid : c.id = v.id) :
    f'.isSetupMode = true ∨ (f.isSetupMode = false ∧
      ∀ w, v.authority? = some w → f'.stored w.id = f.stored w.id) := by
  have hothers : ∀ w : SecureVariable, w ≠ v → f'.stored w.id = f.stored w.id := by
    intro w hw
    rcases h.stored_cases w.id with ⟨-, hsame⟩ | ⟨hid', -⟩ | ⟨hid', -⟩
    · exact hsame
    · exact absurd (SecureVariable.id_injective (hid'.symm.trans hid)) hw
    · exact absurd (SecureVariable.id_injective (hid'.symm.trans hid)) hw
  cases hmode : f.isSetupMode with
  | true =>
    left
    rw [isSetupMode, hothers .pk (Ne.symm hpk)]
    exact hmode
  | false =>
    refine .inr ⟨rfl, fun w hw => hothers w ?_⟩
    rintro rfl
    cases w <;> cases hw
    exact hpk rfl

/-- **The later timestamp wins.**  Firmware would have taken a replacement of KEK, db, dbx or
dbt, and has taken another one instead.  If the replacement has the later timestamp it is
taken all the same, and leaves what it would have left without the other. -/
theorem Accepts.overwrite (hpk : v ≠ .pk) (hv : v ≠ .mokList) (h : Accepts scheme f c f')
    (h' : Accepts scheme f d g) (hid : c.id = v.id) (hid' : d.id = v.id)
    (hattributes : c.attributes = d.attributes) (hreplaces : d.attributes.isAppend = false)
    (hparse : Envelope.parse c.data = .ok e) (hparse' : Envelope.parse d.data = .ok e')
    (hlater : e.timestamp.instant < e'.timestamp.instant) : Accepts scheme f' d g := by
  have htrust := h.same_trust hpk hid
  have htime : d.attributes.isTimeBased = true := h'.isTimeBased hv hid'
  obtain ⟨e₁, hparse₁, haccepts, rfl⟩ := h.eq_update hv hid
  obtain ⟨e₂, hparse₂, haccepts', rfl⟩ := h'.eq_update hv hid'
  cases hparse.symm.trans hparse₁
  cases hparse'.symm.trans hparse₂
  rw [hattributes] at haccepts
  have hleft := haccepts.envelopeResult_of_replaces hreplaces
  have hresult := haccepts'.envelopeResult_of_replaces hreplaces
  -- what the other write leaves has its timestamp, which is the earlier one
  have hfits : ∀ s, (f.update v.id (envelopeResult (f.stored v.id) c.attributes e)).stored v.id =
      some s → checkReplacement s d.attributes e'.timestamp = .ok () := by
    intro s hs
    rw [stored_update_self, hattributes, hleft] at hs
    obtain ⟨hword, htimestamp⟩ := FlashStore.of_writeResult_eq_some hs
    refine checkReplacement_eq_ok.2 ⟨hword, fun _ => Timestamp.isAfter_eq_true.2 ?_⟩
    rw [htimestamp]
    exact hlater
  have hagain := haccepts'.again hreplaces htrust hfits
  have hsame : (f.update v.id (envelopeResult (f.stored v.id) c.attributes e)).update v.id
      (envelopeResult ((f.update v.id (envelopeResult (f.stored v.id) c.attributes e)).stored v.id)
        d.attributes e') = f.update v.id (envelopeResult (f.stored v.id) d.attributes e') := by
    rw [update_update, hagain.envelopeResult_of_replaces hreplaces, hresult]
  rw [← hsame]
  exact hagain.accepts hid' htime hparse'

end Firmware

/-! ## Sessions -/

/-- A write that was planned for firmware in the state it had then. -/
structure PlannedWrite (scheme : SignatureScheme) where
  seen : Firmware
  update : Update
  edit : DatabaseEdit
  attributes : Attributes
  data : Bytes
  action_eq : update.action = .edit edit
  rewrites : edit.Rewrites update.strategy
  plan_eq : update.plan ((Firmware.store scheme).get seen) = .ok (.write attributes data)

/-- A planned write is no append, and stands in an envelope with the timestamp of its update. -/
theorem PlannedWrite.envelope {scheme : SignatureScheme} (w : PlannedWrite scheme)
    (hv : w.update.target ≠ .mokList) :
    w.attributes = Update.writeAttributes w.update.target false ∧
      ∃ e, Envelope.parse w.data = .ok e ∧ e.timestamp = w.update.timestamp := by
  obtain ⟨hattributes, henvelope⟩ := Update.plan_of_rewrites w.action_eq w.rewrites w.plan_eq
  exact ⟨hattributes, henvelope hv⟩

/-- The call that does the write. -/
def PlannedWrite.call {scheme : SignatureScheme} (w : PlannedWrite scheme) : Firmware.Call :=
  .ofVariable w.update.target w.attributes w.data

/-- Firmware, and what each of its clients planned and has not written yet. -/
structure Session (scheme : SignatureScheme) (Client : Type) where
  firmware : Firmware
  planned : Client → Option (PlannedWrite scheme)

/-- What a planned write leaves of a variable that is still there: the registered attributes,
and a timestamp that is not earlier than its own. -/
theorem PlannedWrite.stored_of_accepts {scheme : SignatureScheme} {w : PlannedWrite scheme}
    {f f' : Firmware} {v : SecureVariable} (htarget : w.update.target = v) (hv : v ≠ .mokList)
    (h : Firmware.Accepts scheme f w.call f') (hstays : f'.stored v.id ≠ none) :
    ∃ s, f'.stored v.id = some s ∧ s.attributes = v.attributes ∧
      w.update.timestamp.instant ≤ s.timestamp.instant := by
  obtain ⟨s, hs⟩ := Option.ne_none_iff_exists'.1 hstays
  subst htarget
  obtain ⟨hattributes, e, hparse, htimestamp⟩ := w.envelope hv
  obtain ⟨e', hparse', -, rfl⟩ := h.eq_update hv (Firmware.Call.id_ofVariable ..)
  cases hparse.symm.trans hparse'
  have hresult := hs
  rw [Firmware.stored_update_self] at hresult
  obtain ⟨hword, hmerged⟩ := Firmware.envelopeResult_eq_some hresult
  refine ⟨s, hs, ?_, ?_⟩
  · have hcall : w.call.attributes = w.attributes := rfl
    rw [hword, hcall, hattributes, SecureVariable.difference_writeAttributes]
  · rw [hmerged, ← htimestamp]
    exact Firmware.le_instant_mergedTimestamp _ _

namespace Session

variable {scheme : SignatureScheme} {Client : Type} [DecidableEq Client]

/-- One client plans an update, or does what it planned, which firmware may refuse. -/
inductive Step : Session scheme Client → Session scheme Client → Prop
  | plan {s : Session scheme Client} (c : Client) (w : PlannedWrite scheme)
      (seen_eq : w.seen = s.firmware) :
      Step s ⟨s.firmware, Function.update s.planned c (some w)⟩
  | set {s : Session scheme Client} (c : Client) (w : PlannedWrite scheme) (f : Firmware)
      (planned_eq : s.planned c = some w) (accepts : Firmware.Accepts scheme s.firmware w.call f) :
      Step s ⟨f, Function.update s.planned c none⟩
  | refuse {s : Session scheme Client} (c : Client) (w : PlannedWrite scheme)
      (planned_eq : s.planned c = some w)
      (refuses : ∀ f, ¬Firmware.Accepts scheme s.firmware w.call f) :
      Step s ⟨s.firmware, Function.update s.planned c none⟩

/-- A step to a session that a condition holds of. -/
def StepTo (p : Session scheme Client → Prop) (s s' : Session scheme Client) : Prop :=
  Step s s' ∧ p s'

/-- Client `a` has just planned `w` in a session and still has not written it in another one.
In between a write `w'` of client `b` to the same variable was taken, and a condition holds of
firmware ever since. -/
structure Overtaken (p : Firmware → Prop) (s s' : Session scheme Client) (a b : Client)
    (w w' : PlannedWrite scheme) : Prop where
  others : a ≠ b
  target_eq : w'.update.target = w.update.target
  planned_eq : s.planned a = some w
  seen_eq : w.seen = s.firmware
  run : ∃ t f, Relation.ReflTransGen (StepTo fun t => t.planned a = some w) s t ∧
    t.planned b = some w' ∧ Firmware.Accepts scheme t.firmware w'.call f ∧ p f ∧
    Relation.ReflTransGen (StepTo fun t => t.planned a = some w ∧ p t.firmware)
      ⟨f, Function.update t.planned b none⟩ s'

variable {s s' : Session scheme Client} {v : SecureVariable} {x : StoredVariable}

/-- A variable that is there before and after a step keeps its attributes, and its timestamp
does not go back. -/
theorem Step.succeeds (h : Step s s') (hv : v ≠ .mokList) (hx : s.firmware.stored v.id = some x)
    (hstays : s'.firmware.stored v.id ≠ none) :
    ∃ x', s'.firmware.stored v.id = some x' ∧ x'.Succeeds x := by
  cases h with
  | plan c w seen_eq => exact ⟨x, hx, .refl x⟩
  | refuse c w planned_eq refuses => exact ⟨x, hx, .refl x⟩
  | set c w f planned_eq accepts =>
    obtain ⟨x', hx'⟩ := Option.ne_none_iff_exists'.1 hstays
    refine ⟨x', hx', ?_⟩
    rcases accepts.protected_cases hv with hsame | ⟨e, -, -, henvelope, hresult⟩
    · cases hx'.symm.trans (hsame.trans hx)
      exact .refl x
    · exact henvelope.succeeds hx (hresult.symm.trans hx')

/-- A variable that is there all along keeps its attributes, and its timestamp does not go
back. -/
theorem succeeds_of_run {p : Session scheme Client → Prop} (hv : v ≠ .mokList)
    (hp : ∀ t, p t → t.firmware.stored v.id ≠ none)
    (hrun : Relation.ReflTransGen (StepTo p) s s') (hx : s.firmware.stored v.id = some x) :
    ∃ x', s'.firmware.stored v.id = some x' ∧ x'.Succeeds x := by
  induction hrun with
  | refl => exact ⟨x, hx, .refl x⟩
  | tail _ hstep ih =>
    obtain ⟨x', hx', hsucceeds⟩ := ih
    obtain ⟨x'', hx'', hsucceeds'⟩ := hstep.1.succeeds hv hx' (hp _ hstep.2)
    exact ⟨x'', hx'', hsucceeds'.trans hsucceeds⟩

/-- **A stale write is refused when the timestamps tell.**  Between the plan of a client and
its write, a write of another client to PK, KEK, db, dbx or dbt was taken.  If that has no
earlier timestamp, and the variable has been there ever since, the write of the first client
is a security violation. -/
theorem overtaken_set_refused {a b : Client} {w w' : PlannedWrite scheme}
    (hv : w.update.target ≠ .mokList)
    (h : Overtaken (fun f => f.stored w.update.target.id ≠ none) s s' a b w w')
    (hlate : w.update.timestamp.instant ≤ w'.update.timestamp.instant) :
    (Firmware.services scheme).setVariable s'.firmware w.call.name w.call.guid
      w.call.attributes w.call.data = .error .securityViolation := by
  obtain ⟨t, f, -, -, haccepts, hstays, hrun⟩ := h.run
  obtain ⟨x, hx, hattributes, htimestamp⟩ :=
    PlannedWrite.stored_of_accepts h.target_eq hv haccepts hstays
  obtain ⟨x', hx', hsucceeds⟩ := succeeds_of_run hv (fun _ => And.right) hrun hx
  obtain ⟨hword, e, hparse, he⟩ := w.envelope hv
  have hdifference : w.attributes.difference .appendWrite = w.update.target.attributes := by
    rw [hword, SecureVariable.difference_writeAttributes]
  have hreplaces : w.attributes.isAppend = false := by
    rw [hword, SecureVariable.isAppend_writeAttributes]
  have htime : w.attributes.isTimeBased = true := by
    rw [hword, SecureVariable.isTimeBased_writeAttributes,
      SecureVariable.requiresEnvelope_of_ne hv]
  have hstale : e.timestamp.instant ≤ x'.timestamp.instant := by
    rw [he]
    exact Nat.le_trans hlate (Nat.le_trans htimestamp hsucceeds.timestamp)
  exact Firmware.refuses_stale (Firmware.Call.id_ofVariable ..) htime hparse hx'
    (hsucceeds.attributes.trans (hattributes.trans hdifference.symm)) hreplaces hstale

/-- Two clients plan updates of the same variable in the same state, and the second one
writes. -/
theorem overtaken_of_accepts {p : Firmware → Prop} {a b : Client} (w w' : PlannedWrite scheme)
    {f : Firmware} (hothers : a ≠ b) (htarget : w'.update.target = w.update.target)
    (hseen : w'.seen = w.seen) (haccepts : Firmware.Accepts scheme w.seen w'.call f) (hf : p f) :
    ∃ planned, Overtaken p ⟨w.seen, Function.update (fun _ => none) a (some w)⟩ ⟨f, planned⟩
      a b w w' := by
  have hplanned : Function.update (fun _ => none) a (some w) a = some w :=
    Function.update_self ..
  have hstep : StepTo (fun t => t.planned a = some w)
      ⟨w.seen, Function.update (fun _ => none) a (some w)⟩
      ⟨w.seen, Function.update (Function.update (fun _ => none) a (some w)) b (some w')⟩ :=
    ⟨.plan b w' hseen, (Function.update_of_ne hothers _ _).trans hplanned⟩
  exact ⟨_, hothers, htarget, hplanned, rfl, _, f, .single hstep, Function.update_self ..,
    haccepts, hf, .refl⟩

/-! ## Two appends to db -/

/-- A list of one certificate. -/
def certificateList (n : UInt8) : Bytes :=
  (SignatureList.ofOwner .x509 .globalVariable [[0x30, n]]).toBytes 2

/-- Appends a certificate to db and merges it with those there. -/
def dbAppend (n day : UInt8) : Update where
  target := .db
  action := .edit (.append (certificateList n))
  mode := some .unsigned
  strategy := .local
  timestamp := Firmware.january day

/-- The call that comes of an append to `Firmware.stocked`. -/
def appendCall (n day : UInt8) : Firmware.Call :=
  Firmware.dbCall .authenticatedDatabase day (Firmware.ownerList ++ certificateList n)

/-- Firmware after an append to `Firmware.stocked`. -/
def appended (n day : UInt8) : Firmware :=
  (Firmware.stocked Firmware.ownerList).update SecureVariable.db.id
    (some ⟨⟨.authenticatedDatabase, Firmware.ownerList ++ certificateList n⟩,
      Firmware.january day⟩)

/-- An append that is later than db is taken. -/
theorem accepts_appendCall (n day : UInt8)
    (hday : (Firmware.january day).isAfter (Firmware.january 2) = true)
    (hvalid : SecureVariable.db.validatePayload (Firmware.ownerList ++ certificateList n) =
      .ok ()) :
    Firmware.Accepts .pkcs7 (Firmware.stocked Firmware.ownerList) (appendCall n day)
      (appended n day) := by
  have hstored : (Firmware.stocked Firmware.ownerList).stored SecureVariable.db.id =
      some ⟨⟨.authenticatedDatabase, Firmware.ownerList⟩, Firmware.january 2⟩ :=
    Firmware.stored_update_self _ _ _
  have hresult : Firmware.envelopeResult
      (some ⟨⟨.authenticatedDatabase, Firmware.ownerList⟩, Firmware.january 2⟩)
      .authenticatedDatabase
      ⟨Firmware.january day, [], Firmware.ownerList ++ certificateList n⟩ =
        some ⟨⟨.authenticatedDatabase, Firmware.ownerList ++ certificateList n⟩,
          Firmware.january day⟩ := by
    have htimestamp : (Firmware.january 2).later (Firmware.january day) = Firmware.january day :=
      if_pos hday
    rw [Firmware.envelopeResult, Firmware.mergedTimestamp, htimestamp]
    rfl
  rw [appended, ← hresult, ← hstored]
  refine Firmware.accepts_dbCall rfl (by decide) ?_ ?_
  · rw [hstored]
    rintro s ⟨⟩
    exact Firmware.checkReplacement_eq_ok.2 ⟨by decide, fun _ => hday⟩
  · rw [hstored]
    exact hvalid

/-- The earlier of two appends to the same contents. -/
def earlierAppend : PlannedWrite .pkcs7 where
  seen := Firmware.stocked Firmware.ownerList
  update := dbAppend 2 3
  edit := .append (certificateList 2)
  attributes := .authenticatedDatabase
  data := (appendCall 2 3).data
  action_eq := rfl
  rewrites := rfl
  plan_eq := by decide +kernel

/-- The later of two appends to the same contents. -/
def laterAppend : PlannedWrite .pkcs7 where
  seen := Firmware.stocked Firmware.ownerList
  update := dbAppend 3 4
  edit := .append (certificateList 3)
  attributes := .authenticatedDatabase
  data := (appendCall 3 4).data
  action_eq := rfl
  rewrites := rfl
  plan_eq := by decide +kernel

theorem accepts_earlierAppend :
    Firmware.Accepts .pkcs7 (Firmware.stocked Firmware.ownerList) earlierAppend.call
      (appended 2 3) :=
  accepts_appendCall 2 3 (by decide) (by decide +kernel)

theorem accepts_laterAppend :
    Firmware.Accepts .pkcs7 (Firmware.stocked Firmware.ownerList) laterAppend.call
      (appended 3 4) :=
  accepts_appendCall 3 4 (by decide) (by decide +kernel)

theorem laterAppend_overtakes :
    ∃ s s' : Session .pkcs7 (Fin 2),
      Overtaken (fun f => f.stored earlierAppend.update.target.id ≠ none) s s' 0 1
        earlierAppend laterAppend ∧
      (Firmware.services .pkcs7).setVariable s'.firmware earlierAppend.call.name
        earlierAppend.call.guid earlierAppend.call.attributes earlierAppend.call.data =
          .error .securityViolation := by
  have hstays : (appended 3 4).stored earlierAppend.update.target.id ≠ none := by decide
  have hothers : (0 : Fin 2) ≠ 1 := by decide
  obtain ⟨planned, hovertaken⟩ := overtaken_of_accepts
    (p := fun f => f.stored earlierAppend.update.target.id ≠ none) earlierAppend laterAppend
    hothers rfl rfl accepts_laterAppend hstays
  exact ⟨_, _, hovertaken, overtaken_set_refused (by decide) hovertaken (by decide)⟩

theorem not_overtaken_set_refused :
    ¬∀ (f : Firmware) (s s' : Session .pkcs7 (Fin 2)) (w w' : PlannedWrite .pkcs7),
      Firmware.Reachable .pkcs7 f → Relation.ReflTransGen Step ⟨f, fun _ => none⟩ s →
      Overtaken (fun _ => True) s s' 0 1 w w' →
      ∀ g, ¬Firmware.Accepts .pkcs7 s'.firmware w.call g := by
  intro h
  have hreachable : Firmware.Reachable .pkcs7 (Firmware.stocked Firmware.ownerList) :=
    .single ⟨_, trivial, Firmware.fresh_accepts_dbCall .pkcs7⟩
  have hothers : (0 : Fin 2) ≠ 1 := by decide
  obtain ⟨planned, hovertaken⟩ := overtaken_of_accepts (p := fun _ => True) laterAppend
    earlierAppend hothers rfl rfl accepts_earlierAppend trivial
  -- the later append was computed without the earlier one, and takes its place
  have hwins : Firmware.Accepts .pkcs7 (appended 2 3) laterAppend.call (appended 3 4) :=
    accepts_earlierAppend.overwrite (v := .db) (by decide) (by decide) accepts_laterAppend
      (Firmware.Call.id_ofVariable ..) (Firmware.Call.id_ofVariable ..) rfl (by decide)
      (Firmware.Call.parse_unsigned ..) (Firmware.Call.parse_unsigned ..) (by decide)
  exact h _ _ _ _ _ hreachable (.single (.plan 0 laterAppend rfl)) hovertaken _ hwins

end Session

end SecureBoot
