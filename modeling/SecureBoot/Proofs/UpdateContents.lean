import SecureBoot.Proofs.Authorization
import SecureBoot.Proofs.Envelopes
import SecureBoot.Proofs.FirmwareCalls
import SecureBoot.Proofs.InPlaceWrites

/-!
# What an update does to the contents of variables

An update plans one write from what it reads and does it.  An edit becomes a change in
one of a few ways (`Update.Changes`), and its write is that of the change
(`Update.plan_edit_eq_write`).  `Update.plan_eq_write` says what the planned write
carries: on top of the current contents it makes the contents that the action asks for
(`UpdateAction.Yields`), no matter who merges them and whether they are wrapped.  With
the stores keeping contents and their writes atomic in place, every update of firmware or
of a clean flash store has its effect and no other, and leaves no part of a write where it
fails (`Update.apply_hasEffect`).
-/

namespace SecureBoot

/-! ## What an action asks for -/

/-- The contents that an action on a variable makes of those before. -/
def UpdateAction.Yields (v : SecureVariable) (before after : Bytes) : UpdateAction → Prop
  | .edit (.append lists) => after = before ++ lists
  | .edit (.replace lists) => after = lists
  | .edit (.enrollHash type digest owner) =>
    ∃ list, (SignatureList.ofOwner type owner [digest]).encode = .ok list ∧
      after = if v = .pk then list else before ++ list
  | .edit (.enrollCertificate der owner) =>
    ∃ list, (SignatureList.ofOwner .x509 owner [der]).encode = .ok list ∧
      after = if v = .pk then list else before ++ list
  | .edit (.deleteEntry place) =>
    ∃ db db', SignatureDatabase.ofBytes before = .ok db ∧
      db.deleteEntry place.list place.entry = .ok db' ∧ after = db'.bytes
  | .edit (.deleteList index) =>
    ∃ db db', SignatureDatabase.ofBytes before = .ok db ∧ db.deleteList index = .ok db' ∧
      after = db'.bytes
  | .preSigned envelope append =>
    ∃ e, Envelope.parse envelope = .ok e ∧
      after = if append then before ++ e.payload else e.payload

namespace PayloadChange

/-- The contents that a change makes of those before. -/
def result (before : Bytes) : PayloadChange → Bytes
  | .append lists => before ++ lists
  | .replace lists => lists

/-- The store is left to append. -/
def isAppend : PayloadChange → Bool
  | .append _ => true
  | .replace _ => false

/-- The lists that are written for a change. -/
def lists : PayloadChange → Bytes
  | .append lists | .replace lists => lists

theorem result_eq (before : Bytes) (c : PayloadChange) :
    c.result before = if c.isAppend then before ++ c.lists else c.lists := by
  cases c with
  | append lists => rfl
  | replace lists => rfl

end PayloadChange

namespace DatabaseEdit

/-- The list of the entry that the edit enrolls. -/
def enrolled? : DatabaseEdit → Option (Except ListError Bytes)
  | .enrollHash type digest owner => some (SignatureList.encodeHashes type owner [digest])
  | .enrollCertificate der owner => some (SignatureList.encodeCertificate owner der)
  | _ => none

/-- The edit adds these lists to those that are there. -/
def Adds (lists : Bytes) (edit : DatabaseEdit) : Prop :=
  edit = .append lists ∨ edit.enrolled? = some (.ok lists)

/-- What the edit does to a database that it deletes from. -/
def deletion? : DatabaseEdit → Option (SignatureDatabase → Except DatabaseError SignatureDatabase)
  | .deleteEntry place => some fun db => db.deleteEntry place.list place.entry
  | .deleteList index => some fun db => db.deleteList index
  | _ => none

end DatabaseEdit

/-- To append lists to a database is to append their bytes. -/
theorem SignatureDatabase.bytes_of_append {db db' : SignatureDatabase} {new : Bytes}
    (h : db.append new = .ok db') : db'.bytes = db.bytes ++ new := by
  simp only [append, bind_eq_ok, ofBytes_eq_ok] at h
  obtain ⟨-, -, hbytes⟩ := h
  exact hbytes

namespace Update

variable {u : Update} {read : VariableReader} {before : Bytes}

/-! ## Reading -/

theorem decode_eq_ok {v : SecureVariable} {bs : Bytes} {db : SignatureDatabase} :
    decode v bs = .ok db ↔ db.bytes = bs := by
  rw [decode, mapError_eq_ok, SignatureDatabase.ofBytes_eq_ok]

/-- The current database is the one with the contents as its bytes. -/
theorem current_eq_ok {v : SecureVariable} {db : SignatureDatabase} :
    current read v = .ok db ↔ read.contents v = .ok db.bytes := by
  rw [current, VariableReader.contents]
  cases read.optional v.id with
  | error e => exact iff_of_false nofun nofun
  | ok stored =>
    cases stored with
    | none =>
      show Except.ok .empty = .ok db ↔ Except.ok [] = .ok db.bytes
      rw [Except.ok.injEq, Except.ok.injEq]
      constructor
      · rintro rfl
        rfl
      · intro hnil
        obtain ⟨bytes, valid⟩ := db
        cases hnil
        rfl
    | some stored =>
      show decode v stored.data = .ok db ↔ Except.ok stored.data = .ok db.bytes
      rw [decode_eq_ok, Except.ok.injEq]
      exact eq_comm

theorem bytes_of_current {v : SecureVariable} {db : SignatureDatabase}
    (hbefore : read.contents v = .ok before) (h : current read v = .ok db) :
    db.bytes = before := by
  rw [current_eq_ok, hbefore] at h
  exact (Except.ok.inj h).symm

theorem ofBytes_existing {v : SecureVariable} {db : SignatureDatabase}
    (hbefore : read.contents v = .ok before) (h : existing read v = .ok db) :
    SignatureDatabase.ofBytes before = .ok db := by
  simp only [existing, bind_eq_ok, mapError_eq_ok] at h
  obtain ⟨x, hread, h⟩ := h
  simp only [VariableReader.contents, VariableReader.optional, hread, map_eq_ok] at hbefore
  obtain ⟨stored, hstored, rfl⟩ := hbefore
  cases hstored
  exact SignatureDatabase.ofBytes_eq_ok.2 (decode_eq_ok.1 h)

/-! ## Changes -/

/-- The ways in which an edit becomes a change: new lists are left to the store or merged with
the current ones, PK gets the list of an enrollment, and lists are replaced by others or by what
a deletion leaves of them. -/
inductive Changes (u : Update) (read : VariableReader) (edit : DatabaseEdit) :
    PayloadChange → Prop
  | left {lists : Bytes} {found : List ListView} (adds : edit.Adds lists)
      (ne_pk : u.target ≠ .pk) (strategy_eq : u.strategy = .byStore)
      (parse_eq : parseDatabase lists = .ok found) : Changes u read edit (.append lists)
  | merged {lists : Bytes} {db db' : SignatureDatabase} (adds : edit.Adds lists)
      (ne_pk : u.target ≠ .pk) (strategy_eq : u.strategy = .local)
      (current_eq : current read u.target = .ok db) (append_eq : db.append lists = .ok db') :
      Changes u read edit (.replace db'.bytes)
  | enrolled {list : Bytes} (enrolls : edit.enrolled? = some (.ok list)) (eq_pk : u.target = .pk) :
      Changes u read edit (.replace list)
  | replaced {lists : Bytes} (edit_eq : edit = .replace lists) :
      Changes u read edit (.replace lists)
  | deleted {delete : SignatureDatabase → Except DatabaseError SignatureDatabase}
      {db db' : SignatureDatabase} (deletion_eq : edit.deletion? = some delete)
      (existing_eq : existing read u.target = .ok db) (delete_eq : delete db = .ok db') :
      Changes u read edit (.replace db'.bytes)

section Changes

variable {edit : DatabaseEdit} {lists : Bytes} {c : PayloadChange}

theorem changes_of_appendChange (hadds : edit.Adds lists)
    (h : u.appendChange read lists = .ok c) : u.Changes read edit c := by
  unfold appendChange at h
  simp only [guard_eq_ok, bind_eq_ok, mapError_eq_ok] at h
  obtain ⟨hpk, found, hfound, h⟩ := h
  cases hstrategy : u.strategy with
  | byStore =>
    rw [hstrategy] at h
    cases h
    exact .left hadds hpk hstrategy hfound
  | «local» =>
    rw [hstrategy] at h
    simp only [bind_eq_ok, mapError_eq_ok, pure_eq_ok] at h
    obtain ⟨db, hcurrent, db', happend, rfl⟩ := h
    exact .merged hadds hpk hstrategy hcurrent happend

/-- An enrollment adds the list of its entry, where the entry was not found. -/
theorem changes_of_enrollment {found : Option EntryLocation} {encoded : Except ListError Bytes}
    (henrolls : edit.enrolled? = some encoded)
    (h : (match found with
      | some place => return .inl place
      | none => do
        let list ← encoded.mapError UpdateError.list
        .inr <$> u.enrollChange read list : Except UpdateError (EntryLocation ⊕ PayloadChange)) =
          .ok (.inr c)) :
    u.Changes read edit c := by
  cases found with
  | some place => simp [pure_eq_ok] at h
  | none =>
    simp only [bind_eq_ok, mapError_eq_ok, map_eq_ok, Sum.inr.injEq] at h
    obtain ⟨list, rfl, _, hchange, rfl⟩ := h
    unfold enrollChange at hchange
    by_cases hpk : u.target = .pk
    · rw [if_pos hpk] at hchange
      cases hchange
      exact .enrolled henrolls hpk
    · rw [if_neg hpk] at hchange
      exact changes_of_appendChange (.inr henrolls) hchange

/-- A deletion replaces the lists that are there with those that are left. -/
theorem changes_of_deletion {delete : SignatureDatabase → Except DatabaseError SignatureDatabase}
    (hdeletion : edit.deletion? = some delete)
    (h : (do
      let db ← (delete (← existing read u.target)).mapError UpdateError.database
      return .inr (.replace db.bytes) : Except UpdateError (EntryLocation ⊕ PayloadChange)) =
        .ok (.inr c)) :
    u.Changes read edit c := by
  simp only [bind_eq_ok, mapError_eq_ok, pure_eq_ok, Sum.inr.injEq] at h
  obtain ⟨db, hexisting, db', hdelete, rfl⟩ := h
  exact .deleted hdeletion hexisting hdelete

/-- **Every change comes about in one of these ways.** -/
theorem changes_of_change (h : u.change read edit = .ok (.inr c)) : u.Changes read edit c := by
  cases edit with
  | append lists =>
    simp only [change, map_eq_ok, Sum.inr.injEq] at h
    obtain ⟨_, hchange, rfl⟩ := h
    exact changes_of_appendChange (.inl rfl) hchange
  | replace lists =>
    cases h
    exact .replaced rfl
  | enrollHash type digest owner =>
    obtain ⟨db, -, h⟩ := bind_eq_ok.1 h
    exact changes_of_enrollment rfl h
  | enrollCertificate der owner =>
    obtain ⟨db, -, h⟩ := bind_eq_ok.1 h
    exact changes_of_enrollment rfl h
  | deleteEntry place => exact changes_of_deletion rfl h
  | deleteList index => exact changes_of_deletion rfl h

end Changes

end Update

namespace DatabaseEdit

variable {edit : DatabaseEdit} {v : SecureVariable} {before lists : Bytes}

/-- The list of an enrollment is all that PK has, and is appended to other variables. -/
theorem yields_of_enrolled (h : edit.enrolled? = some (.ok lists)) (v : SecureVariable)
    (before : Bytes) :
    (UpdateAction.edit edit).Yields v before (if v = .pk then lists else before ++ lists) := by
  cases edit with
  | enrollHash type digest owner => exact ⟨lists, Option.some.inj h, rfl⟩
  | enrollCertificate der owner => exact ⟨lists, Option.some.inj h, rfl⟩
  | _ => cases h

/-- Lists are appended to the contents, whoever does it. -/
theorem Adds.yields (h : edit.Adds lists) (hpk : v ≠ .pk) :
    (UpdateAction.edit edit).Yields v before (before ++ lists) := by
  rcases h with rfl | henrolls
  · rfl
  · have hyields := yields_of_enrolled henrolls v before
    rwa [if_neg hpk] at hyields

end DatabaseEdit

namespace Update

variable {u : Update} {read : VariableReader} {before : Bytes}

/-- **A change makes what its edit asks for.** -/
theorem Changes.yields {edit : DatabaseEdit} {c : PayloadChange} (h : u.Changes read edit c)
    (hbefore : read.contents u.target = .ok before) :
    (UpdateAction.edit edit).Yields u.target before (c.result before) := by
  cases h with
  | left adds ne_pk strategy_eq parse_eq => exact adds.yields ne_pk
  | merged adds ne_pk strategy_eq current_eq append_eq =>
    rw [PayloadChange.result, SignatureDatabase.bytes_of_append append_eq,
      bytes_of_current hbefore current_eq]
    exact adds.yields ne_pk
  | enrolled enrolls eq_pk =>
    have hyields := DatabaseEdit.yields_of_enrolled enrolls u.target before
    rwa [if_pos eq_pk] at hyields
  | replaced edit_eq =>
    rw [edit_eq]
    rfl
  | deleted deletion_eq existing_eq delete_eq =>
    have hdb := ofBytes_existing hbefore existing_eq
    cases edit with
    | deleteEntry place =>
      cases deletion_eq
      exact ⟨_, _, hdb, delete_eq, rfl⟩
    | deleteList index =>
      cases deletion_eq
      exact ⟨_, _, hdb, delete_eq, rfl⟩
    | _ => cases deletion_eq

/-! ## Plans -/

/-- What is planned for a payload that needs an envelope: the platform takes writes that
are authenticated like this, and the data are the envelope that is built. -/
theorem planPayload_eq_ok {a : Attributes} {payload : Bytes} {plan : UpdatePlan}
    (henvelope : u.target.requiresEnvelope = true) :
    u.planPayload read a payload = .ok plan ↔
      ∃ mode e data, u.mode = some mode ∧ authorize u.target read mode = .ok () ∧
        Envelope.build u.target.name u.target.guid a payload mode u.timestamp = .ok e ∧
        e.encode = .ok data ∧ plan = .write a data := by
  unfold planPayload
  cases hmode : u.mode with
  | none => simp [henvelope, throw_eq_ok]
  | some mode =>
    simp only [henvelope, Bool.not_true, Bool.false_eq_true, if_false, bind_eq_ok,
      mapError_eq_ok, pure_eq_ok, Option.some.injEq]
    constructor
    · rintro ⟨⟨⟩, hauthorized, e, hbuild, data, hencode, rfl⟩
      exact ⟨mode, e, data, rfl, hauthorized, hbuild, hencode, rfl⟩
    · rintro ⟨_, e, data, rfl, hauthorized, hbuild, hencode, rfl⟩
      exact ⟨(), hauthorized, e, hbuild, data, hencode, rfl⟩

/-- What is planned for a payload carries it. -/
theorem carries_of_planPayload {a : Attributes} {payload : Bytes} {plan : UpdatePlan}
    (h : u.planPayload read a payload = .ok plan) :
    ∃ data, plan = .write a data ∧ u.target.Carries data payload := by
  by_cases henvelope : u.target.requiresEnvelope = true
  · obtain ⟨mode, e, data, -, -, hbuild, hencode, rfl⟩ := (planPayload_eq_ok henvelope).1 h
    obtain ⟨-, -, he⟩ := Envelope.build_eq_ok.1 hbuild
    refine ⟨data, rfl, ?_⟩
    rw [SecureVariable.Carries, if_pos henvelope]
    exact ⟨e, Envelope.parse_of_encode hencode, congrArg Envelope.payload he⟩
  · unfold planPayload at h
    simp only [henvelope, Bool.not_false, if_true, guard_eq_ok, pure_eq_ok] at h
    refine ⟨payload, h.2.symm, ?_⟩
    rw [SecureVariable.Carries, if_neg henvelope]

/-- What is planned for an envelope that was made before: its payload is checked like one
that is wrapped here, and it is written as it is. -/
theorem planPreSigned_eq_ok {v : SecureVariable} {envelope : Bytes} {append : Bool}
    {plan : UpdatePlan} :
    planPreSigned v read envelope append = .ok plan ↔
      v.requiresEnvelope = true ∧ ∃ e, Envelope.parse envelope = .ok e ∧
        (if append then v ≠ .pk ∧ ∃ found, parseDatabase e.payload = .ok found
          else v.validatePayload e.payload = .ok ()) ∧
        (e.isUnsigned = true → authorize v read .unsigned = .ok ()) ∧
        plan = .write (writeAttributes v append) envelope := by
  simp only [planPreSigned, guard_eq_ok, bind_eq_ok, mapError_eq_ok, Bool.not_eq_true',
    Bool.not_eq_false]
  refine and_congr_right fun _ => exists_congr fun e => and_congr_right fun _ => ?_
  cases append with
  | true =>
    simp only [if_true, guard_eq_ok, bind_eq_ok, check_eq_ok, pure_eq_ok, mapError_eq_ok,
      exists_and_right, eq_comm (a := plan), and_assoc, ne_eq]
  | false =>
    simp only [Bool.false_eq_true, if_false, seq_eq_ok, check_eq_ok, pure_eq_ok, mapError_eq_ok,
      eq_comm (a := plan)]

/-- An envelope that was made before is written as it is. -/
theorem parse_of_planPreSigned {v : SecureVariable} {envelope : Bytes} {append : Bool}
    {plan : UpdatePlan} (h : planPreSigned v read envelope append = .ok plan) :
    plan = .write (writeAttributes v append) envelope ∧ v.requiresEnvelope = true ∧
      ∃ e, Envelope.parse envelope = .ok e := by
  obtain ⟨henvelope, e, hparse, -, -, hplan⟩ := planPreSigned_eq_ok.1 h
  exact ⟨hplan, henvelope, e, hparse⟩

/-- **The write of an edit is that of a change**: the lists of the change are planned as the
payload, with the flag of an append where the store appends them, and are valid for the variable
on their own where it does not. -/
theorem plan_edit_eq_write {edit : DatabaseEdit} {a : Attributes} {data : Bytes}
    (hedit : u.action = .edit edit) (h : u.plan read = .ok (.write a data)) :
    ∃ c, u.Changes read edit c ∧ a = writeAttributes u.target c.isAppend ∧
      (c.isAppend = false → u.target.validatePayload c.lists = .ok ()) ∧
      u.planPayload read a c.lists = .ok (.write a data) ∧ u.target.Carries data c.lists := by
  unfold plan at h
  simp only [hedit, bind_eq_ok] at h
  obtain ⟨place | change, hchange, h⟩ := h
  · cases h
  · have hchanges := changes_of_change hchange
    cases change with
    | append lists =>
      obtain ⟨_, hwrite, hcarries⟩ := carries_of_planPayload h
      cases hwrite
      exact ⟨.append lists, hchanges, rfl, nofun, h, hcarries⟩
    | replace lists =>
      simp only [seq_eq_ok, mapError_eq_ok] at h
      obtain ⟨hvalid, h⟩ := h
      obtain ⟨_, hwrite, hcarries⟩ := carries_of_planPayload h
      cases hwrite
      exact ⟨.replace lists, hchanges, rfl, fun _ => hvalid, h, hcarries⟩

/-- The write of an envelope that was made before carries its payload. -/
theorem plan_preSigned_eq_write {envelope : Bytes} {append : Bool} {a : Attributes} {data : Bytes}
    (haction : u.action = .preSigned envelope append) (h : u.plan read = .ok (.write a data)) :
    ∃ e, Envelope.parse envelope = .ok e ∧ a = writeAttributes u.target append ∧
      u.target.Carries data e.payload := by
  unfold plan at h
  simp only [haction] at h
  obtain ⟨hwrite, henvelope, e, hparse⟩ := parse_of_planPreSigned h
  cases hwrite
  refine ⟨e, hparse, rfl, ?_⟩
  rw [SecureVariable.Carries, if_pos henvelope]
  exact ⟨e, hparse, rfl⟩

/-- **A planned write makes of the contents what the action asks for.** -/
theorem plan_eq_write {a : Attributes} {data : Bytes}
    (hbefore : read.contents u.target = .ok before) (h : u.plan read = .ok (.write a data)) :
    ∃ append payload, a = writeAttributes u.target append ∧ u.target.Carries data payload ∧
      u.action.Yields u.target before (if append then before ++ payload else payload) := by
  cases haction : u.action with
  | preSigned envelope append =>
    obtain ⟨e, hparse, hattributes, hcarries⟩ := plan_preSigned_eq_write haction h
    exact ⟨append, e.payload, hattributes, hcarries, e, hparse, rfl⟩
  | edit edit =>
    obtain ⟨c, hchanges, hattributes, -, -, hcarries⟩ := plan_edit_eq_write haction h
    have hyields := hchanges.yields hbefore
    rw [PayloadChange.result_eq] at hyields
    exact ⟨c.isAppend, c.lists, hattributes, hcarries, hyields⟩

/-! ## The main result -/

/-- A write that is done is the one that was planned. -/
theorem apply_eq_written {σ : Type} {store : VariableStore σ} {s s' : σ} {a : Attributes}
    {size : Nat} (h : u.apply store s = .ok (.written a size, s')) :
    ∃ data, u.plan (store.get s) = .ok (.write a data) ∧
      store.set s u.target.id a data = .ok s' := by
  simp only [apply, bind_eq_ok] at h
  obtain ⟨plan, hplan, h⟩ := h
  cases plan with
  | alreadyPresent place => cases h
  | write a data =>
    simp only [bind_eq_ok, mapError_eq_ok, pure_eq_ok] at h
    obtain ⟨s'', hset, h⟩ := h
    cases h
    exact ⟨data, hplan, hset⟩

/-- An update that finds its entry present leaves the store as it is. -/
theorem eq_of_apply_eq_alreadyPresent {σ : Type} {store : VariableStore σ} {s s' : σ}
    {place : EntryLocation} (h : u.apply store s = .ok (.alreadyPresent place, s')) : s' = s := by
  simp only [apply, bind_eq_ok] at h
  obtain ⟨plan, -, h⟩ := h
  cases plan with
  | alreadyPresent place =>
    cases h
    rfl
  | write a data =>
    obtain ⟨s'', -, h⟩ := bind_eq_ok.1 h
    cases h

/-- An update that writes does to the contents what its action asks for, and spares the other
registered variables. -/
theorem effect_of_written {σ : Type} {store : VariableStore σ} {s s' : σ} {a : Attributes}
    {size : Nat} (hstore : store.KeepsContents s)
    (h : u.apply store s = .ok (.written a size, s')) :
    (∃ before after, (store.get s).contents u.target = .ok before ∧
      (store.get s').contents u.target = .ok after ∧ u.action.Yields u.target before after) ∧
      ∀ w, w ≠ u.target → store.get s' w.id = store.get s w.id := by
  obtain ⟨data, hplan, hset⟩ := apply_eq_written h
  obtain ⟨before, hbefore⟩ := hstore.readable u.target
  obtain ⟨append, payload, rfl, hcarries, hyields⟩ := plan_eq_write hbefore hplan
  refine ⟨⟨before, _, hbefore, hstore.written hcarries hbefore hset, hyields⟩, ?_⟩
  intro w hne
  exact hstore.others hne hset

/-- What an update does to a store that it changes where it lies.  It answers what `apply` does.
If it writes, its variable has the contents that the action asks for and the other registered
variables read as before; if it finds its entry present or fails, it leaves the store as it was,
and no part of a write. -/
def HasEffect {σ : Type} (u : Update) (store : InPlaceStore σ) (s : σ) : Prop :=
  match (u.applyInPlace store).run s with
  | .ok (.written a size) s' =>
    u.apply store.toVariableStore s = .ok (.written a size, s') ∧
      (∃ before after, (store.get s).contents u.target = .ok before ∧
        (store.get s').contents u.target = .ok after ∧ u.action.Yields u.target before after) ∧
      ∀ w, w ≠ u.target → store.get s' w.id = store.get s w.id
  | .ok (.alreadyPresent place) s' =>
    u.apply store.toVariableStore s = .ok (.alreadyPresent place, s') ∧ s' = s
  | .error e s' => u.apply store.toVariableStore s = .error e ∧ s' = s

/-- An update has its effect on every store that keeps contents. -/
theorem hasEffect_of_keepsContents {σ : Type} {store : InPlaceStore σ} {s : σ} (u : Update)
    (hstore : store.KeepsContents s) : u.HasEffect store s := by
  unfold HasEffect
  cases hrun : (u.applyInPlace store).run s with
  | error e s' => exact run_applyInPlace_eq_error.1 hrun
  | ok outcome s' =>
    have happly := run_applyInPlace_eq_ok.1 hrun
    cases outcome with
    | alreadyPresent place => exact ⟨happly, eq_of_apply_eq_alreadyPresent happly⟩
    | written a size => exact ⟨happly, effect_of_written hstore happly⟩

/-- **Every update has its effect and no other**, on firmware in every state and on
every flash store whose walk succeeds and whose free space is erased, both followed through
every change of the table or the image. -/
theorem apply_hasEffect :
    (∀ (scheme : SignatureScheme) (f : Firmware) (u : Update),
      u.HasEffect (Firmware.InPlace.store scheme) f) ∧
    ∀ s : FlashStore, s.IsClean → ∀ u : Update, u.HasEffect FlashStore.InPlace.store s := by
  constructor
  · intro scheme f u
    exact u.hasEffect_of_keepsContents (Firmware.store_keepsContents scheme f)
  · intro s hclean u
    exact u.hasEffect_of_keepsContents (FlashStore.store_keepsContents hclean)

/-- Enrolls a hash in db and merges it with the lists there. -/
def hashEnrollment : Update where
  target := .db
  action := .edit (.enrollHash .sha256 (List.replicate 32 7) .shimLock)
  mode := some .unsigned
  strategy := .local
  timestamp := .zero

theorem hashEnrollment_writes :
    ∃ s s' : FlashStore, FlashStore.blank 512 = .ok s ∧
      hashEnrollment.apply FlashStore.store s =
        .ok (.written .authenticatedDatabase 116, s') ∧
      (hashEnrollment.applyInPlace FlashStore.InPlace.store).run s =
        .ok (.written .authenticatedDatabase 116) s' := by
  have hrun : ((FlashStore.blank 512).toOption.bind fun s =>
      (hashEnrollment.apply FlashStore.store s).toOption.map (·.1)) =
        some (.written .authenticatedDatabase 116) := by decide +kernel
  obtain ⟨s, hblank, happly⟩ := Option.bind_eq_some_iff.1 hrun
  obtain ⟨⟨outcome, s'⟩, happly, rfl⟩ := Option.map_eq_some_iff.1 happly
  have happly := toOption_eq_some.1 happly
  exact ⟨s, s', toOption_eq_some.1 hblank, happly, run_applyInPlace_eq_ok.2 happly⟩

theorem blank_takes_hashEnrollment :
    ∃ s s' : FlashStore, FlashStore.blank 512 = .ok s ∧ s.IsClean ∧
      ∃ a size, hashEnrollment.apply FlashStore.store s = .ok (.written a size, s') ∧
        (hashEnrollment.applyInPlace FlashStore.InPlace.store).run s =
          .ok (.written a size) s' ∧
        ∃ before after, (FlashStore.store.get s).contents .db = .ok before ∧
          (FlashStore.store.get s').contents .db = .ok after ∧
          hashEnrollment.action.Yields .db before after := by
  obtain ⟨s, s', hblank, happly, hrun⟩ := hashEnrollment_writes
  have hclean := FlashStore.isClean_of_blank hblank
  have heffect := apply_hasEffect.2 s hclean hashEnrollment
  unfold HasEffect at heffect
  rw [hrun] at heffect
  exact ⟨s, s', hblank, hclean, _, _, happly, hrun, heffect.2.1⟩

end Update

end SecureBoot
