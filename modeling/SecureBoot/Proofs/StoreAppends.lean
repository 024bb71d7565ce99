import SecureBoot.Proofs.LostUpdates

/-!
# Appends of many clients

An append that is left to the store carries its own lists and nothing that was read.  So it
does not matter how old the reads behind it are, and firmware merges the appends of any number
of clients in the order in which it takes them.

* `Update.plan_of_appends` — what is planned for an append that is left to the store;
* `AppendSession.Step` — clients that plan appends to one variable and write what they planned,
  in any order, while other variables may change;
* `AppendSession.contents_of_run` — no lists get lost, and none are there twice.
-/

namespace SecureBoot

/-! ## Appends that are left to the store -/

namespace DatabaseEdit

variable {edit : DatabaseEdit} {lists lists' : Bytes}

/-- An edit that adds lists adds no others. -/
theorem Adds.unique (h : edit.Adds lists) (h' : edit.Adds lists') : lists' = lists := by
  rcases h with rfl | h
  · rcases h' with h' | h'
    · cases h'
      rfl
    · cases h'
  · rcases h' with rfl | h'
    · cases h
    · rw [h] at h'
      cases h'
      rfl

/-- An edit that adds lists deletes none. -/
theorem Adds.deletion?_eq_none (h : edit.Adds lists) : edit.deletion? = none := by
  rcases h with rfl | h
  · rfl
  · cases edit with
    | deleteEntry _ => cases h
    | deleteList _ => cases h
    | _ => rfl

end DatabaseEdit

/-- The action adds these lists to a variable, whatever is there.  Nothing is added to PK. -/
def UpdateAction.Appends (v : SecureVariable) (lists : Bytes) : UpdateAction → Prop
  | .edit e => v ≠ .pk ∧ e.Adds lists
  | .preSigned envelope append =>
    append = true ∧ ∃ e, Envelope.parse envelope = .ok e ∧ lists = e.payload

namespace Update

variable {u : Update} {read : VariableReader} {lists : Bytes} {a : Attributes} {data : Bytes}

/-- An edit that adds lists leaves them to the store, whatever was read. -/
theorem Changes.eq_append {edit : DatabaseEdit} {c : PayloadChange} (h : u.Changes read edit c)
    (hpk : u.target ≠ .pk) (hadds : edit.Adds lists) (hstore : u.strategy = .byStore) :
    c = .append lists := by
  cases h with
  | left adds ne_pk strategy_eq parse_eq => rw [hadds.unique adds]
  | merged adds ne_pk strategy_eq current_eq append_eq =>
    rw [hstore] at strategy_eq
    cases strategy_eq
  | enrolled enrolls eq_pk => exact absurd eq_pk hpk
  | replaced edit_eq =>
    rw [edit_eq] at hadds
    rcases hadds with hadds | hadds
    · cases hadds
    · cases hadds
  | deleted deletion_eq existing_eq delete_eq =>
    rw [hadds.deletion?_eq_none] at deletion_eq
    cases deletion_eq

/-- **What is planned for an append that is left to the store** is a write with the flag of an
append that carries its own lists, whatever was read. -/
theorem plan_of_appends {v : SecureVariable} (htarget : u.target = v)
    (happends : u.action.Appends v lists) (hstore : u.strategy = .byStore)
    (h : u.plan read = .ok (.write a data)) :
    a = writeAttributes v true ∧ v.Carries data lists := by
  subst htarget
  cases haction : u.action with
  | edit edit =>
    rw [haction] at happends
    obtain ⟨c, hchanges, hattributes, -, -, hcarries⟩ := plan_edit_eq_write haction h
    obtain rfl := hchanges.eq_append happends.1 happends.2 hstore
    exact ⟨hattributes, hcarries⟩
  | preSigned envelope append =>
    rw [haction] at happends
    obtain ⟨rfl, e, hparse, rfl⟩ := happends
    obtain ⟨e', hparse', hattributes, hcarries⟩ := plan_preSigned_eq_write haction h
    cases hparse.symm.trans hparse'
    exact ⟨hattributes, hcarries⟩

end Update

/-- What firmware takes as a call of its services, the store over it writes. -/
theorem Firmware.Accepts.set_eq_ok {scheme : SignatureScheme} {f f' : Firmware} {c : Call}
    {v : SecureVariable} (h : Accepts scheme f c f') (hid : c.id = v.id) :
    (store scheme).set f v.id c.attributes c.data = .ok f' := by
  have hset : f.setVariable scheme c.id c.attributes c.data = .ok f' := h
  rw [hid] at hset
  exact store_set_eq_ok.2 hset

/-! ## Sessions -/

/-- A write of lists that was planned for firmware in the state it had then, as an append to a
variable that is left to the store. -/
structure PlannedAppend (scheme : SignatureScheme) (v : SecureVariable) where
  seen : Firmware
  update : Update
  lists : Bytes
  attributes : Attributes
  data : Bytes
  target_eq : update.target = v
  strategy_eq : update.strategy = .byStore
  appends : update.action.Appends v lists
  plan_eq : update.plan ((Firmware.store scheme).get seen) = .ok (.write attributes data)

/-- A planned append that is taken adds its lists to what is there by then. -/
theorem PlannedAppend.contents_of_set {scheme : SignatureScheme} {v : SecureVariable}
    {f f' : Firmware} {before : Bytes} (w : PlannedAppend scheme v)
    (hset : (Firmware.store scheme).set f v.id w.attributes w.data = .ok f')
    (hbefore : ((Firmware.store scheme).get f).contents v = .ok before) :
    ((Firmware.store scheme).get f').contents v = .ok (before ++ w.lists) := by
  obtain ⟨hattributes, hcarries⟩ :=
    Update.plan_of_appends w.target_eq w.appends w.strategy_eq w.plan_eq
  rw [hattributes] at hset
  exact (Firmware.store_keepsContents scheme f).written hcarries hbefore hset

/-- Firmware, and the append to a variable that each client planned and has not written yet. -/
structure AppendSession (scheme : SignatureScheme) (v : SecureVariable) (Client : Type) where
  firmware : Firmware
  planned : Client → Option (PlannedAppend scheme v)

namespace AppendSession

variable {scheme : SignatureScheme} {v : SecureVariable} {Client : Type} [DecidableEq Client]

/-- One client plans an append, or does what it planned, which firmware may refuse, or a call
on another variable is accepted.  The step is labelled with the append that was taken. -/
inductive Step : AppendSession scheme v Client → Option (PlannedAppend scheme v) →
    AppendSession scheme v Client → Prop
  | plan {s : AppendSession scheme v Client} (c : Client) (w : PlannedAppend scheme v)
      (seen_eq : w.seen = s.firmware) :
      Step s none ⟨s.firmware, Function.update s.planned c (some w)⟩
  | set {s : AppendSession scheme v Client} (c : Client) (w : PlannedAppend scheme v)
      (f : Firmware) (planned_eq : s.planned c = some w)
      (accepts : (Firmware.store scheme).set s.firmware v.id w.attributes w.data = .ok f) :
      Step s (some w) ⟨f, Function.update s.planned c none⟩
  | refuse {s : AppendSession scheme v Client} (c : Client) (w : PlannedAppend scheme v)
      (planned_eq : s.planned c = some w)
      (refuses : ∀ f, (Firmware.store scheme).set s.firmware v.id w.attributes w.data ≠ .ok f) :
      Step s none ⟨s.firmware, Function.update s.planned c none⟩
  | other {s : AppendSession scheme v Client} (c : Firmware.Call) (f : Firmware)
      (others : c.id ≠ v.id) (accepts : Firmware.Accepts scheme s.firmware c f) :
      Step s none ⟨f, s.planned⟩

/-- Any number of steps, with the appends that were taken in the order in which they were. -/
inductive Run : AppendSession scheme v Client → List (PlannedAppend scheme v) →
    AppendSession scheme v Client → Prop
  | refl (s : AppendSession scheme v Client) : Run s [] s
  | tail {s t s' : AppendSession scheme v Client} {taken : List (PlannedAppend scheme v)}
      {label : Option (PlannedAppend scheme v)} (run : Run s taken t) (step : Step t label s') :
      Run s (taken ++ label.toList) s'

variable {s s' : AppendSession scheme v Client}

/-- A step adds the lists of the append that it takes, and nothing else. -/
theorem Step.contents {label : Option (PlannedAppend scheme v)} {before : Bytes}
    (h : Step s label s')
    (hbefore : ((Firmware.store scheme).get s.firmware).contents v = .ok before) :
    ((Firmware.store scheme).get s'.firmware).contents v =
      .ok (before ++ label.toList.flatMap (·.lists)) := by
  cases h with
  | plan c w seen_eq =>
    simpa using hbefore
  | refuse c w planned_eq refuses =>
    simpa using hbefore
  | set c w f planned_eq accepts =>
    simpa using w.contents_of_set accepts hbefore
  | other c f others accepts =>
    have hsame : f.stored v.id = s.firmware.stored v.id :=
      Firmware.setVariable_frame accepts (Ne.symm others)
    rw [Firmware.contents_eq] at hbefore ⊢
    rw [hsame]
    simpa using hbefore

/-- **No lists get lost, and none are there twice.**  Any number of clients append to one
variable, each with what it planned at some time before.  After any number of steps the
variable has what it had at first and then the lists of the appends that firmware took, once
each and in the order in which they were taken. -/
theorem contents_of_run {taken : List (PlannedAppend scheme v)} (h : Run s taken s') :
    ∃ initial, ((Firmware.store scheme).get s.firmware).contents v = .ok initial ∧
      ((Firmware.store scheme).get s'.firmware).contents v =
        .ok (initial ++ taken.flatMap (·.lists)) := by
  induction h with
  | refl =>
    obtain ⟨initial, hinitial⟩ := (Firmware.store_keepsContents scheme s.firmware).readable v
    refine ⟨initial, hinitial, ?_⟩
    rw [List.flatMap_nil, List.append_nil]
    exact hinitial
  | tail _ hstep ih =>
    obtain ⟨initial, hinitial, hbefore⟩ := ih
    refine ⟨initial, hinitial, ?_⟩
    rw [List.flatMap_append, ← List.append_assoc]
    exact hstep.contents hbefore

/-! ## Two clients -/

/-- The call that appends a certificate to db. -/
def appendCall (n day : UInt8) : Firmware.Call :=
  Firmware.dbCall (.union .authenticatedDatabase .appendWrite) day (Session.certificateList n)

theorem id_appendCall (n day : UInt8) : (appendCall n day).id = SecureVariable.db.id :=
  Firmware.Call.id_unsigned (SecureVariable.zero_not_mem_name .db) _ _ _

/-- An append of a certificate to db that is older than db. -/
def earlierAppend : PlannedAppend .pkcs7 .db where
  seen := Firmware.dbHolds Firmware.ownerList (Firmware.january 2)
  update := { Session.dbAppend 2 1 with strategy := .byStore }
  lists := Session.certificateList 2
  attributes := .union .authenticatedDatabase .appendWrite
  data := (appendCall 2 1).data
  target_eq := rfl
  strategy_eq := rfl
  appends := ⟨by decide, .inl rfl⟩
  plan_eq := by decide +kernel

/-- An append that was planned for the same contents and is newer than db. -/
def laterAppend : PlannedAppend .pkcs7 .db where
  seen := Firmware.dbHolds Firmware.ownerList (Firmware.january 2)
  update := { Session.dbAppend 3 4 with strategy := .byStore }
  lists := Session.certificateList 3
  attributes := .union .authenticatedDatabase .appendWrite
  data := (appendCall 3 4).data
  target_eq := rfl
  strategy_eq := rfl
  appends := ⟨by decide, .inl rfl⟩
  plan_eq := by decide +kernel

theorem both_appends_kept :
    ∃ s s' : AppendSession .pkcs7 .db (Fin 2), Run s [laterAppend, earlierAppend] s' ∧
      ((Firmware.store .pkcs7).get s.firmware).contents .db = .ok Firmware.ownerList ∧
      ((Firmware.store .pkcs7).get s'.firmware).contents .db =
        .ok (Firmware.ownerList ++ (Session.certificateList 3 ++ Session.certificateList 2)) := by
  have hothers : (0 : Fin 2) ≠ 1 := by decide
  have hfirst : SecureVariable.db.validatePayload
      (Firmware.ownerList ++ laterAppend.lists) = .ok () := by decide +kernel
  have hsecond : SecureVariable.db.validatePayload
      (Firmware.ownerList ++ laterAppend.lists ++ earlierAppend.lists) = .ok () := by
    decide +kernel
  have hlater := (Firmware.accepts_append .pkcs7 hfirst (Firmware.january 2) 4).set_eq_ok
    (id_appendCall 3 4)
  have hearlier := (Firmware.accepts_append .pkcs7 hsecond
    ((Firmware.january 2).later (Firmware.january 4)) 1).set_eq_ok (id_appendCall 2 1)
  have hplanned : Run (⟨Firmware.dbHolds Firmware.ownerList (Firmware.january 2), fun _ => none⟩ :
      AppendSession .pkcs7 .db (Fin 2)) [] _ :=
    .tail (.tail (.refl _) (.plan 0 earlierAppend rfl)) (.plan 1 laterAppend rfl)
  have hrun := (hplanned.tail (.set 1 laterAppend _ (by simp) hlater)).tail
    (.set 0 earlierAppend _ (by simp [hothers]) hearlier)
  obtain ⟨initial, hinitial, hcontents⟩ := contents_of_run hrun
  cases hinitial
  exact ⟨_, _, hrun, rfl, hcontents⟩

end AppendSession

end SecureBoot
