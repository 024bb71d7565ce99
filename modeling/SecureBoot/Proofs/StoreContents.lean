import SecureBoot.Proofs.FirmwareWrites
import SecureBoot.Proofs.FlashWrites
import SecureBoot.Update

/-!
# What a store reads after a write

The *contents* of a variable are the data that a store reads for it, empty when it
is missing.  A store keeps contents (`VariableStore.KeepsContents`) when a write
of a registered variable appends its payload or puts it in place, and leaves the
other registered variables alone.

* `Firmware.store_keepsContents` — every state of firmware does;
* `FlashStore.store_keepsContents` — every clean flash store does, and stays clean
  (`FlashStore.IsClean.set`).
-/

namespace SecureBoot

/-- A write that is passed to a store. -/
structure StoreWrite where
  id : VariableId
  attributes : Attributes
  data : Bytes

/-! ## Contents and payloads -/

/-- The data of a variable, empty when it is missing. -/
def VariableReader.contents (read : VariableReader) (v : SecureVariable) :
    Except StoreError Bytes :=
  (fun stored => (stored.map (·.data)).getD []) <$> read.optional v.id

/-- The payload of the data that a variable is written with. -/
def SecureVariable.Carries (v : SecureVariable) (data payload : Bytes) : Prop :=
  if v.requiresEnvelope then ∃ e, Envelope.parse data = .ok e ∧ e.payload = payload
  else data = payload

/-- In this state the store reads registered variables, and writes to them what
they carry. -/
structure VariableStore.KeepsContents {σ : Type} (store : VariableStore σ) (s : σ) : Prop where
  readable : ∀ v, ∃ bs, (store.get s).contents v = .ok bs
  written : ∀ {v append data payload before s'}, v.Carries data payload →
    (store.get s).contents v = .ok before →
    store.set s v.id (Update.writeAttributes v append) data = .ok s' →
      (store.get s').contents v = .ok (if append then before ++ payload else payload)
  others : ∀ {v w append data s'}, w ≠ v →
    store.set s v.id (Update.writeAttributes v append) data = .ok s' →
      store.get s' w.id = store.get s w.id

namespace VariableReader

variable {read : VariableReader} {v : SecureVariable}

/-- A store that finds or misses a variable has its data as contents. -/
theorem contents_eq {stored : Option Variable}
    (h : read v.id = stored.elim (.error (.notFound v.id)) .ok) :
    read.contents v = .ok ((stored.map (·.data)).getD []) := by
  unfold contents optional
  rw [h]
  cases stored <;> rfl

end VariableReader

namespace SecureVariable

/-- Names of registered variables have no zero character. -/
theorem zero_not_mem_name (v : SecureVariable) : '\x00' ∉ v.id.name.toList := by
  cases v <;> decide

theorem isTimeBased_writeAttributes (v : SecureVariable) (append : Bool) :
    (Update.writeAttributes v append).isTimeBased = v.requiresEnvelope := by
  cases v <;> cases append <;> decide

theorem isAppend_writeAttributes (v : SecureVariable) (append : Bool) :
    (Update.writeAttributes v append).isAppend = append := by
  cases v <;> cases append <;> decide

end SecureVariable

/-! ## Firmware -/

namespace Firmware

variable {scheme : SignatureScheme} {f f' : Firmware} {v w : SecureVariable}

theorem find?_id (f : Firmware) (v : SecureVariable) :
    f.find? v.id = (f.stored v.id).map (·.toVariable) := by
  rw [find?, StatusVariable.ofId?_secureVariable]

/-- A name that was terminated for the services of firmware is read as it is. -/
theorem services_terminated {id : VariableId} (hname : '\x00' ∉ id.name.toList) :
    (⟨Text.Utf16.ofTerminated (Text.Utf16.terminated id.name), id.guid⟩ : VariableId) = id := by
  rw [Text.Utf16.ofTerminated_terminated hname]

theorem services_id (v : SecureVariable) :
    (⟨Text.Utf16.ofTerminated (Text.Utf16.terminated v.id.name), v.id.guid⟩ : VariableId) =
      v.id := services_terminated v.zero_not_mem_name

/-- Firmware reads under a name what it finds there, in one or two attempts. -/
theorem store_get_eq (scheme : SignatureScheme) (f : Firmware) {id : VariableId}
    (hname : '\x00' ∉ id.name.toList) :
    (store scheme).get f id = (f.find? id).elim (.error (.notFound id)) .ok := by
  unfold store RuntimeServices.store RuntimeServices.read
  simp only [services, services_terminated hname]
  unfold getVariable
  cases f.find? id with
  | none => rfl
  | some found =>
    by_cases hlong : RuntimeServices.initialCapacity < found.data.length
    · simp [hlong, mapError_ok]
    · simp [hlong, mapError_ok]

theorem store_get (scheme : SignatureScheme) (f : Firmware) (v : SecureVariable) :
    (store scheme).get f v.id =
      ((f.stored v.id).map (·.toVariable)).elim (.error (.notFound v.id)) .ok := by
  rw [store_get_eq scheme f v.zero_not_mem_name, find?_id]

/-- The store writes under a name what firmware takes there. -/
theorem store_set_eq (scheme : SignatureScheme) (f : Firmware) {id : VariableId}
    (hname : '\x00' ∉ id.name.toList) (a : Attributes) (data : Bytes) :
    (store scheme).set f id a data =
      (f.setVariable scheme id a data).mapError (RuntimeServices.writeError id) := by
  unfold store RuntimeServices.store
  simp only [services, services_terminated hname]

theorem store_set_eq_ok {a : Attributes} {data : Bytes} :
    (store scheme).set f v.id a data = .ok f' ↔ f.setVariable scheme v.id a data = .ok f' := by
  rw [store_set_eq scheme f v.zero_not_mem_name, mapError_eq_ok]

/-- The data of a stored variable, empty when there is none. -/
def storedData (stored : Option StoredVariable) : Bytes := (stored.map (·.data)).getD []

theorem contents_eq (scheme : SignatureScheme) (f : Firmware) (v : SecureVariable) :
    ((store scheme).get f).contents v = .ok (storedData (f.stored v.id)) := by
  rw [VariableReader.contents_eq (store_get scheme f v), storedData, Option.map_map]
  rfl

theorem mergedData_eq (stored : Option StoredVariable) (a : Attributes) (payload : Bytes) :
    mergedData stored a payload =
      if a.isAppend then storedData stored ++ payload else payload := by
  cases stored with
  | none => simp [mergedData, storedData]
  | some s => rfl

/-- What an accepted write with an envelope does to the data. -/
theorem storedData_envelopeResult (stored : Option StoredVariable) (a : Attributes)
    (e : Envelope) :
    storedData (envelopeResult stored a e) =
      if a.isAppend then storedData stored ++ e.payload else e.payload := by
  rw [envelopeResult, mergedData_eq]
  cases ha : a.isAppend with
  | true =>
    rw [Bool.not_true, Bool.and_false, if_neg Bool.false_ne_true]
    rfl
  | false => cases e.payload <;> rfl

/-- What an accepted write without an envelope does to the data. -/
theorem storedData_plainResult (stored : Option StoredVariable) (a : Attributes) (data : Bytes) :
    storedData (plainResult stored a data) =
      if a.isAppend then storedData stored ++ data else data := by
  unfold plainResult
  cases ha : a.isAppend with
  | true => cases stored <;> rfl
  | false => cases data <;> rfl

/-- **Every state of firmware keeps contents.** -/
theorem store_keepsContents (scheme : SignatureScheme) (f : Firmware) :
    (store scheme).KeepsContents f where
  readable v := ⟨_, contents_eq scheme f v⟩
  written := by
    intro v append data payload before f' hcarries hbefore hset
    rw [contents_eq] at hbefore ⊢
    cases hbefore
    unfold SecureVariable.Carries at hcarries
    obtain ⟨-, ⟨htime, hset⟩ | ⟨htime, hset⟩⟩ := setVariable_eq_ok.1 (store_set_eq_ok.1 hset)
    · rw [SecureVariable.isTimeBased_writeAttributes] at htime
      rw [if_pos htime] at hcarries
      obtain ⟨e, hparse, rfl⟩ := hcarries
      obtain ⟨e', hparse', -, rfl⟩ := setTimeBased_eq_ok.1 hset
      cases hparse.symm.trans hparse'
      rw [stored_update_self, storedData_envelopeResult, SecureVariable.isAppend_writeAttributes]
    · rw [SecureVariable.isTimeBased_writeAttributes] at htime
      rw [htime, if_neg Bool.false_ne_true] at hcarries
      obtain ⟨-, rfl⟩ := setPlain_eq_ok.1 hset
      rw [stored_update_self, storedData_plainResult, SecureVariable.isAppend_writeAttributes,
        hcarries]
  others := by
    intro v w append data f' hne hset
    rw [store_get, store_get,
      setVariable_frame (store_set_eq_ok.1 hset) fun h => hne (SecureVariable.id_injective h)]

end Firmware

/-! ## Flash images -/

/-- What a record holds of its variable. -/
def FlashRecord.stored (r : FlashRecord) : StoredVariable := ⟨⟨r.attributes, r.data⟩, r.timestamp⟩

namespace FlashStore

open FlashRecord

variable {s s' : FlashStore} {rs : List FlashRecord} {tail : Bytes}

theorem Holds.store_get (h : s.Holds rs tail) (id : VariableId) :
    store.get s id =
      ((current? rs id).map fun r => (⟨r.attributes, r.data⟩ : Variable)).elim
        (.error (.notFound id)) .ok := by
  show FlashStore.get s id = _
  rw [FlashStore.get, h.find?_eq]
  cases current? rs id <;> rfl

theorem Holds.contents_eq (h : s.Holds rs tail) (v : SecureVariable) :
    (store.get s).contents v =
      .ok (Firmware.storedData ((current? rs v.id).map FlashRecord.stored)) := by
  rw [VariableReader.contents_eq (h.store_get v.id), Firmware.storedData, Option.map_map,
    Option.map_map]
  rfl

/-- The timestamp that a write leaves: its own, unless it is appended to what is later. -/
def writtenTimestamp (before : Option StoredVariable) (a : Attributes) (t : Timestamp) :
    Timestamp :=
  match before with
  | some stored => if a.isAppend then stored.timestamp.later t else t
  | none => t

/-- What a write leaves in place of what was stored. -/
def writeResult (before : Option StoredVariable) (a : Attributes) (payload : Bytes)
    (t : Timestamp) : Option StoredVariable :=
  if a.isAppend = false ∧ payload = [] then none
  else some ⟨⟨a.difference .appendWrite, Firmware.mergedData before a payload⟩,
    writtenTimestamp before a t⟩

theorem storedData_writeResult (before : Option StoredVariable) (a : Attributes)
    (payload : Bytes) (t : Timestamp) :
    Firmware.storedData (writeResult before a payload t) =
      if a.isAppend then Firmware.storedData before ++ payload else payload := by
  rw [writeResult, ← Firmware.mergedData_eq]
  by_cases hdelete : a.isAppend = false ∧ payload = []
  · rw [if_pos hdelete, Firmware.mergedData_eq, hdelete.1, hdelete.2]
    rfl
  · rw [if_neg hdelete]
    rfl

/-- **What a write does**: it deletes the variable where nothing is left, and else writes
a record with what is appended or put in place. -/
theorem Holds.set_eq (h : s.Holds rs tail) {id : VariableId} {a : Attributes}
    {data payload : Bytes} {t : Timestamp} (hsplit : splitWrite id a data = .ok (payload, t)) :
    store.set s id a data =
      if a.isAppend = false ∧ payload = [] then
        if copies rs id = [] then .error (.notFound id)
        else .ok (s.deleteRecords (copies rs id))
      else ofFlashError (s.write id (a.difference .appendWrite)
        (writtenTimestamp ((current? rs id).map FlashRecord.stored) a t)
        (Firmware.mergedData ((current? rs id).map FlashRecord.stored) a payload)) := by
  show FlashStore.set s id a data = _
  rw [FlashStore.set, hsplit]
  simp only [ofFlashError, mapError_ok, ok_bind]
  by_cases hdelete : a.isAppend = false ∧ payload = []
  · have hcond : (!a.isAppend && payload.isEmpty) = true := by simp [hdelete.1, hdelete.2]
    have hdeleted : s.delete id = .ok (!(copies rs id).isEmpty, s.deleteRecords (copies rs id)) :=
      h.delete_eq_ok.2 ⟨rfl, rfl⟩
    rw [if_pos hcond, if_pos hdelete, hdeleted]
    cases copies rs id <;> rfl
  · have hcond : ¬(!a.isAppend && payload.isEmpty) = true := by simpa using hdelete
    rw [if_neg hcond, if_neg hdelete, h.find?_eq]
    simp only [mapError_ok, ok_bind]
    cases current? rs id with
    | none => rfl
    | some r =>
      cases ha : a.isAppend <;>
        simp [writtenTimestamp, Firmware.mergedData, FlashRecord.stored, ha]

/-- The payload that is taken out of a write is what the variable carries. -/
theorem payload_of_splitWrite {v : SecureVariable} {append : Bool} {data payload payload' : Bytes}
    {t : Timestamp} (hcarries : v.Carries data payload)
    (hsplit : splitWrite v.id (Update.writeAttributes v append) data = .ok (payload', t)) :
    payload' = payload := by
  rw [splitWrite, v.isTimeBased_writeAttributes] at hsplit
  unfold SecureVariable.Carries at hcarries
  by_cases henvelope : v.requiresEnvelope = true
  · rw [if_pos henvelope] at hcarries hsplit
    obtain ⟨e, hparse, rfl⟩ := hcarries
    rw [hparse] at hsplit
    cases hsplit
    rfl
  · rw [if_neg henvelope] at hcarries hsplit
    cases hsplit
    exact hcarries

/-- What a write leaves: the variable as the write says, and every other variable as it
was. -/
theorem Holds.stored_set (h : s.Holds rs tail) (herased : ∀ b ∈ tail, b = erased)
    {id : VariableId} (hname : '\x00' ∉ id.name.toList) {a : Attributes} {data payload : Bytes}
    {t : Timestamp} (hsplit : splitWrite id a data = .ok (payload, t))
    (hset : store.set s id a data = .ok s') :
    ∃ rs' tail', s'.Holds rs' tail' ∧ (∀ b ∈ tail', b = erased) ∧
      (current? rs' id).map FlashRecord.stored =
        writeResult ((current? rs id).map FlashRecord.stored) a payload t ∧
      ∀ other, other ≠ id → current? rs' other = current? rs other := by
  rw [h.set_eq hsplit] at hset
  by_cases hdelete : a.isAppend = false ∧ payload = []
  · rw [if_pos hdelete] at hset
    split at hset
    · cases hset
    · cases hset
      refine ⟨retire id rs, tail, h.deleted id, herased, ?_, fun other hne => ?_⟩
      · rw [current?_retire_self, writeResult, if_pos hdelete]
        rfl
      · exact current?_retire_of_ne hne
  · rw [if_neg hdelete] at hset
    obtain ⟨hroom, rfl⟩ := h.write_eq_ok.1 (mapError_eq_ok.1 hset)
    refine ⟨_, _, h.written hname herased hroom,
      fun b hb => herased b (List.mem_of_mem_drop hb), ?_, fun other hne => ?_⟩
    · rw [current?_append_ofWrite, writeResult, if_neg hdelete]
      rfl
    · rw [current?_append_of_ne (Ne.symm hne), current?_retire_of_ne hne]

/-- What can be written has a payload and a timestamp. -/
theorem splitWrite_of_set {id : VariableId} {a : Attributes} {data : Bytes}
    (hset : store.set s id a data = .ok s') :
    ∃ payload t, splitWrite id a data = .ok (payload, t) := by
  obtain ⟨⟨payload, t⟩, hsplit, -⟩ := bind_eq_ok.1 hset
  exact ⟨payload, t, mapError_eq_ok.1 hsplit⟩

/-- A clean store is clean after a write. -/
theorem IsClean.set (hclean : s.IsClean) {id : VariableId} (hname : '\x00' ∉ id.name.toList)
    {a : Attributes} {data : Bytes} (hset : store.set s id a data = .ok s') : s'.IsClean := by
  obtain ⟨rs, tail, h, herased⟩ := isClean_iff.1 hclean
  obtain ⟨payload, t, hsplit⟩ := splitWrite_of_set hset
  obtain ⟨rs', tail', h', herased', -, -⟩ := h.stored_set herased hname hsplit hset
  exact isClean_iff.2 ⟨rs', tail', h', herased'⟩

/-- **Every clean flash store keeps contents.** -/
theorem store_keepsContents (hclean : s.IsClean) : store.KeepsContents s := by
  obtain ⟨rs, tail, h, herased⟩ := isClean_iff.1 hclean
  refine ⟨fun v => ⟨_, h.contents_eq v⟩, ?_, ?_⟩
  · intro v append data payload before s' hcarries hbefore hset
    obtain ⟨payload', t, hsplit⟩ := splitWrite_of_set hset
    obtain ⟨rs', tail', h', -, hself, -⟩ :=
      h.stored_set herased v.zero_not_mem_name hsplit hset
    rw [h.contents_eq] at hbefore
    cases hbefore
    rw [h'.contents_eq, hself, storedData_writeResult,
      payload_of_splitWrite hcarries hsplit, v.isAppend_writeAttributes]
  · intro v w append data s' hne hset
    obtain ⟨payload, t, hsplit⟩ := splitWrite_of_set hset
    obtain ⟨rs', tail', h', -, -, hothers⟩ :=
      h.stored_set herased v.zero_not_mem_name hsplit hset
    rw [h'.store_get, h.store_get, hothers w.id fun hid => hne (SecureVariable.id_injective hid)]

end FlashStore

end SecureBoot
