import SecureBoot.Proofs.VariableHistory

/-!
# Firmware and a flash image side by side

Firmware keeps variables in a map, and a flash store keeps them as records of a log.
Give the flash store every write that firmware takes.  As long as the image has room and
every variable keeps its attributes, the two hold the same.

* `FlashStore.Mirrors` — a clean flash store in which the current record of every id is
  what firmware has stored there;
* `Firmware.eq_update_of_write` and `FlashStore.Mirrors.write` — one write, first of
  firmware and then of the flash store that mirrors it;
* `StorePair.run_agrees` — every prefix of a run from empty stores.
-/

namespace SecureBoot

/-- The zero timestamp is the earliest, so that it never replaces another. -/
theorem Timestamp.later_zero (t : Timestamp) : t.later .zero = t := by
  have hnot : ¬Timestamp.zero.isAfter t = true := by
    rw [isAfter_eq_true]
    exact Nat.not_lt_zero _
  rw [later, if_neg hnot]

/-! ## What one write leaves -/

namespace Firmware

variable {scheme : SignatureScheme} {f f' : Firmware} {id : VariableId} {a : Attributes}
  {e : Envelope} {data : Bytes}

/-- A replacement is later than what it replaces, so that its own timestamp stays. -/
theorem AcceptsEnvelope.mergedTimestamp_eq (h : AcceptsEnvelope scheme f id a e) :
    mergedTimestamp (f.stored id) e.timestamp =
      FlashStore.writtenTimestamp (f.stored id) a e.timestamp := by
  cases hs : f.stored id with
  | none => rfl
  | some s =>
    show s.timestamp.later e.timestamp = if a.isAppend then s.timestamp.later e.timestamp
      else e.timestamp
    by_cases happend : a.isAppend = true
    · rw [if_pos happend]
    · obtain ⟨-, hlater⟩ := checkReplacement_eq_ok.1 (h.replaces s hs)
      rw [if_neg happend, Timestamp.later, if_pos (hlater (Bool.eq_false_iff.2 happend))]

/-- Firmware leaves of an accepted envelope what a flash store does. -/
theorem AcceptsEnvelope.envelopeResult_eq (h : AcceptsEnvelope scheme f id a e) :
    envelopeResult (f.stored id) a e =
      FlashStore.writeResult (f.stored id) a e.payload e.timestamp := by
  rw [FlashStore.writeResult]
  by_cases hdelete : a.isAppend = false ∧ e.payload = []
  · rw [if_pos hdelete]
    exact envelopeResult_eq_none.2 hdelete
  · rw [if_neg hdelete, ← h.mergedTimestamp_eq]
    have hstays : ¬envelopeResult (f.stored id) a e = none :=
      fun hnone => hdelete (envelopeResult_eq_none.1 hnone)
    rw [envelopeResult] at hstays ⊢
    by_cases hempty : ((mergedData (f.stored id) a e.payload).isEmpty && !a.isAppend) = true
    · rw [if_pos hempty] at hstays
      exact absurd rfl hstays
    · rw [if_neg hempty]

/-- Firmware leaves of plain data what a flash store does, where the variable has the
attributes of the write. -/
theorem plainResult_eq {stored : Option StoredVariable}
    (hattributes : ∀ s, stored = some s → s.attributes = a.difference .appendWrite) :
    plainResult stored a data = FlashStore.writeResult stored a data .zero := by
  unfold plainResult FlashStore.writeResult
  cases happend : a.isAppend with
  | false => cases data <;> cases stored <;> simp [mergedData, happend, FlashStore.writtenTimestamp]
  | true =>
    cases stored with
    | none => simp [mergedData, FlashStore.writtenTimestamp]
    | some s =>
      have hword : s.attributes = a.difference .appendWrite := hattributes s rfl
      simp [mergedData, happend, FlashStore.writtenTimestamp, Timestamp.later_zero, ← hword]

/-- **What firmware takes, a flash store can read**, and firmware leaves of it what the
flash store would leave. -/
theorem eq_update_of_write
    (hattributes : ∀ s, f.stored id = some s → s.attributes = a.difference .appendWrite)
    (hset : f.setVariable scheme id a data = .ok f') :
    ∃ payload t, FlashStore.splitWrite id a data = .ok (payload, t) ∧
      f' = f.update id (FlashStore.writeResult (f.stored id) a payload t) := by
  obtain ⟨-, ⟨htime, hset⟩ | ⟨hplain, hset⟩⟩ := setVariable_eq_ok.1 hset
  · obtain ⟨e, hparse, haccepts, rfl⟩ := setTimeBased_eq_ok.1 hset
    refine ⟨e.payload, e.timestamp, ?_, ?_⟩
    · rw [FlashStore.splitWrite, if_pos htime, hparse]
    · rw [haccepts.envelopeResult_eq]
  · obtain ⟨-, rfl⟩ := setPlain_eq_ok.1 hset
    refine ⟨data, .zero, ?_, ?_⟩
    · rw [FlashStore.splitWrite, hplain, if_neg Bool.false_ne_true]
    · rw [plainResult_eq hattributes]

end Firmware

/-! ## Flash stores that mirror firmware -/

namespace FlashStore

variable {s s' : FlashStore} {f : Firmware} {rs : List FlashRecord} {tail : Bytes}
  {id : VariableId} {a : Attributes} {data payload : Bytes} {t : Timestamp}

/-- What is stored under an id: what its current record holds. -/
def stored (s : FlashStore) (id : VariableId) : Except FlashError (Option StoredVariable) :=
  (·.map FlashRecord.stored) <$> s.find? id

/-- A flash store is clean and has stored under every id what firmware has. -/
structure Mirrors (s : FlashStore) (f : Firmware) : Prop where
  isClean : s.IsClean
  stored : ∀ id, s.stored id = .ok (f.stored id)

theorem Holds.stored_eq (h : s.Holds rs tail) (id : VariableId) :
    s.stored id = .ok ((FlashRecord.current? rs id).map FlashRecord.stored) := by
  rw [FlashStore.stored, h.find?_eq]
  rfl

theorem of_writeResult_eq_some {before : Option StoredVariable} {x : StoredVariable}
    (h : writeResult before a payload t = some x) :
    x.attributes = a.difference .appendWrite ∧ x.timestamp = writtenTimestamp before a t := by
  rw [writeResult] at h
  split at h
  · cases h
  · cases h
    exact ⟨rfl, rfl⟩

/-- A store that mirrors firmware reads what firmware reads, but for the status variables. -/
theorem Mirrors.get_eq (h : s.Mirrors f) (scheme : SignatureScheme)
    (hstatus : StatusVariable.ofId? id = none) (hname : '\x00' ∉ id.name.toList) :
    (Firmware.store scheme).get f id = store.get s id := by
  obtain ⟨rs, tail, hholds, -⟩ := isClean_iff.1 h.isClean
  have hstored := h.stored id
  rw [hholds.stored_eq, Except.ok.injEq] at hstored
  have hfind : f.find? id = (f.stored id).map (·.toVariable) := by
    rw [Firmware.find?, hstatus]
  rw [Firmware.store_get_eq scheme f hname, hfind, hholds.store_get, ← hstored, Option.map_map]
  rfl

/-- A variable without a valid record has no current one. -/
theorem current?_of_copies_eq_nil (h : copies rs id = []) : FlashRecord.current? rs id = none := by
  have hkept : ∀ r ∈ rs, FlashRecord.clearedIf (FlashRecord.isCopy id) r = r := by
    intro r hr
    refine FlashRecord.clearedIf_of_neg fun hcopy => ?_
    have hmem : r ∈ copies rs id := List.mem_filter.2 ⟨hr, hcopy⟩
    rw [h] at hmem
    cases hmem
  have hsame : FlashRecord.retire id rs = rs := by
    rw [FlashRecord.retire, List.map_congr_left hkept, List.map_id']
  have hnone : FlashRecord.current? (FlashRecord.retire id rs) id = none :=
    FlashRecord.current?_retire_self
  rwa [hsame] at hnone

/-- A write that does not fit finds the store full. -/
theorem Holds.write_eq_error (h : s.Holds rs tail)
    (hfull : tail.length < (FlashRecord.encode id a t data).length) :
    s.write id a t data =
      .error (.storeFull (FlashRecord.encode id a t data).length tail.length) := by
  rw [write, h.walk_eq, ok_bind]
  exact if_pos hfull

/-- The write finds no room for its record. -/
def isFull (s : FlashStore) (id : VariableId) (a : Attributes) (data : Bytes) : Bool :=
  match store.set s id a data with
  | .error (.flash (.storeFull ..)) => true
  | _ => false

/-- A store with room refuses only to delete what is not there. -/
theorem Holds.not_found_of_set (h : s.Holds rs tail)
    (hsplit : splitWrite id a data = .ok (payload, t)) (hroom : s.isFull id a data = false)
    {e : StoreError} (hset : store.set s id a data = .error e) :
    e = .notFound id ∧ a.isAppend = false ∧ payload = [] ∧ copies rs id = [] := by
  unfold isFull at hroom
  rw [h.set_eq hsplit] at hset hroom
  by_cases hdelete : a.isAppend = false ∧ payload = []
  · rw [if_pos hdelete] at hset
    by_cases hmissing : copies rs id = []
    · rw [if_pos hmissing] at hset
      cases hset
      exact ⟨rfl, hdelete.1, hdelete.2, hmissing⟩
    · rw [if_neg hmissing] at hset
      cases hset
  · rw [if_neg hdelete] at hset hroom
    by_cases hfits : (FlashRecord.encode id (a.difference .appendWrite)
        (writtenTimestamp ((FlashRecord.current? rs id).map FlashRecord.stored) a t)
        (Firmware.mergedData ((FlashRecord.current? rs id).map FlashRecord.stored) a
          payload)).length ≤ tail.length
    · rw [h.write_eq_ok.2 ⟨hfits, rfl⟩] at hset
      cases hset
    · rw [h.write_eq_error (Nat.lt_of_not_le hfits)] at hroom
      cases hroom

/-- The store after a write, which it may refuse. -/
def after (s : FlashStore) (id : VariableId) (a : Attributes) (data : Bytes) : FlashStore :=
  match store.set s id a data with
  | .ok s' => s'
  | .error _ => s

/-- **A store keeps mirroring firmware** through a write that it has room for. -/
theorem Mirrors.write (h : s.Mirrors f) (hname : '\x00' ∉ id.name.toList)
    (hsplit : splitWrite id a data = .ok (payload, t)) (hroom : s.isFull id a data = false) :
    (s.after id a data).Mirrors (f.update id (writeResult (f.stored id) a payload t)) := by
  obtain ⟨rs, tail, hholds, herased⟩ := isClean_iff.1 h.isClean
  have hstored : ∀ other, (FlashRecord.current? rs other).map FlashRecord.stored =
      f.stored other := by
    intro other
    have hother := h.stored other
    rw [hholds.stored_eq, Except.ok.injEq] at hother
    exact hother
  unfold after
  cases hset : store.set s id a data with
  | error e =>
    -- the variable is missing on both sides, and stays so
    obtain ⟨-, hreplaces, hnothing, hmissing⟩ := hholds.not_found_of_set hsplit hroom hset
    have hnone : f.stored id = none := by
      rw [← hstored id, current?_of_copies_eq_nil hmissing]
      rfl
    have hresult : writeResult (f.stored id) a payload t = none :=
      if_pos ⟨hreplaces, hnothing⟩
    rw [hresult, Firmware.update_eq_self hnone]
    exact h
  | ok s' =>
    obtain ⟨rs', tail', hholds', herased', hself, hothers⟩ :=
      hholds.stored_set herased hname hsplit hset
    refine ⟨isClean_iff.2 ⟨rs', tail', hholds', herased'⟩, fun other => ?_⟩
    rw [hholds'.stored_eq]
    by_cases hother : other = id
    · rw [hother, hself, hstored, Firmware.stored_update_self]
    · rw [hothers other hother, hstored, Firmware.stored_update_of_ne hother]

/-- A blank store mirrors firmware without variables. -/
theorem mirrors_of_blank {size : Nat} (h : blank size = .ok s) : s.Mirrors .fresh := by
  refine ⟨isClean_of_blank h, fun id => ?_⟩
  rw [(holds_of_blank h).stored_eq]
  rfl

end FlashStore

/-! ## Runs -/

/-- The attributes that a write leaves, which say nothing of an append. -/
def StoreWrite.word (w : StoreWrite) : Attributes := w.attributes.difference .appendWrite

/-- Firmware, and the flash store that is given its writes. -/
structure StorePair where
  firmware : Firmware
  flash : FlashStore

namespace StorePair

variable {scheme : SignatureScheme} {p : StorePair} {w : StoreWrite} {ws : List StoreWrite}

/-- A write to firmware, which the flash store is given if firmware takes it. -/
def write (scheme : SignatureScheme) (p : StorePair) (w : StoreWrite) : StorePair :=
  match (Firmware.store scheme).set p.firmware w.id w.attributes w.data with
  | .ok f => ⟨f, p.flash.after w.id w.attributes w.data⟩
  | .error _ => p

/-- The pair after writes. -/
def run (scheme : SignatureScheme) (p : StorePair) (ws : List StoreWrite) : StorePair :=
  ws.foldl (write scheme) p

/-- Firmware takes the write. -/
def takes (scheme : SignatureScheme) (p : StorePair) (w : StoreWrite) : Bool :=
  ((Firmware.store scheme).set p.firmware w.id w.attributes w.data).isOk

/-- No write that firmware takes finds the flash store full. -/
def neverFull (scheme : SignatureScheme) : StorePair → List StoreWrite → Bool
  | _, [] => true
  | p, w :: ws =>
    !(p.takes scheme w && p.flash.isFull w.id w.attributes w.data) &&
      neverFull scheme (p.write scheme w) ws

/-- The flash store mirrors firmware, and every variable has the attributes that the writes
to come leave. -/
structure Agrees (p : StorePair) (ws : List StoreWrite) : Prop where
  mirrors : p.flash.Mirrors p.firmware
  words : ∀ w ∈ ws, ∀ s, p.firmware.stored w.id = some s → s.attributes = w.word

/-- A pair of stores agrees after a write. -/
theorem Agrees.write (h : p.Agrees (w :: ws)) (hname : '\x00' ∉ w.id.name.toList)
    (hwords : ∀ w' ∈ ws, w'.id = w.id → w'.word = w.word)
    (hroom : p.takes scheme w = true → p.flash.isFull w.id w.attributes w.data = false) :
    (p.write scheme w).Agrees ws := by
  unfold StorePair.write
  unfold takes at hroom
  cases hset : (Firmware.store scheme).set p.firmware w.id w.attributes w.data with
  | error e => exact ⟨h.mirrors, fun w' hw' => h.words w' (List.mem_cons_of_mem w hw')⟩
  | ok f =>
    have hwrite : p.firmware.setVariable scheme w.id w.attributes w.data = .ok f := by
      rw [Firmware.store_set_eq scheme _ hname, mapError_eq_ok] at hset
      exact hset
    obtain ⟨payload, t, hsplit, rfl⟩ :=
      Firmware.eq_update_of_write (h.words w List.mem_cons_self) hwrite
    refine ⟨h.mirrors.write hname hsplit (hroom (hset ▸ rfl)), fun w' hw' s hs => ?_⟩
    by_cases hid : w'.id = w.id
    · rw [hid, Firmware.stored_update_self] at hs
      rw [hwords w' hw' hid]
      exact (FlashStore.of_writeResult_eq_some hs).1
    · rw [Firmware.stored_update_of_ne hid] at hs
      exact h.words w' (List.mem_cons_of_mem w hw') s hs

/-- A pair of stores that agrees keeps mirroring through every prefix of the writes. -/
theorem Agrees.run (h : p.Agrees ws) (hnames : ∀ w ∈ ws, '\x00' ∉ w.id.name.toList)
    (hwords : ∀ w ∈ ws, ∀ w' ∈ ws, w.id = w'.id → w.word = w'.word)
    (hroom : neverFull scheme p ws = true) {before : List StoreWrite} (hbefore : before <+: ws) :
    (p.run scheme before).flash.Mirrors (p.run scheme before).firmware := by
  induction ws generalizing p before with
  | nil =>
    rw [List.prefix_nil.1 hbefore]
    exact h.mirrors
  | cons w ws ih =>
    cases before with
    | nil => exact h.mirrors
    | cons w' before =>
      obtain ⟨rfl, hprefix⟩ := List.cons_prefix_cons.1 hbefore
      rw [List.forall_mem_cons] at hnames
      rw [neverFull, Bool.and_eq_true, Bool.not_eq_true', Bool.and_eq_false_imp] at hroom
      have hfirst := h.write hnames.1
        (fun w hw => hwords w (List.mem_cons_of_mem _ hw) w' List.mem_cons_self) hroom.1
      have hrest : ∀ w ∈ ws, ∀ w' ∈ ws, w.id = w'.id → w.word = w'.word := fun w hw v hv =>
        hwords w (List.mem_cons_of_mem _ hw) v (List.mem_cons_of_mem _ hv)
      exact ih hfirst hnames.2 hrest hroom.2 hprefix

/-- **Firmware and a flash store agree.**  Start without variables and with a blank image,
and give the flash store the writes that firmware takes.  Names have no zero character,
every variable is always written with the same attributes, apart from the flag of an
append, and no write finds the image full.  After every prefix of the writes the two have
the same variables, with the same attributes, data and timestamps, and they read the same
of every variable that does not tell the state of the platform. -/
theorem run_agrees {size : Nat} {s : FlashStore} (hblank : FlashStore.blank size = .ok s)
    (hnames : ∀ w ∈ ws, '\x00' ∉ w.id.name.toList)
    (hwords : ∀ w ∈ ws, ∀ w' ∈ ws, w.id = w'.id → w.word = w'.word)
    (hroom : neverFull scheme ⟨.fresh, s⟩ ws = true) {before : List StoreWrite}
    (hbefore : before <+: ws) :
    (∀ id, (run scheme ⟨.fresh, s⟩ before).flash.stored id =
      .ok ((run scheme ⟨.fresh, s⟩ before).firmware.stored id)) ∧
    ∀ id, StatusVariable.ofId? id = none → '\x00' ∉ id.name.toList →
      (Firmware.store scheme).get (run scheme ⟨.fresh, s⟩ before).firmware id =
        FlashStore.store.get (run scheme ⟨.fresh, s⟩ before).flash id := by
  have hstart : (⟨.fresh, s⟩ : StorePair).Agrees ws := by
    refine ⟨FlashStore.mirrors_of_blank hblank, ?_⟩
    rintro w - stored ⟨⟩
  have hmirrors := hstart.run hnames hwords hroom hbefore
  exact ⟨hmirrors.stored, fun id hstatus hname => hmirrors.get_eq scheme hstatus hname⟩

/-- Writes of db with an envelope, the second one an append, and plain writes of the boot
order: a replacement, its deletion, and an append to what is missing then. -/
def mixedWrites : List StoreWrite :=
  [⟨SecureVariable.db.id, .authenticatedDatabase,
      (Firmware.dbCall .authenticatedDatabase 2 Firmware.ownerList).data⟩,
    ⟨FlashStore.bootOrder, .bootNonVolatile, [1]⟩,
    ⟨SecureVariable.db.id, Firmware.lateAppend.attributes, Firmware.lateAppend.data⟩,
    ⟨FlashStore.bootOrder, .bootNonVolatile, []⟩,
    ⟨FlashStore.bootOrder, .union .bootNonVolatile .appendWrite, [2]⟩]

theorem mixedWrites_agree :
    ∃ s, FlashStore.blank 1024 = .ok s ∧ (∀ w ∈ mixedWrites, '\x00' ∉ w.id.name.toList) ∧
      (∀ w ∈ mixedWrites, ∀ w' ∈ mixedWrites, w.id = w'.id → w.word = w'.word) ∧
      neverFull Firmware.plainScheme ⟨.fresh, s⟩ mixedWrites = true ∧
      (run Firmware.plainScheme ⟨.fresh, s⟩ mixedWrites).firmware.stored SecureVariable.db.id =
        some ⟨⟨.authenticatedDatabase, Firmware.ownerList ++ Firmware.ownerList⟩,
          Firmware.january 2⟩ ∧
      ∀ id, (run Firmware.plainScheme ⟨.fresh, s⟩ mixedWrites).flash.stored id =
        .ok ((run Firmware.plainScheme ⟨.fresh, s⟩ mixedWrites).firmware.stored id) := by
  have hrun : ((FlashStore.blank 1024).toOption.map fun s =>
      (neverFull Firmware.plainScheme ⟨.fresh, s⟩ mixedWrites,
        (run Firmware.plainScheme ⟨.fresh, s⟩ mixedWrites).firmware.stored SecureVariable.db.id)) =
      some (true, some ⟨⟨.authenticatedDatabase, Firmware.ownerList ++ Firmware.ownerList⟩,
        Firmware.january 2⟩) := by decide +kernel
  obtain ⟨s, hblank, hrun⟩ := Option.map_eq_some_iff.1 hrun
  obtain ⟨hroom, hdb⟩ := Prod.mk.inj hrun
  have hblank := toOption_eq_some.1 hblank
  have hnames : ∀ w ∈ mixedWrites, '\x00' ∉ w.id.name.toList := by decide
  have hwords : ∀ w ∈ mixedWrites, ∀ w' ∈ mixedWrites, w.id = w'.id → w.word = w'.word := by
    decide
  exact ⟨s, hblank, hnames, hwords, hroom, hdb,
    (run_agrees hblank hnames hwords hroom (List.prefix_refl _)).1⟩

end StorePair

end SecureBoot
