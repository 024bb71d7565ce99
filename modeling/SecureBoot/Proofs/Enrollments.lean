import SecureBoot.Proofs.AppendedLists
import SecureBoot.Proofs.UpdateContents

/-!
# Enrolling an entry

To enroll a hash or a certificate is to look for it in what a variable holds, and to add a
list with one entry if it is not there.  So the search of the second time has to find, in
the lists that are parsed again, what the encoder wrote the first time.

* `SignatureDatabase.count_of_lists` — how often an entry stands in a database, counted
  list by list, and `SignatureDatabase.findHash?_eq_none` with
  `SignatureDatabase.standsAt_of_findHash?` what the search finds of it;
* `Update.count_of_written` — an enrollment that writes leaves its entry exactly once;
* `Update.enrolls_once` — the same enrollment writes nothing the second time.
-/

namespace SecureBoot

/-! ## Entries of a database -/

namespace SignatureDatabase

variable {db db' : SignatureDatabase} {t : SignatureType} {data : Bytes}

/-- How many entries of a type have the given data. -/
def count (db : SignatureDatabase) (t : SignatureType) (data : Bytes) : Nat :=
  db.entries.countP fun x => x.type == t && x.entry.data == data

/-- The entry at a location has a type and data. -/
def StandsAt (db : SignatureDatabase) (place : EntryLocation) (t : SignatureType)
    (data : Bytes) : Prop :=
  ∃ l e, db.list place.list = .ok l ∧ l.type = t ∧ db.entry place = .ok e ∧ e.data = data

theorem count_of_lists (db : SignatureDatabase) (t : SignatureType) (data : Bytes) :
    db.count t data = (db.lists.flatMap ListView.typedEntries).countP
      fun x => x.1 == t && x.2.data == data := by
  rw [← map_entries, List.countP_map]
  rfl

/-- The search finds nothing exactly where there is no such entry. -/
theorem findHash?_eq_none : db.findHash? t data = none ↔ db.count t data = 0 := by
  rw [findHash?, find?, Option.map_eq_none_iff, List.find?_eq_none, count, List.countP_eq_zero]

/-- An entry is found where its location says. -/
theorem list_of_mem_entries {x : LocatedEntry} (h : x ∈ db.entries) :
    ∃ l, db.list x.location.list = .ok l ∧ l.type = x.type ∧
      db.entry x.location = .ok x.entry := by
  obtain ⟨es, hes, hx⟩ := List.mem_flatten.1 h
  obtain ⟨i, hi, rfl⟩ := List.mem_mapIdx.1 hes
  have hl : db.lists[i] ∈ db.lists := List.getElem_mem hi
  have hentries : db.lists[i].entries = .ok db.lists[i].entryList :=
    ListView.entries_eq_ok.2 ⟨wellFormed_of_mem_lists hl, rfl⟩
  rw [locate, hentries] at hx
  obtain ⟨j, hj, rfl⟩ := List.mem_mapIdx.1 hx
  have hlist : db.list i = .ok db.lists[i] := by
    rw [list, List.getElem?_eq_getElem hi]
  refine ⟨db.lists[i], hlist, rfl, ?_⟩
  simp only [entry, hlist, ok_bind, hentries, ofListError, mapError_ok,
    List.getElem?_eq_getElem hj]
  rfl

/-- What the search finds stands where it says. -/
theorem standsAt_of_findHash? {place : EntryLocation} (h : db.findHash? t data = some place) :
    db.StandsAt place t data := by
  rw [findHash?, find?, Option.map_eq_some_iff] at h
  obtain ⟨x, hx, rfl⟩ := h
  have hfits := List.find?_some hx
  rw [Bool.and_eq_true, beq_iff_eq, beq_iff_eq] at hfits
  obtain ⟨l, hl, htype, hentry⟩ := list_of_mem_entries (List.mem_of_find?_eq_some hx)
  exact ⟨l, x.entry, hl, htype.trans hfits.1, hentry, hfits.2⟩

/-- A database with lists behind it has the entries of both. -/
theorem count_of_bytes_append {new : SignatureDatabase} (h : db'.bytes = db.bytes ++ new.bytes) :
    db'.count t data = db.count t data + new.count t data := by
  rw [count, entries_of_append h, List.countP_append, List.countP_map]
  rfl

/-- The list that is encoded for an entry is a database with this entry. -/
theorem exists_of_encode {owner : Guid} {list : Bytes} {g : Guid}
    (h : (SignatureList.ofOwner (.ofGuid g) owner [data]).encode = .ok list) :
    ∃ db : SignatureDatabase, db.bytes = list ∧ db.count (.ofGuid g) data = 1 := by
  obtain ⟨dataSize, hl, rfl⟩ := SignatureList.encode_eq_ok.1 h
  let view := (SignatureList.ofOwner (.ofGuid g) owner [data]).view hl 0
  have hparse : parseDatabase view.bytes = .ok [view] := by
    refine parseDatabase_eq_ok.2 ⟨⟨rfl, SignatureList.listSize_view hl 0, trivial⟩, ?_, ?_⟩
    · simp
    · simpa using SignatureList.wellFormed_view hl 0
  obtain ⟨db, hbytes, hlists⟩ := exists_of_parseDatabase hparse
  have htype : view.type = .ofGuid g := by
    rw [ListView.type, SignatureList.header_view]
    simp [SignatureList.ofOwner]
  have hentries : view.entryList = [⟨owner, data⟩] :=
    congrArg SignatureList.entries (SignatureList.value_view hl 0)
  refine ⟨db, hbytes, ?_⟩
  rw [count_of_lists, hlists, List.flatMap_singleton, ListView.typedEntries, htype, hentries]
  simp

end SignatureDatabase

/-! ## Enrollments -/

namespace Update

variable {u : Update} {read : VariableReader} {t : SignatureType} {data : Bytes}

/-- The update enrolls a hash of a type that a GUID names, or a certificate. -/
def Enrolls (u : Update) (t : SignatureType) (data : Bytes) : Prop :=
  (∃ owner, u.action = .edit (.enrollHash t data owner) ∧ ∃ g, t = .ofGuid g) ∨
    ∃ owner, u.action = .edit (.enrollCertificate data owner) ∧ t = .x509

/-- The change of an enrollment: the place of the entry, or a list with the entry. -/
def enrollment (u : Update) (read : VariableReader) (t : SignatureType) (data : Bytes)
    (owner : Guid) : Except UpdateError (EntryLocation ⊕ PayloadChange) := do
  match (← current read u.target).findHash? t data with
  | some place => return .inl place
  | none =>
    let list ← ((SignatureList.ofOwner t owner [data]).encode).mapError UpdateError.list
    .inr <$> u.enrollChange read list

/-- Hashes and certificates are enrolled alike. -/
theorem Enrolls.exists_edit (h : u.Enrolls t data) :
    ∃ edit owner g, u.action = .edit edit ∧ t = .ofGuid g ∧
      (∀ read, u.change read edit = u.enrollment read t data owner) ∧
      ∀ before after, (UpdateAction.edit edit).Yields u.target before after ↔
        ∃ list, (SignatureList.ofOwner t owner [data]).encode = .ok list ∧
          after = if u.target = .pk then list else before ++ list := by
  rcases h with ⟨owner, haction, g, rfl⟩ | ⟨owner, haction, rfl⟩
  · exact ⟨_, owner, g, haction, rfl, fun _ => rfl, fun _ _ => Iff.rfl⟩
  · exact ⟨_, owner, SignatureType.x509.guid, haction, by decide, fun _ => rfl, fun _ _ => Iff.rfl⟩

/-- Contents that parse are read as the current database. -/
theorem current_of_contents {v : SecureVariable} {bs : Bytes} {lists : List ListView}
    (h : read.contents v = .ok bs) (hparse : parseDatabase bs = .ok lists) :
    ∃ db, current read v = .ok db ∧ db.bytes = bs := by
  obtain ⟨db, rfl, -⟩ := SignatureDatabase.exists_of_parseDatabase hparse
  exact ⟨db, current_eq_ok.2 h, rfl⟩

/-- An enrollment writes only where the entry is not found. -/
theorem not_found_of_plan (h : u.Enrolls t data) {a : Attributes} {bs : Bytes}
    (hplan : u.plan read = .ok (.write a bs)) :
    ∃ db, current read u.target = .ok db ∧ db.count t data = 0 := by
  obtain ⟨edit, owner, g, haction, -, hchange, -⟩ := h.exists_edit
  unfold plan at hplan
  simp only [haction, hchange, bind_eq_ok] at hplan
  obtain ⟨change, henroll, hplan⟩ := hplan
  obtain ⟨db, hcurrent, henroll⟩ := bind_eq_ok.1 henroll
  refine ⟨db, hcurrent, SignatureDatabase.findHash?_eq_none.1 ?_⟩
  cases hfound : db.findHash? t data with
  | none => rfl
  | some place =>
    rw [hfound] at henroll
    cases henroll
    cases hplan

/-- An enrollment of an entry that is there is planned as no write. -/
theorem plan_of_found (h : u.Enrolls t data) {db : SignatureDatabase} {place : EntryLocation}
    (hcurrent : current read u.target = .ok db) (hfound : db.findHash? t data = some place) :
    u.plan read = .ok (.alreadyPresent place) := by
  obtain ⟨edit, owner, g, haction, -, hchange, -⟩ := h.exists_edit
  rw [plan, haction]
  simp only [hchange, enrollment, hcurrent, ok_bind, hfound]
  rfl

/-- **An enrollment that writes leaves its entry exactly once.** -/
theorem count_of_yields (h : u.Enrolls t data) {before : SignatureDatabase} {after : Bytes}
    (hmissing : before.count t data = 0)
    (hyields : u.action.Yields u.target before.bytes after) :
    ∃ db : SignatureDatabase, db.bytes = after ∧ db.count t data = 1 := by
  obtain ⟨edit, owner, g, haction, rfl, -, heffect⟩ := h.exists_edit
  rw [haction, heffect] at hyields
  obtain ⟨list, hlist, rfl⟩ := hyields
  obtain ⟨new, rfl, hone⟩ := SignatureDatabase.exists_of_encode hlist
  by_cases hpk : u.target = .pk
  · rw [if_pos hpk]
    exact ⟨new, rfl, hone⟩
  · rw [if_neg hpk]
    have hparse := parseDatabase_append before.parseDatabase_bytes new.parseDatabase_bytes
    obtain ⟨db, hbytes, -⟩ := SignatureDatabase.exists_of_parseDatabase hparse
    refine ⟨db, hbytes, ?_⟩
    rw [SignatureDatabase.count_of_bytes_append hbytes, hmissing, hone]

/-! ## Enrolling twice -/

/-- What an enrollment keeps of a store that it changes where it lies, and what it finds the
second time. -/
structure EnrollsOnce {σ : Type} (u : Update) (store : InPlaceStore σ) (s : σ)
    (t : SignatureType) (data : Bytes) : Prop where
  /-- It answers what `apply` does, and changes the store as a whole or not at all. -/
  atomic : u.applyInPlace store = InPlace.atomic (u.apply store.toVariableStore)
  /-- After one that wrote, another one finds the entry and changes nothing. -/
  again : ∀ {a size s'}, (u.applyInPlace store).run s = .ok (.written a size) s' →
    ∃ place db, (u.applyInPlace store).run s' = .ok (.alreadyPresent place) s' ∧
      current (store.get s') u.target = .ok db ∧ db.StandsAt place t data
  /-- There is never more than one such entry, unless there were more before. -/
  bounded : ∀ {db}, current (store.get s) u.target = .ok db →
    ∃ db', current (store.get (u.leaves store s)) u.target = .ok db' ∧
      db'.count t data ≤ max 1 (db.count t data)
  /-- Contents that are no database are left alone. -/
  unreadable : ∀ {e}, current (store.get s) u.target = .error e → u.leaves store s = s

section Stores

variable {σ : Type}

theorem apply_of_found {store : VariableStore σ} {s : σ} {place : EntryLocation}
    (hplan : u.plan (store.get s) = .ok (.alreadyPresent place)) :
    u.apply store s = .ok (.alreadyPresent place, s) := by
  rw [apply, hplan]
  rfl

/-- An update that does not write leaves the store as it is. -/
theorem leaves_eq_or_written (u : Update) (store : InPlaceStore σ) (s : σ) :
    u.leaves store s = s ∨
      ∃ a size, u.apply store.toVariableStore s = .ok (.written a size, u.leaves store s) := by
  unfold leaves
  cases hrun : (u.applyInPlace store).run s with
  | error e s' => exact .inl (run_applyInPlace_eq_error.1 hrun).2
  | ok outcome s' =>
    have happly := run_applyInPlace_eq_ok.1 hrun
    cases outcome with
    | alreadyPresent place => exact .inl (eq_of_apply_eq_alreadyPresent happly)
    | written a size => exact .inr ⟨a, size, happly⟩

/-- An enrollment that writes does not find its entry before, and finds it once after. -/
theorem count_of_written {store : VariableStore σ} {s s' : σ} (h : u.Enrolls t data)
    (hstore : store.KeepsContents s) {a : Attributes} {size : Nat}
    (happly : u.apply store s = .ok (.written a size, s')) :
    ∃ db, current (store.get s') u.target = .ok db ∧ db.count t data = 1 := by
  obtain ⟨bs, hplan, -⟩ := apply_eq_written happly
  obtain ⟨old, hcurrent, hmissing⟩ := not_found_of_plan h hplan
  obtain ⟨⟨before, after, hbefore, hafter, hyields⟩, -⟩ := effect_of_written hstore happly
  rw [← bytes_of_current hbefore hcurrent] at hyields
  obtain ⟨new, rfl, hone⟩ := count_of_yields h hmissing hyields
  obtain ⟨db, hdb, hbytes⟩ := current_of_contents hafter new.parseDatabase_bytes
  refine ⟨db, hdb, ?_⟩
  rw [SignatureDatabase.count_of_lists,
    SignatureDatabase.lists_eq (hbytes ▸ new.parseDatabase_bytes),
    ← SignatureDatabase.count_of_lists, hone]

/-- Enrollments are made once in every store that keeps contents. -/
theorem enrollsOnce_of_keepsContents {store : InPlaceStore σ} {s : σ} (h : u.Enrolls t data)
    (hstore : store.KeepsContents s) : u.EnrollsOnce store s t data where
  atomic := u.applyInPlace_eq store
  again := by
    intro a size s' hrun
    obtain ⟨db, hcurrent, hone⟩ :=
      count_of_written h hstore (run_applyInPlace_eq_ok.1 hrun)
    cases hfound : db.findHash? t data with
    | none =>
      rw [SignatureDatabase.findHash?_eq_none, hone] at hfound
      cases hfound
    | some place =>
      have hagain := apply_of_found (plan_of_found h hcurrent hfound)
      exact ⟨place, db, run_applyInPlace_eq_ok.2 hagain, hcurrent,
        SignatureDatabase.standsAt_of_findHash? hfound⟩
  bounded := by
    intro db hcurrent
    rcases leaves_eq_or_written u store s with hsame | ⟨a, size, happly⟩
    · rw [hsame]
      exact ⟨db, hcurrent, Nat.le_max_right ..⟩
    · obtain ⟨db', hcurrent', hone⟩ := count_of_written h hstore happly
      exact ⟨db', hcurrent', Nat.le_trans (Nat.le_of_eq hone) (Nat.le_max_left ..)⟩
  unreadable := by
    intro e hcurrent
    rcases leaves_eq_or_written u store s with hsame | ⟨a, size, happly⟩
    · exact hsame
    · obtain ⟨bs, hplan, -⟩ := apply_eq_written happly
      obtain ⟨db, hcurrent', -⟩ := not_found_of_plan h hplan
      rw [hcurrent] at hcurrent'
      cases hcurrent'

end Stores

/-- **An entry is enrolled once**, in firmware in every state and in every flash store whose
walk succeeds and whose free space is erased, both followed through every change of the table or
the image. -/
theorem enrolls_once (h : u.Enrolls t data) :
    (∀ (scheme : SignatureScheme) (f : Firmware),
      u.EnrollsOnce (Firmware.InPlace.store scheme) f t data) ∧
    ∀ s : FlashStore, s.IsClean → u.EnrollsOnce FlashStore.InPlace.store s t data := by
  constructor
  · intro scheme f
    exact enrollsOnce_of_keepsContents h (Firmware.store_keepsContents scheme f)
  · intro s hclean
    exact enrollsOnce_of_keepsContents h (FlashStore.store_keepsContents hclean)

theorem blank_enrolls_hash_once :
    hashEnrollment.Enrolls .sha256 (List.replicate 32 7) ∧
      ∃ s s' : FlashStore, FlashStore.blank 512 = .ok s ∧ s.IsClean ∧
        (∃ a size, hashEnrollment.apply FlashStore.store s = .ok (.written a size, s')) ∧
        ∃ place db, hashEnrollment.apply FlashStore.store s' = .ok (.alreadyPresent place, s') ∧
          (hashEnrollment.applyInPlace FlashStore.InPlace.store).run s' =
            .ok (.alreadyPresent place) s' ∧
          current (FlashStore.store.get s') .db = .ok db ∧
          db.StandsAt place .sha256 (List.replicate 32 7) := by
  have henrolls : hashEnrollment.Enrolls .sha256 (List.replicate 32 7) :=
    .inl ⟨.shimLock, rfl, SignatureType.sha256.guid, by decide⟩
  obtain ⟨s, s', hblank, happly, hrun⟩ := hashEnrollment_writes
  have hclean := FlashStore.isClean_of_blank hblank
  obtain ⟨place, db, hagain, hcurrent, hstands⟩ :=
    ((enrolls_once henrolls).2 s hclean).again hrun
  exact ⟨henrolls, s, s', hblank, hclean, ⟨_, _, happly⟩, place, db,
    run_applyInPlace_eq_ok.1 hagain, hagain, hcurrent, hstands⟩

end Update

end SecureBoot
