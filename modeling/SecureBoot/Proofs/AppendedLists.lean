import SecureBoot.Proofs.Authorization

/-!
# Databases one after the other

A signature database can be followed by anything.  Its lists are found as if nothing
followed, although the search is told how much does, and what follows is parsed as if it
stood alone, except that offsets count from the start of the whole buffer.

* `scanFrom_shift` — the search finds the same lists and the same fault wherever the bytes
  stand;
* `parseDatabase_append_eq` — a database in front of other bytes;
* `SignatureDatabase.entries_of_append` — where the entries of both stand in the database that
  is made of them;
* `parsed_behind_database` — parsing, appending and searching together.
-/

namespace SecureBoot

/-! ## Lists and faults further behind -/

namespace ListError

/-- The same fault in a buffer with more bytes in front.  Faults of lists that are only being
encoded stand nowhere. -/
def shift (distance : Nat) : ListError → ListError
  | truncatedHeader offset remaining => truncatedHeader (distance + offset) remaining
  | truncated offset declared remaining => truncated (distance + offset) declared remaining
  | listTooSmall offset declared => listTooSmall (distance + offset) declared
  | headerOverrun offset headerSize => headerOverrun (distance + offset) headerSize
  | zeroEntrySize offset => zeroEntrySize (distance + offset)
  | entryTooSmall offset entrySize => entryTooSmall (distance + offset) entrySize
  | emptyEntryRegion offset => emptyEntryRegion (distance + offset)
  | unevenEntries offset region entrySize => unevenEntries (distance + offset) region entrySize
  | entrySizeMismatch offset type expected actual =>
    entrySizeMismatch (distance + offset) type expected actual
  | trailingBytes offset extra => trailingBytes (distance + offset) extra
  | mixedEntrySizes expected actual => mixedEntrySizes expected actual
  | noEntries => noEntries
  | tooLarge size => tooLarge size

end ListError

namespace ListView

/-- The same list in a buffer with more bytes in front. -/
def shift (distance : Nat) (l : ListView) : ListView :=
  { l with offset := distance + l.offset }

@[simp] theorem type_shift (distance : Nat) (l : ListView) :
    (l.shift distance).type = l.type := rfl

/-- A list is read wherever it stands, and so are its faults. -/
theorem read_shift (distance offset : Nat) (bs : Bytes) :
    read (distance + offset) bs =
      ((read offset bs).map (shift distance)).mapError (.shift distance) := by
  simp only [read, ListHeader.read]
  by_cases hheader : (bs.take ListHeader.size).length < ListHeader.size
  · rw [if_pos hheader, if_pos hheader]
    rfl
  · simp only [if_neg hheader, ok_bind]
    split
    · rfl
    · split
      · rfl
      · rfl

theorem signatureHeader_shift (distance : Nat) (l : ListView) :
    (l.shift distance).signatureHeader = l.signatureHeader.mapError (.shift distance) := by
  show (if ListHeader.size + l.headerSize ≤ l.size then _ else _) = _
  rw [signatureHeader]
  split
  · rfl
  · rfl

/-- The geometry of a list does not depend on where it stands, but its faults say where. -/
theorem checkGeometry_shift (distance : Nat) (l : ListView) :
    (l.shift distance).checkGeometry = l.checkGeometry.mapError (.shift distance) := by
  rw [checkGeometry, checkGeometry, signatureHeader_shift]
  cases l.signatureHeader with
  | error e => rfl
  | ok bs =>
    -- the checks are made one after the other, on the same sizes
    refine guard_eq_mapError rfl ?_
    refine guard_eq_mapError rfl ?_
    refine guard_eq_mapError rfl ?_
    refine guard_eq_mapError rfl ?_
    have hentry : (l.shift distance).entrySize = l.entrySize := rfl
    rw [type_shift, hentry]
    dsimp only
    cases l.type.dataSize?.filter (· != l.entrySize - SignatureEntry.ownerSize) with
    | none => rfl
    | some expected => rfl

theorem entries_shift (distance : Nat) (l : ListView) :
    (l.shift distance).entries = l.entries.mapError (.shift distance) := by
  rw [entries, entries, checkGeometry_shift]
  cases l.checkGeometry <;> rfl

end ListView

/-! ## The search -/

/-- What is found in a buffer with more bytes in front. -/
def Scan.shift (distance : Nat) (s : Scan) : Scan :=
  ⟨s.lists.map (·.shift distance), s.stoppedBy.map (·.shift distance), s.remaining⟩

/-- The search finds the same in the same bytes wherever they stand. -/
theorem scanFrom_shift (distance offset : Nat) (bs : Bytes) :
    scanFrom (distance + offset) bs = (scanFrom offset bs).shift distance := by
  induction offset, bs using scanFrom.induct with
  | case1 offset bs hempty =>
    rw [List.isEmpty_iff] at hempty
    subst hempty
    rw [scanFrom_nil, scanFrom_nil]
    rfl
  | case2 offset bs hne e hread =>
    rw [scanFrom, scanFrom, dif_neg hne, dif_neg hne, ListView.read_shift, hread]
    rfl
  | case3 offset bs hne l hread ih =>
    rw [scanFrom, scanFrom, dif_neg hne, dif_neg hne, ListView.read_shift, hread]
    have hbehind : scanFrom (distance + offset + l.size) (bs.drop l.size) =
        (scanFrom (offset + l.size) (bs.drop l.size)).shift distance := by
      rw [Nat.add_assoc, ih]
    show ({ scanFrom (distance + offset + l.size) (bs.drop l.size) with
      lists := l.shift distance ::
        (scanFrom (distance + offset + l.size) (bs.drop l.size)).lists } : Scan) = _
    rw [hbehind]
    rfl

/-- The lists that were found, if each of them and the end of the search are in order. -/
def Scan.check (s : Scan) : Except ListError (List ListView) := do
  s.lists.forM fun l => discard l.entries
  match s.stoppedBy with
  | some e => throw e
  | none => return s.lists

theorem parseDatabase_eq_check (bs : Bytes) : parseDatabase bs = (scan bs).check := rfl

/-- Where lists are moved, the error about their entries moves as far. -/
theorem forM_entries_shift (distance : Nat) (ls : List ListView) :
    (ls.map (·.shift distance)).forM (fun l => discard l.entries) =
      (ls.forM fun l => discard l.entries).mapError (ListError.shift distance) := by
  induction ls with
  | nil => rfl
  | cons l ls ih =>
    show (discard (l.shift distance).entries >>= fun _ => (ls.map (·.shift distance)).forM _) =
      (discard l.entries >>= fun _ => ls.forM _).mapError _
    rw [ListView.entries_shift, ih]
    cases l.entries <;> rfl

theorem Scan.check_shift (distance : Nat) (s : Scan) :
    (s.shift distance).check =
      (s.check.map (List.map (·.shift distance))).mapError (.shift distance) := by
  obtain ⟨lists, stoppedBy, remaining⟩ := s
  rw [check, check, shift, forM_entries_shift]
  cases lists.forM fun l => discard l.entries with
  | error e => rfl
  | ok _ => cases stoppedBy <;> rfl

/-- The entries of lists of sound geometry are not refused. -/
theorem forM_entries_append {ls : List ListView} (h : ∀ l ∈ ls, l.WellFormed)
    (rest : List ListView) :
    (ls ++ rest).forM (fun l => discard l.entries) = rest.forM fun l => discard l.entries := by
  induction ls with
  | nil => rfl
  | cons l ls ih =>
    obtain ⟨hl, hls⟩ := List.forall_mem_cons.1 h
    show (discard l.entries >>= fun _ => (ls ++ rest).forM _) = _
    rw [ListView.discard_entries_eq_ok.2 hl, ok_bind]
    exact ih hls

/-- Lists of sound geometry that were found before the others are in order. -/
theorem Scan.check_append {ls : List ListView} (h : ∀ l ∈ ls, l.WellFormed) (s : Scan) :
    check { s with lists := ls ++ s.lists } = s.check.map (ls ++ ·) := by
  rw [check, check, forM_entries_append h]
  cases s.lists.forM fun l => discard l.entries with
  | error e => rfl
  | ok _ => cases s.stoppedBy <;> rfl

/-- **A database in front moves what follows it.** -/
theorem parseDatabase_append_eq {bs bs' : Bytes} {ls : List ListView}
    (h : parseDatabase bs = .ok ls) :
    parseDatabase (bs ++ bs') = ((parseDatabase bs').map
      fun ls' => ls ++ ls'.map (·.shift bs.length)).mapError (.shift bs.length) := by
  obtain ⟨hconsecutive, hbytes, hwf⟩ := parseDatabase_eq_ok.1 h
  have hscan : scan (bs ++ bs') = { (scan bs').shift bs.length with
      lists := ls ++ ((scan bs').shift bs.length).lists } := by
    rw [scan, scan, ← scanFrom_shift, hbytes, scanFrom_flatMap bs' hconsecutive, Nat.zero_add,
      Nat.add_zero]
  rw [parseDatabase_eq_check, parseDatabase_eq_check, hscan, Scan.check_append hwf,
    Scan.check_shift]
  cases (scan bs').check <;> rfl

/-- Two databases, one after the other, are a database with the lists of both. -/
theorem parseDatabase_append {bs bs' : Bytes} {ls ls' : List ListView}
    (h : parseDatabase bs = .ok ls) (h' : parseDatabase bs' = .ok ls') :
    parseDatabase (bs ++ bs') = .ok (ls ++ ls'.map (·.shift bs.length)) := by
  rw [parseDatabase_append_eq h, h']
  rfl

/-! ## Entries of both -/

/-- The same place in a database with more lists in front. -/
def EntryLocation.shift (count : Nat) (place : EntryLocation) : EntryLocation :=
  { place with list := count + place.list }

/-- The same entry in a database with more lists in front. -/
def LocatedEntry.shift (count : Nat) (x : LocatedEntry) : LocatedEntry :=
  { x with location := x.location.shift count }

namespace SignatureDatabase

variable {db new merged : SignatureDatabase}

theorem locate_shift (distance count index : Nat) (l : ListView) :
    locate (index + count) (l.shift distance) = (locate index l).map (·.shift count) := by
  rw [locate, locate, ListView.entries_shift, Nat.add_comm]
  cases l.entries with
  | error e => rfl
  | ok es =>
    refine List.ext_getElem (by simp [mapError_ok]) fun i _ _ => ?_
    simp [mapError_ok, LocatedEntry.shift, EntryLocation.shift]

/-- The lists of a database are those that its bytes parse as. -/
theorem lists_eq {lists : List ListView} (h : parseDatabase db.bytes = .ok lists) :
    db.lists = lists := by
  rw [parseDatabase_bytes] at h
  exact Except.ok.inj h

theorem lists_of_append (h : merged.bytes = db.bytes ++ new.bytes) :
    merged.lists = db.lists ++ new.lists.map (·.shift db.bytes.length) := by
  refine lists_eq ?_
  rw [h]
  exact parseDatabase_append db.parseDatabase_bytes new.parseDatabase_bytes

/-- **A database with lists behind it has the entries of both**, the new ones behind its own. -/
theorem entries_of_append (h : merged.bytes = db.bytes ++ new.bytes) :
    merged.entries = db.entries ++ new.entries.map (·.shift db.lists.length) := by
  have hbehind : (new.lists.map (·.shift db.bytes.length)).mapIdx
      (fun i => locate (i + db.lists.length)) =
        (new.lists.mapIdx locate).map (List.map (·.shift db.lists.length)) := by
    refine List.ext_getElem (by simp) fun i _ _ => ?_
    simp only [List.getElem_mapIdx, List.getElem_map, locate_shift]
  rw [entries, entries, entries, lists_of_append h, List.mapIdx_append, List.flatten_append,
    hbehind, List.map_flatten]

/-- The search goes through the lists of the first database, and then through the others. -/
theorem find?_of_append (h : merged.bytes = db.bytes ++ new.bytes)
    (p : SignatureType → SignatureEntry → Bool) :
    merged.find? p = (db.find? p).or ((new.find? p).map (·.shift db.lists.length)) := by
  rw [find?, entries_of_append h, List.find?_append, List.find?_map, find?, find?]
  cases db.entries.find? fun e => p e.type e.entry with
  | some x => rfl
  | none =>
    rw [Option.none_or, Option.map_none, Option.none_or, Option.map_map, Option.map_map]
    rfl

/-- To append a database succeeds. -/
theorem exists_append (db new : SignatureDatabase) :
    ∃ merged, db.append new.bytes = .ok merged ∧ merged.bytes = db.bytes ++ new.bytes := by
  obtain ⟨merged, hbytes, -⟩ := exists_of_parseDatabase
    (parseDatabase_append db.parseDatabase_bytes new.parseDatabase_bytes)
  refine ⟨merged, ?_, hbytes⟩
  rw [append, new.parseDatabase_bytes]
  exact ofBytes_eq_ok.2 hbytes

/-- To append anything else fails, with the fault of what should be appended. -/
theorem append_eq_error {bs : Bytes} {e : ListError} (h : parseDatabase bs = .error e) :
    db.append bs = .error (.format e) := by
  rw [append, h]
  rfl

end SignatureDatabase

/-! ## The main result -/

/-- **What follows a database is parsed as if it stood alone.**  Bytes behind a database are
lists behind its lists if they are a database, and their fault is the fault of the whole if
they are not, with every offset raised by the length of the first database.  So a database
takes exactly other databases at its end, and a search in the result finds what it finds in
the first one or else, behind the lists of that one, what it finds in the other. -/
theorem parsed_behind_database {a : Bytes} {ls : List ListView} (h : parseDatabase a = .ok ls)
    (b : Bytes) :
    (∀ ls', parseDatabase b = .ok ls' →
      parseDatabase (a ++ b) = .ok (ls ++ ls'.map (·.shift a.length))) ∧
    (∀ e, parseDatabase b = .error e → parseDatabase (a ++ b) = .error (e.shift a.length)) ∧
    ∀ db : SignatureDatabase, db.bytes = a →
      (∀ e, parseDatabase b = .error e → db.append b = .error (.format e)) ∧
      ∀ new : SignatureDatabase, new.bytes = b →
        ∃ merged, db.append b = .ok merged ∧ merged.bytes = a ++ b ∧
          ∀ p, merged.find? p = (db.find? p).or ((new.find? p).map (·.shift ls.length)) := by
  refine ⟨fun ls' h' => parseDatabase_append h h', fun e h' => ?_, ?_⟩
  · rw [parseDatabase_append_eq h, h']
    rfl
  · rintro db rfl
    refine ⟨fun e h' => SignatureDatabase.append_eq_error h', ?_⟩
    rintro new rfl
    obtain ⟨merged, happend, hbytes⟩ := db.exists_append new
    refine ⟨merged, happend, hbytes, fun p => ?_⟩
    rw [SignatureDatabase.find?_of_append hbytes, SignatureDatabase.lists_eq h]

theorem mixed_parsed_behind :
    ∃ ls, parseDatabase mixedBlocks.flatten = .ok ls ∧
      parseDatabase (mixedBlocks.flatten ++ [0]) = .error (.truncatedHeader 172 1) := by
  have hparse : (parseDatabase mixedBlocks.flatten).isOk = true := by decide +kernel
  cases h : parseDatabase mixedBlocks.flatten with
  | error e =>
    rw [h] at hparse
    cases hparse
  | ok ls =>
    have hfault : parseDatabase [0] = .error (.truncatedHeader 0 1) := by
      rw [parseDatabase, scan, scanFrom]
      rfl
    exact ⟨ls, rfl, (parsed_behind_database h [0]).2.1 _ hfault⟩

end SecureBoot
