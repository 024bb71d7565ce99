import SecureBoot.Proofs.AppendedLists

/-!
# Deleting from a database

A deletion cuts bytes out of a database and, where the list stays, writes the header of the list
again with a smaller size.  The result is parsed again, so a wrong offset or size would be
refused or, worse, give other lists.

* `ListView.Sound.bytes_withoutEntry` — the patched bytes of a list are the encoding of the
  list without the entry;
* `SignatureDatabase.exists_of_views` — lists of sound geometry are a database wherever they are
  put;
* `SignatureDatabase.deletes_exactly` — what a deletion refuses and what it leaves.
-/

namespace SecureBoot

open Bytes

/-! ## Entries of one size -/

section Entries

variable {es : List SignatureEntry} {dataSize count : Nat}

theorem length_flatMap_take (h : ∀ e ∈ es, e.data.length = dataSize) (hcount : count ≤ es.length) :
    ((es.take count).flatMap SignatureEntry.toBytes).length =
      (SignatureEntry.ownerSize + dataSize) * count := by
  rw [length_flatMap_toBytes fun e he => h e (List.mem_of_mem_take he), List.length_take,
    Nat.min_eq_left hcount]

/-- The bytes of the first entries. -/
theorem take_flatMap_toBytes (h : ∀ e ∈ es, e.data.length = dataSize) (hcount : count ≤ es.length) :
    (es.flatMap SignatureEntry.toBytes).take ((SignatureEntry.ownerSize + dataSize) * count) =
      (es.take count).flatMap SignatureEntry.toBytes := by
  conv => lhs; rw [← List.take_append_drop count es]
  rw [List.flatMap_append, List.take_left' (length_flatMap_take h hcount)]

/-- The bytes of the other entries. -/
theorem drop_flatMap_toBytes (h : ∀ e ∈ es, e.data.length = dataSize) (hcount : count ≤ es.length) :
    (es.flatMap SignatureEntry.toBytes).drop ((SignatureEntry.ownerSize + dataSize) * count) =
      (es.drop count).flatMap SignatureEntry.toBytes := by
  conv => lhs; rw [← List.take_append_drop count es]
  rw [List.flatMap_append, List.drop_left' (length_flatMap_take h hcount)]

end Entries

/-! ## A list without one of its entries -/

/-- A list without one of its entries. -/
def SignatureList.withoutEntry (l : SignatureList) (entry : Nat) : SignatureList :=
  { l with entries := l.entries.eraseIdx entry }

/-- Without one of at least two entries, a list can still be encoded. -/
theorem SignatureList.Encodable.withoutEntry {l : SignatureList} {dataSize entry : Nat}
    (h : l.Encodable dataSize) (hentry : entry < l.entries.length)
    (hcount : l.entries.length ≠ 1) : (l.withoutEntry entry).Encodable dataSize where
  entries_ne := by
    have hlength := List.length_eraseIdx_of_lt hentry
    intro hnil
    rw [show l.entries.eraseIdx entry = [] from hnil, List.length_nil] at hlength
    omega
  data_length := fun e he => h.data_length e (List.mem_of_mem_eraseIdx he)
  takes := h.takes
  size_lt := by
    refine Nat.lt_of_le_of_lt ?_ h.size_lt
    have hle : (l.entries.eraseIdx entry).length ≤ l.entries.length := List.length_eraseIdx_le ..
    exact Nat.add_le_add_left (Nat.mul_le_mul_left _ hle) _

namespace ListView

/-- A list as it stands in a database: of sound geometry and as long as it declares. -/
structure Sound (l : ListView) : Prop where
  wellFormed : l.WellFormed
  listSize_eq : l.header.listSize.toNat = l.size

variable {l : ListView} {entry : Nat}

/-- An entry fits its list. -/
theorem WellFormed.entrySize_le (h : l.WellFormed) : l.entrySize ≤ l.size := by
  have hregion : l.entrySize ≤ l.entryRegion.length :=
    Nat.le_of_dvd (Nat.pos_of_ne_zero h.region_ne) (Nat.dvd_of_mod_eq_zero h.whole)
  have hlength : l.entryRegion.length ≤ l.size := by
    rw [entryRegion, List.length_drop, size]
    omega
  omega

/-- The declared size of a list can be lowered by the size of an entry. -/
theorem Sound.entrySize_le_listSize (h : l.Sound) : l.header.entrySize ≤ l.header.listSize := by
  rw [UInt32.le_iff_toNat_le, h.listSize_eq]
  exact h.wellFormed.entrySize_le

/-- Without one of its entries, a list is smaller by the size of an entry. -/
theorem WellFormed.encodedSize_withoutEntry (h : l.WellFormed)
    (hentry : entry < l.value.entries.length) :
    (l.value.withoutEntry entry).encodedSize (l.entrySize - SignatureEntry.ownerSize) +
      l.entrySize = l.size := by
  have hcount : (l.value.entries.eraseIdx entry).length + 1 = l.value.entries.length := by
    rw [List.length_eraseIdx_of_lt hentry]
    omega
  rw [← h.encodedSize_eq, SignatureList.encodedSize, SignatureList.encodedSize, h.owner_add,
    ← hcount, Nat.mul_succ]
  exact Nat.add_assoc ..

/-- A header with the lower size is that of the list without the entry. -/
theorem Sound.listSize_withoutEntry (h : l.Sound) (hentry : entry < l.value.entries.length) :
    UInt32.ofNat ((l.value.withoutEntry entry).encodedSize
        (l.entrySize - SignatureEntry.ownerSize)) =
      l.header.listSize - l.header.entrySize := by
  have hlower : (l.header.listSize - l.header.entrySize).toNat =
      (l.value.withoutEntry entry).encodedSize (l.entrySize - SignatureEntry.ownerSize) := by
    rw [UInt32.toNat_sub_of_le _ _ h.entrySize_le_listSize, h.listSize_eq,
      ← h.wellFormed.encodedSize_withoutEntry hentry]
    exact Nat.add_sub_cancel _ l.entrySize
  rw [← hlower, UInt32.ofNat_toNat]

/-- **Patching a list removes an entry.**  A header with a smaller size, and the bytes of the
list without those of an entry, are the encoding of the list without the entry. -/
theorem Sound.bytes_withoutEntry (h : l.Sound) (hentry : entry < l.value.entries.length) :
    ({ l.header with listSize := l.header.listSize - l.header.entrySize } : ListHeader).toBytes ++
        l.bytes.slice ListHeader.size (l.headerSize + entry * l.entrySize) ++
        l.bytes.drop (ListHeader.size + l.headerSize + entry * l.entrySize + l.entrySize) =
      (l.value.withoutEntry entry).toBytes (l.entrySize - SignatureEntry.ownerSize) := by
  have hwf := h.wellFormed
  have hbefore : l.bytes.slice ListHeader.size (l.headerSize + entry * l.entrySize) =
      l.value.header ++ (l.value.entries.take entry).flatMap SignatureEntry.toBytes := by
    rw [← take_flatMap_toBytes hwf.data_length (Nat.le_of_lt hentry), hwf.flatMap_entries,
      hwf.owner_add, Nat.mul_comm, ← slice_add]
    rfl
  have hafter : l.bytes.drop (ListHeader.size + l.headerSize + entry * l.entrySize + l.entrySize) =
      (l.value.entries.drop (entry + 1)).flatMap SignatureEntry.toBytes := by
    rw [← drop_flatMap_toBytes hwf.data_length hentry, hwf.flatMap_entries, hwf.owner_add,
      entryRegion, List.drop_drop, Nat.mul_succ, Nat.mul_comm, Nat.add_assoc]
  have hheader : (l.value.withoutEntry entry).header.length = l.headerSize := hwf.length_header
  rw [SignatureList.toBytes, h.listSize_withoutEntry hentry, hwf.owner_add, hheader,
    hbefore, hafter, SignatureList.withoutEntry, List.eraseIdx_eq_take_drop_succ,
    List.flatMap_append, headerSize, entrySize, UInt32.ofNat_toNat, UInt32.ofNat_toNat]
  simp only [List.append_assoc]
  rfl

/-- The bytes of an entry are inside its list. -/
theorem WellFormed.entry_end_le (h : l.WellFormed) (hentry : entry < l.value.entries.length) :
    ListHeader.size + l.headerSize + entry * l.entrySize + l.entrySize ≤ l.size := by
  have hends : (entry + 1) * l.entrySize ≤ l.value.entries.length * l.entrySize :=
    Nat.mul_le_mul_right _ hentry
  rw [← h.encodedSize_eq, SignatureList.encodedSize, h.owner_add, h.length_header,
    Nat.mul_comm l.entrySize]
  rw [Nat.succ_mul] at hends
  omega

end ListView

namespace SignatureDatabase

/-! ## Lists that are put together -/

/-- The lists of a database, as values and as the bytes that they stand in. -/
structure Consists (db : SignatureDatabase) (ls : List SignatureList) (blocks : List Bytes) :
    Prop where
  values : db.lists.mapM ListView.toList = .ok ls
  bytes_each : db.lists.map (·.bytes) = blocks
  bytes_all : db.bytes = blocks.flatten

/-- The lists of a database are in order as values. -/
theorem consists (db : SignatureDatabase) :
    db.Consists (db.lists.map ListView.value) (db.lists.map (·.bytes)) where
  values := mapM_eq_ok_map fun _ hl =>
    ListView.toList_eq_ok.2 ⟨wellFormed_of_mem_lists hl, rfl⟩
  bytes_each := rfl
  bytes_all := by
    rw [← List.flatMap_def]
    exact (parseDatabase_eq_ok.1 db.parseDatabase_bytes).2.1

/-- Lists of sound geometry are a database wherever they are put. -/
theorem exists_of_views {views : List ListView}
    (h : ∀ l ∈ views, l.Sound) :
    ∃ db, ofBytes (views.flatMap (·.bytes)) = .ok db ∧ db.bytes = views.flatMap (·.bytes) ∧
      db.Consists (views.map ListView.value) (views.map (·.bytes)) := by
  have hencode : (views.map ListView.value).mapM SignatureList.encode =
      .ok (views.map (·.bytes)) := by
    rw [List.mapM_map]
    refine mapM_eq_ok_map ?_
    intro l hl
    exact (h l hl).wellFormed.encode_value (h l hl).listSize_eq
  obtain ⟨placed, hconsecutive, hblocks, hwf, hvalues⟩ :=
    exists_consecutive_of_mapM_encode 0 hencode
  have hbytes : views.flatMap (·.bytes) = placed.flatMap (·.bytes) := by
    rw [List.flatMap_def, List.flatMap_def, hblocks]
  obtain ⟨db, hdb, hlists⟩ :=
    exists_of_parseDatabase (parseDatabase_eq_ok.2 ⟨hconsecutive, hbytes, hwf⟩)
  refine ⟨db, ofBytes_eq_ok.2 hdb, hdb, ?_, ?_, ?_⟩
  · rw [hlists]
    exact hvalues
  · rw [hlists]
    exact hblocks
  · rw [hdb, List.flatMap_def]

variable {db : SignatureDatabase} {index entry : Nat} {l : ListView}

theorem sound_of_mem_lists (h : l ∈ db.lists) : l.Sound where
  wellFormed := wellFormed_of_mem_lists h
  listSize_eq := (parseDatabase_eq_ok.1 db.parseDatabase_bytes).1.listSize_eq l h

/-- The lists of a database around one of them, and the bytes of all. -/
theorem exists_around (h : db.lists[index]? = some l) :
    ∃ before after, db.lists = before ++ l :: after ∧ before.length = index ∧
      db.bytes = before.flatMap (·.bytes) ++ (l.bytes ++ after.flatMap (·.bytes)) ∧
      l.offset = (before.flatMap (·.bytes)).length := by
  obtain ⟨hindex, rfl⟩ := List.getElem?_eq_some_iff.1 h
  have hlists : db.lists = db.lists.take index ++ db.lists[index] :: db.lists.drop (index + 1) := by
    rw [List.getElem_cons_drop, List.take_append_drop]
  obtain ⟨hconsecutive, hbytes, -⟩ := parseDatabase_eq_ok.1 db.parseDatabase_bytes
  refine ⟨_, _, hlists, ?_, ?_, ?_⟩
  · rw [List.length_take, Nat.min_eq_left (Nat.le_of_lt hindex)]
  · conv at hbytes => rhs; rw [hlists]
    rwa [List.flatMap_append, List.flatMap_cons] at hbytes
  · rw [hlists] at hconsecutive
    have hoffset := hconsecutive.offset_eq
    rwa [Nat.zero_add] at hoffset

theorem sound_of_around {before after : List ListView} (h : db.lists = before ++ l :: after) :
    ∀ x ∈ before ++ after, x.Sound := by
  intro x hx
  have hmem : x ∈ db.lists := by
    rw [h]
    rcases List.mem_append.1 hx with hx | hx
    · exact List.mem_append_left _ hx
    · exact List.mem_append_right _ (List.mem_cons_of_mem _ hx)
  exact sound_of_mem_lists hmem

/-! ## The two deletions -/

/-- **A list that is there can be deleted.** -/
theorem exists_deleteList (h : db.lists[index]? = some l) :
    ∃ db', db.deleteList index = .ok db' ∧
      db'.Consists ((db.lists.map ListView.value).eraseIdx index)
        ((db.lists.map (·.bytes)).eraseIdx index) ∧
      db'.bytes.length + l.size = db.bytes.length := by
  obtain ⟨before, after, hlists, rfl, hbytes, hoffset⟩ := exists_around h
  obtain ⟨db', hdb', hbytes', hconsists⟩ := exists_of_views (sound_of_around hlists)
  have hcut : db.bytes.take l.offset ++ db.bytes.drop (l.offset + l.size) =
      (before ++ after).flatMap (·.bytes) := by
    rw [hbytes, hoffset, List.take_left, ← List.drop_drop, List.drop_left, ListView.size,
      List.drop_left, List.flatMap_append]
  refine ⟨db', ?_, ?_, ?_⟩
  · rw [deleteList, list, h, ok_bind, hcut]
    exact hdb'
  · rw [hlists]
    simpa [List.eraseIdx_append_of_length_le] using hconsists
  · rw [hbytes', hbytes, List.flatMap_append, List.length_append, List.length_append,
      List.length_append, ListView.size]
    omega

/-- The bytes of a database in which the list `l` has lost an entry. -/
def patched (db : SignatureDatabase) (l : ListView) (entry : Nat) : Bytes :=
  db.bytes.take l.offset ++
    ({ l.header with listSize := l.header.listSize - l.header.entrySize } : ListHeader).toBytes ++
    l.bytes.slice ListHeader.size (l.headerSize + entry * l.entrySize) ++
    db.bytes.drop (l.offset +
      (ListHeader.size + l.headerSize + entry * l.entrySize + l.entrySize))

/-- What the deletion of an entry does with a list that is there. -/
theorem deleteEntry_eq (h : db.lists[index]? = some l) (entry : Nat) :
    db.deleteEntry index entry =
      if l.value.entries.length ≤ entry then
        .error (.entryNotFound index entry l.value.entries.length)
      else if l.value.entries.length = 1 then db.deleteList index
      else ofBytes (db.patched l entry) := by
  have hcount : ofListError l.entryCount = .ok l.value.entries.length := by
    rw [ListView.WellFormed.entryCount_eq (wellFormed_of_mem_lists (List.mem_of_getElem? h))]
    rfl
  rw [deleteEntry, list, h, ok_bind, hcount, ok_bind]
  by_cases hentry : l.value.entries.length ≤ entry
  · rw [if_pos hentry, if_pos hentry]
    rfl
  · rw [if_neg hentry, if_neg hentry, patched]
    simp only [Nat.add_assoc, Nat.add_sub_cancel_left]

/-- **One of several entries of a list can be deleted.** -/
theorem exists_deleteEntry (h : db.lists[index]? = some l)
    (hentry : entry < l.value.entries.length) (hcount : l.value.entries.length ≠ 1) :
    ∃ block db', (l.value.withoutEntry entry).encode = .ok block ∧
      db.deleteEntry index entry = .ok db' ∧
      db'.Consists ((db.lists.map ListView.value).set index (l.value.withoutEntry entry))
        ((db.lists.map (·.bytes)).set index block) ∧
      db'.bytes.length + l.entrySize = db.bytes.length := by
  have hsound : l.Sound := sound_of_mem_lists (List.mem_of_getElem? h)
  have hwf := hsound.wellFormed
  have hencodable := (hwf.encodable hsound.listSize_eq).withoutEntry hentry hcount
  have hdelete := deleteEntry_eq h entry
  rw [if_neg (Nat.not_le.2 hentry), if_neg hcount] at hdelete
  obtain ⟨before, after, hlists, rfl, hbytes, hoffset⟩ := exists_around h
  -- the list without the entry takes the place of the list
  have hviews : ∀ x ∈ before ++ (l.value.withoutEntry entry).view hencodable l.offset :: after,
      x.Sound := by
    intro x hx
    rcases List.mem_append.1 hx with hx | hx
    · exact sound_of_around hlists x (List.mem_append_left _ hx)
    · rcases List.mem_cons.1 hx with rfl | hx
      · exact ⟨SignatureList.wellFormed_view hencodable l.offset,
          SignatureList.listSize_view hencodable l.offset⟩
      · exact sound_of_around hlists x (List.mem_append_right _ hx)
  obtain ⟨db', hdb', hbytes', hconsists⟩ := exists_of_views hviews
  have hpatched : db.patched l entry =
      (before ++ (l.value.withoutEntry entry).view hencodable l.offset :: after).flatMap
        (·.bytes) := by
    rw [patched, hbytes, hoffset, List.take_left, ← List.drop_drop, List.drop_left,
      List.drop_append_of_le_length (hwf.entry_end_le hentry), List.flatMap_append,
      List.flatMap_cons, SignatureList.bytes_view, ← hsound.bytes_withoutEntry hentry]
    simp only [List.append_assoc]
  refine ⟨_, db', SignatureList.encode_eq_ok.2 ⟨_, hencodable, rfl⟩, ?_, ?_, ?_⟩
  · rw [hdelete, hpatched]
    exact hdb'
  · rw [hlists]
    simpa [SignatureList.value_view, SignatureList.bytes_view] using hconsists
  · have hsize := hwf.encodedSize_withoutEntry hentry
    rw [ListView.size] at hsize
    rw [hbytes', hbytes, List.flatMap_append, List.flatMap_cons, SignatureList.bytes_view,
      List.length_append, List.length_append, List.length_append, List.length_append,
      SignatureList.length_toBytes hencodable]
    omega

/-! ## The main result -/

/-- **A deletion removes one entry or one list and nothing else.**  It fails for a list or an
entry that is not there, and for nothing else: what it leaves is a database again, and no list is
declared smaller than one of its entries.  Lists are compared as values, which are types,
signature headers and entries, and as the bytes that they are stored in. -/
theorem deletes_exactly (db : SignatureDatabase) (index entry : Nat) :
    ∃ ls blocks, db.Consists ls blocks ∧
      (ls.length ≤ index →
        db.deleteList index = .error (.listNotFound index ls.length) ∧
        db.deleteEntry index entry = .error (.listNotFound index ls.length)) ∧
      (index < ls.length → ∃ l v, db.lists[index]? = some l ∧ ls[index]? = some v ∧
        l.header.entrySize ≤ l.header.listSize ∧
        (∃ db', db.deleteList index = .ok db' ∧
          db'.Consists (ls.eraseIdx index) (blocks.eraseIdx index) ∧
          db'.bytes.length + l.size = db.bytes.length) ∧
        (v.entries.length ≤ entry →
          db.deleteEntry index entry = .error (.entryNotFound index entry v.entries.length)) ∧
        (entry < v.entries.length → v.entries.length = 1 →
          db.deleteEntry index entry = db.deleteList index) ∧
        (entry < v.entries.length → v.entries.length ≠ 1 →
          ∃ block db', (v.withoutEntry entry).encode = .ok block ∧
            db.deleteEntry index entry = .ok db' ∧
            db'.Consists (ls.set index (v.withoutEntry entry)) (blocks.set index block) ∧
            db'.bytes.length + l.entrySize = db.bytes.length)) := by
  refine ⟨_, _, db.consists, ?_, ?_⟩
  · intro hindex
    rw [List.length_map] at hindex ⊢
    have hlist : db.list index = .error (.listNotFound index db.lists.length) := by
      rw [list, List.getElem?_eq_none hindex]
    rw [deleteList, deleteEntry, hlist]
    exact ⟨rfl, rfl⟩
  · intro hindex
    rw [List.length_map] at hindex
    have hl : db.lists[index]? = some db.lists[index] := List.getElem?_eq_getElem hindex
    have hsound := sound_of_mem_lists (List.mem_of_getElem? hl)
    refine ⟨_, db.lists[index].value, hl, ?_, hsound.entrySize_le_listSize, exists_deleteList hl,
      ?_, ?_, ?_⟩
    · rw [List.getElem?_map, hl]
      rfl
    · intro hentry
      rw [deleteEntry_eq hl, if_pos hentry]
    · intro hentry hcount
      rw [deleteEntry_eq hl, if_neg (Nat.not_le.2 hentry), if_pos hcount]
    · intro hentry hcount
      exact exists_deleteEntry hl hentry hcount

-- the second of two entries, behind a signature header
example : ((ofBytes mixedBlocks.flatten).bind (·.deleteEntry 0 1)).toOption.map (·.bytes) =
    some ((mixedLists[0].withoutEntry 1).toBytes 0 ++ mixedBlocks[1] ++ mixedBlocks[2]) := by
  decide +kernel

end SignatureDatabase

end SecureBoot
