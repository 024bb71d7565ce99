import SecureBoot.Proofs.Except
import SecureBoot.Proofs.WireForm
import SecureBoot.SignatureList

/-!
# Signature lists: encoder and parser

The parser of signature databases accepts exactly what the encoder produces.

* **Shape of a list** — `ListView.WellFormed` collects the checks on the sizes
  of a list in a buffer, and `SignatureList.Encodable` those on a list as a
  value; `ListView.checkGeometry_eq_ok` and `SignatureList.encode_eq_ok` tie them
  to the code.
* **Lists back to back** — `Consecutive` says that lists follow each other from
  an offset on.  `scanFrom_flatMap` finds consecutive lists in front of any
  bytes, `scanFrom_sound` says what the search found in any bytes at all, and
  `parseDatabase_eq_ok` puts both together.
* **Round trips** — `parse_encoded_lists` and `encode_parsed_lists`.
-/

namespace SecureBoot

open Bytes

/-! ## Headers and entries -/

namespace ListHeader

/-- A header is read back where it was written. -/
theorem ofBytes_toBytes (h : ListHeader) (rest : Bytes) : ofBytes (h.toBytes ++ rest) = h := by
  obtain ⟨type, listSize, headerSize, entrySize⟩ := h
  simp only [ofBytes, toBytes, List.append_assoc, mk.injEq]
  refine ⟨Guid.ofBytes_toBytes type _, ?_, ?_, ?_⟩
  · rw [wordAt32_append_right (by simp)]
    exact wordAt32_ofUInt32 listSize _
  · rw [wordAt32_append_right (by simp), wordAt32_append_right (by simp)]
    exact wordAt32_ofUInt32 headerSize _
  · rw [wordAt32_append_right (by simp), wordAt32_append_right (by simp),
      wordAt32_append_right (by simp)]
    exact wordAt32_ofUInt32 entrySize _

/-- What a header is read from is written again. -/
theorem toBytes_ofBytes {bs : Bytes} (h : size ≤ bs.length) :
    (ofBytes bs).toBytes = bs.take size := by
  rw [size] at h
  rw [toBytes, ofBytes, Guid.toBytes_ofBytes (by omega), ofUInt32_wordAt32 (by omega),
    ofUInt32_wordAt32 (by omega), ofUInt32_wordAt32 (by omega), take_append_slice,
    take_append_slice, take_append_slice]
  rfl

theorem ofBytes_append_left {a b : Bytes} (h : size ≤ a.length) : ofBytes (a ++ b) = ofBytes a := by
  have ha : (ofBytes a).toBytes ++ a.drop size = a := by
    rw [toBytes_ofBytes h, List.take_append_drop]
  calc ofBytes (a ++ b) = ofBytes ((ofBytes a).toBytes ++ (a.drop size ++ b)) := by
        rw [← List.append_assoc, ha]
    _ = ofBytes a := ofBytes_toBytes _ _

end ListHeader

/-- The size of entries with data of one size. -/
theorem length_flatMap_toBytes {es : List SignatureEntry} {dataSize : Nat}
    (h : ∀ e ∈ es, e.data.length = dataSize) :
    (es.flatMap SignatureEntry.toBytes).length =
      (SignatureEntry.ownerSize + dataSize) * es.length := by
  induction es with
  | nil => simp
  | cons e es ih =>
    rw [List.forall_mem_cons] at h
    rw [List.flatMap_cons, List.length_append, ih h.2, SignatureEntry.toBytes, List.length_append,
      Guid.length_toBytes, h.1, List.length_cons, Nat.mul_succ, SignatureEntry.ownerSize]
    omega

namespace ListView

/-- Entries are cut where they were put together. -/
theorem cutEntries_flatMap {es : List SignatureEntry} {dataSize : Nat}
    (h : ∀ e ∈ es, e.data.length = dataSize) :
    cutEntries (SignatureEntry.ownerSize + dataSize) es.length
      (es.flatMap SignatureEntry.toBytes) = es := by
  induction es with
  | nil => rfl
  | cons e es ih =>
    rw [List.forall_mem_cons] at h
    have hl : e.toBytes.length = SignatureEntry.ownerSize + dataSize := by
      rw [SignatureEntry.toBytes, List.length_append, Guid.length_toBytes, h.1]
      rfl
    rw [List.length_cons, List.flatMap_cons, cutEntries, List.take_left' hl, List.drop_left' hl,
      ih h.2]
    simp only [SignatureEntry.toBytes, List.append_assoc, Guid.ofBytes_toBytes,
      List.drop_left' (Guid.length_toBytes e.owner), SignatureEntry.ownerSize]

/-- Entries that were cut give the bytes they were cut from. -/
theorem flatMap_cutEntries {entrySize : Nat} (h : SignatureEntry.ownerSize ≤ entrySize) :
    ∀ (count : Nat) (bs : Bytes), entrySize * count = bs.length →
      (cutEntries entrySize count bs).flatMap SignatureEntry.toBytes = bs := by
  intro count
  induction count with
  | zero =>
    intro bs hl
    exact (List.eq_nil_of_length_eq_zero hl.symm).symm
  | succ count ih =>
    intro bs hl
    rw [Nat.mul_succ] at hl
    have hrest : entrySize * count = (bs.drop entrySize).length := by rw [List.length_drop]; omega
    have howner : (Guid.ofBytes bs).toBytes =
        (bs.take entrySize).take SignatureEntry.ownerSize := by
      rw [SignatureEntry.ownerSize] at h ⊢
      rw [Guid.toBytes_ofBytes (by omega), List.take_take, Nat.min_eq_left h]
    rw [cutEntries, List.flatMap_cons, ih _ hrest, SignatureEntry.toBytes, howner,
      List.take_append_drop, List.take_append_drop]

theorem length_cutEntries (entrySize : Nat) :
    ∀ (count : Nat) (bs : Bytes), (cutEntries entrySize count bs).length = count := by
  intro count
  induction count with
  | zero => intro bs; rfl
  | succ count ih => intro bs; rw [cutEntries, List.length_cons, ih]

/-- The data of an entry that was cut fill it after the owner. -/
theorem length_data_of_mem_cutEntries {entrySize : Nat} {e : SignatureEntry} :
    ∀ (count : Nat) (bs : Bytes), entrySize * count = bs.length →
      e ∈ cutEntries entrySize count bs →
      e.data.length = entrySize - SignatureEntry.ownerSize := by
  intro count
  induction count with
  | zero => intro bs _ he; simp [cutEntries] at he
  | succ count ih =>
    intro bs hl he
    rw [Nat.mul_succ] at hl
    have hrest : entrySize * count = (bs.drop entrySize).length := by rw [List.length_drop]; omega
    rw [cutEntries, List.mem_cons] at he
    rcases he with rfl | he
    · rw [List.length_drop, List.length_take, Nat.min_eq_left (by omega)]
    · exact ih _ hrest he

end ListView

/-! ## The shape of a list -/

/-- Whether a type takes data of a size. -/
def SignatureType.Takes (t : SignatureType) (size : Nat) : Prop :=
  ∀ n, t.dataSize? = some n → n = size

theorem SignatureType.filter_eq_none {t : SignatureType} {size : Nat} :
    t.dataSize?.filter (· != size) = none ↔ t.Takes size := by
  rw [Takes]
  cases t.dataSize? with
  | none => simp
  | some n => simp [Option.filter]

/-- A list that can be encoded with data of a size. -/
structure SignatureList.Encodable (l : SignatureList) (dataSize : Nat) : Prop where
  entries_ne : l.entries ≠ []
  data_length : ∀ e ∈ l.entries, e.data.length = dataSize
  takes : (SignatureType.ofGuid l.type).Takes dataSize
  size_lt : l.encodedSize dataSize < UInt32.size

/-- Encoding succeeds exactly on the lists that can be encoded. -/
theorem SignatureList.encode_eq_ok {l : SignatureList} {bs : Bytes} :
    l.encode = .ok bs ↔ ∃ dataSize, l.Encodable dataSize ∧ bs = l.toBytes dataSize := by
  obtain ⟨type, header, entries⟩ := l
  cases entries with
  | nil =>
    refine iff_of_false (fun h => by simp [encode] at h) ?_
    rintro ⟨dataSize, h, -⟩
    exact h.entries_ne rfl
  | cons first rest =>
    constructor
    · intro h
      simp only [encode] at h
      split at h
      · cases h
      · rename_i hmixed
        split at h
        · cases h
        · rename_i hfilter
          split at h
          · rename_i hsize
            refine ⟨first.data.length, ⟨by simp, ?_, ?_, hsize⟩, (Except.ok.inj h).symm⟩
            · simpa [List.find?_eq_none] using hmixed
            · exact SignatureType.filter_eq_none.1 hfilter
          · cases h
    · rintro ⟨dataSize, ⟨-, hdata, htakes, hsize⟩, rfl⟩
      have hfirst : first.data.length = dataSize := hdata first (List.mem_cons_self ..)
      have hmixed : (first :: rest).find? (·.data.length != dataSize) = none := by
        rw [List.find?_eq_none]
        intro e he
        simpa using hdata e he
      simp only [encode, hfirst, hmixed, SignatureType.filter_eq_none.2 htakes]
      exact if_pos hsize

namespace ListView

/-- What the geometry check accepts: a signature header inside the list, and
entries of a size that holds the owner and fits the type, which fill the rest. -/
structure WellFormed (l : ListView) : Prop where
  header_le : ListHeader.size + l.headerSize ≤ l.size
  owner_le : SignatureEntry.ownerSize ≤ l.entrySize
  region_ne : l.entryRegion.length ≠ 0
  whole : l.entryRegion.length % l.entrySize = 0
  takes : l.type.Takes (l.entrySize - SignatureEntry.ownerSize)

theorem signatureHeader_eq_ok {l : ListView} {bs : Bytes} :
    l.signatureHeader = .ok bs ↔ ListHeader.size + l.headerSize ≤ l.size ∧
      bs = l.bytes.slice ListHeader.size l.headerSize := by
  rw [signatureHeader]
  split
  · rename_i h
    rw [Except.ok.injEq, and_iff_right h]
    exact eq_comm
  · rename_i h
    exact iff_of_false (by simp) (fun hc => h hc.1)

theorem checkGeometry_eq_ok {l : ListView} : l.checkGeometry = .ok () ↔ l.WellFormed := by
  simp only [checkGeometry, bind_eq_ok, guard_eq_ok, signatureHeader_eq_ok]
  constructor
  · rintro ⟨-, ⟨hheader, -⟩, -, howner, hregion, hwhole, hsize⟩
    refine ⟨hheader, by omega, hregion, by simpa using hwhole, ?_⟩
    split at hsize
    · exact (throw_eq_ok.1 hsize).elim
    · rename_i hfilter
      exact SignatureType.filter_eq_none.1 hfilter
  · rintro ⟨hheader, howner, hregion, hwhole, htakes⟩
    have hpos : l.entrySize ≠ 0 := by rw [SignatureEntry.ownerSize] at howner; omega
    refine ⟨_, ⟨hheader, rfl⟩, hpos, by omega, hregion, by simpa using hwhole, ?_⟩
    rw [SignatureType.filter_eq_none.2 htakes]
    rfl

/-- The entries of a list of sound geometry. -/
def entryList (l : ListView) : List SignatureEntry :=
  cutEntries l.entrySize (l.entryRegion.length / l.entrySize) l.entryRegion

theorem entries_eq_ok {l : ListView} {es : List SignatureEntry} :
    l.entries = .ok es ↔ l.WellFormed ∧ es = l.entryList := by
  simp only [entries, bind_eq_ok, pure_eq_ok, ← checkGeometry_eq_ok, entryList]
  constructor
  · rintro ⟨⟨⟩, hcheck, rfl⟩
    exact ⟨hcheck, rfl⟩
  · rintro ⟨hcheck, rfl⟩
    exact ⟨(), hcheck, rfl⟩

/-- A list of sound geometry has as many entries as it is counted to have. -/
theorem WellFormed.entryCount_eq {l : ListView} (h : l.WellFormed) :
    l.entryCount = .ok l.entryList.length := by
  rw [entryCount, entries_eq_ok.2 ⟨h, rfl⟩]
  rfl

theorem WellFormed.mul_eq {l : ListView} (h : l.WellFormed) :
    l.entrySize * (l.entryRegion.length / l.entrySize) = l.entryRegion.length :=
  Nat.mul_div_cancel' (Nat.dvd_of_mod_eq_zero h.whole)

/-- The value of a list of sound geometry. -/
def value (l : ListView) : SignatureList :=
  ⟨l.header.type, l.bytes.slice ListHeader.size l.headerSize, l.entryList⟩

theorem toList_eq_ok {l : ListView} {v : SignatureList} :
    l.toList = .ok v ↔ l.WellFormed ∧ v = l.value := by
  simp only [toList, bind_eq_ok, pure_eq_ok, entries_eq_ok, signatureHeader_eq_ok]
  constructor
  · rintro ⟨-, ⟨-, rfl⟩, -, ⟨h, rfl⟩, rfl⟩
    exact ⟨h, rfl⟩
  · rintro ⟨h, rfl⟩
    exact ⟨_, ⟨h.header_le, rfl⟩, _, ⟨h, rfl⟩, rfl⟩

end ListView

/-! ## A list and its encoding -/

namespace SignatureList

theorem length_toBytes {l : SignatureList} {dataSize : Nat} (h : l.Encodable dataSize) :
    (l.toBytes dataSize).length = l.encodedSize dataSize := by
  rw [toBytes, List.length_append, List.length_append, ListHeader.length_toBytes,
    length_flatMap_toBytes h.data_length]
  rfl

theorem size_le_length_toBytes {l : SignatureList} {dataSize : Nat} (h : l.Encodable dataSize) :
    ListHeader.size ≤ (l.toBytes dataSize).length := by
  rw [length_toBytes h, encodedSize]
  omega

/-- An encoded list, standing at an offset. -/
def view (l : SignatureList) {dataSize : Nat} (h : l.Encodable dataSize) (offset : Nat) :
    ListView :=
  ⟨offset, l.toBytes dataSize, size_le_length_toBytes h⟩

section View

variable {l : SignatureList} {dataSize : Nat}

/-- The sizes of an encoded list fit their fields. -/
theorem sizes_lt (h : l.Encodable dataSize) : l.header.length < UInt32.size ∧
    SignatureEntry.ownerSize + dataSize < UInt32.size := by
  have hsize := h.size_lt
  have hcount : 0 < l.entries.length := List.length_pos_iff.2 h.entries_ne
  have hle := Nat.le_mul_of_pos_right (SignatureEntry.ownerSize + dataSize) hcount
  rw [encodedSize] at hsize
  constructor <;> omega

variable (h : l.Encodable dataSize) (offset : Nat)

theorem bytes_view : (l.view h offset).bytes = l.toBytes dataSize := rfl

theorem header_view : (l.view h offset).header =
    { type := l.type
      listSize := UInt32.ofNat (l.encodedSize dataSize)
      headerSize := UInt32.ofNat l.header.length
      entrySize := UInt32.ofNat (SignatureEntry.ownerSize + dataSize) } := by
  rw [ListView.header, bytes_view, toBytes, List.append_assoc, ListHeader.ofBytes_toBytes]

theorem headerSize_view : (l.view h offset).headerSize = l.header.length := by
  rw [ListView.headerSize, header_view, UInt32.toNat_ofNat_of_lt' (sizes_lt h).1]

theorem entrySize_view : (l.view h offset).entrySize = SignatureEntry.ownerSize + dataSize := by
  rw [ListView.entrySize, header_view, UInt32.toNat_ofNat_of_lt' (sizes_lt h).2]

theorem listSize_view : (l.view h offset).header.listSize.toNat = (l.view h offset).size := by
  rw [header_view, UInt32.toNat_ofNat_of_lt' h.size_lt, ListView.size, bytes_view, length_toBytes h]

theorem entryRegion_view : (l.view h offset).entryRegion =
    l.entries.flatMap SignatureEntry.toBytes := by
  rw [ListView.entryRegion, headerSize_view, bytes_view, toBytes]
  refine List.drop_left' ?_
  rw [List.length_append, ListHeader.length_toBytes, ListHeader.size]

theorem length_entryRegion_view : (l.view h offset).entryRegion.length =
    (SignatureEntry.ownerSize + dataSize) * l.entries.length := by
  rw [entryRegion_view, length_flatMap_toBytes h.data_length]

/-- The geometry of an encoded list is sound. -/
theorem wellFormed_view : (l.view h offset).WellFormed where
  header_le := by
    rw [headerSize_view, ListView.size, bytes_view, length_toBytes h, encodedSize]
    omega
  owner_le := by rw [entrySize_view]; omega
  region_ne := by
    have hcount : 0 < l.entries.length := List.length_pos_iff.2 h.entries_ne
    rw [length_entryRegion_view, SignatureEntry.ownerSize]
    exact Nat.ne_of_gt (Nat.mul_pos (by omega) hcount)
  whole := by
    rw [length_entryRegion_view, entrySize_view]
    exact Nat.mul_mod_right _ _
  takes := by
    rw [entrySize_view, Nat.add_sub_cancel_left, ListView.type, header_view]
    exact h.takes

/-- The value of an encoded list is the list. -/
theorem value_view : (l.view h offset).value = l := by
  have hheader : (l.view h offset).bytes.slice ListHeader.size l.header.length = l.header := by
    rw [bytes_view, toBytes, List.append_assoc, slice_append_right (by simp [ListHeader.size]),
      ListHeader.length_toBytes]
    exact slice_append_self l.header _
  have hentries : (l.view h offset).entryList = l.entries := by
    rw [ListView.entryList, length_entryRegion_view, entrySize_view, entryRegion_view,
      Nat.mul_div_cancel_left _ (by rw [SignatureEntry.ownerSize]; omega)]
    exact ListView.cutEntries_flatMap h.data_length
  rw [ListView.value, headerSize_view, hheader, hentries, header_view]

end View

end SignatureList

namespace ListView

section Value

variable {l : ListView}

/-- The entries of a list fill the bytes after its headers. -/
theorem WellFormed.flatMap_entries (h : l.WellFormed) :
    l.value.entries.flatMap SignatureEntry.toBytes = l.entryRegion :=
  flatMap_cutEntries h.owner_le _ _ h.mul_eq

/-- The signature header and the entries fill a list after its fixed header. -/
theorem WellFormed.bytes_eq (h : l.WellFormed) : l.bytes =
    l.header.toBytes ++ l.value.header ++ l.value.entries.flatMap SignatureEntry.toBytes := by
  have hfixed : l.header.toBytes = l.bytes.take ListHeader.size :=
    ListHeader.toBytes_ofBytes l.size_le
  rw [h.flatMap_entries, hfixed, value, take_append_slice, entryRegion, List.take_append_drop]

theorem WellFormed.data_length (h : l.WellFormed) : ∀ e ∈ l.value.entries,
    e.data.length = l.entrySize - SignatureEntry.ownerSize := by
  intro e he
  exact length_data_of_mem_cutEntries _ _ h.mul_eq he

theorem WellFormed.encodedSize_eq (h : l.WellFormed) :
    l.value.encodedSize (l.entrySize - SignatureEntry.ownerSize) = l.size := by
  have hlen := congrArg List.length h.bytes_eq
  rw [List.length_append, List.length_append, ListHeader.length_toBytes,
    length_flatMap_toBytes h.data_length] at hlen
  exact hlen.symm

/-- A list of sound geometry that declares its own size can be encoded. -/
theorem WellFormed.encodable (h : l.WellFormed)
    (hsize : l.header.listSize.toNat = l.size) :
    l.value.Encodable (l.entrySize - SignatureEntry.ownerSize) where
  entries_ne := by
    intro hnil
    have hcount := length_cutEntries l.entrySize (l.entryRegion.length / l.entrySize) l.entryRegion
    have hmul := h.mul_eq
    rw [← hcount, show cutEntries _ _ _ = [] from hnil, List.length_nil, Nat.mul_zero] at hmul
    exact h.region_ne hmul.symm
  data_length := h.data_length
  takes := h.takes
  size_lt := by
    rw [h.encodedSize_eq, ← hsize]
    exact l.header.listSize.toNat_lt

/-- A signature header has the size that the list declares for it. -/
theorem WellFormed.length_header (h : l.WellFormed) : l.value.header.length = l.headerSize := by
  have hle := h.header_le
  rw [value, length_slice]
  rw [size] at hle
  omega

/-- An entry is an owner and the data behind it. -/
theorem WellFormed.owner_add (h : l.WellFormed) :
    SignatureEntry.ownerSize + (l.entrySize - SignatureEntry.ownerSize) = l.entrySize :=
  Nat.add_sub_cancel' h.owner_le

/-- Encoding the value of such a list gives its own bytes. -/
theorem WellFormed.encode_value (h : l.WellFormed)
    (hsize : l.header.listSize.toNat = l.size) :
    l.value.encode = .ok l.bytes := by
  refine SignatureList.encode_eq_ok.2 ⟨_, h.encodable hsize, ?_⟩
  rw [SignatureList.toBytes, h.encodedSize_eq, h.owner_add, h.length_header, ← hsize, entrySize,
    headerSize, UInt32.ofNat_toNat, UInt32.ofNat_toNat, UInt32.ofNat_toNat]
  exact h.bytes_eq

end Value

end ListView

/-! ## Lists back to back -/

/-- Lists that follow each other from an offset on, each as long as it declares. -/
def Consecutive : Nat → List ListView → Prop
  | _, [] => True
  | offset, l :: ls =>
    l.offset = offset ∧ l.header.listSize.toNat = l.size ∧ Consecutive (offset + l.size) ls

namespace Consecutive

variable {ls after : List ListView} {l : ListView}

theorem append : ∀ {offset : Nat}, Consecutive offset (ls ++ after) ↔
    Consecutive offset ls ∧ Consecutive (offset + (ls.flatMap (·.bytes)).length) after := by
  induction ls with
  | nil => intro offset; exact (and_iff_right trivial).symm
  | cons l ls ih =>
    intro offset
    rw [List.cons_append, Consecutive, ih, Consecutive, List.flatMap_cons, List.length_append,
      ← Nat.add_assoc, and_assoc, and_assoc]
    rfl

/-- Where a list stands among others. -/
theorem offset_eq {offset : Nat} (h : Consecutive offset (ls ++ l :: after)) :
    l.offset = offset + (ls.flatMap (·.bytes)).length := (append.1 h).2.1

end Consecutive

/-- A list is read where it stands in front of any bytes and declares its own
size, and nowhere else. -/
theorem ListView.read_eq_ok {offset : Nat} {bs : Bytes} {l : ListView} :
    read offset bs = .ok l ↔
      l.offset = offset ∧ l.header.listSize.toNat = l.size ∧ ∃ rest, bs = l.bytes ++ rest := by
  constructor
  · intro h
    simp only [read, bind_eq_ok, guard_last_eq_ok, ListHeader.read] at h
    obtain ⟨header, hheader, -, h⟩ := h
    split at hheader
    · cases hheader
    split at h
    · rename_i hlen hdeclared
      cases hheader
      cases h
      have hprefix : bs.take (ListHeader.ofBytes bs).listSize.toNat ++
          bs.drop (ListHeader.ofBytes bs).listSize.toNat = bs := List.take_append_drop _ _
      have hle : ListHeader.size ≤ (bs.take (ListHeader.ofBytes bs).listSize.toNat).length := by
        rw [hdeclared.2]
        exact hdeclared.1
      refine ⟨rfl, ?_, _, hprefix.symm⟩
      rw [header, ← ListHeader.ofBytes_append_left hle, hprefix]
      exact hdeclared.2.symm
    · exact (throw_eq_ok.1 h).elim
  · rintro ⟨rfl, hsize, rest, rfl⟩
    obtain ⟨offset, bytes, size_le⟩ := l
    have hheader : ListHeader.ofBytes (bytes ++ rest) = ListHeader.ofBytes bytes :=
      ListHeader.ofBytes_append_left size_le
    have hdeclared : (ListHeader.ofBytes bytes).listSize.toNat = bytes.length := hsize
    have henough : ¬((bytes ++ rest).take ListHeader.size).length < ListHeader.size := by
      rw [List.length_take, List.length_append]
      omega
    simp only [read, ListHeader.read, if_neg henough, ok_bind, hheader, hdeclared,
      List.take_left, if_neg (Nat.not_lt.2 size_le), dif_pos (And.intro size_le trivial)]
    rfl

/-- The search in no bytes finds nothing. -/
theorem scanFrom_nil (offset : Nat) : scanFrom offset [] = ⟨[], none, 0⟩ := by
  rw [scanFrom]
  rfl

/-- The search finds lists that stand in front of any bytes, and goes on behind
them. -/
theorem scanFrom_flatMap {ls : List ListView} (rest : Bytes) :
    ∀ {offset : Nat}, Consecutive offset ls →
      scanFrom offset (ls.flatMap (·.bytes) ++ rest) =
        { scanFrom (offset + (ls.flatMap (·.bytes)).length) rest with
          lists := ls ++ (scanFrom (offset + (ls.flatMap (·.bytes)).length) rest).lists } := by
  induction ls with
  | nil => intro offset _; rfl
  | cons l ls ih =>
    rintro offset ⟨hoffset, hsize, hrest⟩
    have hne : ¬(l.bytes ++ (ls.flatMap (·.bytes) ++ rest)).isEmpty = true := by
      have hle := l.size_le
      rw [List.isEmpty_iff, List.append_eq_nil_iff]
      rintro ⟨hnil, -⟩
      rw [hnil] at hle
      exact absurd hle (by decide)
    have hread : ListView.read offset (l.bytes ++ (ls.flatMap (·.bytes) ++ rest)) = .ok l :=
      ListView.read_eq_ok.2 ⟨hoffset, hsize, _, rfl⟩
    have hdrop : (l.bytes ++ (ls.flatMap (·.bytes) ++ rest)).drop l.size =
        ls.flatMap (·.bytes) ++ rest := List.drop_left
    rw [List.flatMap_cons, List.append_assoc, scanFrom, dif_neg hne, hread]
    simp only [hdrop]
    rw [ih hrest, List.length_append, Nat.add_assoc]
    rfl

/-- What the search found: consecutive lists in front of the bytes it did not
use, and an error exactly when there are some. -/
theorem scanFrom_sound (offset : Nat) (bs : Bytes) :
    ∃ tail, Consecutive offset (scanFrom offset bs).lists ∧
      bs = (scanFrom offset bs).lists.flatMap (·.bytes) ++ tail ∧
      (scanFrom offset bs).remaining = tail.length ∧
      ((scanFrom offset bs).stoppedBy = none ↔ tail = []) := by
  induction offset, bs using scanFrom.induct with
  | case1 offset bs hempty =>
    rw [List.isEmpty_iff] at hempty
    subst hempty
    rw [scanFrom_nil]
    exact ⟨[], trivial, rfl, rfl, by simp⟩
  | case2 offset bs hne e hread =>
    rw [scanFrom, dif_neg hne, hread]
    refine ⟨bs, trivial, rfl, rfl, ?_⟩
    simpa using hne
  | case3 offset bs hne l hread ih =>
    obtain ⟨hoffset, hsize, rest, rfl⟩ := ListView.read_eq_ok.1 hread
    have hdrop : (l.bytes ++ rest).drop l.size = rest := List.drop_left
    rw [hdrop] at ih
    obtain ⟨tail, hrest, heq, hremaining, hstopped⟩ := ih
    rw [scanFrom, dif_neg hne, hread]
    simp only [hdrop]
    refine ⟨tail, ⟨hoffset, hsize, hrest⟩, ?_, hremaining, hstopped⟩
    rw [List.flatMap_cons, List.append_assoc, ← heq]

theorem ListView.discard_entries_eq_ok {l : ListView} :
    discard l.entries = .ok () ↔ l.WellFormed := by
  have hmap : discard l.entries = (fun _ => ()) <$> l.entries := rfl
  rw [hmap, map_eq_ok]
  constructor
  · rintro ⟨es, hes, -⟩
    exact (entries_eq_ok.1 hes).1
  · intro h
    exact ⟨_, entries_eq_ok.2 ⟨h, rfl⟩, rfl⟩

/-- A byte string is a signature database exactly when it is consecutive lists of
sound geometry and nothing else. -/
theorem parseDatabase_eq_ok {bs : Bytes} {ls : List ListView} :
    parseDatabase bs = .ok ls ↔
      Consecutive 0 ls ∧ bs = ls.flatMap (·.bytes) ∧ ∀ l ∈ ls, l.WellFormed := by
  simp only [parseDatabase, bind_eq_ok, scan]
  constructor
  · rintro ⟨⟨⟩, hentries, h⟩
    obtain ⟨tail, hconsecutive, heq, -, hstopped⟩ := scanFrom_sound 0 bs
    split at h
    · exact (throw_eq_ok.1 h).elim
    · rename_i hnone
      have hlists := pure_eq_ok.1 h
      rw [hstopped.1 hnone, List.append_nil, hlists] at heq
      rw [hlists] at hconsecutive hentries
      refine ⟨hconsecutive, heq, ?_⟩
      intro l hl
      exact ListView.discard_entries_eq_ok.1 (forM_eq_ok.1 hentries l hl)
  · rintro ⟨hconsecutive, rfl, hwf⟩
    have hscan := scanFrom_flatMap [] hconsecutive
    rw [List.append_nil, scanFrom_nil] at hscan
    simp only [hscan, List.append_nil]
    refine ⟨(), forM_eq_ok.2 ?_, rfl⟩
    intro l hl
    exact ListView.discard_entries_eq_ok.2 (hwf l hl)

theorem parseDatabase_nil : parseDatabase [] = .ok [] :=
  parseDatabase_eq_ok.2 ⟨trivial, rfl, by simp⟩

/-! ## Round trips -/

/-- Encoded lists, put one after the other from an offset on. -/
theorem exists_consecutive_of_mapM_encode {ls : List SignatureList} :
    ∀ {blocks : List Bytes} (offset : Nat), ls.mapM SignatureList.encode = .ok blocks →
      ∃ views, Consecutive offset views ∧ views.map (·.bytes) = blocks ∧
        (∀ l ∈ views, l.WellFormed) ∧ views.mapM ListView.toList = .ok ls := by
  induction ls with
  | nil =>
    intro blocks offset h
    rw [mapM_nil_eq_ok] at h
    exact ⟨[], trivial, h.symm, by simp, rfl⟩
  | cons l ls ih =>
    intro blocks offset h
    obtain ⟨block, blocks, hblock, hblocks, rfl⟩ := mapM_cons_eq_ok.1 h
    obtain ⟨dataSize, hl, rfl⟩ := SignatureList.encode_eq_ok.1 hblock
    obtain ⟨views, hconsecutive, hbytes, hwf, hvalues⟩ :=
      ih (offset + (l.view hl offset).size) hblocks
    have hview : (l.view hl offset).WellFormed := SignatureList.wellFormed_view hl offset
    refine ⟨l.view hl offset :: views, ⟨rfl, SignatureList.listSize_view hl offset, hconsecutive⟩,
      ?_, ?_, mapM_cons_eq_ok.2 ⟨l, ls, ?_, hvalues, rfl⟩⟩
    · rw [List.map_cons, hbytes, SignatureList.bytes_view]
    · rw [List.forall_mem_cons]
      exact ⟨hview, hwf⟩
    · exact ListView.toList_eq_ok.2 ⟨hview, (SignatureList.value_view hl offset).symm⟩

/-- **Parsing encoded lists gives the lists back.** -/
theorem parse_encoded_lists (ls : List SignatureList) (blocks : List Bytes)
    (h : ls.mapM SignatureList.encode = .ok blocks) :
    ∃ views, parseDatabase blocks.flatten = .ok views ∧ views.map (·.bytes) = blocks ∧
      views.mapM ListView.toList = .ok ls := by
  obtain ⟨views, hconsecutive, hbytes, hwf, hvalues⟩ := exists_consecutive_of_mapM_encode 0 h
  refine ⟨views, parseDatabase_eq_ok.2 ⟨hconsecutive, ?_, hwf⟩, hbytes, hvalues⟩
  rw [← hbytes, List.flatMap_def]

/-- A certificate list with a signature header and two entries without data, a
digest, and an entry of a type without a registered meaning. -/
def mixedLists : List SignatureList :=
  [⟨SignatureType.x509.guid, [1, 2, 3], [⟨.globalVariable, []⟩, ⟨.shimLock, []⟩]⟩,
    ⟨SignatureType.sha1.guid, [], [⟨.shimLock, List.replicate 20 7⟩]⟩,
    ⟨.shimLock, [], [⟨.globalVariable, [5]⟩]⟩]

/-- The encodings of `mixedLists`. -/
def mixedBlocks : List Bytes :=
  [mixedLists[0].toBytes 0, mixedLists[1].toBytes 20, mixedLists[2].toBytes 1]

theorem parse_encoded_lists_mixed :
    mixedLists.mapM SignatureList.encode = .ok mixedBlocks ∧
      ∃ views, parseDatabase mixedBlocks.flatten = .ok views ∧
        views.map (·.bytes) = mixedBlocks ∧ views.mapM ListView.toList = .ok mixedLists :=
  ⟨by rfl, parse_encoded_lists mixedLists mixedBlocks (by rfl)⟩

theorem Consecutive.listSize_eq {ls : List ListView} :
    ∀ {offset : Nat}, Consecutive offset ls → ∀ l ∈ ls, l.header.listSize.toNat = l.size := by
  induction ls with
  | nil => intro offset _ l hl; cases hl
  | cons l ls ih =>
    rintro offset ⟨-, hsize, hrest⟩
    rw [List.forall_mem_cons]
    exact ⟨hsize, ih hrest⟩

/-- **Encoding parsed lists gives the bytes back.**  In particular only the bytes
of encoded lists are parsed. -/
theorem encode_parsed_lists (bs : Bytes) (views : List ListView)
    (h : parseDatabase bs = .ok views) :
    ∃ ls, views.mapM ListView.toList = .ok ls ∧
      ls.mapM SignatureList.encode = .ok (views.map (·.bytes)) ∧
      (views.map (·.bytes)).flatten = bs := by
  obtain ⟨hconsecutive, rfl, hwf⟩ := parseDatabase_eq_ok.1 h
  refine ⟨views.map ListView.value, ?_, ?_, (List.flatMap_def ..).symm⟩
  · refine mapM_eq_ok_map ?_
    intro l hl
    exact ListView.toList_eq_ok.2 ⟨hwf l hl, rfl⟩
  · rw [List.mapM_map]
    refine mapM_eq_ok_map ?_
    intro l hl
    exact (hwf l hl).encode_value (hconsecutive.listSize_eq l hl)

theorem encode_parsed_lists_mixed :
    ∃ views, parseDatabase mixedBlocks.flatten = .ok views ∧
      ∃ ls, views.mapM ListView.toList = .ok ls ∧
        ls.mapM SignatureList.encode = .ok (views.map (·.bytes)) ∧
        (views.map (·.bytes)).flatten = mixedBlocks.flatten := by
  have hencode : mixedLists.mapM SignatureList.encode = .ok mixedBlocks := by rfl
  obtain ⟨views, hconsecutive, hbytes, hwf, -⟩ := exists_consecutive_of_mapM_encode 0 hencode
  have hparse : parseDatabase mixedBlocks.flatten = .ok views := by
    refine parseDatabase_eq_ok.2 ⟨hconsecutive, ?_, hwf⟩
    rw [← hbytes, List.flatMap_def]
  exact ⟨views, hparse, encode_parsed_lists _ views hparse⟩

end SecureBoot
