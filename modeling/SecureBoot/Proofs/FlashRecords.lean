import SecureBoot.Proofs.Except
import SecureBoot.Proofs.Utf16
import SecureBoot.Store.Flash

/-!
# Records in flash

A record is read from its own bytes, whatever follows them (`read_append`).  Two
things happen to records: one is written, and read back as it was given, with its
name up to the first zero character (`read_encode_eq`, `read_encode`), and the
state of one is changed, which changes nothing else of it (`read_modify`).
-/

namespace SecureBoot

open Bytes

namespace FlashRecord

/-! ## Reading -/

/-- The size that the header of a record declares. -/
def extent (bs : Bytes) : Nat := headerSize + (bs.wordAt32 36).toNat + (bs.wordAt32 40).toNat

/-- The record that the fields at the start of bytes spell. -/
def spelled (offset : Nat) (bs : Bytes) : FlashRecord where
  offset
  state := bs.byteAt stateOffset
  id := {
    name := Text.Utf16.ofTerminated
      (Text.Utf16.ofBytes (bs.slice headerSize (bs.wordAt32 36).toNat))
    guid := Guid.ofBytes (bs.drop 44) }
  attributes := ⟨bs.wordAt32 4⟩
  monotonicCount := bs.wordAt64 8
  timestamp := Timestamp.ofBytes (bs.drop 16)
  publicKeyIndex := bs.wordAt32 32
  nameSize := (bs.wordAt32 36).toNat
  data := bs.slice (headerSize + (bs.wordAt32 36).toNat) (bs.wordAt32 40).toNat

/-- Bytes are read as the record that they spell, if the name has whole units and
the bytes are all there. -/
theorem read_eq_ok {offset : Nat} {bs : Bytes} {r : FlashRecord} :
    read offset bs = .ok r ↔
      (bs.wordAt32 36).toNat % 2 = 0 ∧ extent bs ≤ bs.length ∧ spelled offset bs = r := by
  simp only [read, guard_eq_ok, pure_eq_ok, extent, spelled, Nat.not_lt, ne_eq,
    Decidable.not_not]

/-- A record that was read has the size that its header declares. -/
theorem size_of_read {offset : Nat} {bs : Bytes} {r : FlashRecord} (h : read offset bs = .ok r) :
    r.size = extent bs := by
  obtain ⟨-, hfits, rfl⟩ := read_eq_ok.1 h
  unfold extent at hfits ⊢
  simp only [size, spelled, length_slice]
  omega

theorem offset_of_read {offset : Nat} {bs : Bytes} {r : FlashRecord}
    (h : read offset bs = .ok r) : r.offset = offset := by
  obtain ⟨-, -, rfl⟩ := read_eq_ok.1 h
  rfl

/-- The name of a record that was read has no zero character. -/
theorem zero_not_mem_of_read {offset : Nat} {bs : Bytes} {r : FlashRecord}
    (h : read offset bs = .ok r) : '\x00' ∉ r.id.name.toList := by
  obtain ⟨-, -, rfl⟩ := read_eq_ok.1 h
  exact Text.Utf16.zero_not_mem_ofTerminated _

theorem isAtStart_eq_true {bs : Bytes} :
    isAtStart bs = true ↔ headerSize ≤ bs.length ∧ bs.wordAt16 0 = marker := by
  rw [isAtStart, Bool.and_eq_true, decide_eq_true_eq, beq_iff_eq]

/-! ## What follows a record -/

variable {block rest : Bytes}

theorem isAtStart_append (h : headerSize ≤ block.length) :
    isAtStart (block ++ rest) = isAtStart block := by
  have hlen : headerSize ≤ (block ++ rest).length := by
    rw [List.length_append]
    omega
  rw [isAtStart, isAtStart, wordAt16_append_left (Nat.le_trans (by decide) h), decide_eq_true h,
    decide_eq_true hlen]

theorem extent_append (h : headerSize ≤ block.length) : extent (block ++ rest) = extent block := by
  unfold extent
  rw [wordAt32_append_left (Nat.le_trans (by decide) h),
    wordAt32_append_left (Nat.le_trans (by decide) h)]

theorem spelled_append (offset : Nat) (h : headerSize ≤ block.length)
    (hfits : extent block ≤ block.length) :
    spelled offset (block ++ rest) = spelled offset block := by
  have h60 : 60 ≤ block.length := h
  unfold extent at hfits
  have hname : (block ++ rest).wordAt32 36 = block.wordAt32 36 := wordAt32_append_left (by omega)
  have hdata : (block ++ rest).wordAt32 40 = block.wordAt32 40 := wordAt32_append_left (by omega)
  unfold spelled
  rw [hname, hdata, byteAt_append_left (Nat.lt_of_lt_of_le (by decide) h60),
    slice_append_left (by omega), slice_append_left hfits, wordAt32_append_left (by omega),
    wordAt32_append_left (by omega), wordAt64_append_left (by omega),
    List.drop_append_of_le_length (by omega), List.drop_append_of_le_length (by omega),
    Guid.ofBytes_append (by rw [List.length_drop]; omega),
    Timestamp.ofBytes_append (by rw [List.length_drop]; omega)]

/-- **What follows a record does not matter** to how it is read. -/
theorem read_append {offset : Nat} {r : FlashRecord} (h : headerSize ≤ block.length)
    (hfits : extent block ≤ block.length) :
    read offset (block ++ rest) = .ok r ↔ read offset block = .ok r := by
  have hlen : extent block ≤ (block ++ rest).length := by
    rw [List.length_append]
    omega
  rw [read_eq_ok, read_eq_ok, extent_append h, spelled_append offset h hfits,
    wordAt32_append_left (Nat.le_trans (by decide) h), and_iff_right hfits, and_iff_right hlen]

/-! ## Changing the state -/

/-- A record with its deleted bit cleared. -/
def cleared (r : FlashRecord) : FlashRecord := { r with state := r.state &&& deleted }

/-- Clears the deleted bit of a record that a predicate holds of. -/
def clearedIf (p : FlashRecord → Bool) (r : FlashRecord) : FlashRecord :=
  if p r then r.cleared else r

theorem clearedIf_of_pos {p : FlashRecord → Bool} {r : FlashRecord} (h : p r = true) :
    clearedIf p r = r.cleared := if_pos h

theorem clearedIf_of_neg {p : FlashRecord → Bool} {r : FlashRecord} (h : ¬p r = true) :
    clearedIf p r = r := if_neg h

theorem clearedIf_id (p : FlashRecord → Bool) (r : FlashRecord) : (clearedIf p r).id = r.id := by
  by_cases h : p r = true
  · rw [clearedIf_of_pos h]
    rfl
  · rw [clearedIf_of_neg h]

theorem clearedIf_size (p : FlashRecord → Bool) (r : FlashRecord) :
    (clearedIf p r).size = r.size := by
  by_cases h : p r = true
  · rw [clearedIf_of_pos h]
    rfl
  · rw [clearedIf_of_neg h]

/-- A valid record is no longer valid once its deleted bit is cleared. -/
theorem isValid_cleared {r : FlashRecord} (h : r.isValid = true) : r.cleared.isValid = false := by
  simp only [isValid, isLive, isInDeletedTransition, Bool.or_eq_true, beq_iff_eq] at h
  rcases h with h | h <;> simp only [isValid, isLive, isInDeletedTransition, cleared, h] <;> decide

variable {bs : Bytes} (f : UInt8 → UInt8)

theorem drop_modify_state {start : Nat} (h : stateOffset < start) :
    (bs.modify stateOffset f).drop start = bs.drop start :=
  List.drop_modify_of_lt f stateOffset start bs h

theorem slice_modify_state {start size : Nat} (h : stateOffset < start) :
    slice (bs.modify stateOffset f) start size = bs.slice start size := by
  rw [slice, drop_modify_state f h, slice]

theorem wordAt32_modify_state {start : Nat} (h : stateOffset < start) :
    wordAt32 (bs.modify stateOffset f) start = bs.wordAt32 start := by
  rw [wordAt32, slice_modify_state f h, wordAt32]

theorem isAtStart_modify : isAtStart (bs.modify stateOffset f) = isAtStart bs := by
  -- the mark stands in front of the state
  have hmark : slice (bs.modify stateOffset f) 0 2 = bs.slice 0 2 := by
    rw [slice_zero, slice_zero, List.take_modify, List.modify_eq_self]
    rw [List.length_take]
    exact Nat.min_le_left _ _
  rw [isAtStart, isAtStart, List.length_modify, wordAt16, wordAt16, hmark]

theorem extent_modify : extent (bs.modify stateOffset f) = extent bs := by
  unfold extent
  rw [wordAt32_modify_state f (by decide), wordAt32_modify_state f (by decide)]

theorem spelled_modify (offset : Nat) (h : headerSize ≤ bs.length) :
    spelled offset (bs.modify stateOffset f) =
      { spelled offset bs with state := f (spelled offset bs).state } := by
  have hpos : stateOffset < bs.length := Nat.lt_of_lt_of_le (by decide) h
  have hstate : byteAt (bs.modify stateOffset f) stateOffset = f (bs.byteAt stateOffset) := by
    rw [byteAt, byteAt, List.drop_eq_getElem_cons hpos,
      List.drop_eq_getElem_cons (by rwa [List.length_modify]), List.getElem_modify_eq]
    rfl
  have hbehind : stateOffset < headerSize := by decide
  unfold spelled
  rw [hstate, wordAt32_modify_state f (by decide), wordAt32_modify_state f (by decide),
    wordAt32_modify_state f (by decide), wordAt32_modify_state f (by decide),
    slice_modify_state f hbehind, slice_modify_state f (Nat.lt_add_right _ hbehind),
    drop_modify_state f (by decide), drop_modify_state f (by decide), wordAt64,
    slice_modify_state f (by decide), wordAt64]

/-- **A changed state is all that changes** in a record. -/
theorem read_modify {offset : Nat} {r : FlashRecord} (h : headerSize ≤ bs.length)
    (hread : read offset bs = .ok r) :
    read offset (bs.modify stateOffset f) = .ok { r with state := f r.state } := by
  obtain ⟨heven, hfits, rfl⟩ := read_eq_ok.1 hread
  refine read_eq_ok.2 ⟨?_, ?_, spelled_modify f offset h⟩
  · rw [wordAt32_modify_state f (by decide)]
    exact heven
  · rw [extent_modify, List.length_modify]
    exact hfits

/-! ## New records -/

/-- The name of a variable as it is stored. -/
def storedName (id : VariableId) : Bytes := Text.Utf16.toBytes (Text.Utf16.terminated id.name)

/-- The record that a write leaves at an offset. -/
def ofWrite (offset : Nat) (id : VariableId) (attributes : Attributes) (timestamp : Timestamp)
    (data : Bytes) : FlashRecord where
  offset
  state := added
  id
  attributes
  monotonicCount := 0
  timestamp
  publicKeyIndex := 0
  nameSize := (storedName id).length
  data

variable (id : VariableId) (a : Attributes) (t : Timestamp) (data : Bytes)

/-- A new record is in use. -/
theorem isLive_ofWrite (offset : Nat) : (ofWrite offset id a t data).isLive = true := rfl

theorem length_encode :
    (encode id a t data).length = headerSize + (storedName id).length + data.length := by
  simp [encode, storedName, headerSize]
  omega

theorem isAtStart_encode : isAtStart (encode id a t data) = true := by
  refine isAtStart_eq_true.2 ⟨?_, ?_⟩
  · rw [length_encode]
    omega
  · simp only [encode, List.append_assoc]
    exact wordAt16_ofUInt16 marker _

/-- The name and the data stand behind the header. -/
theorem exists_encode_eq : ∃ header : Bytes, header.length = headerSize ∧
    encode id a t data = header ++ storedName id ++ data := ⟨_, by simp [headerSize], rfl⟩

theorem slice_encode_name :
    (encode id a t data).slice headerSize (storedName id).length = storedName id := by
  obtain ⟨header, hheader, hencode⟩ := exists_encode_eq id a t data
  rw [hencode, List.append_assoc, slice_append_right (Nat.le_of_eq hheader), hheader,
    Nat.sub_self, slice_append_self]

/-- The variable that a stored variable is read as: the name ends before a zero character. -/
def storedId (id : VariableId) : VariableId := { id with name := Text.Utf16.beforeZero id.name }

theorem storedId_eq_self {id : VariableId} (hname : '\x00' ∉ id.name.toList) :
    storedId id = id := by
  rw [storedId, Text.Utf16.beforeZero_eq_self hname]

/-- **A new record is read back as it was given**, if its size fits, but for what stands in its
name behind a zero character. -/
theorem read_encode_eq (offset : Nat) (hfits : (encode id a t data).length < UInt32.size) :
    read offset (encode id a t data) =
      .ok { ofWrite offset id a t data with id := storedId id } := by
  rw [length_encode] at hfits
  have hn : (wordAt32 (encode id a t data) 36).toNat = (storedName id).length := by
    simp only [encode, List.append_assoc]
    iterate 6 rw [wordAt32_append_right (by simp)]
    exact toNat_wordAt32_ofNatLE (by unfold storedName at hfits; omega) _
  have hd : (wordAt32 (encode id a t data) 40).toNat = data.length := by
    simp only [encode, List.append_assoc]
    iterate 7 rw [wordAt32_append_right (by simp)]
    exact toNat_wordAt32_ofNatLE (by omega) _
  obtain ⟨header, hheader, hencode⟩ := exists_encode_eq id a t data
  have hnameAt := slice_encode_name id a t data
  have hdataAt : slice (encode id a t data) (headerSize + (storedName id).length) data.length =
      data := by
    have hfront : (header ++ storedName id).length = headerSize + (storedName id).length := by
      rw [List.length_append, hheader]
    rw [hencode, slice_append_right (Nat.le_of_eq hfront), hfront, Nat.sub_self, slice,
      List.drop_zero, List.take_length]
  refine read_eq_ok.2 ⟨?_, ?_, ?_⟩
  · rw [hn, storedName, Text.Utf16.length_toBytes]
    omega
  · have hextent : extent (encode id a t data) = (encode id a t data).length := by
      rw [extent, hn, hd, length_encode]
    exact Nat.le_of_eq hextent
  · unfold spelled ofWrite storedId
    rw [hn, hd, hnameAt, hdataAt, storedName, Text.Utf16.ofTerminated_ofBytes]
    simp only [encode, List.append_assoc, mk.injEq, true_and, and_true]
    refine ⟨rfl, ?_, ?_, ?_, ?_, ?_⟩
    · iterate 8 rw [drop_append_right (by simp)]
      simp
    · iterate 2 rw [wordAt32_append_right (by simp)]
      exact congrArg Attributes.mk (wordAt32_ofUInt32 a.bits _)
    · iterate 3 rw [wordAt64_append_right (by simp)]
      exact wordAt64_zeros _
    · iterate 4 rw [drop_append_right (by simp)]
      simp
    · iterate 5 rw [wordAt32_append_right (by simp)]
      exact wordAt32_zeros _

/-- A new record is read back as it was given, if its name has no zero character and its
size fits. -/
theorem read_encode (offset : Nat) (hname : '\x00' ∉ id.name.toList)
    (hfits : (encode id a t data).length < UInt32.size) :
    read offset (encode id a t data) = .ok (ofWrite offset id a t data) := by
  rw [read_encode_eq id a t data offset hfits, storedId_eq_self hname]
  rfl

end FlashRecord

end SecureBoot
