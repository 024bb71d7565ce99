import Mathlib.Data.List.Chain
import Mathlib.Logic.Function.Iterate
import Mathlib.Logic.Relation
import SecureBoot.Proofs.OpenedImages

/-!
# The walk over the records of a flash store

The walk trusts nothing that it reads.  The sizes of a name and of data are words of the
image, so any image may declare any sizes, and the store may end anywhere between two records.
This file follows the walk offset by offset through the image.

* `FlashStore.turn` — one turn of the walk over the image itself, in which bytes that are not
  there are a result of their own;
* `FlashStore.walk_induction` — the three things that can stand at an offset, and the only
  induction over a walk;
* `FlashStore.exists_turns` — the turns come to an end, with the result of the walk;
* `FlashStore.LaysOut`, `FlashStore.FirstFault` — what a walk says that succeeds, and one that
  fails;
* `FlashStore.walk_confined` — all of this for every image that can be opened.
-/

namespace SecureBoot

open FlashRecord Bytes

namespace Bytes

/-- The `size` bytes from `start` on, if the string has them all. -/
def slice? (bs : Bytes) (start size : Nat) : Option Bytes :=
  if start + size ≤ bs.length then some (bs.slice start size) else none

theorem slice?_eq_some {bs : Bytes} {start size : Nat} (h : start + size ≤ bs.length) :
    bs.slice? start size = some (bs.slice start size) := if_pos h

end Bytes

/-! ## Records in parts -/

namespace FlashRecord

/-- The record of a header, a name and data that were read one by one. -/
def ofParts (offset : Nat) (header name data : Bytes) : FlashRecord where
  offset
  state := header.byteAt stateOffset
  id := {
    name := Text.Utf16.ofTerminated (Text.Utf16.ofBytes name)
    guid := Guid.ofBytes (header.drop 44) }
  attributes := ⟨header.wordAt32 4⟩
  monotonicCount := header.wordAt64 8
  timestamp := Timestamp.ofBytes (header.drop 16)
  publicKeyIndex := header.wordAt32 32
  nameSize := (header.wordAt32 36).toNat
  data

/-- The record that bytes spell is made of its header, name and data. -/
theorem spelled_eq_ofParts {bs : Bytes} (offset : Nat) (h : headerSize ≤ bs.length) :
    spelled offset bs = ofParts offset (bs.slice 0 headerSize)
      (bs.slice headerSize (bs.wordAt32 36).toNat)
      (bs.slice (headerSize + (bs.wordAt32 36).toNat) (bs.wordAt32 40).toNat) := by
  have hheader : (bs.slice 0 headerSize).length = 60 := by
    rw [length_slice, Nat.sub_zero, Nat.min_eq_left h]
    rfl
  have hcut : bs = bs.slice 0 headerSize ++ bs.drop headerSize :=
    (List.take_append_drop headerSize bs).symm
  have hdrop (n : Nat) (hn : n ≤ 60) :
      bs.drop n = (bs.slice 0 headerSize).drop n ++ bs.drop headerSize := by
    conv_lhs => rw [hcut]
    exact List.drop_append_of_le_length (by omega)
  unfold spelled ofParts
  rw [hdrop 44 (by omega), hdrop 16 (by omega),
    Guid.ofBytes_append (by rw [List.length_drop]; omega),
    Timestamp.ofBytes_append (by rw [List.length_drop]; omega), byteAt_slice (by decide),
    wordAt32_slice (by decide), wordAt32_slice (by decide), wordAt32_slice (by decide), wordAt64,
    wordAt64, slice_slice (by decide)]
  simp only [Nat.zero_add]

end FlashRecord

namespace FlashStore

variable {s : FlashStore} {offset : Nat}

/-! ## What stands at an offset -/

/-- The bytes from an offset to the end of the store. -/
def rest (s : FlashStore) (offset : Nat) : Bytes := s.image.slice offset (s.finish - offset)

/-- The size of the name that the header at an offset declares. -/
def nameSizeAt (s : FlashStore) (offset : Nat) : Nat := (s.image.wordAt32 (offset + 36)).toNat

/-- The size of the data that the header at an offset declares. -/
def dataSizeAt (s : FlashStore) (offset : Nat) : Nat := (s.image.wordAt32 (offset + 40)).toNat

/-- The size of the record that the header at an offset declares. -/
def sizeAt (s : FlashStore) (offset : Nat) : Nat :=
  FlashRecord.headerSize + s.nameSizeAt offset + s.dataSizeAt offset

/-- Where the next record would start. -/
def next (s : FlashStore) (offset : Nat) : Nat := offset + align (s.sizeAt offset)

/-- A header that fits into the store stands at an offset. -/
def IsMarked (s : FlashStore) (offset : Nat) : Prop :=
  offset + FlashRecord.headerSize ≤ s.finish ∧ s.image.wordAt16 offset = marker

/-- The record at an offset has half a unit in its name, or runs past the end. -/
def IsFaulty (s : FlashStore) (offset : Nat) : Prop :=
  s.nameSizeAt offset % 2 ≠ 0 ∨ s.finish < offset + s.sizeAt offset

/-- What is wrong with a faulty record. -/
def faultAt (s : FlashStore) (offset : Nat) : FlashRecordFault :=
  if s.nameSizeAt offset % 2 ≠ 0 then .oddNameSize else .overrun

/-- The record at an offset. -/
def recordAt (s : FlashStore) (offset : Nat) : FlashRecord := spelled offset (s.rest offset)

theorem lt_next (s : FlashStore) (offset : Nat) : offset < s.next offset := by
  have hle := le_align (s.sizeAt offset)
  unfold next sizeAt FlashRecord.headerSize at *
  omega

/-- A record that is not faulty ends in the store. -/
theorem add_sizeAt_le (h : ¬s.IsFaulty offset) : offset + s.sizeAt offset ≤ s.finish := by
  unfold IsFaulty at h
  omega

theorem length_rest (s : FlashStore) (offset : Nat) :
    (s.rest offset).length = s.finish - offset := by
  have hfinish : s.finish ≤ s.image.length := s.finish_le
  rw [rest, length_slice]
  omega

theorem region_eq_rest (s : FlashStore) : s.region = s.rest s.start := by
  have hsize : s.size - headerSize = s.finish - s.start := by
    unfold finish start
    omega
  rw [region, rest, hsize]

/-- A header is marked where its mark is in the image. -/
theorem isAtStart_rest : isAtStart (s.rest offset) = true ↔ s.IsMarked offset := by
  rw [isAtStart_eq_true, length_rest, IsMarked]
  constructor
  · rintro ⟨hfits, hmark⟩
    unfold FlashRecord.headerSize at hfits ⊢
    rw [rest, wordAt16_slice (by omega)] at hmark
    exact ⟨by omega, hmark⟩
  · rintro ⟨hfits, hmark⟩
    unfold FlashRecord.headerSize at hfits ⊢
    rw [rest, wordAt16_slice (by omega)]
    exact ⟨by omega, hmark⟩

theorem toNat_wordAt32_rest (hmarked : s.IsMarked offset) :
    ((s.rest offset).wordAt32 36).toNat = s.nameSizeAt offset ∧
      ((s.rest offset).wordAt32 40).toNat = s.dataSizeAt offset := by
  have hfits := hmarked.1
  unfold FlashRecord.headerSize at hfits
  rw [rest, wordAt32_slice (by omega), wordAt32_slice (by omega)]
  exact ⟨rfl, rfl⟩

theorem read_rest (hmarked : s.IsMarked offset) :
    FlashRecord.read offset (s.rest offset) =
      if s.nameSizeAt offset % 2 ≠ 0 then .error (.corruptRecord offset .oddNameSize)
      else if s.finish < offset + s.sizeAt offset then .error (.corruptRecord offset .overrun)
      else .ok (s.recordAt offset) := by
  obtain ⟨hname, hdata⟩ := toNat_wordAt32_rest hmarked
  have hfits : offset ≤ s.finish := Nat.le_trans (Nat.le_add_right ..) hmarked.1
  have hover : (s.rest offset).length <
      FlashRecord.headerSize + s.nameSizeAt offset + s.dataSizeAt offset ↔
        s.finish < offset + s.sizeAt offset := by
    rw [length_rest, sizeAt]
    omega
  rw [FlashRecord.read, recordAt, spelled, hname, hdata]
  simp only [hover]
  rfl

/-- The record at an offset has the offset and the declared size. -/
theorem size_recordAt (hmarked : s.IsMarked offset) (hsound : ¬s.IsFaulty offset) :
    (s.recordAt offset).size = s.sizeAt offset := by
  obtain ⟨hname, hdata⟩ := toNat_wordAt32_rest hmarked
  have hend := add_sizeAt_le hsound
  show FlashRecord.headerSize + ((s.rest offset).wordAt32 36).toNat +
    ((s.rest offset).slice _ ((s.rest offset).wordAt32 40).toNat).length = _
  rw [length_slice, length_rest, hname, hdata]
  unfold sizeAt at hend ⊢
  omega

/-! ## The walk from an offset on -/

/-- The records from an offset on, and the bytes behind them. -/
def walkAt (s : FlashStore) (offset : Nat) : Except FlashError FlashLayout :=
  walkFrom offset (s.rest offset)

/-- A record in front of a layout. -/
def withRecord (r : FlashRecord) (layout : FlashLayout) : FlashLayout :=
  { layout with records := r :: layout.records }

theorem walk_eq_walkAt (s : FlashStore) : s.walk = s.walkAt s.start := by
  rw [walkAt, ← region_eq_rest]
  rfl

theorem walkAt_of_unmarked (h : ¬s.IsMarked offset) :
    s.walkAt offset = .ok ⟨[], s.finish - offset⟩ := by
  rw [walkAt, walkFrom, dif_neg (fun hstart => h (isAtStart_rest.1 hstart)), length_rest]

theorem walkAt_of_faulty (hmarked : s.IsMarked offset) (hfaulty : s.IsFaulty offset) :
    s.walkAt offset = .error (.corruptRecord offset (s.faultAt offset)) := by
  rw [walkAt, walkFrom, dif_pos (isAtStart_rest.2 hmarked), read_rest hmarked, faultAt]
  unfold IsFaulty at hfaulty
  by_cases hodd : s.nameSizeAt offset % 2 ≠ 0
  · rw [if_pos hodd, if_pos hodd]
  · rw [if_neg hodd, if_neg hodd, if_pos (hfaulty.resolve_left hodd)]

theorem walkAt_of_sound (hmarked : s.IsMarked offset) (hsound : ¬s.IsFaulty offset) :
    s.walkAt offset = (s.walkAt (s.next offset)).map (withRecord (s.recordAt offset)) := by
  have hread : FlashRecord.read offset (s.rest offset) = .ok (s.recordAt offset) := by
    unfold IsFaulty at hsound
    rw [not_or] at hsound
    rw [read_rest hmarked, if_neg hsound.1, if_neg hsound.2]
  have hdrop : (s.rest offset).drop (align (s.sizeAt offset)) = s.rest (s.next offset) := by
    rw [rest, rest, slice, slice, List.drop_take, List.drop_drop, Nat.sub_sub]
    rfl
  rw [walkAt, walkFrom, dif_pos (isAtStart_rest.2 hmarked), hread]
  simp only [size_recordAt hmarked hsound, hdrop]
  rfl

/-- **What can stand at an offset**: no header, a faulty record, or a sound one with the rest
of the walk behind it.  Each sound record brings the walk closer to the end of the store. -/
theorem walk_induction {motive : Nat → Prop}
    (unmarked : ∀ offset, ¬s.IsMarked offset → motive offset)
    (faulty : ∀ offset, s.IsMarked offset → s.IsFaulty offset → motive offset)
    (sound : ∀ offset, s.IsMarked offset → ¬s.IsFaulty offset → motive (s.next offset) →
      motive offset) (offset : Nat) : motive offset := by
  induction hleft : s.finish - offset using Nat.strongRecOn generalizing offset with
  | _ left ih =>
    by_cases hmarked : s.IsMarked offset
    · by_cases hfaulty : s.IsFaulty offset
      · exact faulty offset hmarked hfaulty
      · have hnext := s.lt_next offset
        have hfits : offset + 60 ≤ s.finish := hmarked.1
        exact sound offset hmarked hfaulty (ih _ (by omega) _ rfl)
    · exact unmarked offset hmarked

/-! ## Turn by turn -/

/-- Where a walk stands. -/
inductive WalkState where
  /-- The records so far, and the offset to look at. -/
  | reading (records : List FlashRecord) (offset : Nat)
  | ended (result : Except FlashError FlashLayout)
  /-- Bytes were asked for that the image does not have. -/
  | outOfRange

/-- Reads the name and the data of a record where its header says that they are. -/
def readParts (s : FlashStore) (records : List FlashRecord) (offset : Nat) (header : Bytes) :
    WalkState :=
  let nameSize := (header.wordAt32 36).toNat
  let dataSize := (header.wordAt32 40).toNat
  let nameStart := offset + FlashRecord.headerSize
  let dataStart := nameStart + nameSize
  match s.image.slice? nameStart nameSize, s.image.slice? dataStart dataSize with
  | some name, some data =>
    .reading (records ++ [ofParts offset header name data])
      (s.offset + align (dataStart + dataSize - s.offset))
  | _, _ => .outOfRange

/-- One turn of a walk.  It looks at a header and checks the sizes there before it reads on. -/
def turn (s : FlashStore) : WalkState → WalkState
  | .reading records offset =>
    let free := s.finish - min offset s.finish
    if s.finish < offset + FlashRecord.headerSize then .ended (.ok ⟨records, free⟩)
    else
      match s.image.slice? offset FlashRecord.headerSize with
      | none => .outOfRange
      | some header =>
        let nameSize := (header.wordAt32 36).toNat
        let recordEnd := offset + FlashRecord.headerSize + nameSize + (header.wordAt32 40).toNat
        if header.wordAt16 0 ≠ marker then .ended (.ok ⟨records, free⟩)
        else if nameSize % 2 ≠ 0 then .ended (.error (.corruptRecord offset .oddNameSize))
        else if s.finish < recordEnd then .ended (.error (.corruptRecord offset .overrun))
        else s.readParts records offset header
  | state => state

/-- A multiple of four bytes from the start of the store. -/
def IsAligned (s : FlashStore) (offset : Nat) : Prop := s.offset ≤ offset ∧ 4 ∣ offset - s.offset

theorem isAligned_start (s : FlashStore) : s.IsAligned s.start := by
  unfold IsAligned start headerSize
  omega

theorem IsAligned.next (h : s.IsAligned offset) : s.IsAligned (s.next offset) := by
  unfold IsAligned FlashStore.next align at *
  omega

/-- The place behind a record, counted from the record and from the start of the store. -/
theorem IsAligned.next_eq (h : s.IsAligned offset) :
    s.offset + align (offset + FlashRecord.headerSize + s.nameSizeAt offset + s.dataSizeAt offset -
      s.offset) = s.next offset := by
  unfold IsAligned at h
  unfold FlashStore.next align sizeAt
  omega

variable {records : List FlashRecord}

theorem turn_of_unmarked (h : ¬s.IsMarked offset) :
    s.turn (.reading records offset) = .ended (.ok ⟨records, s.finish - offset⟩) := by
  have hfree : s.finish - min offset s.finish = s.finish - offset := by omega
  have hfinish : s.finish ≤ s.image.length := s.finish_le
  unfold IsMarked at h
  simp only [turn, hfree]
  by_cases hfits : s.finish < offset + FlashRecord.headerSize
  · rw [if_pos hfits]
  · have hmark : s.image.wordAt16 offset ≠ marker := fun hmark => h ⟨Nat.not_lt.1 hfits, hmark⟩
    have hheader : (s.image.slice offset FlashRecord.headerSize).wordAt16 0 ≠ marker := by
      rw [wordAt16_slice (by decide)]
      exact hmark
    rw [if_neg hfits, slice?_eq_some (by omega)]
    simp only [if_pos hheader]

/-- The sizes in a header are those that the image declares there. -/
theorem toNat_wordAt32_header (s : FlashStore) (offset : Nat) :
    ((s.image.slice offset FlashRecord.headerSize).wordAt32 36).toNat = s.nameSizeAt offset ∧
      ((s.image.slice offset FlashRecord.headerSize).wordAt32 40).toNat = s.dataSizeAt offset := by
  rw [wordAt32_slice (by decide), wordAt32_slice (by decide)]
  exact ⟨rfl, rfl⟩

/-- A turn that finds a header stops at its sizes or reads on. -/
theorem turn_of_marked (h : s.IsMarked offset) :
    s.turn (.reading records offset) =
      if s.nameSizeAt offset % 2 ≠ 0 then .ended (.error (.corruptRecord offset .oddNameSize))
      else if s.finish < offset + s.sizeAt offset then
        .ended (.error (.corruptRecord offset .overrun))
      else s.readParts records offset (s.image.slice offset FlashRecord.headerSize) := by
  obtain ⟨hfits, hmark⟩ := h
  have hfinish : s.finish ≤ s.image.length := s.finish_le
  have hend : offset + FlashRecord.headerSize + s.nameSizeAt offset + s.dataSizeAt offset =
      offset + s.sizeAt offset := by
    unfold sizeAt
    omega
  obtain ⟨hname, hdata⟩ := toNat_wordAt32_header s offset
  have hheader : (s.image.slice offset FlashRecord.headerSize).wordAt16 0 = marker := by
    rw [wordAt16_slice (by decide)]
    exact hmark
  simp only [turn]
  rw [if_neg (Nat.not_lt.2 hfits), slice?_eq_some (Nat.le_trans hfits hfinish)]
  simp only [hname, hdata, hend]
  rw [if_neg (not_not.2 hheader)]

theorem turn_of_faulty (hmarked : s.IsMarked offset) (hfaulty : s.IsFaulty offset) :
    s.turn (.reading records offset) =
      .ended (.error (.corruptRecord offset (s.faultAt offset))) := by
  rw [turn_of_marked hmarked, faultAt]
  unfold IsFaulty at hfaulty
  by_cases hodd : s.nameSizeAt offset % 2 ≠ 0
  · rw [if_pos hodd, if_pos hodd]
  · rw [if_neg hodd, if_neg hodd, if_pos (hfaulty.resolve_left hodd)]

/-- The name and the data of a sound record are in the image. -/
theorem readParts_of_sound (haligned : s.IsAligned offset) (hmarked : s.IsMarked offset)
    (hsound : ¬s.IsFaulty offset) :
    s.readParts records offset (s.image.slice offset FlashRecord.headerSize) =
      .reading (records ++ [s.recordAt offset]) (s.next offset) := by
  have hend := add_sizeAt_le hsound
  have hfinish : s.finish ≤ s.image.length := s.finish_le
  obtain ⟨hname, hdata⟩ := toNat_wordAt32_rest hmarked
  unfold sizeAt at hend
  have hheader : FlashRecord.headerSize ≤ (s.rest offset).length := by
    rw [length_rest]
    omega
  have hnameAt : s.image.slice? (offset + FlashRecord.headerSize) (s.nameSizeAt offset) =
      some ((s.rest offset).slice FlashRecord.headerSize (s.nameSizeAt offset)) := by
    rw [slice?_eq_some (by omega), rest, slice_slice (by omega)]
  have hdataAt : s.image.slice? (offset + FlashRecord.headerSize + s.nameSizeAt offset)
      (s.dataSizeAt offset) =
      some ((s.rest offset).slice (FlashRecord.headerSize + s.nameSizeAt offset)
        (s.dataSizeAt offset)) := by
    rw [slice?_eq_some (by omega), rest, slice_slice (by omega), Nat.add_assoc]
  have hheaderAt : (s.rest offset).slice 0 FlashRecord.headerSize =
      s.image.slice offset FlashRecord.headerSize := by
    rw [rest, slice_slice (by omega)]
    rfl
  obtain ⟨hnameSize, hdataSize⟩ := toNat_wordAt32_header s offset
  rw [recordAt, spelled_eq_ofParts offset hheader, hname, hdata, hheaderAt, readParts]
  simp only [hnameSize, hdataSize, hnameAt, hdataAt, haligned.next_eq]

theorem turn_of_sound (haligned : s.IsAligned offset) (hmarked : s.IsMarked offset)
    (hsound : ¬s.IsFaulty offset) :
    s.turn (.reading records offset) =
      .reading (records ++ [s.recordAt offset]) (s.next offset) := by
  rw [turn_of_marked hmarked, readParts_of_sound haligned hmarked hsound]
  unfold IsFaulty at hsound
  rw [not_or] at hsound
  rw [if_neg hsound.1, if_neg hsound.2]

/-- **The turns come to an end**, after a bounded number and with what the walk finds. -/
theorem exists_turns (offset : Nat) (haligned : s.IsAligned offset) (records : List FlashRecord) :
    ∃ n, n ≤ (s.finish - offset) / FlashRecord.headerSize + 1 ∧
      s.turn^[n] (.reading records offset) =
        .ended ((s.walkAt offset).map fun found =>
          { found with records := records ++ found.records }) := by
  induction offset using s.walk_induction generalizing records with
  | unmarked offset hmarked =>
    refine ⟨1, Nat.le_add_left .., ?_⟩
    rw [Function.iterate_one, turn_of_unmarked hmarked, walkAt_of_unmarked hmarked]
    simp [Except.map]
  | faulty offset hmarked hfaulty =>
    refine ⟨1, Nat.le_add_left .., ?_⟩
    rw [Function.iterate_one, turn_of_faulty hmarked hfaulty, walkAt_of_faulty hmarked hfaulty]
    rfl
  | sound offset hmarked hsound ih =>
    obtain ⟨n, hbound, hturns⟩ := ih haligned.next (records ++ [s.recordAt offset])
    refine ⟨n + 1, ?_, ?_⟩
    · have hnext : offset + FlashRecord.headerSize ≤ s.next offset := by
        have hle := le_align (s.sizeAt offset)
        unfold next sizeAt at *
        omega
      have hfits := hmarked.1
      unfold FlashRecord.headerSize at *
      omega
    · rw [Function.iterate_succ_apply, turn_of_sound haligned hmarked hsound, hturns,
        walkAt_of_sound hmarked hsound]
      cases s.walkAt (s.next offset) with
      | error e => rfl
      | ok found => simp [Except.map, withRecord]

/-! ## What a walk says -/

/-- What a walk from an offset on says that succeeds: records where the image declares them, in
order and at aligned places, with no more than padding between them, and free space behind
them. -/
structure LaysOut (s : FlashStore) (start : Nat) (layout : FlashLayout) : Prop where
  declared : ∀ r ∈ layout.records, r.nameSize = s.nameSizeAt r.offset ∧
    r.data.length = s.dataSizeAt r.offset
  aligned : ∀ r ∈ layout.records, s.IsAligned r.offset
  within : ∀ r ∈ layout.records, start ≤ r.offset ∧ r.offset + r.size ≤ s.finish - layout.free
  ordered : layout.records.Pairwise fun r r' => r.offset + r.size ≤ r'.offset
  gaps : layout.records.IsChain fun r r' => r'.offset ≤ r.offset + r.size + 3
  first : ∀ r ∈ layout.records.head?, r.offset = start
  free_le : layout.free ≤ s.finish - start

/-- A sound record in front of what is laid out behind it. -/
theorem LaysOut.withRecord {found : FlashLayout} (haligned : s.IsAligned offset)
    (hmarked : s.IsMarked offset) (hsound : ¬s.IsFaulty offset)
    (h : s.LaysOut (s.next offset) found) :
    s.LaysOut offset (withRecord (s.recordAt offset) found) := by
  have hat : (s.recordAt offset).offset = offset := rfl
  have hsize := size_recordAt hmarked hsound
  have hend := add_sizeAt_le hsound
  have hnext : offset + s.sizeAt offset ≤ s.next offset ∧
      s.next offset ≤ offset + s.sizeAt offset + 3 := by
    unfold next align
    omega
  have hfree := h.free_le
  refine ⟨?_, ?_, ?_, ?_, ?_, ?_, ?_⟩
  · refine List.forall_mem_cons.2 ⟨?_, h.declared⟩
    obtain ⟨hname, hdata⟩ := toNat_wordAt32_rest hmarked
    refine ⟨hname, ?_⟩
    have hsplit : (s.recordAt offset).nameSize = s.nameSizeAt offset := hname
    unfold FlashRecord.size sizeAt at hsize
    rw [hat]
    omega
  · exact List.forall_mem_cons.2 ⟨haligned, h.aligned⟩
  · refine List.forall_mem_cons.2 ⟨⟨Nat.le_refl _, ?_⟩, fun r hr => ?_⟩
    · show offset + (s.recordAt offset).size ≤ s.finish - found.free
      omega
    · obtain ⟨hstart, hfits⟩ := h.within r hr
      exact ⟨by omega, hfits⟩
  · refine List.pairwise_cons.2 ⟨fun r hr => ?_, h.ordered⟩
    have hstart := (h.within r hr).1
    omega
  · refine List.isChain_cons.2 ⟨fun r hr => ?_, h.gaps⟩
    have hstart := h.first r hr
    omega
  · rintro r ⟨⟩
    rfl
  · show found.free ≤ s.finish - offset
    omega

theorem laysOut_of_walkAt (haligned : s.IsAligned offset) {layout : FlashLayout}
    (h : s.walkAt offset = .ok layout) : s.LaysOut offset layout := by
  induction offset using s.walk_induction generalizing layout with
  | unmarked offset hmarked =>
    rw [walkAt_of_unmarked hmarked] at h
    cases h
    constructor <;> simp
  | faulty offset hmarked hfaulty =>
    rw [walkAt_of_faulty hmarked hfaulty] at h
    cases h
  | sound offset hmarked hsound ih =>
    rw [walkAt_of_sound hmarked hsound] at h
    obtain ⟨found, hfound, rfl⟩ := exceptMap_eq_ok.1 h
    exact (ih haligned.next hfound).withRecord haligned hmarked hsound

theorem laysOut_of_walk {layout : FlashLayout} (h : s.walk = .ok layout) :
    s.LaysOut s.start layout :=
  laysOut_of_walkAt s.isAligned_start (walk_eq_walkAt s ▸ h)

/-- One header stands behind another by the sizes that the other declares. -/
def Follows (s : FlashStore) (offset other : Nat) : Prop :=
  s.IsMarked offset ∧ other = s.next offset

/-- A faulty record is reached by the sizes that headers declare, one after the other. -/
def ReachesFault (s : FlashStore) (start offset : Nat) : Prop :=
  Relation.ReflTransGen s.Follows start offset ∧ s.IsMarked offset ∧ s.IsFaulty offset

/-- What a walk from an offset on says that fails: it names the first faulty record, and what is
wrong with it. -/
def FirstFault (s : FlashStore) (start : Nat) (error : FlashError) : Prop :=
  ∃ offset, s.ReachesFault start offset ∧ (∀ other, s.ReachesFault start other → offset ≤ other) ∧
    error = .corruptRecord offset (s.faultAt offset)

theorem le_of_follows {other : Nat} (h : Relation.ReflTransGen s.Follows offset other) :
    offset ≤ other := by
  induction h with
  | refl => exact Nat.le_refl _
  | tail _ hstep ih =>
    rw [hstep.2]
    exact Nat.le_trans ih (Nat.le_of_lt (s.lt_next _))

/-- From a header that is not faulty, a faulty one is reached from the next place. -/
theorem ReachesFault.of_sound {other : Nat} (h : s.ReachesFault offset other)
    (hsound : ¬s.IsFaulty offset) : s.ReachesFault (s.next offset) other := by
  obtain ⟨hreach, hmarked, hfaulty⟩ := h
  rcases hreach.cases_head with rfl | ⟨_, ⟨-, rfl⟩, hrest⟩
  · exact absurd hfaulty hsound
  · exact ⟨hrest, hmarked, hfaulty⟩

theorem firstFault_of_walkAt {error : FlashError} (h : s.walkAt offset = .error error) :
    s.FirstFault offset error := by
  induction offset using s.walk_induction with
  | unmarked offset hmarked =>
    rw [walkAt_of_unmarked hmarked] at h
    cases h
  | faulty offset hmarked hfaulty =>
    rw [walkAt_of_faulty hmarked hfaulty] at h
    cases h
    exact ⟨offset, ⟨.refl, hmarked, hfaulty⟩, fun _ hother => le_of_follows hother.1, rfl⟩
  | sound offset hmarked hsound ih =>
    have hnext : s.walkAt (s.next offset) = .error error := by
      rw [walkAt_of_sound hmarked hsound] at h
      cases hwalk : s.walkAt (s.next offset) with
      | ok found =>
        rw [hwalk] at h
        cases h
      | error e =>
        rw [hwalk] at h
        cases h
        rfl
    obtain ⟨first, ⟨hreach, hfault⟩, hfirst, herror⟩ := ih hnext
    refine ⟨first, ⟨.head ⟨hmarked, rfl⟩ hreach, hfault⟩, fun other hother => ?_, herror⟩
    exact hfirst other (hother.of_sound hsound)

/-- Where a faulty record is reached, the walk fails. -/
theorem ReachesFault.exists_error {other : Nat} (h : s.ReachesFault offset other) :
    ∃ error, s.walkAt offset = .error error := by
  induction offset using s.walk_induction with
  | unmarked offset hmarked =>
    obtain ⟨hreach, hmarkedOther, -⟩ := h
    rcases hreach.cases_head with rfl | ⟨_, ⟨hfirst, -⟩, -⟩
    · exact absurd hmarkedOther hmarked
    · exact absurd hfirst hmarked
  | faulty offset hmarked hfaulty => exact ⟨_, walkAt_of_faulty hmarked hfaulty⟩
  | sound offset hmarked hsound ih =>
    obtain ⟨error, hnext⟩ := ih (h.of_sound hsound)
    exact ⟨error, by rw [walkAt_of_sound hmarked hsound, hnext]; rfl⟩

/-- **A walk fails exactly with the first fault.** -/
theorem walkAt_eq_error {error : FlashError} :
    s.walkAt offset = .error error ↔ s.FirstFault offset error := by
  refine ⟨firstFault_of_walkAt, ?_⟩
  rintro ⟨first, hfault, hfirst, rfl⟩
  obtain ⟨found, hfound⟩ := hfault.exists_error
  obtain ⟨other, hother, hleast, rfl⟩ := firstFault_of_walkAt hfound
  have hsame : other = first := Nat.le_antisymm (hleast first hfault) (hfirst other hother)
  rw [hfound, hsame]

/-! ## Every image -/

theorem turns_of_ended (result : Except FlashError FlashLayout) (n : Nat) :
    s.turn^[n] (.ended result) = .ended result := Function.iterate_fixed rfl n

theorem turns_of_outOfRange (n : Nat) : s.turn^[n] .outOfRange = .outOfRange :=
  Function.iterate_fixed rfl n

/-- **The walk stays in the image, whatever the image holds.**  For every image that can be
opened, the turns of the walk end after a bounded number with its result, and no turn asks for
bytes that the image does not have.  If the walk succeeds, the records are where the image
declares them: at multiples of four bytes from the start of the store, in order and disjoint,
at most three bytes apart, behind the header of the store, and in front of the free space, so
that what is written there and fits stays in the store.  The walk fails exactly if a record with
half a unit in its name, or that runs past the end of the store, is reached, and the error names
the first such record. -/
theorem walk_confined {image : Bytes} {s : FlashStore} (hopen : ofImage image = .ok s) :
    (∃ n, n ≤ s.size / 60 + 1 ∧ s.turn^[n] (.reading [] (s.offset + 28)) = .ended s.walk) ∧
    (∀ n, s.turn^[n] (.reading [] (s.offset + 28)) ≠ .outOfRange) ∧
    (∀ layout, s.walk = .ok layout →
      s.LaysOut (s.offset + 28) layout ∧ s.offset + 28 ≤ s.finish - layout.free ∧
        ∀ size ≤ layout.free, s.finish - layout.free + size ≤ s.finish) ∧
    (∀ error, s.walk = .error error ↔ s.FirstFault (s.offset + 28) error) ∧
    s.image = image ∧ s.finish = s.offset + s.size ∧ s.finish ≤ image.length := by
  have hstart : s.offset + 28 = s.start := rfl
  have himage : s.image = image := (ofImage_eq_ok.1 hopen).1
  have hheader : s.start ≤ s.finish := Nat.add_le_add_left s.header_le _
  obtain ⟨n, hbound, hturns⟩ := exists_turns s.start s.isAligned_start []
  have hended : s.turn^[n] (.reading [] s.start) = .ended s.walk := by
    rw [hturns, walk_eq_walkAt]
    cases s.walkAt s.start <;> rfl
  rw [hstart]
  refine ⟨⟨n, ?_, hended⟩, ?_, ?_, ?_, himage, rfl, himage ▸ s.finish_le⟩
  · have hsize : s.finish - s.start ≤ s.size := by
      unfold finish start
      omega
    have hdiv : (s.finish - s.start) / 60 ≤ s.size / 60 := Nat.div_le_div_right hsize
    unfold FlashRecord.headerSize at hbound
    omega
  · intro m hout
    rcases Nat.le_total m n with hle | hle
    · obtain ⟨k, rfl⟩ := Nat.exists_eq_add_of_le' hle
      rw [Function.iterate_add_apply, hout, turns_of_outOfRange] at hended
      cases hended
    · obtain ⟨k, rfl⟩ := Nat.exists_eq_add_of_le' hle
      rw [Function.iterate_add_apply, hended, turns_of_ended] at hout
      cases hout
  · intro layout hwalk
    have hlaid := laysOut_of_walk hwalk
    have hfree := hlaid.free_le
    exact ⟨hlaid, by omega, fun size hsize => by omega⟩
  · intro error
    rw [walk_eq_walkAt]
    exact walkAt_eq_error

/-- An image with a store at an offset whose end is not aligned, and two records in it. -/
def twoRecords : Bytes :=
  List.replicate 8 0 ++ header 251 ++
    FlashRecord.encode bootOrder .bootNonVolatile .zero [1] ++ List.replicate 3 erased ++
    FlashRecord.encode bootOrder .bootNonVolatile .zero [2, 3] ++ List.replicate 57 erased

/-- The same image, but the second record declares more data than the store has. -/
def overrunning : Bytes := overwrite twoRecords 160 (Bytes.ofUInt32 0x1000)

theorem images_walk_confined :
    ∃ (s t : FlashStore) (layout : FlashLayout), ofImage twoRecords = .ok s ∧
      s.walk = .ok layout ∧ layout.records.map (·.offset) = [36, 120] ∧ layout.free = 55 ∧
      s.LaysOut (s.offset + 28) layout ∧ ofImage overrunning = .ok t ∧
      t.walk = .error (.corruptRecord 120 .overrun) ∧
      t.FirstFault (t.offset + 28) (.corruptRecord 120 .overrun) ∧
      ∀ n, t.turn^[n] (.reading [] (t.offset + 28)) ≠ .outOfRange := by
  have hrun : ((ofImage twoRecords).toOption.bind fun s => s.walk.toOption.map fun layout =>
      (layout.records.map (·.offset), layout.free)) = some ([36, 120], 55) := by decide +kernel
  have hfails : ((ofImage overrunning).toOption.bind fun t => failure? t.walk) =
      some (.corruptRecord 120 .overrun) := by decide +kernel
  obtain ⟨s, hs, hrun⟩ := Option.bind_eq_some_iff.1 hrun
  obtain ⟨layout, hwalk, hlayout⟩ := Option.map_eq_some_iff.1 hrun
  obtain ⟨t, ht, hfails⟩ := Option.bind_eq_some_iff.1 hfails
  have hs := toOption_eq_some.1 hs
  have ht := toOption_eq_some.1 ht
  have hwalk := toOption_eq_some.1 hwalk
  have herror := failure?_eq_some.1 hfails
  obtain ⟨-, -, hlaysOut, -⟩ := walk_confined hs
  obtain ⟨-, hinside, -, hfault, -⟩ := walk_confined ht
  exact ⟨s, t, layout, hs, hwalk, congrArg Prod.fst hlayout, congrArg Prod.snd hlayout,
    (hlaysOut layout hwalk).1, ht, herror, (hfault _).1 herror, hinside⟩

end FlashStore

end SecureBoot
