import SecureBoot.Envelope

/-!
# Words, GUIDs and timestamps on the wire

Every format of this library is built from little-endian words, GUIDs and
timestamps.  This file shows that reading one of them where it was written gives
it back (`wordAt32_ofUInt32`, `Guid.ofBytes_toBytes`, `Timestamp.ofBytes_toBytes`)
and, where no bits are lost, that writing what was read gives the bytes back
(`ofUInt32_wordAt32`, `Guid.toBytes_ofBytes`).  A timestamp has two bytes of padding,
which are read over and written as zero (`Timestamp.toBytes_ofBytes`).  A field that
stands behind others is reached with the lemmas `…_append_right`.
-/

namespace SecureBoot

namespace Bytes

/-! ## Pieces -/

theorem slice_zero (bs : Bytes) (size : Nat) : bs.slice 0 size = bs.take size := rfl

theorem drop_append_right {a b : Bytes} {start : Nat} (h : a.length ≤ start) :
    (a ++ b).drop start = b.drop (start - a.length) := by
  rw [List.drop_append, List.drop_eq_nil_of_le h, List.nil_append]

theorem slice_append_right {a b : Bytes} {start size : Nat} (h : a.length ≤ start) :
    (a ++ b).slice start size = b.slice (start - a.length) size := by
  rw [slice, slice, drop_append_right h]

theorem slice_append_left {a b : Bytes} {start size : Nat} (h : start + size ≤ a.length) :
    (a ++ b).slice start size = a.slice start size := by
  have hd : start ≤ a.length := by omega
  rw [slice, slice, List.drop_append_of_le_length hd,
    List.take_append_of_le_length (by rw [List.length_drop]; omega)]

theorem slice_append_self (a b : Bytes) : (a ++ b).slice 0 a.length = a := by
  rw [slice_zero, List.take_left]

theorem slice_add (bs : Bytes) (start m n : Nat) :
    bs.slice start m ++ bs.slice (start + m) n = bs.slice start (m + n) := by
  rw [slice, slice, slice, List.take_add, List.drop_drop]

theorem take_append_slice (bs : Bytes) (m n : Nat) :
    bs.take m ++ bs.slice m n = bs.take (m + n) := by
  rw [slice, List.take_add]

theorem slice_append_drop (bs : Bytes) (m n : Nat) :
    bs.slice m n ++ bs.drop (m + n) = bs.drop m := by
  rw [slice, ← List.drop_drop, List.take_append_drop]

/-- One byte as a piece. -/
theorem slice_one {bs : Bytes} {offset : Nat} (h : offset < bs.length) :
    bs.slice offset 1 = [bs.byteAt offset] := by
  rw [slice, byteAt, List.drop_eq_getElem_cons h]
  rfl

theorem byteAt_append_right {a b : Bytes} {offset : Nat} (h : a.length ≤ offset) :
    (a ++ b).byteAt offset = b.byteAt (offset - a.length) := by
  rw [byteAt, byteAt, drop_append_right h]

theorem byteAt_append_left {a b : Bytes} {offset : Nat} (h : offset < a.length) :
    (a ++ b).byteAt offset = a.byteAt offset := by
  rw [byteAt, byteAt, List.drop_append_of_le_length (Nat.le_of_lt h), List.drop_eq_getElem_cons h]
  rfl

/-- A piece of a piece. -/
theorem slice_slice {bs : Bytes} {start size inner width : Nat} (h : inner + width ≤ size) :
    (bs.slice start size).slice inner width = bs.slice (start + inner) width := by
  rw [slice, slice, slice, List.drop_take, List.drop_drop, List.take_take, Nat.min_eq_left]
  omega

theorem byteAt_slice {bs : Bytes} {start size inner : Nat} (h : inner < size) :
    (bs.slice start size).byteAt inner = bs.byteAt (start + inner) := by
  rw [byteAt, byteAt, slice, List.drop_take, List.drop_drop]
  cases hrest : bs.drop (start + inner) with
  | nil => rw [List.take_nil]
  | cons b rest =>
    obtain ⟨n, hn⟩ := Nat.exists_eq_succ_of_ne_zero (Nat.sub_ne_zero_of_lt h)
    rw [hn]
    rfl

/-! ## Words -/

theorem wordAt16_append_right {a b : Bytes} {offset : Nat} (h : a.length ≤ offset) :
    (a ++ b).wordAt16 offset = b.wordAt16 (offset - a.length) := by
  rw [wordAt16, wordAt16, slice_append_right h]

theorem wordAt32_append_right {a b : Bytes} {offset : Nat} (h : a.length ≤ offset) :
    (a ++ b).wordAt32 offset = b.wordAt32 (offset - a.length) := by
  rw [wordAt32, wordAt32, slice_append_right h]

theorem wordAt64_append_right {a b : Bytes} {offset : Nat} (h : a.length ≤ offset) :
    (a ++ b).wordAt64 offset = b.wordAt64 (offset - a.length) := by
  rw [wordAt64, wordAt64, slice_append_right h]

theorem wordAt16_append_left {a b : Bytes} {offset : Nat} (h : offset + 2 ≤ a.length) :
    (a ++ b).wordAt16 offset = a.wordAt16 offset := by
  rw [wordAt16, wordAt16, slice_append_left h]

theorem wordAt32_append_left {a b : Bytes} {offset : Nat} (h : offset + 4 ≤ a.length) :
    (a ++ b).wordAt32 offset = a.wordAt32 offset := by
  rw [wordAt32, wordAt32, slice_append_left h]

theorem wordAt64_append_left {a b : Bytes} {offset : Nat} (h : offset + 8 ≤ a.length) :
    (a ++ b).wordAt64 offset = a.wordAt64 offset := by
  rw [wordAt64, wordAt64, slice_append_left h]

theorem wordAt16_slice {bs : Bytes} {start size inner : Nat} (h : inner + 2 ≤ size) :
    (bs.slice start size).wordAt16 inner = bs.wordAt16 (start + inner) := by
  rw [wordAt16, slice_slice h, wordAt16]

theorem wordAt32_slice {bs : Bytes} {start size inner : Nat} (h : inner + 4 ≤ size) :
    (bs.slice start size).wordAt32 inner = bs.wordAt32 (start + inner) := by
  rw [wordAt32, slice_slice h, wordAt32]

/-- A number that fits its width is read back where it was written. -/
theorem toNatLE_slice_ofNatLE {width n : Nat} (h : n < limit width) (rest : Bytes) :
    toNatLE ((ofNatLE width n ++ rest).slice 0 width) = n := by
  have hw : (ofNatLE width n ++ rest).slice 0 width = ofNatLE width n := by
    rw [slice_zero, List.take_left' (length_ofNatLE width n)]
  rw [hw, toNatLE_ofNatLE, Nat.mod_eq_of_lt h]

@[simp] theorem wordAt16_ofUInt16 (x : UInt16) (rest : Bytes) :
    (ofUInt16 x ++ rest).wordAt16 0 = x := by
  rw [wordAt16, ofUInt16, toNatLE_slice_ofNatLE x.toNat_lt, UInt16.ofNat_toNat]

@[simp] theorem wordAt32_ofUInt32 (x : UInt32) (rest : Bytes) :
    (ofUInt32 x ++ rest).wordAt32 0 = x := by
  rw [wordAt32, ofUInt32, toNatLE_slice_ofNatLE x.toNat_lt, UInt32.ofNat_toNat]

theorem wordAt32_zeros (rest : Bytes) : wordAt32 (List.replicate 4 0 ++ rest) 0 = 0 := by
  rw [wordAt32, slice_zero, List.take_left' List.length_replicate]
  rfl

theorem wordAt64_zeros (rest : Bytes) : wordAt64 (List.replicate 8 0 ++ rest) 0 = 0 := by
  rw [wordAt64, slice_zero, List.take_left' List.length_replicate]
  rfl

theorem toNat_wordAt32_ofNatLE {n : Nat} (h : n < UInt32.size) (rest : Bytes) :
    ((ofNatLE 4 n ++ rest).wordAt32 0).toNat = n := by
  rw [wordAt32, toNatLE_slice_ofNatLE h, UInt32.toNat_ofNat_of_lt' h]

/-- Writing the value of a piece at its own width gives the piece back. -/
theorem ofNatLE_toNatLE_slice {bs : Bytes} {offset width : Nat} (h : offset + width ≤ bs.length) :
    ofNatLE width (toNatLE (bs.slice offset width)) = bs.slice offset width := by
  have hl : (bs.slice offset width).length = width := by rw [length_slice]; omega
  have hw := ofNatLE_toNatLE (bs.slice offset width)
  rwa [hl] at hw

/-- More bytes hold larger numbers. -/
theorem limit_le_limit {width wider : Nat} (h : width ≤ wider) : limit width ≤ limit wider := by
  induction h with
  | refl => exact Nat.le_refl _
  | step _ ih =>
    rw [limit]
    omega

theorem toNatLE_slice_lt (bs : Bytes) (offset width : Nat) :
    toNatLE (bs.slice offset width) < limit width := by
  have hlength : (bs.slice offset width).length ≤ width := by
    rw [length_slice]
    exact Nat.min_le_left _ _
  exact Nat.lt_of_lt_of_le (toNatLE_lt _) (limit_le_limit hlength)

theorem ofUInt16_wordAt16 {bs : Bytes} {offset : Nat} (h : offset + 2 ≤ bs.length) :
    ofUInt16 (bs.wordAt16 offset) = bs.slice offset 2 := by
  rw [ofUInt16, wordAt16, UInt16.toNat_ofNat_of_lt' (toNatLE_slice_lt bs offset 2),
    ofNatLE_toNatLE_slice h]

theorem ofUInt32_wordAt32 {bs : Bytes} {offset : Nat} (h : offset + 4 ≤ bs.length) :
    ofUInt32 (bs.wordAt32 offset) = bs.slice offset 4 := by
  rw [ofUInt32, wordAt32, UInt32.toNat_ofNat_of_lt' (toNatLE_slice_lt bs offset 4),
    ofNatLE_toNatLE_slice h]

/-! ## Most significant byte first -/

theorem toNatBE_reverse (bs : Bytes) : toNatBE bs.reverse = toNatLE bs := by
  rw [toNatBE, List.foldl_reverse]
  induction bs with
  | nil => rfl
  | cons b bs ih => rw [List.foldr_cons, ih, toNatLE]; omega

theorem toNatBE_eq (bs : Bytes) : toNatBE bs = toNatLE bs.reverse := by
  rw [← toNatBE_reverse, List.reverse_reverse]

theorem toNatBE_ofNatBE {width n : Nat} (h : n < limit width) :
    toNatBE (ofNatBE width n) = n := by
  rw [ofNatBE, toNatBE_reverse, toNatLE_ofNatLE, Nat.mod_eq_of_lt h]

theorem ofNatBE_toNatBE (bs : Bytes) : ofNatBE bs.length (toNatBE bs) = bs := by
  have h := ofNatLE_toNatLE bs.reverse
  rw [List.length_reverse] at h
  rw [ofNatBE, toNatBE_eq, h, List.reverse_reverse]

theorem toNatBE_lt (bs : Bytes) : toNatBE bs < limit bs.length := by
  have h := toNatLE_lt bs.reverse
  rwa [List.length_reverse, ← toNatBE_eq] at h

end Bytes

open Bytes

/-! ## GUIDs -/

namespace Guid

/-- A GUID is read back where it was written. -/
@[simp] theorem ofBytes_toBytes (g : Guid) (rest : Bytes) : ofBytes (g.toBytes ++ rest) = g := by
  obtain ⟨d1, d2, d3, d4⟩ := g
  have h4 : ((ofNatBE 8 d4.toNat ++ rest).slice 0 8) = ofNatBE 8 d4.toNat := by
    rw [slice_zero, List.take_left' (length_ofNatBE ..)]
  simp only [ofBytes, toBytes, List.append_assoc, mk.injEq]
  refine ⟨wordAt32_ofUInt32 d1 _, ?_, ?_, ?_⟩
  · rw [wordAt16_append_right (by simp)]
    exact wordAt16_ofUInt16 d2 _
  · rw [wordAt16_append_right (by simp), wordAt16_append_right (by simp)]
    exact wordAt16_ofUInt16 d3 _
  · rw [slice_append_right (by simp), slice_append_right (by simp), slice_append_right (by simp)]
    simp only [length_ofUInt32, length_ofUInt16, Nat.reduceSub]
    rw [h4, toNatBE_ofNatBE d4.toNat_lt, UInt64.ofNat_toNat]

/-- A GUID is read from its own bytes, whatever follows them. -/
theorem ofBytes_append {a b : Bytes} (h : 16 ≤ a.length) : ofBytes (a ++ b) = ofBytes a := by
  rw [ofBytes, ofBytes, wordAt32_append_left (by omega), wordAt16_append_left (by omega),
    wordAt16_append_left (by omega), slice_append_left (by omega)]

/-- What a GUID is read from is written again. -/
theorem toBytes_ofBytes {bs : Bytes} (h : 16 ≤ bs.length) : (ofBytes bs).toBytes = bs.take 16 := by
  have hl : (bs.slice 8 8).length = 8 := by rw [length_slice]; omega
  have hlt : toNatBE (bs.slice 8 8) < limit 8 := by
    have h8 := toNatBE_lt (bs.slice 8 8)
    rwa [hl] at h8
  have h4 : ofNatBE 8 (toNatBE (bs.slice 8 8)) = bs.slice 8 8 := by
    have h8 := ofNatBE_toNatBE (bs.slice 8 8)
    rwa [hl] at h8
  simp only [ofBytes, toBytes]
  rw [ofUInt32_wordAt32 (by omega), ofUInt16_wordAt16 (by omega), ofUInt16_wordAt16 (by omega),
    UInt64.toNat_ofNat_of_lt' hlt, h4, slice_add, slice_add, slice_add, slice_zero]

end Guid

/-! ## Timestamps -/

namespace Timestamp

/-- A timestamp is read from its own bytes, whatever follows them. -/
theorem ofBytes_append {a b : Bytes} (h : 16 ≤ a.length) : ofBytes (a ++ b) = ofBytes a := by
  rw [ofBytes, ofBytes, wordAt16_append_left (by omega), wordAt32_append_left (by omega),
    wordAt16_append_left (by omega)]
  iterate 6 rw [byteAt_append_left (by omega)]

/-- A timestamp is read back where it was written. -/
@[simp] theorem ofBytes_toBytes (t : Timestamp) (rest : Bytes) :
    ofBytes (t.toBytes ++ rest) = t := by
  obtain ⟨year, month, day, hour, minute, second, nanosecond, timeZone, daylight⟩ := t
  simp only [ofBytes, toBytes, List.append_assoc, mk.injEq]
  refine ⟨wordAt16_ofUInt16 year _, ?_, ?_, ?_, ?_, ?_, ?_, ?_, ?_⟩
  iterate 5
    rw [byteAt_append_right (by simp)]
    rfl
  · rw [wordAt32_append_right (by simp), wordAt32_append_right (by simp)]
    exact wordAt32_ofUInt32 nanosecond _
  · rw [wordAt16_append_right (by simp), wordAt16_append_right (by simp),
      wordAt16_append_right (by simp)]
    exact congrArg UInt16.toInt16 (wordAt16_ofUInt16 timeZone.toUInt16 _)
  · rw [byteAt_append_right (by simp), byteAt_append_right (by simp), byteAt_append_right (by simp),
      byteAt_append_right (by simp)]
    rfl

/-- The bytes at the start of which a timestamp is read, with its padding cleared. -/
def clearPadding (bs : Bytes) : Bytes := (bs.set 7 0).set 15 0

theorem clearPadding_eq {bs : Bytes} (h : 16 ≤ bs.length) :
    clearPadding bs = bs.slice 0 7 ++ 0 :: (bs.slice 8 7 ++ 0 :: bs.drop 16) := by
  have hfront : (bs.take 7).length = 7 := by
    rw [List.length_take]
    omega
  have hback : 7 < (bs.drop 8).length := by
    rw [List.length_drop]
    omega
  have hseventh : bs.set 7 0 = bs.take 7 ++ 0 :: bs.drop 8 := by
    rw [List.set_eq_take_append_cons_drop, if_pos (by omega)]
  rw [clearPadding, hseventh, List.set_append_right _ _ (by omega), hfront, List.set_cons_succ,
    List.set_eq_take_append_cons_drop, if_pos hback, List.drop_drop]
  rfl

/-- What a timestamp is read from is written again, but for its padding. -/
theorem toBytes_ofBytes {bs : Bytes} (h : 16 ≤ bs.length) :
    (ofBytes bs).toBytes ++ bs.drop 16 = clearPadding bs := by
  have hfront : ofUInt16 (bs.wordAt16 0) ++ [bs.byteAt 2, bs.byteAt 3, bs.byteAt 4, bs.byteAt 5,
      bs.byteAt 6] = bs.slice 0 7 := by
    rw [ofUInt16_wordAt16 (by omega)]
    calc bs.slice 0 2 ++ [bs.byteAt 2, bs.byteAt 3, bs.byteAt 4, bs.byteAt 5, bs.byteAt 6]
        = bs.slice 0 2 ++ (bs.slice 2 1 ++ (bs.slice 3 1 ++ (bs.slice 4 1 ++ (bs.slice 5 1 ++
            bs.slice 6 1)))) := by
          repeat rw [slice_one (by omega)]
          rfl
      _ = bs.slice 0 7 := by repeat rw [slice_add]
  have hback : ofUInt32 (bs.wordAt32 8) ++ ofUInt16 (bs.wordAt16 12).toInt16.toUInt16 ++
      [bs.byteAt 14] = bs.slice 8 7 := by
    rw [UInt16.toUInt16_toInt16, ofUInt32_wordAt32 (by omega), ofUInt16_wordAt16 (by omega),
      ← slice_one (by omega), slice_add, slice_add]
  rw [clearPadding_eq h, ← hfront, ← hback]
  simp [toBytes, ofBytes]

end Timestamp

end SecureBoot
