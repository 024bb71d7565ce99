import SecureBoot.Proofs.FlashWrites

/-!
# Images that can be opened

A store is opened where its mark stands first among the offsets that are multiples of eight
(`FlashStore.search_eq_some`), and its size and state are read from the header there
(`FlashStore.ofImage_eq_ok`).  Nothing behind the header counts, so that an image opens as the
same store when only bytes behind the header are changed (`FlashStore.ofImage_of_take_eq`).
-/

namespace SecureBoot

open Bytes

namespace FlashStore

variable {s s' : FlashStore} {image : Bytes}

/-! ## The search -/

/-- The mark of a store. -/
def mark : Bytes := Guid.authenticatedStore.toBytes

/-- The mark of a store stands at an offset. -/
def MarkAt (bs : Bytes) (offset : Nat) : Prop := mark <+: bs.drop offset

/-- **The search finds the first mark** at a multiple of eight bytes. -/
theorem search_eq_some {fuel start found : Nat} {bs : Bytes} :
    search fuel start bs = some found ↔
      ∃ k, k < fuel ∧ found = start + 8 * k ∧ MarkAt bs (8 * k) ∧ ∀ j < k, ¬MarkAt bs (8 * j) := by
  induction fuel generalizing start bs with
  | zero => simp [search]
  | succ fuel ih =>
    rw [search]
    by_cases hmark : Guid.authenticatedStore.toBytes.isPrefixOf bs = true
    · have hzero : MarkAt bs (8 * 0) := List.isPrefixOf_iff_prefix.1 hmark
      rw [if_pos hmark]
      constructor
      · rintro ⟨⟩
        exact ⟨0, Nat.zero_lt_succ _, rfl, hzero, fun j hj => absurd hj (Nat.not_lt_zero j)⟩
      · rintro ⟨k, -, rfl, -, hfirst⟩
        have hk : k = 0 := by
          by_contra hne
          exact hfirst 0 (Nat.pos_of_ne_zero hne) hzero
        rw [hk]
        rfl
    · have hzero : ¬MarkAt bs (8 * 0) := fun h => hmark (List.isPrefixOf_iff_prefix.2 h)
      have hshift (j : Nat) : MarkAt (bs.drop 8) (8 * j) ↔ MarkAt bs (8 * (j + 1)) := by
        rw [MarkAt, MarkAt, List.drop_drop, Nat.mul_add, Nat.add_comm (8 * j)]
      rw [if_neg hmark, ih]
      constructor
      · rintro ⟨k, hk, rfl, hat, hfirst⟩
        refine ⟨k + 1, by omega, by omega, (hshift k).1 hat, fun j hj => ?_⟩
        cases j with
        | zero => exact hzero
        | succ j => exact fun h => hfirst j (by omega) ((hshift j).2 h)
      · rintro ⟨k, hk, rfl, hat, hfirst⟩
        cases k with
        | zero => exact absurd hat hzero
        | succ k =>
          refine ⟨k, by omega, by omega, (hshift k).2 hat, fun j hj h => ?_⟩
          exact hfirst (j + 1) (by omega) ((hshift j).1 h)

/-! ## Opening -/

/-- **What opening reads from an image**: the offset of the first mark, and behind it the state
and the size of a store that fits. -/
theorem ofImage_eq_ok :
    ofImage image = .ok s ↔
      s.image = image ∧ search (image.length / 8 + 1) 0 image = some s.offset ∧
        image.byteAt (s.offset + 20) = formatted ∧ image.byteAt (s.offset + 21) = healthy ∧
        (image.wordAt32 (s.offset + 16)).toNat = s.size := by
  unfold ofImage
  have hstate (offset : Nat) : (image.slice offset headerSize).byteAt 20 =
      image.byteAt (offset + 20) := byteAt_slice (by decide)
  have hhealth (offset : Nat) : (image.slice offset headerSize).byteAt 21 =
      image.byteAt (offset + 21) := byteAt_slice (by decide)
  have hsize (offset : Nat) : (image.slice offset headerSize).wordAt32 16 =
      image.wordAt32 (offset + 16) := wordAt32_slice (by decide)
  constructor
  · intro h
    cases hsearch : search (image.length / 8 + 1) 0 image with
    | none =>
      rw [hsearch] at h
      cases h
    | some offset =>
      rw [hsearch] at h
      simp only [hstate, hhealth, hsize] at h
      split at h
      · cases h
      split at h
      · cases h
      rename_i hworking
      split at h
      · cases h
        rw [not_or, ne_eq, ne_eq, not_not, not_not] at hworking
        exact ⟨rfl, rfl, hworking.1, hworking.2, rfl⟩
      · cases h
  · rintro ⟨rfl, hsearch, hformatted, hhealthy, hsized⟩
    have hfits : headerSize ≤ s.size ∧ s.offset + s.size ≤ s.image.length :=
      ⟨s.header_le, s.finish_le⟩
    have hheader : ¬(s.image.slice s.offset headerSize).length < headerSize := by
      rw [length_slice]
      omega
    rw [hsearch]
    simp only [hstate, hhealth, hsize, hformatted, hhealthy, hsized]
    rw [if_neg hheader, if_neg (by simp), dif_pos hfits]

/-! ## Changes behind the header -/

/-- Whether a mark stands at an offset is seen from the bytes up to its end. -/
theorem markAt_take {bs : Bytes} {offset n : Nat} (h : offset + 16 ≤ n) :
    MarkAt (bs.take n) offset ↔ MarkAt bs offset := by
  have hlength : mark.length = 16 := rfl
  rw [MarkAt, MarkAt, List.prefix_iff_eq_take, List.prefix_iff_eq_take, List.drop_take,
    List.take_take, hlength, Nat.min_eq_left (by omega)]

/-- **An image opens as the same store when only what stands behind the header changes.** -/
theorem ofImage_of_take_eq (h : ofImage s.image = .ok s)
    (hlength : s'.image.length = s.image.length) (hoffset : s'.offset = s.offset)
    (hsize : s'.size = s.size) (hfront : s'.image.take s.start = s.image.take s.start) :
    ofImage s'.image = .ok s' := by
  obtain ⟨-, hsearch, hformatted, hhealthy, hsized⟩ := ofImage_eq_ok.1 h
  have hstart : s.start = s.offset + 28 := rfl
  have hmark (offset : Nat) (hle : offset ≤ s.offset) :
      MarkAt s'.image offset ↔ MarkAt s.image offset := by
    rw [← markAt_take (n := s.start) (by omega), hfront, markAt_take (by omega)]
  have hbyte (i : Nat) (hi : i < s.start) : s'.image.byteAt i = s.image.byteAt i := by
    have hcut := congrArg (byteAt · i) hfront
    simp only [← slice_zero, byteAt_slice hi, Nat.zero_add] at hcut
    exact hcut
  have hword : s'.image.wordAt32 (s.offset + 16) = s.image.wordAt32 (s.offset + 16) := by
    have hcut := congrArg (wordAt32 · (s.offset + 16)) hfront
    have hfits : s.offset + 16 + 4 ≤ s.start := by omega
    simp only [← slice_zero, wordAt32_slice hfits, Nat.zero_add] at hcut
    exact hcut
  refine ofImage_eq_ok.2 ⟨rfl, ?_, ?_, ?_, ?_⟩
  · obtain ⟨k, hk, hfound, hat, hfirst⟩ := search_eq_some.1 hsearch
    rw [hlength, hoffset]
    refine search_eq_some.2 ⟨k, hk, hfound, (hmark _ (by omega)).2 hat, fun j hj hbefore => ?_⟩
    exact hfirst j hj ((hmark _ (by omega)).1 hbefore)
  · rw [hoffset, hbyte _ (by omega), hformatted]
  · rw [hoffset, hbyte _ (by omega), hhealthy]
  · rw [hoffset, hsize, hword, hsized]

/-- A blank image opens as the store that fills it. -/
theorem ofImage_of_blank {size : Nat} (h : blank size = .ok s) : ofImage s.image = .ok s := by
  unfold blank at h
  split at h
  · rename_i hfits
    cases h
    refine ofImage_eq_ok.2 ⟨rfl, search_eq_some.2 ⟨0, Nat.zero_lt_succ _, rfl, ?_, ?_⟩, ?_, ?_, ?_⟩
    · simp only [header, List.append_assoc]
      exact List.prefix_append _ _
    · exact fun j hj => absurd hj (Nat.not_lt_zero j)
    · simp only [header, List.append_assoc]
      rw [byteAt_append_right (by simp), byteAt_append_right (by simp)]
      simp [byteAt]
    · simp only [header, List.append_assoc]
      rw [byteAt_append_right (by simp), byteAt_append_right (by simp)]
      simp [byteAt]
    · simp only [header, List.append_assoc]
      rw [wordAt32_append_right (by simp)]
      simpa using toNat_wordAt32_ofNatLE hfits.2 _
  · cases h

end FlashStore

end SecureBoot
