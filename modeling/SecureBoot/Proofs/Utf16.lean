import SecureBoot.Proofs.WireForm
import SecureBoot.Text.Utf16

/-!
# Names in UTF-16

Every character is read back from its units, and no unit of a character is zero but that of
the zero character.  So a text survives, up to its first zero character, the form in which
firmware and flash images keep names:

* `decode_encode` — the units of a text are read as the text;
* `ofTerminated_terminated_eq` — in front of a zero unit they are read up to the first zero
  character;
* `ofTerminated_ofBytes` — the same on the wire;
* `terminated_injective` — different texts have different units;
* `zero_not_mem_ofTerminated` — whatever is read as a name has no zero character.
-/

namespace SecureBoot.Text.Utf16

/-! ## Characters -/

/-- A character is no surrogate and below the end of the last plane. -/
theorem char_bounds (c : Char) : c.toNat < 0xD800 ∨ 0xDFFF < c.toNat ∧ c.toNat < 0x110000 :=
  c.valid

theorem isHigh_eq_true {u : UInt16} : isHigh u = true ↔ 0xD800 ≤ u.toNat ∧ u.toNat < 0xDC00 := by
  simp [isHigh, UInt16.le_iff_toNat_le, UInt16.lt_iff_toNat_lt]

theorem isLow_eq_true {u : UInt16} : isLow u = true ↔ 0xDC00 ≤ u.toNat ∧ u.toNat < 0xE000 := by
  simp [isLow, UInt16.le_iff_toNat_le, UInt16.lt_iff_toNat_lt]

/-- A unit that starts no pair is a character on its own. -/
theorem decodeChars_single {u : UInt16} (h : isHigh u = false) (rest : List UInt16) :
    decodeChars (u :: rest) = charOfUnit u :: decodeChars rest := by
  cases rest with
  | nil => rfl
  | cons v rest => rw [decodeChars, h, Bool.false_and, if_neg Bool.false_ne_true]

/-- **The units of a character are read as the character**, whatever follows. -/
theorem decodeChars_ofChar (c : Char) (rest : List UInt16) :
    decodeChars (ofChar c ++ rest) = c :: decodeChars rest := by
  have hc := char_bounds c
  unfold ofChar
  by_cases hn : c.toNat < 0x10000
  · have hu : (UInt16.ofNat c.toNat).toNat = c.toNat := UInt16.toNat_ofNat_of_lt' hn
    have hhigh : isHigh (UInt16.ofNat c.toNat) = false := by
      rw [Bool.eq_false_iff, ne_eq, isHigh_eq_true, hu]
      omega
    have hlow : isLow (UInt16.ofNat c.toNat) = false := by
      rw [Bool.eq_false_iff, ne_eq, isLow_eq_true, hu]
      omega
    rw [if_pos hn, List.singleton_append, decodeChars_single hhigh, charOfUnit, hhigh, hlow,
      Bool.or_self, if_neg Bool.false_ne_true, hu, Char.ofNat_toNat]
  · -- beyond the basic plane the two surrogates carry ten bits each
    have hu : (UInt16.ofNat (0xD800 + (c.toNat - 0x10000) / 0x400)).toNat =
        0xD800 + (c.toNat - 0x10000) / 0x400 := UInt16.toNat_ofNat_of_lt' (show _ < 65536 by omega)
    have hv : (UInt16.ofNat (0xDC00 + (c.toNat - 0x10000) % 0x400)).toNat =
        0xDC00 + (c.toNat - 0x10000) % 0x400 := UInt16.toNat_ofNat_of_lt' (show _ < 65536 by omega)
    have hhigh : isHigh (UInt16.ofNat (0xD800 + (c.toNat - 0x10000) / 0x400)) = true := by
      rw [isHigh_eq_true, hu]
      omega
    have hlow : isLow (UInt16.ofNat (0xDC00 + (c.toNat - 0x10000) % 0x400)) = true := by
      rw [isLow_eq_true, hv]
      omega
    have hjoin : 0x10000 + (0xD800 + (c.toNat - 0x10000) / 0x400 - 0xD800) * 0x400 +
        (0xDC00 + (c.toNat - 0x10000) % 0x400 - 0xDC00) = c.toNat := by omega
    rw [if_neg hn]
    show decodeChars (_ :: _ :: rest) = _
    rw [decodeChars, hhigh, hlow, Bool.and_self, if_pos rfl, charOfPair, hu, hv, hjoin,
      Char.ofNat_toNat]

/-- No unit of a character other than zero is zero. -/
theorem ne_zero_of_mem_ofChar {c : Char} (hc : c ≠ '\x00') {u : UInt16} (hu : u ∈ ofChar c) :
    u ≠ 0 := by
  have hbounds := char_bounds c
  have hpos : c.toNat ≠ 0 := fun h => hc (Char.toNat_inj.1 h)
  rw [ne_eq, ← UInt16.toNat_inj]
  unfold ofChar at hu
  by_cases hn : c.toNat < 0x10000
  · rw [if_pos hn, List.mem_singleton] at hu
    rw [hu, UInt16.toNat_ofNat_of_lt' hn]
    exact hpos
  · simp only [if_neg hn, List.mem_cons, List.not_mem_nil, or_false] at hu
    rcases hu with rfl | rfl <;> simp <;> omega

/-! ## Texts -/

theorem decodeChars_flatMap_ofChar (cs : List Char) : decodeChars (cs.flatMap ofChar) = cs := by
  induction cs with
  | nil => rfl
  | cons c cs ih => rw [List.flatMap_cons, decodeChars_ofChar, ih]

/-- The units of a text are read as the text. -/
theorem decode_encode (s : String) : decode (encode s) = s := by
  rw [decode, encode, decodeChars_flatMap_ofChar, String.ofList_toList]

/-- The units of a text as firmware takes them tell the text. -/
theorem terminated_injective {s s' : String} (h : terminated s = terminated s') : s = s' := by
  have hunits : encode s = encode s' := List.append_cancel_right h
  rw [← decode_encode s, hunits, decode_encode]

/-! ## Names that end early -/

/-- A text up to its first zero character. -/
def beforeZero (s : String) : String := String.ofList (s.toList.takeWhile (· != '\x00'))

/-- A text without a zero character is all of it. -/
theorem beforeZero_eq_self {s : String} (h : '\x00' ∉ s.toList) : beforeZero s = s := by
  have hall : ∀ c ∈ s.toList, (c != '\x00') = true := by
    intro c hc
    exact bne_iff_ne.2 fun hzero => h (hzero ▸ hc)
  rw [beforeZero, ← List.append_nil s.toList, List.takeWhile_append_of_pos hall,
    List.takeWhile_nil, List.append_nil, String.ofList_toList]

/-- The first zero unit of a text is that of its first zero character, or the terminator. -/
theorem takeWhile_flatMap_ofChar (cs : List Char) :
    (cs.flatMap ofChar ++ [0]).takeWhile (· != 0) =
      (cs.takeWhile (· != '\x00')).flatMap ofChar := by
  induction cs with
  | nil => rfl
  | cons c cs ih =>
    by_cases hc : c = '\x00'
    · subst hc
      rfl
    · have hunits : ∀ u ∈ ofChar c, (u != 0) = true := fun u hu =>
        bne_iff_ne.2 (ne_zero_of_mem_ofChar hc hu)
      have hkept : (c :: cs).takeWhile (· != '\x00') = c :: cs.takeWhile (· != '\x00') :=
        List.takeWhile_cons_of_pos (bne_iff_ne.2 hc)
      rw [List.flatMap_cons, List.append_assoc, List.takeWhile_append_of_pos hunits, ih, hkept,
        List.flatMap_cons]

/-- **A text is read up to its first zero character.** -/
theorem ofTerminated_terminated_eq (s : String) : ofTerminated (terminated s) = beforeZero s := by
  rw [ofTerminated, terminated, encode, takeWhile_flatMap_ofChar, decode,
    decodeChars_flatMap_ofChar, beforeZero]

/-- A text without a zero character is read up to its terminator. -/
theorem ofTerminated_terminated {s : String} (h : '\x00' ∉ s.toList) :
    ofTerminated (terminated s) = s := by
  rw [ofTerminated_terminated_eq, beforeZero_eq_self h]

theorem ofNat_ne_zero {n : Nat} (h : n.isValidChar) (hpos : n ≠ 0) : Char.ofNat n ≠ '\x00' := by
  have hnat : (Char.ofNat n).toNat = n := by
    rw [Char.ofNat, dif_pos h]
    rfl
  intro hzero
  rw [hzero] at hnat
  exact hpos hnat.symm

/-- A unit other than zero is no zero character on its own. -/
theorem charOfUnit_ne_zero {u : UInt16} (hu : u ≠ 0) : charOfUnit u ≠ '\x00' := by
  unfold charOfUnit
  by_cases hsurrogate : (isHigh u || isLow u) = true
  · rw [if_pos hsurrogate]
    decide
  · rw [if_neg hsurrogate]
    rw [Bool.or_eq_true, isHigh_eq_true, isLow_eq_true] at hsurrogate
    have hlt : u.toNat < 65536 := u.toNat_lt
    refine ofNat_ne_zero ?_ fun hzero => hu (UInt16.toNat_inj.1 hzero)
    unfold Nat.isValidChar
    omega

/-- A pair of surrogates is a character beyond the basic plane. -/
theorem charOfPair_ne_zero {u v : UInt16} (hu : isHigh u = true) (hv : isLow v = true) :
    charOfPair u v ≠ '\x00' := by
  rw [isHigh_eq_true] at hu
  rw [isLow_eq_true] at hv
  refine ofNat_ne_zero ?_ (by omega)
  unfold Nat.isValidChar
  omega

theorem zero_not_mem_decodeChars {units : List UInt16} (h : ∀ u ∈ units, u ≠ 0) :
    '\x00' ∉ decodeChars units := by
  induction units using decodeChars.induct with
  | case1 => exact List.not_mem_nil
  | case2 u =>
    rw [decodeChars, List.mem_singleton]
    exact (charOfUnit_ne_zero (h u (by simp))).symm
  | case3 u v rest hpair ih =>
    obtain ⟨hu, hv⟩ := Bool.and_eq_true_iff.1 hpair
    rw [decodeChars, if_pos hpair, List.mem_cons, not_or]
    exact ⟨(charOfPair_ne_zero hu hv).symm, ih fun w hw => h w (by simp [hw])⟩
  | case4 u v rest hpair ih =>
    rw [decodeChars, if_neg hpair, List.mem_cons, not_or]
    exact ⟨(charOfUnit_ne_zero (h u (by simp))).symm, ih fun w hw => h w (by simp_all)⟩

/-- **What is read as a name has no zero character.** -/
theorem zero_not_mem_ofTerminated (units : List UInt16) :
    '\x00' ∉ (ofTerminated units).toList := by
  rw [ofTerminated, decode, String.toList_ofList]
  refine zero_not_mem_decodeChars fun u hu => ?_
  exact bne_iff_ne.1 (List.all_eq_true.1 List.all_takeWhile u hu)

/-! ## On the wire -/

@[simp] theorem length_toBytes (units : List UInt16) :
    (toBytes units).length = 2 * units.length := by
  induction units with
  | nil => rfl
  | cons u units ih =>
    rw [toBytes, List.flatMap_cons, List.length_append, Bytes.length_ofUInt16, List.length_cons]
    rw [toBytes] at ih
    omega

/-- Units are read back from their bytes. -/
theorem ofBytes_toBytes (units : List UInt16) : ofBytes (toBytes units) = units := by
  induction units with
  | nil => rfl
  | cons u units ih =>
    have hu : UInt16.ofNat ((UInt8.ofNat u.toNat).toNat +
        256 * (UInt8.ofNat (u.toNat / 256)).toNat) = u := by
      have hlt := u.toNat_lt
      apply UInt16.toNat_inj.1
      simp
      omega
    show UInt16.ofNat _ :: ofBytes (toBytes units) = _
    rw [hu, ih]

/-- A stored name is read as the name that was written, up to its first zero character. -/
theorem ofTerminated_ofBytes (s : String) :
    ofTerminated (ofBytes (toBytes (terminated s))) = beforeZero s := by
  rw [ofBytes_toBytes, ofTerminated_terminated_eq]

end SecureBoot.Text.Utf16
