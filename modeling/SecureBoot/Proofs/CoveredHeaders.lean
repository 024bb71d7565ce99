import SecureBoot.Proofs.ImageLayouts

/-!
# The headers in a digest

A digest leaves the checksum and the entry of the certificate table out of the headers.  A header
may declare fewer data directories than have such an entry.  The eight bytes at its place are
left out all the same, though they hold something else then, such as section headers.

* `Authenticode.headerOffsets_eq` — what is covered is the headers but for these twelve bytes;
* `Authenticode.headers_covered` — so the entry and nothing else is left out with the checksum
  exactly if it is declared, and two images have the same bytes covered exactly if they agree
  everywhere else in the headers;
* `Authenticode.not_headers_covered` — two images that differ in the characteristics of a section
  have the same bytes covered.
-/

namespace SecureBoot

namespace Authenticode

open PortableImage

variable {read : ImageReader} {image : Bytes} {parts : PortableImage} {header : OptionalHeader}
  {l : AuthenticodeLayout}

/-- The offsets of the checksum. -/
def IsChecksum (l : AuthenticodeLayout) (p : Nat) : Prop :=
  l.checksum ≤ p ∧ p < l.checksum + checksumSize

/-- The offsets of the entry of the certificate table, where there is one. -/
def IsEntry (l : AuthenticodeLayout) (p : Nat) : Prop :=
  l.directory ≤ p ∧ p < l.directory + directorySize

/-- Whether a header declares an entry of the certificate table. -/
def DeclaresEntry (header : OptionalHeader) : Prop := certificateIndex < header.directories.length

/-- The offsets of what a signature changes in the headers: the checksum, and the entry of the
certificate table if it is declared. -/
def IsSigned (l : AuthenticodeLayout) (header : OptionalHeader) (p : Nat) : Prop :=
  IsChecksum l p ∨ DeclaresEntry header ∧ IsEntry l p

instance (p : Nat) : Decidable (IsChecksum l p) :=
  inferInstanceAs (Decidable (l.checksum ≤ p ∧ p < l.checksum + checksumSize))

instance (p : Nat) : Decidable (IsEntry l p) :=
  inferInstanceAs (Decidable (l.directory ≤ p ∧ p < l.directory + directorySize))

instance : Decidable (DeclaresEntry header) :=
  inferInstanceAs (Decidable (certificateIndex < header.directories.length))

instance (p : Nat) : Decidable (IsSigned l header p) :=
  inferInstanceAs (Decidable (IsChecksum l p ∨ DeclaresEntry header ∧ IsEntry l p))

theorem filter_offsetsIn_eq_self {r : Nat × Nat} {keep : Nat → Prop} [DecidablePred keep]
    (h : ∀ p, r.1 ≤ p → p < r.2 → keep p) : (offsetsIn r).filter (keep ·) = offsetsIn r := by
  refine List.filter_eq_self.2 fun p hp => ?_
  obtain ⟨hstart, hfinish⟩ := mem_offsetsIn.1 hp
  exact decide_eq_true (h p hstart hfinish)

theorem filter_offsetsIn_eq_nil {r : Nat × Nat} {keep : Nat → Prop} [DecidablePred keep]
    (h : ∀ p, r.1 ≤ p → p < r.2 → ¬keep p) : (offsetsIn r).filter (keep ·) = [] := by
  refine List.filter_eq_nil_iff.2 fun p hp => ?_
  obtain ⟨hstart, hfinish⟩ := mem_offsetsIn.1 hp
  exact mt of_decide_eq_true (h p hstart hfinish)

/-- **What is covered of the headers**: all but the checksum and eight bytes at the place of the
entry, in order. -/
theorem headerOffsets_eq (h : layout read image = .ok l) :
    headerOffsets l =
      (List.range l.sizeOfHeaders).filter fun p => ¬IsChecksum l p ∧ ¬IsEntry l p := by
  have hchecksum := checksum_le h
  have hdirectory := (fits_of_layout h).directory_le
  have hmargin : l.checksum ≤ l.checksum + checksumSize := Nat.le_add_right ..
  have hentry : l.directory ≤ l.directory + directorySize := Nat.le_add_right ..
  -- the headers are cut where the checksum and the entry start and end
  have hcut : List.range l.sizeOfHeaders = offsetsIn (0, l.checksum) ++
      offsetsIn (l.checksum, l.checksum + checksumSize) ++
      offsetsIn (l.checksum + checksumSize, l.directory) ++
      offsetsIn (l.directory, l.directory + directorySize) ++
      offsetsIn (l.directory + directorySize, l.sizeOfHeaders) := by
    rw [offsetsIn_append (Nat.zero_le _) hmargin, offsetsIn_append (Nat.zero_le _) hchecksum,
      offsetsIn_append (Nat.zero_le _) hentry, offsetsIn_append (Nat.zero_le _) hdirectory,
      offsetsIn, Nat.sub_zero, List.range_eq_range']
  rw [hcut]
  simp only [List.filter_append]
  rw [filter_offsetsIn_eq_self, filter_offsetsIn_eq_nil, filter_offsetsIn_eq_self,
    filter_offsetsIn_eq_nil, filter_offsetsIn_eq_self]
  · simp [headerOffsets, headerRanges]
  all_goals
    intro p hstart hfinish
    unfold IsChecksum IsEntry
    omega

theorem mem_headerOffsets (h : layout read image = .ok l) {p : Nat} :
    p ∈ headerOffsets l ↔ p < l.sizeOfHeaders ∧ ¬IsChecksum l p ∧ ¬IsEntry l p := by
  rw [headerOffsets_eq h, List.mem_filter, List.mem_range, decide_eq_true_eq]

/-- What a signature changes is left out, and nothing else, exactly if the entry is declared. -/
theorem headerOffsets_eq_iff (h : layout read image = .ok l) :
    headerOffsets l = (List.range l.sizeOfHeaders).filter (¬IsSigned l header ·) ↔
      DeclaresEntry header := by
  have hchecksum := checksum_le h
  have hdirectory := (fits_of_layout h).directory_le
  constructor
  · intro hsigned
    -- the first byte at the place of the entry
    have hmem : l.directory ∉ headerOffsets l := by
      rw [mem_headerOffsets h]
      exact fun hp => hp.2.2 ⟨Nat.le_refl _, Nat.lt_add_of_pos_right (by decide)⟩
    rw [hsigned, List.mem_filter, List.mem_range, decide_eq_true_eq] at hmem
    have hbound : l.directory < l.sizeOfHeaders := by
      unfold directorySize at hdirectory
      omega
    have hleft : IsSigned l header l.directory :=
      Decidable.not_not.1 fun hkept => hmem ⟨hbound, hkept⟩
    rcases hleft with hleft | ⟨hdeclared, -⟩
    · unfold IsChecksum at hleft
      omega
    · exact hdeclared
  · intro hdeclared
    rw [headerOffsets_eq h]
    refine List.filter_congr fun p _ => ?_
    rw [decide_eq_decide, IsSigned, not_or, and_iff_right hdeclared]

/-- **The headers in a digest.**  What a digest covers starts with bytes of the headers: all of
them in order, without the checksum and without the eight bytes at the place of the entry of the
certificate table.  So what a signature changes is left out and nothing else exactly if the
header declares such an entry.  If it does not, eight bytes are left out that are no entry.  Two
images with the same layout have the same bytes of their headers covered exactly if they agree
everywhere but at those twelve offsets. -/
theorem headers_covered (hread : read image = some parts) (hheader : parts.optional = some header)
    (h : layout read image = .ok l) :
    (l.sizeOfHeaders = header.sizeOfHeaders.toNat ∧ l.checksum = parts.optionalOffset + 64 ∧
      ∃ fieldsSize, fieldsSize? header.magic = some fieldsSize ∧
        l.directory = parts.optionalOffset + fieldsSize + 4 * 8) ∧
    covered read image = .ok (image.pick (headerOffsets l) ++
      image.pick (sectionOffsets l ++ trailingOffsets l image.length)) ∧
    headerOffsets l =
      (List.range l.sizeOfHeaders).filter (fun p => ¬IsChecksum l p ∧ ¬IsEntry l p) ∧
    (headerOffsets l = (List.range l.sizeOfHeaders).filter (¬IsSigned l header ·) ↔
      DeclaresEntry header) ∧
    ∀ image', layout read image' = .ok l →
      (image'.pick (headerOffsets l) = image.pick (headerOffsets l) ↔
        ∀ p < l.sizeOfHeaders, ¬IsChecksum l p → ¬IsEntry l p →
          image'.byteAt p = image.byteAt p) := by
  refine ⟨?_, ?_, headerOffsets_eq h, headerOffsets_eq_iff h, fun image' _ => ?_⟩
  · obtain ⟨parts', header', fieldsSize, hread', hheader', hfields, rfl, -⟩ := layout_eq_ok.1 h
    cases hread.symm.trans hread'
    cases hheader.symm.trans hheader'
    exact ⟨rfl, rfl, fieldsSize, hfields, rfl⟩
  · rw [covered_eq h, offsets, List.append_assoc, Bytes.pick_append]
  · rw [Bytes.pick_eq_iff]
    simp only [mem_headerOffsets h, and_imp]

/-! ## A section that may be written -/

/-- An image without data directories, whose one section has characteristics. -/
def bareImage (characteristics : UInt32) : Bytes :=
  imageOf [] [⟨0x200, 16⟩] characteristics (List.replicate 16 0xcc)

/-- Code that may be executed and read. -/
def readableCode : UInt32 := 0x60000020

/-- Code that may be executed, read and written. -/
def writableCode : UInt32 := 0xe0000020

theorem bareImage_eq {c : UInt32} (hc : c = readableCode ∨ c = writableCode) :
    bareImage c = (bareImage 0).take 220 ++ Bytes.ofUInt32 c ++ (bareImage 0).drop 224 := by
  rcases hc with rfl | rfl <;> decide +kernel

/-- The images are accepted with one layout, and differ only where the entry of a certificate
table would be: there the header of the section ends, with its characteristics. -/
theorem exists_bareImages :
    ∃ parts header l, read? (bareImage readableCode) = some parts ∧
      parts.optional = some header ∧ ¬DeclaresEntry header ∧
      layout read? (bareImage readableCode) = .ok l ∧
      layout read? (bareImage writableCode) = .ok l ∧
      (∀ p < l.sizeOfHeaders, ¬IsEntry l p →
        (bareImage writableCode).byteAt p = (bareImage readableCode).byteAt p) ∧
      ∃ p < l.sizeOfHeaders, ¬IsChecksum l p ∧
        (bareImage writableCode).byteAt p ≠ (bareImage readableCode).byteAt p := by
  have hrun : (read? (bareImage readableCode)).bind (fun parts => parts.optional.bind fun header =>
      (layout read? (bareImage readableCode)).toOption.bind fun l =>
        (layout read? (bareImage writableCode)).toOption.map fun l' =>
          (header.directories, decide (l' = l), l.checksum, l.directory, l.sizeOfHeaders)) =
            some ([], true, 152, 216, 512) := by decide +kernel
  obtain ⟨parts, hread, hrun⟩ := Option.bind_eq_some_iff.1 hrun
  obtain ⟨header, hheader, hrun⟩ := Option.bind_eq_some_iff.1 hrun
  obtain ⟨l, hlayout, hrun⟩ := Option.bind_eq_some_iff.1 hrun
  obtain ⟨l', hlayout', hrun⟩ := Option.map_eq_some_iff.1 hrun
  simp only [Prod.mk.injEq, decide_eq_true_eq] at hrun
  obtain ⟨hdirectories, rfl, hchecksum, hdirectory, hsize⟩ := hrun
  have hfront : ((bareImage 0).take 220).length = 220 := by decide +kernel
  have hsame (p : Nat) (hp : ¬(216 ≤ p ∧ p < 224)) :
      (bareImage writableCode).byteAt p = (bareImage readableCode).byteAt p := by
    rw [bareImage_eq (.inr rfl), bareImage_eq (.inl rfl)]
    refine Bytes.byteAt_around (by simp) ?_
    rw [hfront, Bytes.length_ofUInt32]
    omega
  have hother : (bareImage writableCode).byteAt 223 ≠ (bareImage readableCode).byteAt 223 := by
    decide +kernel
  refine ⟨parts, header, l', hread, hheader, ?_, toOption_eq_some.1 hlayout,
    toOption_eq_some.1 hlayout', ?_, 223, ?_, ?_, hother⟩
  · rw [DeclaresEntry, hdirectories]
    decide
  · intro p _ hentry
    rw [IsEntry, hdirectory] at hentry
    exact hsame p hentry
  · rw [hsize]
    decide
  · rw [IsChecksum, hchecksum]
    decide

theorem bareImages_headers_covered :
    ∃ parts header l, read? (bareImage readableCode) = some parts ∧
      parts.optional = some header ∧ layout read? (bareImage readableCode) = .ok l ∧
      layout read? (bareImage writableCode) = .ok l ∧
      (bareImage writableCode).pick (headerOffsets l) =
        (bareImage readableCode).pick (headerOffsets l) ∧
      headerOffsets l ≠ (List.range l.sizeOfHeaders).filter (¬IsSigned l header ·) := by
  obtain ⟨parts, header, l, hread, hheader, hbare, hlayout, hlayout', hsame, -⟩ :=
    exists_bareImages
  obtain ⟨-, -, -, hdeclared, hagree⟩ := headers_covered hread hheader hlayout
  exact ⟨parts, header, l, hread, hheader, hlayout, hlayout',
    (hagree _ hlayout').2 fun p hp _ hentry => hsame p hp hentry, mt hdeclared.1 hbare⟩

/-- What a signature changes is not all that is left out of the headers, and images that differ
elsewhere in them may have the same bytes covered. -/
theorem not_headers_covered :
    ¬∀ image parts header l, read? image = some parts → parts.optional = some header →
      layout read? image = .ok l →
      headerOffsets l = (List.range l.sizeOfHeaders).filter (¬IsSigned l header ·) ∧
      ∀ image', layout read? image' = .ok l →
        (∃ p < l.sizeOfHeaders, ¬IsSigned l header p ∧ image'.byteAt p ≠ image.byteAt p) →
        image'.pick (headerOffsets l) ≠ image.pick (headerOffsets l) := by
  intro h
  obtain ⟨parts, header, l, hread, hheader, hbare, hlayout, hlayout', hsame, p, hp, hchecksum,
    hother⟩ := exists_bareImages
  obtain ⟨-, hdiffer⟩ := h _ parts header l hread hheader hlayout
  refine hdiffer _ hlayout' ⟨p, hp, ?_, hother⟩ (Bytes.pick_eq_iff.2 fun q hq => ?_)
  · rintro (hleft | ⟨hdeclared, -⟩)
    · exact hchecksum hleft
    · exact hbare hdeclared
  · obtain ⟨hbound, -, hentry⟩ := (mem_headerOffsets hlayout).1 hq
    exact hsame q hbound hentry

end Authenticode

end SecureBoot
