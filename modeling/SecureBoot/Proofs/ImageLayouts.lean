import SecureBoot.Authenticode
import SecureBoot.Proofs.Except
import SecureBoot.Proofs.WireForm

/-!
# What a digest covers, offset by offset

A digest covers pieces of an image, one after the other.  This file says where the pieces are,
whatever reader took the image apart.

* `Authenticode.layout_eq_ok` — when an image has a layout, and which one;
* `Authenticode.ranges_within` — every piece is in the image;
* `Authenticode.covered_eq` — so the digest covers the bytes at `offsets`, in that order, and
  fails exactly where there is no layout (`covered_eq_error`).
-/

namespace SecureBoot

namespace Bytes

/-- The bytes at offsets, in the order of the offsets. -/
def pick (bs : Bytes) (offsets : List Nat) : Bytes := offsets.map bs.byteAt

theorem pick_nil (bs : Bytes) : bs.pick [] = [] := rfl

theorem pick_append (bs : Bytes) (a b : List Nat) : bs.pick (a ++ b) = bs.pick a ++ bs.pick b :=
  List.map_append

/-- Two strings have the same bytes at offsets exactly if they agree at each of them. -/
theorem pick_eq_iff {a b : Bytes} {offsets : List Nat} :
    a.pick offsets = b.pick offsets ↔ ∀ p ∈ offsets, a.byteAt p = b.byteAt p := List.map_inj_left

/-- The bytes at consecutive offsets are a piece. -/
theorem pick_range' {bs : Bytes} {start size : Nat} (h : start + size ≤ bs.length) :
    bs.pick (List.range' start size) = bs.slice start size := by
  induction size generalizing start with
  | zero => rw [slice, List.take_zero]; rfl
  | succ size ih =>
    have hfirst : bs.byteAt start :: bs.slice (start + 1) size = bs.slice start (size + 1) := by
      rw [Nat.add_comm size, ← slice_add, slice_one (by omega)]
      rfl
    have hrest : bs.pick (List.range' (start + 1) size) = bs.slice (start + 1) size :=
      ih (by omega)
    rw [List.range'_succ, ← hfirst, ← hrest]
    rfl

/-- What stands in the middle does not matter for the bytes around it. -/
theorem byteAt_around {a m m' b : Bytes} {p : Nat} (hlength : m.length = m'.length)
    (hp : p < a.length ∨ a.length + m.length ≤ p) :
    (a ++ m ++ b).byteAt p = (a ++ m' ++ b).byteAt p := by
  rw [List.append_assoc, List.append_assoc]
  rcases hp with hp | hp
  · rw [byteAt_append_left hp, byteAt_append_left hp]
  · rw [byteAt_append_right (by omega), byteAt_append_right (by omega),
      byteAt_append_right (by omega), byteAt_append_right (by omega), hlength]

end Bytes

theorem filter_eq_none {α : Type} {o : Option α} {p : α → Bool} :
    o.filter p = none ↔ ∀ a ∈ o, p a = false := by
  cases o <;> simp [Option.filter]

namespace Authenticode

open PortableImage

variable {read : ImageReader} {image : Bytes} {parts : PortableImage} {l : AuthenticodeLayout}
  {size : Nat}

/-! ## Layouts -/

/-- No section ends past a size, if those without bytes do not count. -/
theorem overrun?_eq_none {sections : List ImageExtent} :
    overrun? size sections = none ↔ ∀ e ∈ sections, e.size ≠ 0 → e.finish ≤ size := by
  rw [overrun?, List.find?_eq_none]
  constructor
  · intro h e he hsize
    obtain ⟨i, hi⟩ := List.mem_iff_getElem?.1 he
    have hinside := h (e, i) (List.mem_zipIdx_iff_getElem?.2 hi)
    simpa [hsize, ImageExtent.isInside] using hinside
  · rintro h ⟨e, i⟩ hi
    have he := h e (List.fst_mem_of_mem_zipIdx hi)
    simpa [ImageExtent.isInside] using he

/-- The layout that the parts of an image have. -/
def layoutWith (parts : PortableImage) (header : OptionalHeader) (fieldsSize : Nat) :
    AuthenticodeLayout where
  checksum := parts.optionalOffset + checksumOffset
  directory := parts.optionalOffset + fieldsSize + certificateIndex * directorySize
  sizeOfHeaders := header.sizeOfHeaders.toNat
  certificateTable := (certificateTable header).filter (·.size != 0)
  sections := (parts.sections.filter (·.size != 0)).mergeSort extentLe

theorem mem_layoutWith_sections {header : OptionalHeader} {fieldsSize : Nat} {e : ImageExtent} :
    e ∈ (layoutWith parts header fieldsSize).sections ↔ e ∈ parts.sections ∧ e.size ≠ 0 := by
  rw [layoutWith, List.mem_mergeSort, List.mem_filter, bne_iff_ne]

/-- What is declared is in an image of a size: the headers, with the entry of the certificate
table in them, the certificate table and the sections. -/
structure Fits (l : AuthenticodeLayout) (size : Nat) : Prop where
  headers_le : l.sizeOfHeaders ≤ size
  directory_le : l.directory + directorySize ≤ l.sizeOfHeaders
  table_le : ∀ t ∈ l.certificateTable, t.finish ≤ size
  sections_le : ∀ e ∈ l.sections, e.finish ≤ size

/-- **When there is a layout**: the optional header is there and of a known format, and what is
declared is in the image. -/
theorem layoutOf_eq_ok : layoutOf parts size = .ok l ↔ ∃ header fieldsSize,
    parts.optional = some header ∧ fieldsSize? header.magic = some fieldsSize ∧
      l = layoutWith parts header fieldsSize ∧ Fits l size := by
  constructor
  · intro h
    cases hheader : parts.optional with
    | none => simp only [layoutOf, hheader, throw_eq_ok] at h
    | some header =>
      cases hfields : fieldsSize? header.magic with
      | none => simp only [layoutOf, hheader, hfields, throw_eq_ok] at h
      | some fieldsSize =>
        simp only [layoutOf, hheader, hfields, guard_eq_ok, not_or, Nat.not_lt] at h
        obtain ⟨⟨hsize, hdirectory⟩, h⟩ := h
        split at h
        next => simp only [throw_bind, throw_eq_ok] at h
        next htable =>
          split at h
          next => simp only [throw_bind, throw_eq_ok] at h
          next hover =>
            have htable := Option.eq_none_iff_forall_ne_some.2 htable
            have hover := overrun?_eq_none.1 <| Option.eq_none_iff_forall_ne_some.2
              fun (found : ImageExtent × Nat) => hover found.1 found.2
            rw [pure_eq_ok] at h
            subst h
            refine ⟨header, fieldsSize, rfl, hfields, rfl, hsize, hdirectory, fun t ht => ?_,
              fun e he => ?_⟩
            · simpa [ImageExtent.isInside] using filter_eq_none.1 htable t ht
            · obtain ⟨hmem, hbytes⟩ := mem_layoutWith_sections.1 he
              exact hover e hmem hbytes
  · rintro ⟨header, fieldsSize, hheader, hfields, rfl, hfits⟩
    have htable : ((certificateTable header).filter (·.size != 0)).filter
        (!·.isInside size) = none := by
      refine filter_eq_none.2 fun t ht => ?_
      simpa [ImageExtent.isInside] using hfits.table_le t ht
    have hover : overrun? size parts.sections = none := overrun?_eq_none.2 fun e he hbytes =>
      hfits.sections_le e (mem_layoutWith_sections.2 ⟨he, hbytes⟩)
    have hbounds : ¬(size < header.sizeOfHeaders.toNat ∨ header.sizeOfHeaders.toNat <
        parts.optionalOffset + fieldsSize + certificateIndex * directorySize + directorySize) :=
      not_or.2 ⟨Nat.not_lt.2 hfits.headers_le, Nat.not_lt.2 hfits.directory_le⟩
    simp only [layoutOf, hheader, hfields, htable, hover, if_neg hbounds]
    rfl

theorem layout_eq_ok : layout read image = .ok l ↔ ∃ parts header fieldsSize,
    read image = some parts ∧ parts.optional = some header ∧
      fieldsSize? header.magic = some fieldsSize ∧ l = layoutWith parts header fieldsSize ∧
      Fits l image.length := by
  rw [layout]
  cases read image with
  | none => simp [throw_eq_ok]
  | some parts => simp [layoutOf_eq_ok]

theorem fits_of_layout (h : layout read image = .ok l) : Fits l image.length := by
  obtain ⟨-, -, -, -, -, -, -, hfits⟩ := layout_eq_ok.1 h
  exact hfits

/-- The checksum comes before the data directories in either format. -/
theorem checksum_le (h : layout read image = .ok l) : l.checksum + checksumSize ≤ l.directory := by
  obtain ⟨parts, header, fieldsSize, -, -, hfields, rfl, -⟩ := layout_eq_ok.1 h
  have hsize : 96 ≤ fieldsSize := by
    unfold fieldsSize? at hfields
    split at hfields
    · cases hfields
      exact Nat.le_refl _
    · split at hfields <;> cases hfields
      decide
  show parts.optionalOffset + 64 + 4 ≤ parts.optionalOffset + fieldsSize + 4 * 8
  omega

/-! ## Pieces -/

/-- **Every piece is in the image**, and ends no earlier than it starts. -/
theorem ranges_within (h : layout read image = .ok l) :
    ∀ r ∈ ranges l image.length, r.1 ≤ r.2 ∧ r.2 ≤ image.length := by
  have hfits := fits_of_layout h
  have hchecksum := checksum_le h
  have hdirectory := hfits.directory_le
  have hheaders := hfits.headers_le
  intro r hr
  rw [ranges, List.mem_append, List.mem_append] at hr
  rcases hr with (hr | hr) | hr
  · simp only [headerRanges, List.mem_cons, List.not_mem_nil, or_false] at hr
    rcases hr with rfl | rfl | rfl
    · exact ⟨Nat.zero_le _, by show l.checksum ≤ _; omega⟩
    · exact ⟨hchecksum, by show l.directory ≤ _; omega⟩
    · exact ⟨hdirectory, hheaders⟩
  · obtain ⟨e, he, rfl⟩ := List.mem_map.1 hr
    exact ⟨Nat.le_add_right .., hfits.sections_le e he⟩
  · rw [trailingRange] at hr
    split at hr
    next htrailing =>
      rw [List.mem_singleton] at hr
      subst hr
      exact ⟨by show coveredSize l ≤ image.length - tableSize l; omega, Nat.sub_le ..⟩
    next => cases hr

/-! ## Offsets -/

/-- The offsets of a range. -/
def offsetsIn (r : Nat × Nat) : List Nat := List.range' r.1 (r.2 - r.1)

theorem mem_offsetsIn {r : Nat × Nat} {p : Nat} : p ∈ offsetsIn r ↔ r.1 ≤ p ∧ p < r.2 := by
  rw [offsetsIn, List.mem_range'_1]
  omega

/-- Two ranges of which one follows the other make one. -/
theorem offsetsIn_append {a b c : Nat} (hab : a ≤ b) (hbc : b ≤ c) :
    offsetsIn (a, b) ++ offsetsIn (b, c) = offsetsIn (a, c) := by
  have hend : a + (b - a) = b := by omega
  have hsize : c - a = b - a + (c - b) := by omega
  show List.range' a (b - a) ++ List.range' b (c - b) = List.range' a (c - a)
  rw [hsize, ← List.range'_append_1, hend]

/-- The offsets in the headers that the digest covers. -/
def headerOffsets (l : AuthenticodeLayout) : List Nat := (headerRanges l).flatMap offsetsIn

/-- The offsets in the sections that the digest covers, where those in several of them come
several times. -/
def sectionOffsets (l : AuthenticodeLayout) : List Nat :=
  l.sections.flatMap fun e => offsetsIn (e.offset.toNat, e.finish)

/-- The offsets behind the sections that the digest covers, in an image of a size. -/
def trailingOffsets (l : AuthenticodeLayout) (size : Nat) : List Nat :=
  (trailingRange l size).flatMap offsetsIn

/-- All offsets that the digest covers. -/
def offsets (l : AuthenticodeLayout) (size : Nat) : List Nat :=
  headerOffsets l ++ sectionOffsets l ++ trailingOffsets l size

theorem flatMap_ranges (l : AuthenticodeLayout) (size : Nat) :
    (ranges l size).flatMap offsetsIn = offsets l size := by
  rw [ranges, List.flatMap_append, List.flatMap_append, List.flatMap_map]
  rfl

/-- What is covered behind the sections is what the size of the certificate table leaves. -/
theorem trailingOffsets_eq (l : AuthenticodeLayout) (size : Nat) :
    trailingOffsets l size =
      List.range' (coveredSize l) (size - tableSize l - coveredSize l) := by
  rw [trailingOffsets, trailingRange]
  split
  next => rw [List.flatMap_singleton, offsetsIn]
  next htrailing =>
    have hnone : size - tableSize l - coveredSize l = 0 := by omega
    rw [hnone]
    rfl

theorem cut_eq {r : Nat × Nat} (h : r.1 ≤ r.2 ∧ r.2 ≤ image.length) :
    cut image r = .ok (image.pick (offsetsIn r)) := by
  rw [cut, if_pos h, offsetsIn, Bytes.pick_range' (by omega)]

/-- **What a digest covers**: the bytes at the offsets of the pieces. -/
theorem covered_eq (h : layout read image = .ok l) :
    covered read image = .ok (image.pick (offsets l image.length)) := by
  have hcut := mapM_eq_ok_map fun r hr => cut_eq (ranges_within h r hr)
  rw [covered, h, ok_bind, hcut, ok_bind, ← flatMap_ranges, Bytes.pick, List.map_flatMap]
  rfl

theorem covered_eq_error {e : AuthenticodeError} :
    covered read image = .error e ↔ layout read image = .error e := by
  cases h : layout read image with
  | ok l => simp [covered_eq h]
  | error e' => rw [covered, h, error_bind, Except.error.injEq, Except.error.injEq]

/-! ## Small images -/

/-- The header of an image, for sections and an optional header of a size. -/
def fileHeader (sections optionalSize : Nat) : Bytes :=
  [0x4d, 0x5a] ++ List.replicate 58 0 ++ Bytes.ofUInt32 0x40 ++ [0x50, 0x45, 0, 0] ++
    Bytes.ofUInt16 0x8664 ++ Bytes.ofNatLE 2 sections ++ List.replicate 12 0 ++
    Bytes.ofNatLE 2 optionalSize ++ List.replicate 2 0

/-- An optional header of the older format with data directories, for headers of 512 bytes. -/
def optionalHeader (directories : List ImageExtent) : Bytes :=
  Bytes.ofUInt16 0x10b ++ List.replicate 30 0 ++ Bytes.ofUInt32 0x200 ++ Bytes.ofUInt32 0x200 ++
    List.replicate 16 0 ++ Bytes.ofUInt32 0x1000 ++ Bytes.ofUInt32 0x200 ++
    List.replicate 28 0 ++ Bytes.ofNatLE 4 directories.length ++
    directories.flatMap fun e => Bytes.ofUInt32 e.offset ++ Bytes.ofUInt32 e.size

/-- The header of a section with its characteristics. -/
def sectionHeader (characteristics : UInt32) (e : ImageExtent) : Bytes :=
  [0x2e, 0x74, 0x65, 0x78, 0x74, 0, 0, 0] ++ Bytes.ofUInt32 e.size ++
    Bytes.ofUInt32 0x1000 ++ Bytes.ofUInt32 e.size ++ Bytes.ofUInt32 e.offset ++
    List.replicate 12 0 ++ Bytes.ofUInt32 characteristics

/-- An image with data directories and sections, and what follows its headers of 512 bytes. -/
def imageOf (directories sections : List ImageExtent) (characteristics : UInt32) (body : Bytes) :
    Bytes :=
  let headers := fileHeader sections.length (96 + 8 * directories.length) ++
    optionalHeader directories ++ sections.flatMap (sectionHeader characteristics)
  headers ++ List.replicate (0x200 - headers.length) 0 ++ body

/-- What evaluating an image tells about its parts and its layout. -/
theorem exists_layout_of_eval {α : Type} {f : PortableImage → AuthenticodeLayout → α} {a : α}
    (h : (read image).bind (fun parts => (layout read image).toOption.map (f parts)) = some a) :
    ∃ parts l, read image = some parts ∧ layout read image = .ok l ∧ f parts l = a := by
  obtain ⟨parts, hread, h⟩ := Option.bind_eq_some_iff.1 h
  obtain ⟨l, hlayout, h⟩ := Option.map_eq_some_iff.1 h
  exact ⟨parts, l, hread, toOption_eq_some.1 hlayout, h⟩

theorem imageOf_append (directories sections : List ImageExtent) (characteristics : UInt32)
    (a b : Bytes) : imageOf directories sections characteristics (a ++ b) =
      imageOf directories sections characteristics a ++ b := (List.append_assoc ..).symm

end Authenticode

end SecureBoot
