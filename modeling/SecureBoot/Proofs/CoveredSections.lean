import SecureBoot.Proofs.CoveredHeaders

/-!
# The sections in a digest, and what follows them

Behind the headers a digest covers the sections in the order of their offsets, and then bytes
that are found by counting: it goes on where as many bytes end as headers and sections have, and
leaves out as many bytes at the end of the image as the certificate table has.

* `Authenticode.Tiles` — sections that follow each other without gap or overlap;
* `Authenticode.tiled_sections_covered` — if they do, and the certificate table ends the image,
  then every byte behind the headers and in front of the table is covered once, in order;
* `Authenticode.table_left_out` — what is covered behind the last section in any case: the bytes
  of the certificate table do not matter exactly if it ends the image;
* `Authenticode.not_table_left_out` — data behind the table that are not covered.
-/

namespace SecureBoot

namespace Authenticode

open PortableImage

variable {read : ImageReader} {image : Bytes} {parts : PortableImage} {l : AuthenticodeLayout}
  {start finish : Nat} {tiles sections : List ImageExtent}

/-! ## Sections that tile a range -/

/-- Pieces with bytes that follow each other from one offset to another, without gap or
overlap. -/
inductive Tiles : (start : Nat) → List ImageExtent → (finish : Nat) → Prop
  | nil (start : Nat) : Tiles start [] start
  | cons {start : Nat} {e : ImageExtent} {tiles : List ImageExtent} {finish : Nat}
    (hstart : e.offset.toNat = start) (hbytes : e.size ≠ 0)
    (hrest : Tiles e.finish tiles finish) : Tiles start (e :: tiles) finish

/-- Pieces start in the range and end there. -/
theorem Tiles.within (h : Tiles start tiles finish) :
    start ≤ finish ∧ ∀ e ∈ tiles, start ≤ e.offset.toNat ∧ e.finish ≤ finish := by
  induction h with
  | nil start => exact ⟨Nat.le_refl _, fun e he => nomatch he⟩
  | @cons start e tiles finish hstart hbytes hrest ih =>
    subst hstart
    obtain ⟨hle, hwithin⟩ := ih
    have hstart : e.offset.toNat ≤ e.finish := Nat.le_add_right ..
    refine ⟨Nat.le_trans hstart hle, List.forall_mem_cons.2 ⟨⟨Nat.le_refl _, hle⟩, ?_⟩⟩
    intro e' he'
    exact ⟨Nat.le_trans hstart (hwithin e' he').1, (hwithin e' he').2⟩

/-- The range ends where its last piece does. -/
theorem Tiles.finish_le (h : Tiles start tiles finish) {n : Nat} (hstart : start ≤ n)
    (htiles : ∀ e ∈ tiles, e.finish ≤ n) : finish ≤ n := by
  induction h with
  | nil start => exact hstart
  | cons _ _ _ ih =>
    rw [List.forall_mem_cons] at htiles
    exact ih htiles.1 htiles.2

/-- Counting the bytes of the pieces leads to the end of the range. -/
theorem Tiles.foldl_size (h : Tiles start tiles finish) :
    tiles.foldl (fun n e => n + e.size.toNat) start = finish := by
  induction h with
  | nil start => rfl
  | cons hstart _ _ ih =>
    subst hstart
    exact ih

/-- The offsets of the pieces are those of the range. -/
theorem Tiles.flatMap_offsetsIn (h : Tiles start tiles finish) :
    (tiles.flatMap fun e => offsetsIn (e.offset.toNat, e.finish)) = offsetsIn (start, finish) := by
  induction h with
  | nil start => rw [offsetsIn, Nat.sub_self]; rfl
  | cons hstart _ hrest ih =>
    subst hstart
    rw [List.flatMap_cons, ih]
    exact offsetsIn_append (Nat.le_add_right ..) hrest.within.1

/-! ## The order of the sections -/

theorem extentLe_iff {a b : ImageExtent} : extentLe a b = true ↔
    a.offset.toNat < b.offset.toNat ∨
      a.offset.toNat = b.offset.toNat ∧ a.size.toNat ≤ b.size.toNat := by
  simp only [extentLe, Bool.or_eq_true, Bool.and_eq_true, decide_eq_true_eq, beq_iff_eq,
    UInt32.lt_iff_toNat_lt, UInt32.le_iff_toNat_le, UInt32.toNat_inj]

/-- Pieces that tile a range are in order. -/
theorem Tiles.pairwise (h : Tiles start tiles finish) :
    tiles.Pairwise fun a b => extentLe a b = true := by
  induction h with
  | nil start => exact .nil
  | @cons start e tiles finish _ hbytes hrest ih =>
    refine .cons (fun e' he' => extentLe_iff.2 (.inl ?_)) ih
    have hstart := (hrest.within.2 e' he').1
    have hpos : e.size.toNat ≠ 0 := fun hzero => hbytes (UInt32.toNat_inj.1 hzero)
    unfold ImageExtent.finish at hstart
    omega

/-- Sorting finds the only arrangement of pieces that is in order. -/
theorem mergeSort_eq_of_perm (hperm : tiles.Perm sections)
    (hsorted : tiles.Pairwise fun a b => extentLe a b = true) :
    sections.mergeSort extentLe = tiles := by
  refine List.Perm.eq_of_pairwise (fun a b _ _ hab hba => ?_) (List.pairwise_mergeSort ?_ ?_ _)
    hsorted ((List.mergeSort_perm _ _).trans hperm.symm)
  · rw [extentLe_iff] at hab hba
    have hoffset : a.offset = b.offset := UInt32.toNat_inj.1 (by omega)
    have hsize : a.size = b.size := UInt32.toNat_inj.1 (by omega)
    cases a
    cases b
    exact congr (congrArg ImageExtent.mk hoffset) hsize
  · intro a b c hab hbc
    rw [extentLe_iff] at hab hbc ⊢
    omega
  · intro a b
    rw [Bool.or_eq_true, extentLe_iff, extentLe_iff]
    omega

theorem sections_eq_of_perm (hread : read image = some parts) (h : layout read image = .ok l)
    (hperm : tiles.Perm (parts.sections.filter (·.size != 0)))
    (hsorted : tiles.Pairwise fun a b => extentLe a b = true) : l.sections = tiles := by
  obtain ⟨parts', header, fieldsSize, hread', -, -, rfl, -⟩ := layout_eq_ok.1 h
  cases hread.symm.trans hread'
  exact mergeSort_eq_of_perm hperm hsorted

theorem tableSize_of_some {t : ImageExtent} (ht : l.certificateTable = some t) :
    tableSize l = t.size.toNat := by
  rw [tableSize, ht]
  rfl

/-- **Sections without gaps.**  Let the sections that have bytes, in some order, follow each
other from the end of the headers on without gap or overlap, and let the certificate table be the
end of the image behind them, if there is one.  Then a digest covers, behind its bytes of the
headers, every byte of the image from the end of the headers up to the table, once and in
order. -/
theorem tiled_sections_covered (hread : read image = some parts)
    (h : layout read image = .ok l) (hperm : tiles.Perm (parts.sections.filter (·.size != 0)))
    (htiles : Tiles l.sizeOfHeaders tiles finish)
    (htable : ∀ t ∈ l.certificateTable, finish ≤ t.offset.toNat ∧ t.finish = image.length) :
    sectionOffsets l ++ trailingOffsets l image.length =
      List.range' l.sizeOfHeaders (image.length - tableSize l - l.sizeOfHeaders) ∧
    l.sizeOfHeaders ≤ image.length - tableSize l ∧
    covered read image = .ok (image.pick (headerOffsets l) ++
      image.slice l.sizeOfHeaders (image.length - tableSize l - l.sizeOfHeaders)) := by
  have hfits := fits_of_layout h
  have hsections : l.sections = tiles := sections_eq_of_perm hread h hperm htiles.pairwise
  have hend : finish ≤ image.length - tableSize l := by
    cases ht : l.certificateTable with
    | none =>
      have hnone : tableSize l = 0 := by rw [tableSize, ht]; rfl
      rw [hnone]
      exact htiles.finish_le hfits.headers_le (hsections ▸ hfits.sections_le)
    | some t =>
      obtain ⟨hbehind, hlast⟩ := htable t ht
      unfold ImageExtent.finish at hlast
      rw [tableSize_of_some ht]
      omega
  have hcovered : sectionOffsets l ++ trailingOffsets l image.length =
      offsetsIn (l.sizeOfHeaders, image.length - tableSize l) := by
    have hcount : coveredSize l = finish := by rw [coveredSize, hsections, htiles.foldl_size]
    rw [sectionOffsets, hsections, htiles.flatMap_offsetsIn, trailingOffsets_eq, hcount]
    exact offsetsIn_append htiles.within.1 hend
  have hheaders := Nat.le_trans htiles.within.1 hend
  refine ⟨hcovered, hheaders, ?_⟩
  rw [covered_eq h, offsets, List.append_assoc, hcovered, Bytes.pick_append, offsetsIn,
    Bytes.pick_range' (by omega)]

/-- A certificate of 16 bytes, filled up with one byte. -/
def certificateOf (filling : UInt8) : Bytes :=
  [0x10, 0, 0, 0, 0, 0x02, 0x02, 0] ++ List.replicate 8 filling

/-- The data directories of an image whose only entry is a certificate table of 16 bytes. -/
def tableAt (offset : UInt32) : List ImageExtent :=
  List.replicate 4 ⟨0, 0⟩ ++ [⟨offset, 16⟩]

/-- An image with a section header of no bytes, and two whose order is not that of the
sections. -/
def crossedImage : Bytes :=
  imageOf (tableAt 0x220) [⟨0x210, 16⟩, ⟨0, 0⟩, ⟨0x200, 16⟩] readableCode
    (List.replicate 16 0xcc ++ List.replicate 16 0xdd ++ certificateOf 1)

theorem crossedImage_covered : ∃ parts l, read? crossedImage = some parts ∧
    parts.sections = [⟨0x210, 16⟩, ⟨0, 0⟩, ⟨0x200, 16⟩] ∧
    layout read? crossedImage = .ok l ∧ l.certificateTable = some ⟨0x220, 16⟩ ∧
    Tiles l.sizeOfHeaders [⟨0x200, 16⟩, ⟨0x210, 16⟩] 0x220 ∧
    covered read? crossedImage = .ok (crossedImage.pick (headerOffsets l) ++
      (List.replicate 16 0xcc ++ List.replicate 16 0xdd)) := by
  have heval : (read? crossedImage).bind (fun parts =>
      (layout read? crossedImage).toOption.map fun l =>
        (parts.sections, l.sizeOfHeaders, l.certificateTable)) =
          some ([⟨0x210, 16⟩, ⟨0, 0⟩, ⟨0x200, 16⟩], 512, some ⟨0x220, 16⟩) := by decide +kernel
  obtain ⟨parts, l, hread, hlayout, heval⟩ := exists_layout_of_eval heval
  simp only [Prod.mk.injEq] at heval
  obtain ⟨hsections, hsize, htable⟩ := heval
  have htiles : Tiles l.sizeOfHeaders [⟨0x200, 16⟩, ⟨0x210, 16⟩] 0x220 := by
    rw [hsize]
    exact .cons rfl (by decide) (.cons rfl (by decide) (.nil _))
  have hlength : crossedImage.length = 560 := by decide +kernel
  have hperm : [⟨0x200, 16⟩, ⟨0x210, 16⟩].Perm (parts.sections.filter (·.size != 0)) := by
    rw [hsections]
    decide
  obtain ⟨-, -, hcovered⟩ := tiled_sections_covered hread hlayout hperm htiles fun t ht => by
    rw [htable] at ht
    cases ht
    rw [hlength]
    decide
  have hslice : crossedImage.slice 512 32 =
      List.replicate 16 0xcc ++ List.replicate 16 0xdd := by decide +kernel
  rw [tableSize_of_some htable, hsize, hlength] at hcovered
  exact ⟨parts, l, hread, hsections, hlayout, htable, htiles, hslice ▸ hcovered⟩

/-! ## Behind the sections -/

/-- An offset behind the headers and all sections. -/
def IsBehind (l : AuthenticodeLayout) (p : Nat) : Prop :=
  l.sizeOfHeaders ≤ p ∧ ∀ e ∈ l.sections, e.finish ≤ p

/-- An offset in a piece. -/
def IsIn (e : ImageExtent) (p : Nat) : Prop := e.offset.toNat ≤ p ∧ p < e.finish

/-- Sections that overlap neither the headers nor each other. -/
structure Disjoint (l : AuthenticodeLayout) : Prop where
  headers_le : ∀ e ∈ l.sections, l.sizeOfHeaders ≤ e.offset.toNat
  pairwise : l.sections.Pairwise fun a b => a.finish ≤ b.offset.toNat

/-- Counting the bytes of pieces that do not overlap does not lead past their end. -/
theorem foldl_size_le {p : Nat} (hpairwise : sections.Pairwise fun a b => a.finish ≤ b.offset.toNat)
    (hstart : ∀ e ∈ sections, start ≤ e.offset.toNat) (hle : start ≤ p)
    (hend : ∀ e ∈ sections, e.finish ≤ p) :
    sections.foldl (fun n e => n + e.size.toNat) start ≤ p := by
  induction sections generalizing start with
  | nil => exact hle
  | cons e sections ih =>
    rw [List.forall_mem_cons] at hstart hend
    obtain ⟨hfollow, hpairwise⟩ := List.pairwise_cons.1 hpairwise
    have hcount : start + e.size.toNat ≤ e.finish := Nat.add_le_add_right hstart.1 _
    exact ih hpairwise (fun e' he' => Nat.le_trans hcount (hfollow e' he'))
      (Nat.le_trans hcount hend.1) hend.2

theorem Disjoint.coveredSize_le (h : Disjoint l) {p : Nat} (hp : IsBehind l p) :
    coveredSize l ≤ p := foldl_size_le h.pairwise h.headers_le hp.1 hp.2

/-- Behind the sections, the bytes are covered that the count leads to and that are not as close
to the end as the certificate table is long. -/
theorem mem_offsets_of_isBehind (h : layout read image = .ok l) {p : Nat} (hp : IsBehind l p) :
    p ∈ offsets l image.length ↔ coveredSize l ≤ p ∧ p < image.length - tableSize l := by
  have hheaders : p ∉ headerOffsets l := fun hmem =>
    Nat.not_lt.2 hp.1 ((mem_headerOffsets h).1 hmem).1
  have hsections : p ∉ sectionOffsets l := by
    intro hmem
    obtain ⟨e, he, hmem⟩ := List.mem_flatMap.1 hmem
    exact Nat.not_lt.2 (hp.2 e he) (mem_offsetsIn.1 hmem).2
  rw [offsets, List.mem_append, List.mem_append, or_iff_right (not_or.2 ⟨hheaders, hsections⟩),
    trailingOffsets_eq, List.mem_range'_1]
  omega

theorem table_bytes (h : layout read image = .ok l) {t : ImageExtent}
    (ht : l.certificateTable = some t) : 0 < t.size.toNat ∧ t.finish ≤ image.length := by
  refine ⟨?_, (fits_of_layout h).table_le t ht⟩
  obtain ⟨parts, header, fieldsSize, -, -, -, rfl, -⟩ := layout_eq_ok.1 h
  obtain ⟨-, hbytes⟩ := Option.filter_eq_some_iff.1 ht
  rw [bne_iff_ne] at hbytes
  exact Nat.pos_of_ne_zero fun hzero => hbytes (UInt32.toNat_inj.1 hzero)

/-- Two images with one layout have the same bytes covered exactly if they agree there. -/
theorem covered_eq_iff {image' : Bytes} (h : layout read image = .ok l)
    (h' : layout read image' = .ok l) (hlength : image'.length = image.length) :
    covered read image' = covered read image ↔
      ∀ p ∈ offsets l image.length, image'.byteAt p = image.byteAt p := by
  rw [covered_eq h, covered_eq h', hlength, Except.ok.injEq, Bytes.pick_eq_iff]

/-- An offset in a certificate table behind the sections is behind them. -/
theorem IsBehind.mono {p q : Nat} (h : IsBehind l p) (hpq : p ≤ q) : IsBehind l q :=
  ⟨Nat.le_trans h.1 hpq, fun e he => Nat.le_trans (h.2 e he) hpq⟩

section Table

variable {t : ImageExtent} (h : layout read image = .ok l) (ht : l.certificateTable = some t)
  (hbehind : IsBehind l t.offset.toNat)

include h ht

theorem mem_offsets_iff {p : Nat} (hp : IsBehind l p) :
    p ∈ offsets l image.length ↔ coveredSize l ≤ p ∧ p < image.length - t.size.toNat := by
  rw [mem_offsets_of_isBehind h hp, tableSize_of_some ht]

include hbehind

/-- Two images that differ in the certificate table only have the same bytes covered exactly if
they agree on those of the table that are. -/
theorem covered_eq_iff_of_table {image' : Bytes} (h' : layout read image' = .ok l)
    (hlength : image'.length = image.length)
    (hsame : ∀ p, ¬IsIn t p → image'.byteAt p = image.byteAt p) :
    covered read image' = covered read image ↔ ∀ p, IsIn t p → coveredSize l ≤ p →
      p < image.length - t.size.toNat → image'.byteAt p = image.byteAt p := by
  rw [covered_eq_iff h h' hlength]
  constructor
  · intro hagree p hin hcount hlast
    exact hagree p ((mem_offsets_iff h ht (hbehind.mono hin.1)).2 ⟨hcount, hlast⟩)
  · intro hagree p hp
    by_cases hin : t.offset.toNat ≤ p ∧ p < t.finish
    · obtain ⟨hcount, hlast⟩ := (mem_offsets_iff h ht (hbehind.mono hin.1)).1 hp
      exact hagree p hin hcount hlast
    · exact hsame p hin

/-- No byte of the table is covered exactly if it ends the image. -/
theorem not_mem_offsets_iff (hdisjoint : Disjoint l) :
    (∀ p, IsIn t p → p ∉ offsets l image.length) ↔ t.finish = image.length := by
  obtain ⟨hbytes, hend⟩ := table_bytes h ht
  constructor
  · intro hnone
    -- the first byte of a table that other data follow
    have hfirst := hnone t.offset.toNat ⟨Nat.le_refl _, Nat.lt_add_of_pos_right hbytes⟩
    rw [mem_offsets_iff h ht hbehind, not_and] at hfirst
    have hlast := hfirst (hdisjoint.coveredSize_le hbehind)
    unfold ImageExtent.finish at *
    omega
  · intro hlast p hin hmem
    have hbefore := ((mem_offsets_iff h ht (hbehind.mono hin.1)).1 hmem).2
    unfold IsIn ImageExtent.finish at *
    omega

/-- Every byte behind the sections and outside of the table is covered exactly if it ends the
image. -/
theorem forall_mem_offsets_iff (hdisjoint : Disjoint l) :
    (∀ p < image.length, IsBehind l p → ¬IsIn t p → p ∈ offsets l image.length) ↔
      t.finish = image.length := by
  obtain ⟨hbytes, hend⟩ := table_bytes h ht
  have htable : t.offset.toNat ≤ t.finish := Nat.le_add_right ..
  constructor
  · intro hall
    rcases Nat.lt_or_eq_of_le hend with hother | hlast
    · -- the last byte of the data that follow
      have hbehindLast : IsBehind l (image.length - 1) := hbehind.mono (by omega)
      have hmem := hall (image.length - 1) (by omega) hbehindLast (by unfold IsIn; omega)
      rw [mem_offsets_iff h ht hbehindLast] at hmem
      omega
    · exact hlast
  · intro hlast p hp hbehindP hout
    refine (mem_offsets_iff h ht hbehindP).2 ⟨hdisjoint.coveredSize_le hbehindP, ?_⟩
    unfold IsIn ImageExtent.finish at *
    omega

end Table

/-- **What follows the sections in a digest.**  Let the certificate table be behind the headers
and the sections.  Behind them, a digest covers the bytes from the place that counting the bytes
of headers and sections leads to, up to as many bytes before the end as the table has, wherever
the table is.  So two images with one layout that differ in the table only have the same bytes
covered exactly if they agree on those of the table, and have the same digests if the table ends
the image.  If the sections overlap neither the headers nor each other, then no byte of the table
is covered exactly if it ends the image, and every other byte behind the sections is covered
exactly if it does. -/
theorem table_left_out (h : layout read image = .ok l) {t : ImageExtent}
    (ht : l.certificateTable = some t) (hbehind : IsBehind l t.offset.toNat) :
    (∀ p, IsBehind l p →
      (p ∈ offsets l image.length ↔ coveredSize l ≤ p ∧ p < image.length - t.size.toNat)) ∧
    (∀ image', layout read image' = .ok l → image'.length = image.length →
      (∀ p, ¬IsIn t p → image'.byteAt p = image.byteAt p) →
      (covered read image' = covered read image ↔ ∀ p, IsIn t p → coveredSize l ≤ p →
        p < image.length - t.size.toNat → image'.byteAt p = image.byteAt p) ∧
      (t.finish = image.length →
        ∀ hash, digestWith read hash image' = digestWith read hash image)) ∧
    (Disjoint l →
      ((∀ p, IsIn t p → p ∉ offsets l image.length) ↔ t.finish = image.length) ∧
      ((∀ p < image.length, IsBehind l p → ¬IsIn t p → p ∈ offsets l image.length) ↔
        t.finish = image.length)) := by
  refine ⟨fun p hp => mem_offsets_iff h ht hp, fun image' h' hlength hsame => ?_,
    fun hdisjoint => ⟨not_mem_offsets_iff h ht hbehind hdisjoint,
      forall_mem_offsets_iff h ht hbehind hdisjoint⟩⟩
  have hagree := covered_eq_iff_of_table h ht hbehind h' hlength hsame
  refine ⟨hagree, fun hlast hash => ?_⟩
  have hcovered : covered read image' = covered read image := by
    refine hagree.2 fun p hin _ hbefore => ?_
    unfold IsIn ImageExtent.finish at *
    omega
  rw [digestWith, digestWith, hcovered]

/-! ## Data behind the table -/

/-- An image with a section, a certificate table and other data. -/
def tableImage (filling : UInt8) (other : Bytes) : Bytes :=
  imageOf (tableAt 0x210) [⟨0x200, 16⟩] readableCode
    (List.replicate 16 0xcc ++ certificateOf filling ++ other)

/-- Data that stand behind a certificate table. -/
def appendedData : Bytes := List.replicate 24 0xaa

/-- What stands in front of the table. -/
def tableImageFront : Bytes :=
  imageOf (tableAt 0x210) [⟨0x200, 16⟩] readableCode (List.replicate 16 0xcc)

theorem length_tableImageFront : tableImageFront.length = 528 := by decide +kernel

theorem tableImage_eq (filling : UInt8) (other : Bytes) :
    tableImage filling other = tableImageFront ++ certificateOf filling ++ other := by
  rw [tableImage, imageOf_append, imageOf_append]
  rfl

theorem length_tableImage (filling : UInt8) (other : Bytes) :
    (tableImage filling other).length = 544 + other.length := by
  rw [tableImage_eq, List.length_append, List.length_append, length_tableImageFront]
  rfl

/-- The images differ in the table only. -/
theorem byteAt_tableImage {p : Nat} (hp : ¬IsIn ⟨0x210, 16⟩ p) (a b : UInt8) (other : Bytes) :
    (tableImage a other).byteAt p = (tableImage b other).byteAt p := by
  have hrange : ¬(528 ≤ p ∧ p < 528 + 16) := hp
  rw [tableImage_eq, tableImage_eq]
  refine Bytes.byteAt_around rfl ?_
  show p < tableImageFront.length ∨ tableImageFront.length + 16 ≤ p
  rw [length_tableImageFront]
  omega

/-- With and without data behind it, the table has a place of its own and is not looked at. -/
theorem exists_tableImages (other : Bytes) (hother : other = [] ∨ other = appendedData) :
    ∃ l, layout read? (tableImage 1 other) = .ok l ∧ layout read? (tableImage 2 other) = .ok l ∧
      l.certificateTable = some ⟨0x210, 16⟩ ∧ IsBehind l 528 ∧ Disjoint l := by
  have hrun : (layout read? (tableImage 1 other)).toOption.bind (fun l =>
      (layout read? (tableImage 2 other)).toOption.map fun l' =>
        (decide (l' = l), l.certificateTable, l.sizeOfHeaders, l.sections)) =
          some (true, some ⟨0x210, 16⟩, 512, [⟨0x200, 16⟩]) := by
    rcases hother with rfl | rfl <;> decide +kernel
  obtain ⟨l, hlayout, hrun⟩ := Option.bind_eq_some_iff.1 hrun
  obtain ⟨l', hlayout', hrun⟩ := Option.map_eq_some_iff.1 hrun
  simp only [Prod.mk.injEq, decide_eq_true_eq] at hrun
  obtain ⟨rfl, htable, hsize, hsections⟩ := hrun
  have hbehind : IsBehind l' 528 := by
    unfold IsBehind
    rw [hsize, hsections]
    decide
  have hdisjoint : Disjoint l' := by
    constructor <;> rw [hsections]
    · rw [hsize]
      decide
    · exact List.pairwise_singleton ..
  exact ⟨l', toOption_eq_some.1 hlayout, toOption_eq_some.1 hlayout', htable, hbehind,
    hdisjoint⟩

theorem tableImages_left_out :
    (∃ l t, layout read? (tableImage 1 []) = .ok l ∧ l.certificateTable = some t ∧
      IsBehind l t.offset.toNat ∧ layout read? (tableImage 2 []) = .ok l ∧
      ∀ hash, digestWith read? hash (tableImage 2 []) = digestWith read? hash (tableImage 1 [])) ∧
    ∃ l t, layout read? (tableImage 1 appendedData) = .ok l ∧ l.certificateTable = some t ∧
      IsBehind l t.offset.toNat ∧ ∃ p, IsIn t p ∧
        p ∈ offsets l (tableImage 1 appendedData).length := by
  constructor
  · obtain ⟨l, h, h', ht, hbehind, -⟩ := exists_tableImages [] (.inl rfl)
    obtain ⟨-, hruns, -⟩ := table_left_out h ht hbehind
    have hsame := hruns _ h' (by rw [length_tableImage, length_tableImage])
      fun p hp => byteAt_tableImage hp 2 1 []
    exact ⟨l, _, h, ht, hbehind, h', hsame.2 (length_tableImage 1 []).symm⟩
  · obtain ⟨l, h, -, ht, hbehind, hdisjoint⟩ := exists_tableImages appendedData (.inr rfl)
    obtain ⟨hmem, -⟩ := table_left_out h ht hbehind
    refine ⟨l, _, h, ht, hbehind, 528, by unfold IsIn; decide, (hmem 528 hbehind).2 ?_⟩
    rw [length_tableImage]
    exact ⟨hdisjoint.coveredSize_le hbehind, by decide⟩

/-- Behind the sections, it is not always the table that is left out and all else covered. -/
theorem not_table_left_out :
    ¬∀ image l t, layout read? image = .ok l → l.certificateTable = some t →
      IsBehind l t.offset.toNat →
      (∀ image', layout read? image' = .ok l → image'.length = image.length →
        (∀ p, ¬IsIn t p → image'.byteAt p = image.byteAt p) →
        ∀ hash, digest hash image' = digest hash image) ∧
      ∀ p < image.length, IsBehind l p → ¬IsIn t p → p ∈ offsets l image.length := by
  intro h
  obtain ⟨l, hlayout, -, ht, hbehind, -⟩ := exists_tableImages appendedData (.inr rfl)
  obtain ⟨-, hall⟩ := h _ l _ hlayout ht hbehind
  -- the last byte of the data behind the table
  have hlast : IsBehind l 567 := hbehind.mono (by decide)
  rw [length_tableImage] at hall
  have hmem := hall 567 (by decide) hlast (by unfold IsIn; decide)
  rw [← length_tableImage 1, mem_offsets_iff hlayout ht hlast, length_tableImage] at hmem
  exact absurd hmem.2 (by decide)

end Authenticode

end SecureBoot
