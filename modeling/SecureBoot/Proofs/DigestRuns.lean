import SecureBoot.Proofs.CoveredSections

/-!
# Computing a digest step by step

A program hashes one piece of an image after the other.  It adds and subtracts numbers that come
from the image, and takes pieces of the image between them.  It would halt at a piece that is not
in the image, at a difference below zero, and at a sum that no word holds.  Sections may overlap,
so that they have more bytes than the image.

* `Authenticode.run` — the computation with every way in which a step can halt;
* `Authenticode.hashSections_eq` — what the loop over the sections keeps, by induction;
* `Authenticode.run_halts_iff_refused` — nothing halts a computation but a layout that is refused.
-/

namespace SecureBoot

namespace Authenticode

open PortableImage

variable {read : ImageReader} {image : Bytes} {l : AuthenticodeLayout} {limit : Nat}
  {sections : List ImageExtent}

/-! ## Steps -/

/-- What halts a computation. -/
inductive Halt where
  /-- The image is refused. -/
  | refused (e : AuthenticodeError)
  /-- A piece ends before it starts, or past the end of the image. -/
  | outOfRange (start finish : Nat)
  /-- A difference is below zero. -/
  | underflow (a b : Nat)
  /-- No word holds a sum. -/
  | overflow (a b : Nat)
deriving DecidableEq

/-- Takes a piece of an image. -/
def takePiece (image : Bytes) (start finish : Nat) : Except Halt Bytes :=
  if start ≤ finish ∧ finish ≤ image.length then .ok (image.slice start (finish - start))
  else .error (.outOfRange start finish)

/-- Adds words, which are below a limit. -/
def addWords (limit a b : Nat) : Except Halt Nat :=
  if a + b < limit then .ok (a + b) else .error (.overflow a b)

/-- Subtracts words. -/
def subWords (a b : Nat) : Except Halt Nat :=
  if b ≤ a then .ok (a - b) else .error (.underflow a b)

/-- A computation on its way: the bytes that were hashed, and their number, where headers count
in full. -/
structure Progress where
  hashed : Bytes
  count : Nat

/-- Hashes the headers. -/
def hashHeaders (limit : Nat) (image : Bytes) (l : AuthenticodeLayout) : Except Halt Progress := do
  let first ← takePiece image 0 l.checksum
  let second ← takePiece image (← addWords limit l.checksum checksumSize) l.directory
  let third ← takePiece image (← addWords limit l.directory directorySize) l.sizeOfHeaders
  return { hashed := first ++ second ++ third, count := l.sizeOfHeaders }

/-- Hashes a section. -/
def hashSection (limit : Nat) (image : Bytes) (s : Progress) (e : ImageExtent) :
    Except Halt Progress := do
  let piece ← takePiece image e.offset.toNat (← addWords limit e.offset.toNat e.size.toNat)
  let count ← addWords limit s.count e.size.toNat
  return { hashed := s.hashed ++ piece, count }

/-- Hashes what follows the sections. -/
def hashTrailing (limit : Nat) (image : Bytes) (l : AuthenticodeLayout) (s : Progress) :
    Except Halt Bytes := do
  if image.length ≤ (← addWords limit s.count (tableSize l)) then return s.hashed
  let extra ← subWords (← subWords image.length s.count) (tableSize l)
  let finish ← addWords limit s.count extra
  let piece ← (takePiece image s.count finish).mapError fun _ => .refused .sectionsOverlapEnd
  return s.hashed ++ piece

/-- Computes the digest of an image with words below a limit. -/
def run (limit : Nat) (read : ImageReader) (hash : DigestAlgorithm) (image : Bytes) :
    Except Halt Bytes := do
  let l ← (layout read image).mapError .refused
  let headers ← hashHeaders limit image l
  let sections ← l.sections.foldlM (hashSection limit image) headers
  return hash.digest (← hashTrailing limit image l sections)

theorem takePiece_eq {start finish : Nat} (h : start ≤ finish ∧ finish ≤ image.length) :
    takePiece image start finish = .ok (image.pick (offsetsIn (start, finish))) := by
  have hsize : start + (finish - start) ≤ image.length := by omega
  rw [takePiece, if_pos h, offsetsIn, Bytes.pick_range' hsize]

theorem addWords_eq {a b : Nat} (h : a + b < limit) : addWords limit a b = .ok (a + b) := if_pos h

theorem subWords_eq {a b : Nat} (h : b ≤ a) : subWords a b = .ok (a - b) := if_pos h

/-! ## Bounds -/

/-- The size of the headers is one number of the image, and so is the number of sections. -/
theorem bounds_of_layout (h : layout read image = .ok l) :
    l.sizeOfHeaders < UInt32.size ∧ l.sections.length < 65536 := by
  obtain ⟨parts, header, fieldsSize, -, -, -, rfl, -⟩ := layout_eq_ok.1 h
  refine ⟨header.sizeOfHeaders.toNat_lt, ?_⟩
  rw [layoutWith, List.length_mergeSort]
  exact Nat.lt_of_le_of_lt (List.length_filter_le ..) parts.length_sections

theorem tableSize_lt (l : AuthenticodeLayout) : tableSize l < UInt32.size := by
  rw [tableSize]
  cases l.certificateTable with
  | none => decide
  | some t => exact t.size.toNat_lt

/-- Counting the bytes of sections leads no further than the greatest sections would. -/
theorem foldl_size_le_length (start : Nat) :
    sections.foldl (fun n e => n + e.size.toNat) start ≤
      start + sections.length * UInt32.size := by
  induction sections generalizing start with
  | nil => exact Nat.le_add_right ..
  | cons e sections ih =>
    have hsize : e.size.toNat < UInt32.size := e.size.toNat_lt
    have hrest := ih (start + e.size.toNat)
    rw [List.foldl_cons, List.length_cons, Nat.succ_mul]
    omega

/-- What a computation counts is bounded, however the sections overlap. -/
theorem coveredSize_lt (h : layout read image = .ok l) :
    coveredSize l + tableSize l < 65537 * UInt32.size := by
  obtain ⟨hheaders, hnumber⟩ := bounds_of_layout h
  have htable := tableSize_lt l
  have hsections : coveredSize l ≤ l.sizeOfHeaders + l.sections.length * UInt32.size :=
    foldl_size_le_length l.sizeOfHeaders
  unfold UInt32.size at *
  omega

/-- No layout is refused for a piece that is not in the image: each check has another error. -/
theorem layout_ne_sectionsOverlapEnd : layout read image ≠ .error .sectionsOverlapEnd := by
  intro h
  rw [layout] at h
  split at h
  next parts _ =>
    unfold layoutOf at h
    split at h
    next header _ =>
      split at h
      next fieldsSize _ =>
        dsimp only at h
        split at h
        next => cases h
        next => (repeat' split at h) <;> cases h
      next => cases h
    next => cases h
  next => cases h

/-! ## Runs -/

theorem hashHeaders_eq (h : layout read image = .ok l) (hlength : image.length < limit) :
    hashHeaders limit image l =
      .ok { hashed := image.pick (headerOffsets l), count := l.sizeOfHeaders } := by
  have hfits := fits_of_layout h
  have hchecksum := checksum_le h
  have hdirectory := hfits.directory_le
  have hheaders := hfits.headers_le
  have hoffsets : headerOffsets l = offsetsIn (0, l.checksum) ++
      offsetsIn (l.checksum + checksumSize, l.directory) ++
      offsetsIn (l.directory + directorySize, l.sizeOfHeaders) := by
    simp [headerOffsets, headerRanges]
  rw [hashHeaders, takePiece_eq ⟨Nat.zero_le _, by omega⟩, ok_bind, addWords_eq (by omega), ok_bind,
    takePiece_eq ⟨hchecksum, by omega⟩, ok_bind, addWords_eq (by omega), ok_bind,
    takePiece_eq ⟨hdirectory, hheaders⟩, ok_bind, hoffsets, Bytes.pick_append, Bytes.pick_append]
  rfl

/-- Hashing a section that is in the image counts its bytes, if a word holds their number. -/
theorem hashSection_eq {s : Progress} {e : ImageExtent} (hinside : e.finish ≤ image.length)
    (hlength : image.length < limit) (hcount : s.count + e.size.toNat < limit) :
    hashSection limit image s e =
      .ok { hashed := s.hashed ++ image.pick (offsetsIn (e.offset.toNat, e.finish)),
            count := s.count + e.size.toNat } := by
  have hfinish : e.offset.toNat + e.size.toNat < limit := Nat.lt_of_le_of_lt hinside hlength
  rw [hashSection, addWords_eq hfinish, ok_bind, takePiece_eq ⟨Nat.le_add_right .., hinside⟩,
    ok_bind, addWords_eq hcount, ok_bind]
  rfl

/-- Hashing sections that are in the image counts the bytes of all of them, if words have room
for as many sections of the greatest size. -/
theorem hashSections_eq {s : Progress} (hinside : ∀ e ∈ sections, e.finish ≤ image.length)
    (hlength : image.length < limit)
    (hcount : s.count + sections.length * UInt32.size < limit) :
    sections.foldlM (hashSection limit image) s =
      .ok { hashed := s.hashed ++
              image.pick (sections.flatMap fun e => offsetsIn (e.offset.toNat, e.finish)),
            count := sections.foldl (fun n e => n + e.size.toNat) s.count } := by
  induction sections generalizing s with
  | nil =>
    rw [List.flatMap_nil, Bytes.pick_nil, List.append_nil]
    rfl
  | cons e sections ih =>
    rw [List.forall_mem_cons] at hinside
    rw [List.length_cons, Nat.succ_mul] at hcount
    have hsize : e.size.toNat < UInt32.size := e.size.toNat_lt
    have hfirst : s.count + e.size.toNat < limit := by omega
    have hrest : s.count + e.size.toNat + sections.length * UInt32.size < limit := by omega
    rw [List.foldlM_cons, hashSection_eq hinside.1 hlength hfirst, ok_bind, ih hinside.2 hrest,
      List.flatMap_cons, Bytes.pick_append, List.append_assoc]
    rfl

theorem hashTrailing_eq {s : Progress} (hcount : s.count = coveredSize l)
    (hlength : image.length < limit) (hwords : coveredSize l + tableSize l < limit) :
    hashTrailing limit image l s =
      .ok (s.hashed ++ image.pick (trailingOffsets l image.length)) := by
  rw [hashTrailing, hcount, addWords_eq hwords, ok_bind]
  by_cases htrailing : image.length ≤ coveredSize l + tableSize l
  · have hnone : image.length - tableSize l - coveredSize l = 0 := by omega
    rw [if_pos htrailing, trailingOffsets_eq, hnone, List.range'_zero, Bytes.pick_nil,
      List.append_nil]
    rfl
  · have hfinish : coveredSize l + (image.length - coveredSize l - tableSize l) =
        image.length - tableSize l := by omega
    rw [if_neg htrailing, subWords_eq (by omega), ok_bind, subWords_eq (by omega), ok_bind,
      addWords_eq (by omega), ok_bind, hfinish, takePiece_eq ⟨by omega, Nat.sub_le ..⟩,
      mapError_ok, ok_bind, trailingOffsets_eq]
    rfl

/-- A computation with a layout goes to its end. -/
theorem run_of_layout (hash : DigestAlgorithm) (hlimit : 65537 * UInt32.size ≤ limit)
    (hlength : image.length < limit) (h : layout read image = .ok l) :
    run limit read hash image = .ok (hash.digest (image.pick (offsets l image.length))) := by
  have hinside := (fits_of_layout h).sections_le
  have hsections : l.sizeOfHeaders + l.sections.length * UInt32.size < limit := by
    obtain ⟨hheaders, hnumber⟩ := bounds_of_layout h
    unfold UInt32.size at *
    omega
  have htrailing := Nat.lt_of_lt_of_le (coveredSize_lt h) hlimit
  rw [run, h, mapError_ok, ok_bind, hashHeaders_eq h hlength, ok_bind,
    hashSections_eq hinside hlength hsections, ok_bind, hashTrailing_eq rfl hlength htrailing,
    ok_bind, offsets, Bytes.pick_append, Bytes.pick_append]
  rfl

theorem run_of_refused (hash : DigestAlgorithm) {e : AuthenticodeError}
    (h : layout read image = .error e) :
    run limit read hash image = .error (.refused e) := by
  rw [run, h]
  rfl

/-- **Nothing halts a computation of a digest but the layout.**  Let words have room for the
length of the image, and for the sizes of the headers, of as many sections as there can be and of
the certificate table, as those of 64 bits have.  If there is a layout, however the sections
overlap and wherever the table is, then every piece ends no earlier than it starts and no later
than the image, and the computation goes to its end, so that no difference was below zero and no
sum too great.  So the computation halts exactly where the layout is refused, and with its error,
which is never that of a piece which is not in the image.  Its answer is the digest. -/
theorem run_halts_iff_refused (hash : DigestAlgorithm) (hlimit : 65537 * UInt32.size ≤ limit)
    (hlength : image.length < limit) :
    (∀ l, layout read image = .ok l →
      (∀ r ∈ ranges l image.length, r.1 ≤ r.2 ∧ r.2 ≤ image.length) ∧
      run limit read hash image = .ok (hash.digest (image.pick (offsets l image.length)))) ∧
    (∀ halt, run limit read hash image = .error halt ↔
      ∃ e, halt = .refused e ∧ layout read image = .error e) ∧
    run limit read hash image ≠ .error (.refused .sectionsOverlapEnd) ∧
    run limit read hash image = (digestWith read hash image).mapError .refused := by
  have hrun (l : AuthenticodeLayout) (h : layout read image = .ok l) :
      run limit read hash image = .ok (hash.digest (image.pick (offsets l image.length))) :=
    run_of_layout hash hlimit hlength h
  have hhalt (halt : Halt) : run limit read hash image = .error halt ↔
      ∃ e, halt = .refused e ∧ layout read image = .error e := by
    cases h : layout read image with
    | ok l => simp [hrun l h]
    | error e => simp [run_of_refused hash h, eq_comm]
  refine ⟨fun l h => ⟨ranges_within h, hrun l h⟩, hhalt, ?_, ?_⟩
  · rw [ne_eq, hhalt]
    rintro ⟨e, he, h⟩
    cases he
    exact layout_ne_sectionsOverlapEnd h
  · cases h : layout read image with
    | ok l =>
      rw [hrun l h, digestWith, covered_eq h]
      rfl
    | error e =>
      rw [run_of_refused hash h, digestWith, covered_eq_error.2 h]
      rfl

/-- An image with one section three times, which has the certificate table in it. -/
def repeatedImage : Bytes :=
  imageOf (tableAt 0x210) (List.replicate 3 ⟨0x200, 32⟩) readableCode
    (List.replicate 16 0xcc ++ certificateOf 1)

theorem repeatedImage_run : ∃ l, layout read? repeatedImage = .ok l ∧
    repeatedImage.length = 544 ∧ coveredSize l = 608 ∧
    ∀ hash, run UInt64.size read? hash repeatedImage =
      .ok (hash.digest (repeatedImage.pick (offsets l 544))) := by
  have heval : (read? repeatedImage).bind (fun parts =>
      (layout read? repeatedImage).toOption.map fun l => (parts.sections, l.sizeOfHeaders)) =
        some (List.replicate 3 ⟨0x200, 32⟩, 512) := by decide +kernel
  obtain ⟨parts, l, hread, hlayout, heval⟩ := exists_layout_of_eval heval
  simp only [Prod.mk.injEq] at heval
  obtain ⟨hsections, hsize⟩ := heval
  have hlength : repeatedImage.length = 544 := by decide +kernel
  have hperm : (List.replicate 3 ⟨0x200, 32⟩).Perm (parts.sections.filter (·.size != 0)) := by
    rw [hsections]
    decide
  have hsorted := sections_eq_of_perm hread hlayout hperm (by decide)
  refine ⟨l, hlayout, hlength, ?_, fun hash => ?_⟩
  · rw [coveredSize, hsorted, hsize]
    rfl
  · have hroom : repeatedImage.length < UInt64.size := by
      rw [hlength]
      decide
    obtain ⟨hends, -⟩ := run_halts_iff_refused hash (by decide) hroom
    rw [(hends l hlayout).2, hlength]

end Authenticode

end SecureBoot
