import SecureBoot.Hash
import SecureBoot.Store.Error
/-!
# Authenticode digests

The digest by which firmware knows an executable image.

It covers the headers without the checksum and without the entry of the
certificate table in the data directories, then the sections in the order they
have in the file, then what follows them and is not the certificate table.

* `PortableImage.read?` takes an image apart.
* `Authenticode.layout` finds what the digest needs, `Authenticode.ranges` the
  pieces it covers, and `Authenticode.covered` their bytes, for any reader that
  takes images apart.
-/

namespace SecureBoot

/-- What keeps an image from having a digest. -/
inductive AuthenticodeError where
  /-- It is no executable image. -/
  | notAnImage
  /-- It has no optional header. -/
  | noOptionalHeader
  /-- The optional header is of no known format. -/
  | unsupportedMagic (magic : UInt16)
  /-- The headers end before the optional header does. -/
  | headersTooShort (sizeOfHeaders : Nat)
  | tableOverrun (offset size : Nat)
  | sectionOverrun (index offset size : Nat)
  /-- A piece to be covered is not in the image. -/
  | sectionsOverlapEnd
deriving DecidableEq

/-- The wording of a digest error. -/
def AuthenticodeError.message : AuthenticodeError → String
  | notAnImage => "not a valid PE/COFF image"
  | noOptionalHeader => "PE/COFF image has no optional header"
  | unsupportedMagic magic => s!"unsupported optional header magic {hexText 4 magic.toNat}"
  | headersTooShort sizeOfHeaders =>
    s!"malformed PE/COFF image: SizeOfHeaders {hexText 1 sizeOfHeaders} does not cover " ++
      "the optional header"
  | tableOverrun offset size =>
    s!"malformed PE/COFF image: certificate table {hexText 1 offset}+{hexText 1 size} " ++
      "runs past the end of the image"
  | sectionOverrun index offset size =>
    s!"malformed PE/COFF image: section {index} at {hexText 1 offset}+{hexText 1 size} " ++
      "runs past the end of the image"
  | sectionsOverlapEnd => "malformed PE/COFF image: sections overlap the image end"

/-! ## Images -/

/-- A piece of an image, as the headers declare it. -/
structure ImageExtent where
  offset : UInt32
  size : UInt32
deriving DecidableEq

/-- The end of a piece. -/
def ImageExtent.finish (e : ImageExtent) : Nat := e.offset.toNat + e.size.toNat

/-- Whether a piece is inside an image of a size. -/
def ImageExtent.isInside (e : ImageExtent) (size : Nat) : Bool := e.finish ≤ size

/-- The parts of the optional header that matter. -/
structure OptionalHeader where
  /-- The number that tells the format. -/
  magic : UInt16
  sizeOfHeaders : UInt32
  /-- The data directories; an empty one counts as absent. -/
  directories : List (Option ImageExtent)
deriving DecidableEq

/-- An executable image. -/
structure PortableImage where
  /-- Where the headers start. -/
  start : UInt32
  optional : Option OptionalHeader
  sections : List ImageExtent
  /-- The headers count the sections in a word of 16 bits. -/
  length_sections : sections.length < 65536
deriving DecidableEq

/-- A way to take images apart. -/
abbrev ImageReader := Bytes → Option PortableImage

namespace PortableImage

/-- Where the optional header starts, behind a mark and the file header. -/
def optionalOffset (p : PortableImage) : Nat := p.start.toNat + 24

/-- The size of a data directory. -/
def directorySize : Nat := 8

/-- The greatest number of data directories. -/
def directoryLimit : Nat := 16

/-- The size of a section header. -/
def sectionHeaderSize : Nat := 40

/-- The index of the certificate table in the data directories. -/
def certificateIndex : Nat := 4

/-- The number of bytes before the data directories, by the magic number. -/
def fieldsSize? (magic : UInt16) : Option Nat :=
  if magic = 0x10b then some 96 else if magic = 0x20b then some 112 else none

/-- The number at an offset. -/
def natAt32 (image : Bytes) (offset : Nat) : Nat := (image.wordAt32 offset).toNat

/-- A data directory. -/
def directoryAt (image : Bytes) (offset : Nat) : Option ImageExtent :=
  let e : ImageExtent := ⟨image.wordAt32 offset, image.wordAt32 (offset + 4)⟩
  if e.offset = 0 ∧ e.size = 0 then none else some e

/-- Reads the optional header at an offset. -/
def readOptional? (image : Bytes) (offset : Nat) : Option OptionalHeader := do
  let magic := image.wordAt16 offset
  let fieldsSize ← fieldsSize? magic
  if image.length < offset + fieldsSize then none
  let count := natAt32 image (offset + fieldsSize - 4)
  if directoryLimit < count ∨ image.length < offset + fieldsSize + directorySize * count then none
  return {
    magic
    sizeOfHeaders := image.wordAt32 (offset + 60)
    directories := (List.range count).map fun i =>
      directoryAt image (offset + fieldsSize + directorySize * i) }

/-- Where the certificate table is. -/
def certificateTable (h : OptionalHeader) : Option ImageExtent :=
  h.directories[certificateIndex]?.join

/-- The next multiple of eight. -/
def align8 (n : Nat) : Nat := (n + 7) / 8 * 8

/-- Whether certificates follow each other from an offset up to an end, taking
at most `fuel` of them. -/
def areCertificates (image : Bytes) (finish : Nat) : (fuel offset : Nat) → Bool
  | 0, offset => finish ≤ offset
  | fuel + 1, offset =>
    if finish ≤ offset then true
    else
      let revision := image.wordAt16 (offset + 4)
      let kind := image.wordAt16 (offset + 6)
      let next := offset + 8 + (natAt32 image offset - 8)
      next ≤ image.length && (revision == 0x0100 || revision == 0x0200) &&
        1 ≤ kind && kind ≤ 4 && areCertificates image finish fuel (align8 next)

/-- Whether a certificate table is well formed. -/
def isCertificateTable (image : Bytes) (table : ImageExtent) : Bool :=
  table.isInside image.length &&
    areCertificates image table.finish table.size.toNat table.offset.toNat

/-- The section headers of a table. -/
def sectionsAt (image : Bytes) (offset count : Nat) : List ImageExtent :=
  (List.range count).map fun i =>
    let header := offset + sectionHeaderSize * i
    ⟨image.wordAt32 (header + 20), image.wordAt32 (header + 16)⟩

theorem length_sectionsAt (image : Bytes) (offset count : Nat) :
    (sectionsAt image offset count).length = count := by
  simp [sectionsAt]

/-- Takes an image apart. -/
def read? : ImageReader := fun image => do
  let start := natAt32 image 0x3c
  if image.wordAt16 0 ≠ 0x5a4d ∨ start < 0x40 then none
  if image.length < start + 24 ∨ natAt32 image start ≠ 0x4550 then none
  let optionalOffset := start + 24
  let optionalSize := (image.wordAt16 (start + 20)).toNat
  let count := image.wordAt16 (start + 6)
  let optional ← if optionalSize = 0 then some none
    else (readOptional? image optionalOffset).map some
  let table := optionalOffset + optionalSize
  if image.length < table + sectionHeaderSize * count.toNat then none
  if let some certificates := optional.bind certificateTable then
    if !isCertificateTable image certificates then none
  return {
    start := image.wordAt32 0x3c
    optional
    sections := sectionsAt image table count.toNat
    length_sections := length_sectionsAt .. ▸ count.toNat_lt }

end PortableImage

/-! ## Digests -/

/-- What the digest of an image needs to know. -/
structure AuthenticodeLayout where
  /-- Where the checksum is. -/
  checksum : Nat
  /-- Where the directory entry of the certificate table is. -/
  directory : Nat
  sizeOfHeaders : Nat
  /-- A certificate table that is not empty. -/
  certificateTable : Option ImageExtent
  /-- The sections that are not empty, in the order of their offsets. -/
  sections : List ImageExtent
deriving DecidableEq

namespace Authenticode

/-- Where the checksum is in the optional header. -/
def checksumOffset : Nat := 64

/-- The size of the checksum. -/
def checksumSize : Nat := 4

/-- The order of pieces by offset, then size. -/
def extentLe (a b : ImageExtent) : Bool :=
  a.offset < b.offset || (a.offset == b.offset && a.size ≤ b.size)

/-- The first section that ends past a size, with its index. -/
def overrun? (size : Nat) (sections : List ImageExtent) : Option (ImageExtent × Nat) :=
  sections.zipIdx.find? fun (e, _) => e.size != 0 && !e.isInside size

/-- Finds what the digest needs in the parts of an image of a size. -/
def layoutOf (parts : PortableImage) (size : Nat) :
    Except AuthenticodeError AuthenticodeLayout := do
  let some header := parts.optional | throw .noOptionalHeader
  let some fieldsSize := PortableImage.fieldsSize? header.magic
    | throw (.unsupportedMagic header.magic)
  let directory := parts.optionalOffset + fieldsSize +
    PortableImage.certificateIndex * PortableImage.directorySize
  let sizeOfHeaders := header.sizeOfHeaders.toNat
  if size < sizeOfHeaders ∨ sizeOfHeaders < directory + PortableImage.directorySize then
    throw (.headersTooShort sizeOfHeaders)
  let certificateTable := (PortableImage.certificateTable header).filter (·.size != 0)
  if let some table := certificateTable.filter (!·.isInside size) then
    throw (.tableOverrun table.offset.toNat table.size.toNat)
  if let some (e, index) := overrun? size parts.sections then
    throw (.sectionOverrun index e.offset.toNat e.size.toNat)
  return {
    checksum := parts.optionalOffset + checksumOffset
    directory
    sizeOfHeaders
    certificateTable
    sections := (parts.sections.filter (·.size != 0)).mergeSort extentLe }

/-- Finds what the digest of an image needs. -/
def layout (read : ImageReader) (image : Bytes) : Except AuthenticodeError AuthenticodeLayout := do
  let some parts := read image | throw .notAnImage
  layoutOf parts image.length

/-- The pieces of the headers that the digest covers, as start and end. -/
def headerRanges (l : AuthenticodeLayout) : List (Nat × Nat) :=
  [(0, l.checksum), (l.checksum + checksumSize, l.directory),
    (l.directory + PortableImage.directorySize, l.sizeOfHeaders)]

/-- The number of bytes covered up to the last section, where headers count in
full. -/
def coveredSize (l : AuthenticodeLayout) : Nat :=
  l.sections.foldl (fun n e => n + e.size.toNat) l.sizeOfHeaders

/-- The size of the certificate table, zero where there is none. -/
def tableSize (l : AuthenticodeLayout) : Nat := (l.certificateTable.map (·.size.toNat)).getD 0

/-- The piece after the sections that the digest covers, in an image of a
size. -/
def trailingRange (l : AuthenticodeLayout) (size : Nat) : List (Nat × Nat) :=
  if coveredSize l + tableSize l < size then [(coveredSize l, size - tableSize l)] else []

/-- The pieces that the digest covers, as start and end, in an image of a
size. -/
def ranges (l : AuthenticodeLayout) (size : Nat) : List (Nat × Nat) :=
  headerRanges l ++ l.sections.map (fun e => (e.offset.toNat, e.finish)) ++ trailingRange l size

/-- The bytes of a range. -/
def cut (image : Bytes) (range : Nat × Nat) : Except AuthenticodeError Bytes :=
  if range.1 ≤ range.2 ∧ range.2 ≤ image.length then
    .ok (image.slice range.1 (range.2 - range.1))
  else .error .sectionsOverlapEnd

/-- The bytes that the digest covers. -/
def covered (read : ImageReader) (image : Bytes) : Except AuthenticodeError Bytes := do
  let l ← layout read image
  return (← (ranges l image.length).mapM (cut image)).flatten

/-- The digest of an image that a reader takes apart. -/
def digestWith (read : ImageReader) (h : DigestAlgorithm) (image : Bytes) :
    Except AuthenticodeError Bytes :=
  h.digest <$> covered read image

/-- The digest of an image. -/
def digest (h : DigestAlgorithm) (image : Bytes) : Except AuthenticodeError Bytes :=
  digestWith PortableImage.read? h image

end Authenticode

end SecureBoot
