import SecureBoot.SignatureType
import SecureBoot.Timestamp
/-!
# Signature lists

A signature list is a 28-byte header, an optional signature header, and
entries of one size, each the GUID of its owner followed by data. A signature
database is any number of lists back to back.

* `SignatureList` is a list as a value, and `SignatureList.encode` its bytes.
* `ListView` is a list found in a buffer: where it starts and its own bytes.
  `ListView.entries` checks its geometry and cuts out the entries, and
  `ListView.toList` gives the list as a value.
* `scan` finds the lists of a buffer one after the other, and `parseDatabase`
  accepts a buffer in which every list and every entry is well formed.
-/

namespace SecureBoot

/-- What can be wrong with a signature list. Offsets count from the start of
the buffer that the list stands in. -/
inductive ListError where
  /-- Fewer bytes are left than a list header needs. -/
  | truncatedHeader (offset remaining : Nat)
  /-- The declared size runs past the end of the buffer. -/
  | truncated (offset declared remaining : Nat)
  /-- The declared size cannot hold the list header. -/
  | listTooSmall (offset declared : Nat)
  /-- The signature header runs past the declared size. -/
  | headerOverrun (offset headerSize : Nat)
  /-- Entries have size zero. -/
  | zeroEntrySize (offset : Nat)
  /-- Entries cannot hold the owner. -/
  | entryTooSmall (offset entrySize : Nat)
  /-- There is no entry. -/
  | emptyEntryRegion (offset : Nat)
  /-- The entry region is not a whole number of entries. -/
  | unevenEntries (offset region entrySize : Nat)
  /-- The type fixes another size of data. -/
  | entrySizeMismatch (offset : Nat) (type : SignatureType) (expected actual : Nat)
  /-- Entries of one list differ in size. -/
  | mixedEntrySizes (expected actual : Nat)
  /-- Bytes follow a list that should fill the buffer. -/
  | trailingBytes (offset extra : Nat)
  /-- There is nothing to encode. -/
  | noEntries
  /-- The list does not fit the 32-bit size field. -/
  | tooLarge (size : Nat)
deriving DecidableEq

/-- The wording of a list error. -/
def ListError.message : ListError → String
  | truncatedHeader offset remaining =>
    s!"truncated signature list at offset {offset}: {remaining} byte(s) left, " ++
      "a list header needs 28"
  | truncated offset declared remaining =>
    s!"truncated signature list at offset {offset}: declares {declared} bytes but only " ++
      s!"{remaining} remain"
  | listTooSmall offset declared =>
    s!"signature list at offset {offset} declares size {declared}, " ++
      "smaller than its own header"
  | headerOverrun offset headerSize =>
    s!"signature list at offset {offset}: signature header of {headerSize} bytes " ++
      "overruns the list"
  | zeroEntrySize offset => s!"signature list at offset {offset} has a zero entry size"
  | entryTooSmall offset entrySize =>
    s!"signature list at offset {offset}: entry size {entrySize} cannot hold " ++
      "the 16-byte owner"
  | emptyEntryRegion offset => s!"signature list at offset {offset} has an empty entry region"
  | unevenEntries offset region entrySize =>
    s!"signature list at offset {offset}: entry region of {region} bytes is not " ++
      s!"a multiple of entry size {entrySize}"
  | entrySizeMismatch offset type expected actual =>
    s!"{type.label} entries carry {expected} bytes of data, list at offset {offset} " ++
      s!"declares {actual}"
  | mixedEntrySizes expected actual =>
    "all entries of a signature list must have the same size: " ++
      s!"expected {expected} data bytes, got {actual}"
  | trailingBytes offset extra =>
    s!"{extra} unexpected byte(s) after the signature list ending at offset {offset}"
  | noEntries => "a signature list needs at least one entry"
  | tooLarge size => s!"signature list of {size} bytes does not fit a 32-bit size field"

/-! ## Header -/

/-- The fixed part of a signature list. -/
structure ListHeader where
  type : Guid
  listSize : UInt32
  headerSize : UInt32
  entrySize : UInt32
deriving DecidableEq

namespace ListHeader

/-- The size of the fixed part. -/
def size : Nat := 28

/-- The 28 bytes of a header. -/
def toBytes (h : ListHeader) : Bytes :=
  h.type.toBytes ++ Bytes.ofUInt32 h.listSize ++ Bytes.ofUInt32 h.headerSize ++
    Bytes.ofUInt32 h.entrySize

@[simp] theorem length_toBytes (h : ListHeader) : h.toBytes.length = 28 := by
  simp [toBytes]

/-- The header at the start of a byte string, absent bytes counting as zero. -/
def ofBytes (bs : Bytes) : ListHeader where
  type := Guid.ofBytes bs
  listSize := bs.wordAt32 16
  headerSize := bs.wordAt32 20
  entrySize := bs.wordAt32 24

/-- The header at the start of the bytes that stand at an offset. -/
def read (offset : Nat) (bs : Bytes) : Except ListError ListHeader :=
  if (bs.take size).length < size then .error (.truncatedHeader offset bs.length)
  else .ok (ofBytes bs)

end ListHeader

/-! ## Lists as values -/

/-- An owner and the data it enrolled. -/
structure SignatureEntry where
  owner : Guid
  data : Bytes
deriving DecidableEq

namespace SignatureEntry

/-- The size of the owner in front of the data. -/
def ownerSize : Nat := 16

/-- The bytes of an entry. -/
def toBytes (e : SignatureEntry) : Bytes := e.owner.toBytes ++ e.data

end SignatureEntry

/-- A signature list as a value. -/
structure SignatureList where
  type : Guid
  header : Bytes
  entries : List SignatureEntry
deriving DecidableEq

namespace SignatureList

/-- The size of the encoded list, for entries of the given data size. -/
def encodedSize (l : SignatureList) (dataSize : Nat) : Nat :=
  ListHeader.size + l.header.length +
    (SignatureEntry.ownerSize + dataSize) * l.entries.length

/-- The bytes of a list whose entries all have the given data size. -/
def toBytes (l : SignatureList) (dataSize : Nat) : Bytes :=
  ListHeader.toBytes {
    type := l.type
    listSize := UInt32.ofNat (l.encodedSize dataSize)
    headerSize := UInt32.ofNat l.header.length
    entrySize := UInt32.ofNat (SignatureEntry.ownerSize + dataSize) } ++
  l.header ++ l.entries.flatMap SignatureEntry.toBytes

/-- The bytes of a list. It needs an entry, entries of one size, the size its
type fixes, and a total that fits 32 bits. -/
def encode (l : SignatureList) : Except ListError Bytes :=
  match l.entries with
  | [] => .error .noEntries
  | first :: _ =>
    let dataSize := first.data.length
    match l.entries.find? (·.data.length != dataSize) with
    | some bad => .error (.mixedEntrySizes dataSize bad.data.length)
    | none =>
      let type := SignatureType.ofGuid l.type
      match type.dataSize?.filter (· != dataSize) with
      | some expected => .error (.entrySizeMismatch 0 type expected dataSize)
      | none =>
        let size := l.encodedSize dataSize
        if size < UInt32.size then .ok (l.toBytes dataSize) else .error (.tooLarge size)

/-- The bytes of lists back to back. -/
def encodeAll (ls : List SignatureList) : Except ListError Bytes :=
  ls.foldlM (fun bs l => (bs ++ ·) <$> l.encode) []

/-- A list without signature header whose entries belong to one owner. -/
def ofOwner (type : SignatureType) (owner : Guid) (data : List Bytes) : SignatureList :=
  ⟨type.guid, [], data.map (⟨owner, ·⟩)⟩

/-- The bytes of a list with the digests of one owner. -/
def encodeHashes (type : SignatureType) (owner : Guid) (digests : List Bytes) :
    Except ListError Bytes :=
  (ofOwner type owner digests).encode

/-- The bytes of a list with one certificate. -/
def encodeCertificate (owner : Guid) (der : Bytes) : Except ListError Bytes :=
  (ofOwner .x509 owner [der]).encode

/-- The bytes of a list that revokes one certificate by its digest, from a
time on. -/
def encodeCertificateHash (type : SignatureType) (owner : Guid) (digest : Bytes)
    (revoked : Timestamp) : Except ListError Bytes :=
  (ofOwner type owner [digest ++ revoked.toBytes]).encode

end SignatureList

/-! ## Lists in a buffer -/

/-- A list found in a buffer: the offset it starts at and its own bytes, which
hold at least a header. -/
structure ListView where
  offset : Nat
  bytes : Bytes
  size_le : ListHeader.size ≤ bytes.length

namespace ListView

/-- The fixed header. -/
def header (l : ListView) : ListHeader := .ofBytes l.bytes

/-- The type of the entries. -/
def type (l : ListView) : SignatureType := .ofGuid l.header.type

/-- The size of the list. -/
def size (l : ListView) : Nat := l.bytes.length

/-- The declared size of the signature header. -/
def headerSize (l : ListView) : Nat := l.header.headerSize.toNat

/-- The declared size of an entry. -/
def entrySize (l : ListView) : Nat := l.header.entrySize.toNat

/-- The list at the start of the bytes that stand at an offset. -/
def read (offset : Nat) (bs : Bytes) : Except ListError ListView := do
  let header ← ListHeader.read offset bs
  let declared := header.listSize.toNat
  let bytes := bs.take declared
  if declared < ListHeader.size then
    throw (.listTooSmall offset declared)
  else if h : ListHeader.size ≤ declared ∧ bytes.length = declared then
    return ⟨offset, bytes, by omega⟩
  else
    throw (.truncated offset declared bs.length)

/-- The signature header between list header and entries. -/
def signatureHeader (l : ListView) : Except ListError Bytes :=
  if ListHeader.size + l.headerSize ≤ l.size then
    .ok (l.bytes.slice ListHeader.size l.headerSize)
  else .error (.headerOverrun l.offset l.headerSize)

/-- The bytes after the headers. -/
def entryRegion (l : ListView) : Bytes := l.bytes.drop (ListHeader.size + l.headerSize)

/-- Checks that the entry region is a positive whole number of entries of a
size that the type allows. -/
def checkGeometry (l : ListView) : Except ListError Unit := do
  let _ ← l.signatureHeader
  let region := l.entryRegion.length
  if l.entrySize = 0 then throw (.zeroEntrySize l.offset)
  if l.entrySize < SignatureEntry.ownerSize then throw (.entryTooSmall l.offset l.entrySize)
  if region = 0 then throw (.emptyEntryRegion l.offset)
  if region % l.entrySize ≠ 0 then throw (.unevenEntries l.offset region l.entrySize)
  let actual := l.entrySize - SignatureEntry.ownerSize
  match l.type.dataSize?.filter (· != actual) with
  | some expected => throw (.entrySizeMismatch l.offset l.type expected actual)
  | none => return ()

/-- Cuts a number of entries of one size off the front. -/
def cutEntries (entrySize : Nat) : (count : Nat) → Bytes → List SignatureEntry
  | 0, _ => []
  | count + 1, bs =>
    ⟨Guid.ofBytes bs, (bs.take entrySize).drop SignatureEntry.ownerSize⟩ ::
      cutEntries entrySize count (bs.drop entrySize)

/-- The entries of a list of sound geometry. -/
def entries (l : ListView) : Except ListError (List SignatureEntry) := do
  l.checkGeometry
  return cutEntries l.entrySize (l.entryRegion.length / l.entrySize) l.entryRegion

/-- The number of entries of a list of sound geometry. -/
def entryCount (l : ListView) : Except ListError Nat := List.length <$> l.entries

/-- The list as a value. -/
def toList (l : ListView) : Except ListError SignatureList := do
  return ⟨l.header.type, ← l.signatureHeader, ← l.entries⟩

/-- The only list of a buffer, which it has to fill. -/
def ofBytes (bs : Bytes) : Except ListError ListView := do
  let l ← read 0 bs
  if l.size < bs.length then
    throw (.trailingBytes l.size (bs.length - l.size))
  return l

end ListView

/-! ## Databases -/

/-- The lists found in a buffer, the error that ended the search, and the
number of bytes after the last list found. -/
structure Scan where
  lists : List ListView
  stoppedBy : Option ListError
  remaining : Nat

/-- Finds the lists of the bytes that stand at an offset. -/
def scanFrom (offset : Nat) (bs : Bytes) : Scan :=
  if _nonempty : bs.isEmpty then ⟨[], none, 0⟩
  else
    match ListView.read offset bs with
    | .error e => ⟨[], some e, bs.length⟩
    | .ok l =>
      let after := scanFrom (offset + l.size) (bs.drop l.size)
      { after with lists := l :: after.lists }
termination_by bs.length
decreasing_by
  have h1 := l.size_le
  have h2 : 0 < bs.length := List.length_pos_iff.2 (by simpa using _nonempty)
  simp only [ListView.size, ListHeader.size, List.length_drop] at *
  omega

/-- Finds the lists of a buffer one after the other, up to the first place
where none starts. -/
def scan (bs : Bytes) : Scan := scanFrom 0 bs

/-- The lists of a buffer in which every list and every entry is well formed.
The first fault is reported. -/
def parseDatabase (bs : Bytes) : Except ListError (List ListView) := do
  let found := scan bs
  found.lists.forM fun l => discard l.entries
  match found.stoppedBy with
  | some e => throw e
  | none => return found.lists

end SecureBoot
