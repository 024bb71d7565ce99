import SecureBoot.Envelope
import SecureBoot.Store.Basic
import SecureBoot.Text.Utf16
/-!
# Flash images

The store of authenticated variables inside a flash image.

A store starts with a header of 28 bytes. Records follow, each at a multiple of
four bytes: a header of 60 bytes, the name with its terminator, and the data.
Erased flash reads as 0xff, so the first place without the mark of a record is
the start of free space.

Writing a variable appends a record and clears a bit in the state of earlier
ones, so that no bit is ever set.
-/

namespace SecureBoot

/-- A record of the store, in use or deleted. -/
structure FlashRecord where
  /-- Where the record starts in the image. -/
  offset : Nat
  state : UInt8
  id : VariableId
  attributes : Attributes
  monotonicCount : UInt64
  timestamp : Timestamp
  publicKeyIndex : UInt32
  /-- The size of the stored name, with its terminator. -/
  nameSize : Nat
  data : Bytes
deriving DecidableEq

namespace FlashRecord

/-- The size of the header of a record. -/
def headerSize : Nat := 60

/-- The mark that a record starts with. -/
def marker : UInt16 := 0x55aa

/-- The state of a record in use. -/
def added : UInt8 := 0x3f

/-- The bits that stay when a replacement of a record begins. -/
def inDeletedTransition : UInt8 := 0xfe

/-- The bits that stay when a record is deleted. -/
def deleted : UInt8 := 0xfd

/-- Where the state of a record stands in it. -/
def stateOffset : Nat := 2

/-- The size of a record, without the bytes that align the next one. -/
def size (r : FlashRecord) : Nat := headerSize + r.nameSize + r.data.length

/-- Whether a record is in use. -/
def isLive (r : FlashRecord) : Bool := r.state == added

/-- Whether the replacement of a record was begun but not completed. -/
def isInDeletedTransition (r : FlashRecord) : Bool := r.state == added &&& inDeletedTransition

/-- Whether a record may be the value of its variable. -/
def isValid (r : FlashRecord) : Bool := r.isLive || r.isInDeletedTransition

/-- Whether bytes start with the header of a record. -/
def isAtStart (bs : Bytes) : Bool := headerSize ≤ bs.length && bs.wordAt16 0 == marker

/-- The record at the start of the bytes that stand at an offset. -/
def read (offset : Nat) (bs : Bytes) : Except FlashError FlashRecord := do
  let nameSize := (bs.wordAt32 36).toNat
  let dataSize := (bs.wordAt32 40).toNat
  if nameSize % 2 ≠ 0 then throw (.corruptRecord offset .oddNameSize)
  if bs.length < headerSize + nameSize + dataSize then throw (.corruptRecord offset .overrun)
  return {
    offset
    state := bs.byteAt stateOffset
    id := {
      name := Text.Utf16.ofTerminated (Text.Utf16.ofBytes (bs.slice headerSize nameSize))
      guid := Guid.ofBytes (bs.drop 44) }
    attributes := ⟨bs.wordAt32 4⟩
    monotonicCount := bs.wordAt64 8
    timestamp := Timestamp.ofBytes (bs.drop 16)
    publicKeyIndex := bs.wordAt32 32
    nameSize
    data := bs.slice (headerSize + nameSize) dataSize }

/-- The bytes of a new record. -/
def encode (id : VariableId) (attributes : Attributes) (timestamp : Timestamp) (data : Bytes) :
    Bytes :=
  let name := Text.Utf16.toBytes (Text.Utf16.terminated id.name)
  Bytes.ofUInt16 marker ++ [added, 0] ++ attributes.toBytes ++ List.replicate 8 0 ++
    timestamp.toBytes ++ List.replicate 4 0 ++ Bytes.ofNatLE 4 name.length ++
    Bytes.ofNatLE 4 data.length ++ id.guid.toBytes ++ name ++ data

/-- The current record of a variable: the last one in use, or else the last
one whose replacement was begun. -/
def current? (records : List FlashRecord) (id : VariableId) : Option FlashRecord :=
  let copies := records.reverse.filter (·.id = id)
  copies.find? isLive <|> copies.find? isInDeletedTransition

end FlashRecord

/-- The records of a store, and the number of bytes after them. -/
structure FlashLayout where
  records : List FlashRecord
  free : Nat

/-- An image, and where the store is in it. -/
structure FlashStore where
  image : Bytes
  offset : Nat
  size : Nat
  header_le : 28 ≤ size
  size_lt : size < UInt32.size
  finish_le : offset + size ≤ image.length

namespace FlashStore

/-- The size of the header of a store. -/
def headerSize : Nat := 28

/-- The mark of a store with space for records. -/
def formatted : UInt8 := 0x5a

/-- The mark of a store in working order. -/
def healthy : UInt8 := 0xfe

/-- The value of a byte of erased flash. -/
def erased : UInt8 := 0xff

/-- The end of the store in the image. -/
def finish (s : FlashStore) : Nat := s.offset + s.size

/-! ## Opening -/

/-- Searches the bytes that stand at an offset for the mark of a store, in
steps of eight bytes. -/
def search : (fuel offset : Nat) → Bytes → Option Nat
  | 0, _, _ => none
  | fuel + 1, offset, bs =>
    if Guid.authenticatedStore.toBytes.isPrefixOf bs then some offset
    else search fuel (offset + 8) (bs.drop 8)

/-- The store of an image. -/
def ofImage (image : Bytes) : Except FlashError FlashStore :=
  match search (image.length / 8 + 1) 0 image with
  | none => .error (.storeNotFound image.length)
  | some offset =>
    let header := image.slice offset headerSize
    let size := (header.wordAt32 16).toNat
    let format := header.byteAt 20
    let state := header.byteAt 21
    if header.length < headerSize then .error (.corruptStore offset .truncated)
    else if format ≠ formatted ∨ state ≠ healthy then
      .error (.corruptStore offset (.notHealthy format state))
    else if h : headerSize ≤ size ∧ offset + size ≤ image.length then
      .ok ⟨image, offset, size, h.1, (header.wordAt32 16).toNat_lt_size, h.2⟩
    else .error (.corruptStore offset (.sizeDoesNotFit size image.length))

/-- The header of a store of a size. -/
def header (size : Nat) : Bytes :=
  Guid.authenticatedStore.toBytes ++ Bytes.ofNatLE 4 size ++
    [formatted, healthy, 0, 0, 0, 0, 0, 0]

/-- An erased image of a size with a store that fills it. -/
def blank (size : Nat) : Except FlashError FlashStore :=
  if h : headerSize ≤ size ∧ size < UInt32.size then
    .ok {
      image := header size ++ List.replicate (size - headerSize) erased
      offset := 0
      size
      header_le := h.1
      size_lt := h.2
      finish_le := by
        have := h.1
        simp [header, headerSize] at this ⊢
        omega }
  else .error (.unusableSize size)

/-! ## Reading -/

/-- The offset that aligns the record after one of a size. -/
def align (size : Nat) : Nat := (size + 3) / 4 * 4

/-- The records of the bytes that stand at an offset. -/
def walkFrom (offset : Nat) (bs : Bytes) : Except FlashError FlashLayout :=
  if _h : FlashRecord.isAtStart bs then
    match FlashRecord.read offset bs with
    | .error e => .error e
    | .ok r =>
      (walkFrom (offset + align r.size) (bs.drop (align r.size))).map fun after =>
        { after with records := r :: after.records }
  else .ok ⟨[], bs.length⟩
termination_by bs.length
decreasing_by
  have h1 : FlashRecord.headerSize ≤ bs.length := by
    simp only [FlashRecord.isAtStart, Bool.and_eq_true, decide_eq_true_eq] at _h
    exact _h.1
  simp only [align, FlashRecord.size, FlashRecord.headerSize, List.length_drop] at *
  omega

/-- The records of a store in their order, and its free space. -/
def walk (s : FlashStore) : Except FlashError FlashLayout :=
  walkFrom (s.offset + headerSize) (s.image.slice (s.offset + headerSize) (s.size - headerSize))

/-- The records of a store, deleted ones too. -/
def records (s : FlashStore) : Except FlashError (List FlashRecord) :=
  (·.records) <$> s.walk

/-- The bytes left for records. -/
def freeSpace (s : FlashStore) : Except FlashError Nat := (·.free) <$> s.walk

/-- The current record of a variable. -/
def find? (s : FlashStore) (id : VariableId) : Except FlashError (Option FlashRecord) :=
  (FlashRecord.current? · id) <$> s.records

/-! ## Writing -/

/-- Replaces bytes of a string from an offset on, as far as it reaches. -/
def overwrite (image : Bytes) (offset : Nat) (new : Bytes) : Bytes :=
  image.take offset ++ new.take (image.length - offset) ++ image.drop (offset + new.length)

theorem length_overwrite (image : Bytes) (offset : Nat) (new : Bytes) :
    (overwrite image offset new).length = image.length := by
  simp [overwrite]
  omega

/-- Clears the bit of a deleted record in the state of each record. -/
def clearStates (image : Bytes) (records : List FlashRecord) : Bytes :=
  records.foldl
    (fun image r => image.modify (r.offset + FlashRecord.stateOffset) (· &&& FlashRecord.deleted))
    image

theorem length_clearStates (image : Bytes) (records : List FlashRecord) :
    (clearStates image records).length = image.length := by
  induction records generalizing image with
  | nil => rfl
  | cons r rs ih => exact (ih _).trans (by simp)

/-- Replaces bytes of the image from an offset on. -/
def patch (s : FlashStore) (offset : Nat) (new : Bytes) : FlashStore :=
  { s with
    image := overwrite s.image offset new
    finish_le := by rw [length_overwrite]; exact s.finish_le }

/-- Marks records deleted. -/
def deleteRecords (s : FlashStore) (records : List FlashRecord) : FlashStore :=
  { s with
    image := clearStates s.image records
    finish_le := by rw [length_clearStates]; exact s.finish_le }

/-- The valid records of a variable. -/
def copies (records : List FlashRecord) (id : VariableId) : List FlashRecord :=
  records.filter fun r => r.isValid && r.id = id

/-- Removes a variable, and tells whether it was there. -/
def delete (s : FlashStore) (id : VariableId) : Except FlashError (Bool × FlashStore) := do
  let old := copies (← s.records) id
  return (!old.isEmpty, s.deleteRecords old)

/-- Writes a variable exactly as given. -/
def write (s : FlashStore) (id : VariableId) (attributes : Attributes) (timestamp : Timestamp)
    (data : Bytes) : Except FlashError FlashStore := do
  let layout ← s.walk
  let record := FlashRecord.encode id attributes timestamp data
  if layout.free < record.length then throw (.storeFull record.length layout.free)
  return (s.patch (s.finish - layout.free) record).deleteRecords (copies layout.records id)

/-- Payload and timestamp of a write. -/
def splitWrite (id : VariableId) (attributes : Attributes) (data : Bytes) :
    Except FlashError (Bytes × Timestamp) :=
  if attributes.isTimeBased then
    match Envelope.parse data with
    | .ok e => .ok (e.payload, e.timestamp)
    | .error e => .error (.envelope id.name e)
  else .ok (data, .zero)

/-- Reads a flash error as an error of the store. -/
def ofFlashError {α : Type} : Except FlashError α → Except StoreError α := Except.mapError .flash

/-- Reads the current value of a variable. -/
def get (s : FlashStore) (id : VariableId) : Except StoreError Variable := do
  match ← ofFlashError (s.find? id) with
  | some r => return ⟨r.attributes, r.data⟩
  | none => throw (.notFound id)

/-- Applies a write as firmware does, but for signatures: it takes the payload
out of its envelope, appends or replaces, and deletes where nothing is left. -/
def set (s : FlashStore) (id : VariableId) (attributes : Attributes) (data : Bytes) :
    Except StoreError FlashStore := do
  let (payload, timestamp) ← ofFlashError (splitWrite id attributes data)
  if !attributes.isAppend && payload.isEmpty then
    let (existed, s) ← ofFlashError (s.delete id)
    if !existed then throw (.notFound id)
    return s
  let (value, timestamp) := match ← ofFlashError (s.find? id) with
    | some r =>
      if attributes.isAppend then (r.data ++ payload, r.timestamp.later timestamp)
      else (payload, timestamp)
    | none => (payload, timestamp)
  ofFlashError (s.write id (attributes.difference .appendWrite) timestamp value)

/-- The store of a flash image. -/
def store : VariableStore FlashStore := ⟨get, set⟩

end FlashStore

end SecureBoot
