import SecureBoot.SignatureList
/-!
# Signature databases

A `SignatureDatabase` is a byte string together with the fact that it parses
as a sequence of well-formed signature lists. Every change builds a new byte
string and checks it again, so a half-edited database cannot be expressed.
-/

namespace SecureBoot

/-- What can be wrong with a request to a signature database. -/
inductive DatabaseError where
  /-- The bytes are not well-formed signature lists. -/
  | format (error : ListError)
  /-- There is no list of that index. -/
  | listNotFound (index count : Nat)
  /-- The list has no entry of that index. -/
  | entryNotFound (list entry count : Nat)
deriving DecidableEq

/-- The wording of a database error. -/
def DatabaseError.message : DatabaseError → String
  | format error => s!"malformed signature database: {error.message}"
  | listNotFound index count =>
    s!"signature list {index} not found, the database has {count} list(s)"
  | entryNotFound list entry count =>
    s!"entry {entry} not found in signature list {list}, which has {count} entr(y/ies)"

/-- The wordings of the causes of a database error. -/
def DatabaseError.causes : DatabaseError → List String
  | format error => [error.message]
  | _ => []

/-- The position of an entry: the index of its list, and its index there. -/
structure EntryLocation where
  list : Nat
  entry : Nat
deriving DecidableEq

/-- An entry, where it stands, and the type of its list. -/
structure LocatedEntry where
  location : EntryLocation
  type : SignatureType
  entry : SignatureEntry

/-- A byte string that parses as a signature database. -/
structure SignatureDatabase where
  bytes : Bytes
  valid : ∃ lists, parseDatabase bytes = .ok lists

namespace SignatureDatabase

/-- Reads a list error as an error of the database. -/
def ofListError {α : Type} : Except ListError α → Except DatabaseError α :=
  Except.mapError .format

/-- The database without lists. -/
def empty : SignatureDatabase := ⟨[], [], by simp [parseDatabase, scan, scanFrom]; rfl⟩

/-- The database with the given bytes, if every list and entry is well formed. -/
def ofBytes (bs : Bytes) : Except DatabaseError SignatureDatabase :=
  match h : parseDatabase bs with
  | .ok lists => .ok ⟨bs, lists, h⟩
  | .error e => .error (.format e)

/-- The database of the given lists. -/
def ofLists (ls : List SignatureList) : Except DatabaseError SignatureDatabase :=
  ofListError (SignatureList.encodeAll ls) >>= ofBytes

/-- The lists in storage order. -/
def lists (db : SignatureDatabase) : List ListView := (scan db.bytes).lists

/-- The list of an index. -/
def list (db : SignatureDatabase) (index : Nat) : Except DatabaseError ListView :=
  match db.lists[index]? with
  | some l => .ok l
  | none => .error (.listNotFound index db.lists.length)

/-- The entries of one list with their locations. -/
def locate (index : Nat) (l : ListView) : List LocatedEntry :=
  match l.entries with
  | .ok es => es.mapIdx fun i e => ⟨⟨index, i⟩, l.type, e⟩
  | .error _ => []

/-- The entries of every list, in storage order. -/
def entries (db : SignatureDatabase) : List LocatedEntry :=
  (db.lists.mapIdx locate).flatten

/-- The entry at a location. -/
def entry (db : SignatureDatabase) (place : EntryLocation) :
    Except DatabaseError SignatureEntry := do
  let l ← db.list place.list
  let es ← ofListError l.entries
  match es[place.entry]? with
  | some e => return e
  | none => throw (.entryNotFound place.list place.entry es.length)

/-! ## Search -/

/-- The location of the first entry that a predicate holds of. -/
def find? (db : SignatureDatabase) (p : SignatureType → SignatureEntry → Bool) :
    Option EntryLocation :=
  (db.entries.find? fun e => p e.type e.entry).map (·.location)

/-- The location of the first entry of a type with the given data. -/
def findHash? (db : SignatureDatabase) (type : SignatureType) (digest : Bytes) :
    Option EntryLocation :=
  db.find? fun t e => t == type && e.data == digest

/-- The location of the first certificate with the given bytes. -/
def findCertificate? (db : SignatureDatabase) (der : Bytes) : Option EntryLocation :=
  db.findHash? .x509 der

/-- Whether an entry of a type has the given data. -/
def containsHash (db : SignatureDatabase) (type : SignatureType) (digest : Bytes) : Bool :=
  (db.findHash? type digest).isSome

/-- Whether a certificate has the given bytes. -/
def containsCertificate (db : SignatureDatabase) (der : Bytes) : Bool :=
  (db.findCertificate? der).isSome

/-- The bytes of every certificate, in storage order. -/
def certificates (db : SignatureDatabase) : List Bytes :=
  (db.entries.filter (·.type == .x509)).map (·.entry.data)

/-! ## Changes -/

/-- Removes a list. -/
def deleteList (db : SignatureDatabase) (index : Nat) :
    Except DatabaseError SignatureDatabase := do
  let l ← db.list index
  ofBytes (db.bytes.take l.offset ++ db.bytes.drop (l.offset + l.size))

/-- Removes an entry. The last entry of a list takes the list with it;
otherwise the declared size of the list shrinks by the size of the entry. -/
def deleteEntry (db : SignatureDatabase) (index entry : Nat) :
    Except DatabaseError SignatureDatabase := do
  let l ← db.list index
  let count ← ofListError l.entryCount
  if count ≤ entry then throw (.entryNotFound index entry count)
  if count = 1 then deleteList db index
  else
    let header := { l.header with listSize := l.header.listSize - l.header.entrySize }
    let skipped := ListHeader.size + l.headerSize + entry * l.entrySize
    ofBytes (db.bytes.take l.offset ++ header.toBytes ++
      l.bytes.slice ListHeader.size (skipped - ListHeader.size) ++
      db.bytes.drop (l.offset + skipped + l.entrySize))

/-- Adds lists at the end. They have to be a database of their own. -/
def append (db : SignatureDatabase) (new : Bytes) : Except DatabaseError SignatureDatabase := do
  let _ ← ofListError (parseDatabase new)
  ofBytes (db.bytes ++ new)

/-- Replaces every list. -/
def replace (_ : SignatureDatabase) (new : Bytes) : Except DatabaseError SignatureDatabase :=
  ofBytes new

end SignatureDatabase

end SecureBoot
