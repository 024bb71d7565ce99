import SecureBoot.CommandLine.Target
/-!
# Showing databases

The commands that look at a store: `readDatabases` lists the databases of
variables or exports a part of one, and `platformStatus` tells the mode of the
platform with the number of entries of every database.
-/

namespace SecureBoot.CommandLine

open Crypto

/-! ## Parts of a database -/

namespace Selection

/-- The selected lists of a database, with their indices. -/
def lists (s : Selection) (db : SignatureDatabase) :
    Except DatabaseError (List (Nat × ListView)) :=
  match s.list with
  | some index => do return [(index, ← db.list index)]
  | none => return db.lists.mapIdx fun index l => (index, l)

/-- The selected bytes of a database: all of them, those of a list, or the data
of an entry. -/
def bytes (s : Selection) (db : SignatureDatabase) : Except DatabaseError Bytes :=
  match s.list, s.entry with
  | none, _ => return db.bytes
  | some index, none => do return (← db.list index).bytes
  | some list, some entry => do return (← db.entry ⟨list, entry⟩).data

end Selection

/-! ## Listings -/

/-- What the data of an entry tell: the names in a certificate, a digest, or the
digest of a certificate with the time of its revocation. -/
def entryDetails (type : SignatureType) (data : Bytes) : List (String × Json) :=
  match type with
  | .x509 =>
    match Certificate.ofBytes? data with
    | some c => [("subject", .text c.subject.text), ("issuer", .text c.issuer.text)]
    | none => [("subject", .text "(unparseable certificate)")]
  | .x509Sha256 | .x509Sha384 | .x509Sha512 =>
    let size := data.length - Timestamp.size
    let time := match Timestamp.ofBytes? (data.drop size) with
      | .ok t => [("time_of_revocation", .text t.text)]
      | .error _ => []
    ("tbs_hash", .text (Bytes.toHex (data.take size))) :: time
  | _ => if type.isHash then [("hash", .text data.toHex)] else []

/-- An entry in a listing. -/
def describeEntry (type : SignatureType) (index : Nat) (e : SignatureEntry) : Json :=
  answer ([("index", .natural index), ("owner", .text e.owner.text),
    ("size", .natural e.data.length)] ++ entryDetails type e.data)

/-- A list in a listing, with the selected entries. -/
def describeList (s : Selection) (index : Nat) (l : ListView) : Except Error Json := do
  let entries ← l.entries.mapError Error.list
  let all := entries.mapIdx (describeEntry l.type)
  let selected ← match s.entry with
    | none => pure all
    | some wanted =>
      match all[wanted]? with
      | some e => pure [e]
      | none => throw (.database (.entryNotFound index wanted entries.length))
  return answer [("index", .natural index), ("type", .text l.type.label),
    ("entry_size", .natural l.entrySize), ("entries", .array selected)]

/-- The members of the listing of a database. -/
def describeDatabase (s : Selection) (label : String) (db : SignatureDatabase) :
    Except Error (List (String × Json)) := do
  let lists ← (s.lists db).mapError Error.database
  let described ← lists.mapM fun (index, l) => describeList s index l
  return [("variable", .text label), ("length", .natural db.bytes.length),
    ("lists", .array described)]

/-! ## Reading -/

/-- Writes the selected bytes of a database to a file. -/
def exportSelected (s : Selection) (label : String) (db : SignatureDatabase) (output : String) :
    CommandScript Json := do
  let bytes ← CommandScript.check .database (s.bytes db)
  CommandScript.writeFile output bytes
  return answerWith s!"Wrote {bytes.length} bytes of {label} to {output}"
    [("bytes", .natural bytes.length)]

/-- Reads bytes as a database, or fails telling what they were taken for. -/
def databaseOf (label : String) (bytes : Bytes) : CommandScript SignatureDatabase :=
  CommandScript.during s!"{label} is not a valid signature database" .database
    (SignatureDatabase.ofBytes bytes)

/-- Reads the lists of a file. -/
def readLists (r : ReadRequest) (path : String) : CommandScript Json := do
  let db ← databaseOf path (← CommandScript.readFile path)
  match r.output with
  | some output => exportSelected r.selection path db output
  | none =>
    let members ← CommandScript.check id (describeDatabase r.selection path db)
    return answer [("databases", .array [answer members])]

/-- The listing of a variable. -/
def describeVariable (s : Selection) (read : VariableReader) (v : SecureVariable) :
    CommandScript Json := do
  match ← CommandScript.check .store (read.optional v.id) with
  | none => return answerWith s!"Variable {v.name} has no entries" [("variable", .text v.name)]
  | some stored =>
    let db ← databaseOf s!"Variable {v.name}" stored.data
    let members ← CommandScript.check id (describeDatabase s v.name db)
    return answer (("attributes", .text stored.attributes.text) :: members)

/-- Exports a part of the database of a variable. -/
def exportVariable (s : Selection) (read : VariableReader) (v : SecureVariable)
    (output : String) : CommandScript Json := do
  let stored ← CommandScript.check .store (read v.id)
  exportSelected s v.name (← databaseOf s!"Variable {v.name}" stored.data) output

/-- The variables that are listed if none is named. -/
def listedVariables : List SecureVariable := [.pk, .kek, .db, .dbx]

/-- The variables that a request is about. -/
def ReadRequest.targets (r : ReadRequest) : CommandScript (List SecureVariable) :=
  match r.variableName with
  | some name => do return [← CommandScript.check .payload (SecureVariable.ofName name)]
  | none =>
    if r.selection.list.isSome || r.output.isSome then
      CommandScript.refuse "--list and --output need a variable name"
    else return listedVariables

/-- Prints or exports databases. -/
def readDatabases (c : Context) (r : ReadRequest) : CommandScript Json := do
  match r.source with
  | some path => readLists r path
  | none =>
    let targets ← r.targets
    let read ← (← Target.ofSettings c.settings).reader
    match r.output, targets with
    | some output, v :: _ => exportVariable r.selection read v output
    | _, targets =>
      return answer [("databases",
        .array (← targets.mapM (describeVariable r.selection read)))]

/-! ## Status -/

/-- The number of entries of a variable. What is no database has none. -/
def entryCount (read : VariableReader) (v : SecureVariable) : Except StoreError Nat := do
  match ← read.optional v.id with
  | none => return 0
  | some stored =>
    match SignatureDatabase.ofBytes stored.data with
    | .ok db => return db.entries.length
    | .error _ => return 0

/-- Tells the mode of the platform and what its databases hold. -/
def platformStatus (c : Context) : CommandScript Json := do
  let target ← Target.ofSettings c.settings
  let read ← target.reader
  let status ← CommandScript.check .store (PlatformStatus.read read)
  let counts ← CommandScript.check .store (SecureVariable.all.mapM fun v => do
    return (v.name, Json.natural (← entryCount read v)))
  let enforcement := if status.isEnforced then "enforced" else "not enforced"
  return answerWith s!"Platform is in {status.mode.text}, Secure Boot {enforcement}"
    [("store", .text target.text), ("mode", .text status.mode.name),
      ("setup_mode", Json.ofOption .bool status.setupMode),
      ("secure_boot", Json.ofOption .bool status.secureBoot), ("entries", answer counts)]

end SecureBoot.CommandLine
