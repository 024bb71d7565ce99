import SecureBoot.CommandLine.Lists
/-!
# Changing variables

The command that changes a variable of the store, or makes the write for it.
`UpdateRequest.isPreSigned`, `UpdateRequest.usesSigner` and `UpdateRequest.mode`
are its decisions about the envelope.
-/

namespace SecureBoot.CommandLine

/-! ## Decisions -/

namespace UpdateRequest

/-- Whether the file is an envelope that is written as it is. -/
def isPreSigned (r : UpdateRequest) : Bool :=
  match r.source with
  | .file _ => !r.isList && !r.unsigned && r.signer.isNone
  | _ => false

/-- Whether the write is signed here if there is a signer. A signer that is only
set does not count where no envelope is needed. -/
def usesSigner (r : UpdateRequest) (v : SecureVariable) : Bool :=
  !r.unsigned && !r.isPreSigned && (v.requiresEnvelope || r.signer.isSome)

/-- How the envelope is authenticated, if that is decided. Lists without a signer
get an unsigned envelope where one is needed. -/
def mode (r : UpdateRequest) (v : SecureVariable) (signer : Option Signer) :
    Option EnvelopeMode :=
  match signer with
  | some signer => some (.signed signer)
  | none => if r.unsigned || (r.isList && v.requiresEnvelope) then some .unsigned else none

end UpdateRequest

/-- Reads an index between blanks. -/
def index? (text : String) : Option Nat := (natural? (Text.trim text)).filter (· < indexLimit)

/-- The deletion at a place: the index of a list, or the indices of a list and
an entry with a colon between them. -/
def deletionOf? (place : String) : Option DatabaseEdit :=
  match place.splitOn ":" with
  | [list] => (index? list).map .deleteList
  | list :: entry => do
    return .deleteEntry ⟨← index? list, ← index? (":".intercalate entry)⟩
  | [] => none

/-! ## The command -/

/-- Reads what an update is made from. -/
def UpdateRequest.readAction (c : Context) (r : UpdateRequest) (owner : Guid) :
    CommandScript UpdateAction := do
  match r.source with
  | .file path =>
    let contents ← CommandScript.readFile path
    return (
      if r.isPreSigned then .preSigned contents r.append
      else .edit (if r.append then .append contents else .replace contents))
  | .image path =>
    let digest ← hashImage path
    c.progress s!"{path}: SHA256 {digest.toHex}"
    return .edit (.enrollHash .sha256 digest owner)
  | .certificate path =>
    let certificate ← loadCertificate path
    return .edit (.enrollCertificate certificate.der owner)
  | .deletion place =>
    match deletionOf? place with
    | some edit => return .edit edit
    | none =>
      CommandScript.refuse s!"invalid deletion '{place}', expected LIST or LIST:ENTRY"

/-- The answer to an update that has nothing to do. -/
def alreadyPresentAnswer (v : SecureVariable) (place : EntryLocation) : Json :=
  answerWith (s!"{v.name} already holds this entry (list {place.list}, entry {place.entry}), " ++
      "nothing written")
    [("variable", .text v.name), ("list", .natural place.list), ("entry", .natural place.entry)]

/-- The answer to an update with a write. -/
def writtenAnswer (message : String) (v : SecureVariable) (attributes : Attributes)
    (size : Nat) : Json :=
  answerWith message [("variable", .text v.name), ("attributes", .text attributes.text),
    ("bytes", .natural size)]

/-- Writes the data of an update to a file instead of the store. -/
def exportUpdate (u : Update) (target : Target) (output : String) : CommandScript Json := do
  match ← CommandScript.check .update (u.plan (← target.reader)) with
  | .alreadyPresent place => return alreadyPresentAnswer u.target place
  | .write attributes data =>
    CommandScript.writeFile output data
    return writtenAnswer s!"Wrote {data.length} byte update of {u.target.name} to {output}"
      u.target attributes data.length

/-- Updates the store. -/
def applyUpdate (u : Update) (target : Target) : CommandScript Json := do
  let result ← CommandScript.during s!"Failed to update {u.target.name}" .update
    (← target.apply u)
  match result with
  | (.alreadyPresent place, _) => return alreadyPresentAnswer u.target place
  | (.written attributes size, target) =>
    target.commit
    return writtenAnswer
      s!"Updated {u.target.name} in {target.text}: {size} bytes, attributes {attributes.text}"
      u.target attributes size

/-- Changes a variable. -/
def updateVariable (c : Context) (r : UpdateRequest) : CommandScript Json := do
  let v ← CommandScript.check .payload (SecureVariable.ofName r.variableName)
  let action ← r.readAction c (← c.owner r.owner)
  let signer ← if r.usesSigner v then c.signer r.signer else pure none
  let update : Update := {
    target := v
    action
    mode := r.mode v signer
    strategy := if r.mergeLocally then .local else .byStore
    timestamp := ← c.timeOf r.timestamp }
  let target ← Target.ofSettings c.settings
  match r.output with
  | some output => exportUpdate update target output
  | none => applyUpdate update target

end SecureBoot.CommandLine
