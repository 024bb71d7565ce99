import SecureBoot.Signer
import SecureBoot.Store.RuntimeServices
import SecureBoot.Variable
/-!
# Firmware

Variable services that enforce the rules of Secure Boot.

The platform is in setup mode while it has no platform key, and then takes any
write. With a platform key, time-based writes to PK and KEK need a signature by
a certificate of PK, and those to db, dbx and dbt one by a certificate of KEK.
The timestamps of writes to a variable increase, except for appended data.
-/

namespace SecureBoot

/-- The id of a Secure Boot variable. -/
def SecureVariable.id (v : SecureVariable) : VariableId := ⟨v.name, v.guid⟩

/-- The Secure Boot variable of an id. -/
def SecureVariable.ofId? (id : VariableId) : Option SecureVariable :=
  all.find? (·.id = id)

/-- The variables that tell the state of the platform. -/
inductive StatusVariable where
  | setupMode
  | secureBoot
deriving DecidableEq

namespace StatusVariable

/-- The name of a status variable. -/
def name : StatusVariable → String
  | setupMode => "SetupMode"
  | secureBoot => "SecureBoot"

/-- The id of a status variable. -/
def id (v : StatusVariable) : VariableId := ⟨v.name, .globalVariable⟩

/-- The status variable of an id. -/
def ofId? (id : VariableId) : Option StatusVariable :=
  [setupMode, secureBoot].find? (·.id = id)

end StatusVariable

/-- A variable with the timestamp of the last write to it. -/
structure StoredVariable extends Variable where
  timestamp : Timestamp
deriving DecidableEq

/-- The variables that firmware keeps. -/
structure Firmware where
  stored : VariableId → Option StoredVariable

namespace Firmware

/-- Firmware without variables. -/
def fresh : Firmware := ⟨fun _ => none⟩

/-- Puts a variable in place of another, or removes it. -/
def update (f : Firmware) (id : VariableId) (v : Option StoredVariable) : Firmware :=
  ⟨fun other => if other = id then v else f.stored other⟩

/-- Whether there is no platform key. -/
def isSetupMode (f : Firmware) : Bool := (f.stored SecureVariable.pk.id).isNone

/-- The value of a status variable. -/
def status (f : Firmware) : StatusVariable → Bool
  | .setupMode => f.isSetupMode
  | .secureBoot => !f.isSetupMode

/-- The attributes of the status variables. -/
def statusAttributes : Attributes := .union .bootServiceAccess .runtimeAccess

/-! ## Reading -/

/-- Reads a variable of any size. -/
def find? (f : Firmware) (id : VariableId) : Option Variable :=
  match StatusVariable.ofId? id with
  | some v => some ⟨statusAttributes, [if f.status v then 1 else 0]⟩
  | none => (f.stored id).map (·.toVariable)

/-- Reads a variable whose data fit a number of bytes. -/
def getVariable (f : Firmware) (id : VariableId) (capacity : Nat) :
    Except FirmwareStatus Variable :=
  match f.find? id with
  | none => .error .notFound
  | some v => if capacity < v.data.length then .error (.bufferTooSmall v.data.length) else .ok v

/-! ## Writing -/

/-- The certificates that may sign writes to a variable. -/
def authorityCertificates (scheme : SignatureScheme) (f : Firmware) (v : SecureVariable) :
    Except FirmwareStatus (List Bytes) :=
  match v.authority?.bind fun a => f.stored a.id with
  | none => .ok []
  | some authority =>
    match SignatureDatabase.ofBytes authority.data with
    | .ok db => .ok (db.certificates.filter scheme.isCertificate)
    | .error _ => .error .securityViolation

/-- Checks the signature of an envelope in user mode. A variable without an
authority takes the signature of anyone. -/
def checkSignature (scheme : SignatureScheme) (f : Firmware) (id : VariableId)
    (attributes : Attributes) (e : Envelope) : Except FirmwareStatus Unit := do
  let secure := SecureVariable.ofId? id
  let trusted ← match secure with
    | some v => f.authorityCertificates scheme v
    | none => .ok []
  if e.isUnsigned || (secure.isSome && trusted.isEmpty) then throw .securityViolation
  let message := signedMessage id.name id.guid attributes e.timestamp e.payload
  (scheme.verify e.certificateData message trusted).mapError fun _ => .securityViolation

/-- Checks attributes and timestamp of a write against what is stored. -/
def checkReplacement (stored : StoredVariable) (attributes : Attributes) (timestamp : Timestamp) :
    Except FirmwareStatus Unit := do
  if stored.attributes ≠ attributes.difference .appendWrite then throw .invalidParameter
  if !attributes.isAppend && !timestamp.isAfter stored.timestamp then throw .securityViolation

/-- A write with an envelope. -/
def setTimeBased (scheme : SignatureScheme) (f : Firmware) (id : VariableId)
    (attributes : Attributes) (data : Bytes) : Except FirmwareStatus Firmware := do
  let envelope ← (Envelope.parse data).mapError fun _ => .securityViolation
  if !f.isSetupMode then f.checkSignature scheme id attributes envelope
  let stored := f.stored id
  if let some stored := stored then checkReplacement stored attributes envelope.timestamp
  let data := match stored with
    | some stored => if attributes.isAppend then stored.data ++ envelope.payload
      else envelope.payload
    | none => envelope.payload
  if let some v := SecureVariable.ofId? id then
    if !(attributes.isAppend && envelope.payload.isEmpty) then
      (v.validatePayload data).mapError fun _ => .invalidParameter
  if data.isEmpty && !attributes.isAppend then return f.update id none
  let timestamp := match stored with
    | some stored => stored.timestamp.later envelope.timestamp
    | none => envelope.timestamp
  return f.update id (some ⟨⟨attributes.difference .appendWrite, data⟩, timestamp⟩)

/-- A write without an envelope. -/
def setPlain (f : Firmware) (id : VariableId) (attributes : Attributes) (data : Bytes) :
    Except FirmwareStatus Firmware := do
  if let some v := SecureVariable.ofId? id then
    if v.requiresEnvelope then throw .securityViolation
  let fresh : StoredVariable := ⟨⟨attributes.difference .appendWrite, data⟩, .zero⟩
  if attributes.isAppend then
    match f.stored id with
    | some stored => return f.update id (some { stored with data := stored.data ++ data })
    | none => return f.update id (some fresh)
  else if data.isEmpty then
    match f.stored id with
    | some _ => return f.update id none
    | none => throw .notFound
  else return f.update id (some fresh)

/-- Writes a variable, appends to it, or removes it. -/
def setVariable (scheme : SignatureScheme) (f : Firmware) (id : VariableId)
    (attributes : Attributes) (data : Bytes) : Except FirmwareStatus Firmware :=
  if (StatusVariable.ofId? id).isSome then .error .writeProtected
  else if attributes.isTimeBased then f.setTimeBased scheme id attributes data
  else f.setPlain id attributes data

/-- The variable services of firmware. A name ends at its first zero. -/
def services (scheme : SignatureScheme) : RuntimeServices Firmware where
  getVariable f name guid capacity := f.getVariable ⟨Text.Utf16.ofTerminated name, guid⟩ capacity
  setVariable f name guid attributes data :=
    f.setVariable scheme ⟨Text.Utf16.ofTerminated name, guid⟩ attributes data

/-- The store over the variable services of firmware. -/
def store (scheme : SignatureScheme) : VariableStore Firmware := (services scheme).store

end Firmware

end SecureBoot
