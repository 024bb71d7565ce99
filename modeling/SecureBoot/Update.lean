import SecureBoot.Status
/-!
# Updates

An update reads the current contents of a variable, changes them, wraps the
result where the variable needs it, and writes it.

`Update.plan` finds the write without doing it, and `Update.apply` does it.
Nothing is written unless every step before succeeds. To enroll what is there
already is no write at all.
-/

namespace SecureBoot

/-- A change of a signature database. -/
inductive DatabaseEdit where
  /-- Adds lists. -/
  | append (lists : Bytes)
  /-- Replaces every list. -/
  | replace (lists : Bytes)
  /-- Adds a hash that is not there. -/
  | enrollHash (type : SignatureType) (digest : Bytes) (owner : Guid)
  /-- Adds a certificate that is not there. -/
  | enrollCertificate (der : Bytes) (owner : Guid)
  | deleteEntry (place : EntryLocation)
  | deleteList (index : Nat)

/-- What an update does. -/
inductive UpdateAction where
  /-- Changes the contents of the variable. -/
  | edit (edit : DatabaseEdit)
  /-- Writes an envelope that was made before. -/
  | preSigned (envelope : Bytes) (append : Bool)

/-- Who adds the lists of an append to those that are there. -/
inductive AppendStrategy where
  /-- The store, which gets the new lists only. -/
  | byStore
  /-- The update, which writes all lists. -/
  | local
deriving DecidableEq

/-- What can go wrong with an update. -/
inductive UpdateError where
  /-- Neither a signer is given nor an unsigned write asked for. -/
  | missingAuthorization (v : SecureVariable)
  /-- The variable is written without an envelope. -/
  | envelopeNotApplicable (v : SecureVariable)
  /-- The platform takes signed writes only. -/
  | unsignedInUserMode (v : SecureVariable)
  /-- The variable cannot be appended to. -/
  | appendNotAllowed (v : SecureVariable)
  /-- What is stored is no signature database. -/
  | currentInvalid (v : SecureVariable) (error : DatabaseError)
  | database (error : DatabaseError)
  | list (error : ListError)
  | payload (error : VariableError)
  | auth (error : AuthError)
  | store (error : StoreError)
deriving DecidableEq

namespace UpdateError

/-- The wording of an update error, without its cause. -/
def message : UpdateError → String
  | missingAuthorization v =>
    s!"{v.name} needs an authenticated envelope: supply a signer or select unsigned mode"
  | envelopeNotApplicable v => s!"{v.name} is written without an authenticated envelope"
  | unsignedInUserMode v => s!"refusing unsigned write to {v.name}: the platform is in user mode"
  | appendNotAllowed v => s!"{v.name} cannot be appended to, replace it instead"
  | currentInvalid v _ => s!"current contents of {v.name} are not a valid signature database"
  | database _ => "signature database error"
  | list _ => "signature list error"
  | payload _ => "invalid payload"
  | auth _ => "authentication error"
  | store _ => "variable store error"

/-- The wordings of the causes of an update error. -/
def causes : UpdateError → List String
  | currentInvalid _ error | database error => error.message :: error.causes
  | list error => [error.message]
  | payload error => error.message :: error.causes
  | auth error => error.message :: error.causes
  | store error => error.message :: error.causes
  | _ => []

end UpdateError

/-- The write that an update comes down to. -/
inductive UpdatePlan where
  /-- The hash or certificate is there. -/
  | alreadyPresent (place : EntryLocation)
  | write (attributes : Attributes) (data : Bytes)
deriving DecidableEq

/-- What an update did. -/
inductive UpdateOutcome where
  | alreadyPresent (place : EntryLocation)
  | written (attributes : Attributes) (size : Nat)
deriving DecidableEq

/-- A change of contents, before it is wrapped. -/
inductive PayloadChange where
  | append (lists : Bytes)
  | replace (lists : Bytes)

/-- An update of a variable. -/
structure Update where
  target : SecureVariable
  action : UpdateAction
  /-- How the envelope is authenticated, if that was said. -/
  mode : Option EnvelopeMode := none
  strategy : AppendStrategy := .byStore
  /-- The timestamp of the envelope. -/
  timestamp : Timestamp

namespace Update

/-! ## Current contents -/

/-- Reads stored contents as a signature database. -/
def decode (v : SecureVariable) (data : Bytes) : Except UpdateError SignatureDatabase :=
  (SignatureDatabase.ofBytes data).mapError (.currentInvalid v)

/-- The current contents of a variable, empty when it is missing. -/
def current (read : VariableReader) (v : SecureVariable) :
    Except UpdateError SignatureDatabase := do
  match ← (read.optional v.id).mapError .store with
  | some stored => decode v stored.data
  | none => return .empty

/-- The current contents of a variable that has to be there. -/
def existing (read : VariableReader) (v : SecureVariable) :
    Except UpdateError SignatureDatabase := do
  decode v (← (read v.id).mapError .store).data

/-! ## Changes -/

/-- Adds lists. The platform key has one certificate, so that nothing can be
added to it. -/
def appendChange (u : Update) (read : VariableReader) (lists : Bytes) :
    Except UpdateError PayloadChange := do
  if u.target = .pk then throw (.appendNotAllowed u.target)
  let _ ← (parseDatabase lists).mapError UpdateError.list
  match u.strategy with
  | .byStore => return .append lists
  | .local =>
    let merged ← ((← current read u.target).append lists).mapError UpdateError.database
    return .replace merged.bytes

/-- Adds the list of a new entry. It replaces the platform key. -/
def enrollChange (u : Update) (read : VariableReader) (list : Bytes) :
    Except UpdateError PayloadChange :=
  if u.target = .pk then .ok (.replace list) else u.appendChange read list

/-- The change that an edit makes, or the place of what it would add. -/
def change (u : Update) (read : VariableReader) :
    DatabaseEdit → Except UpdateError (EntryLocation ⊕ PayloadChange)
  | .append lists => .inr <$> u.appendChange read lists
  | .replace lists => .ok (.inr (.replace lists))
  | .enrollHash type digest owner => do
    match (← current read u.target).findHash? type digest with
    | some place => return .inl place
    | none =>
      let list ← (SignatureList.encodeHashes type owner [digest]).mapError UpdateError.list
      .inr <$> u.enrollChange read list
  | .enrollCertificate der owner => do
    match (← current read u.target).findCertificate? der with
    | some place => return .inl place
    | none =>
      let list ← (SignatureList.encodeCertificate owner der).mapError UpdateError.list
      .inr <$> u.enrollChange read list
  | .deleteEntry place => do
    let db ← ((← existing read u.target).deleteEntry place.list place.entry).mapError
      UpdateError.database
    return .inr (.replace db.bytes)
  | .deleteList index => do
    let db ← ((← existing read u.target).deleteList index).mapError UpdateError.database
    return .inr (.replace db.bytes)

/-! ## Authorization -/

/-- Checks that an authority has the certificate of a signer. -/
def checkSigner (signer : Signer) (authority : SecureVariable) (db : SignatureDatabase) :
    Except UpdateError Unit :=
  (signer.checkAuthority authority.name db).mapError .auth

/-- Checks that the platform takes a write authenticated in some way. In user
mode a signer has to be enrolled in the authority of the variable, and where
the mode is unknown if anything is enrolled there. -/
def authorize (v : SecureVariable) (read : VariableReader) (mode : EnvelopeMode) :
    Except UpdateError Unit := do
  let platform := (← (PlatformStatus.read read).mapError UpdateError.store).mode
  match mode with
  | .unsigned => if platform = .user then throw (.unsignedInUserMode v)
  | .signed signer =>
    if let some authority := v.authority? then
      let stored ← (read.optional authority.id).mapError UpdateError.store
      let enrolled ← match stored with
        | some stored => some <$> decode authority stored.data
        | none => .ok none
      match platform, enrolled with
      | .setup, _ => return ()
      | .user, enrolled => checkSigner signer authority (enrolled.getD .empty)
      | .unknown, some enrolled =>
        if enrolled.bytes ≠ [] then checkSigner signer authority enrolled
      | .unknown, none => return ()

/-! ## Planning -/

/-- The attributes of a variable, with the flag of an append or without. -/
def writeAttributes (v : SecureVariable) (append : Bool) : Attributes :=
  if append then v.attributes.union .appendWrite else v.attributes

/-- The write of an envelope that was made before. -/
def planPreSigned (v : SecureVariable) (read : VariableReader) (envelope : Bytes)
    (append : Bool) : Except UpdateError UpdatePlan := do
  if !v.requiresEnvelope then throw (.envelopeNotApplicable v)
  let parsed ← (Envelope.parse envelope).mapError UpdateError.auth
  if append then
    if v = .pk then throw (.appendNotAllowed v)
    let _ ← (parseDatabase parsed.payload).mapError UpdateError.list
  else
    (v.validatePayload parsed.payload).mapError UpdateError.payload
  if parsed.isUnsigned then authorize v read .unsigned
  return .write (writeAttributes v append) envelope

/-- The write of a payload, wrapped if the variable needs it. -/
def planPayload (u : Update) (read : VariableReader) (attributes : Attributes)
    (payload : Bytes) : Except UpdateError UpdatePlan := do
  let v := u.target
  if !v.requiresEnvelope then
    if u.mode.isSome then throw (.envelopeNotApplicable v)
    return .write attributes payload
  let some mode := u.mode | throw (.missingAuthorization v)
  authorize v read mode
  let envelope ← (Envelope.build v.name v.guid attributes payload mode u.timestamp).mapError
    UpdateError.auth
  return .write attributes (← envelope.encode.mapError UpdateError.auth)

/-- The write that an update comes down to in the state that is read. -/
def plan (u : Update) (read : VariableReader) : Except UpdateError UpdatePlan := do
  match u.action with
  | .preSigned envelope append => planPreSigned u.target read envelope append
  | .edit edit =>
    match ← u.change read edit with
    | .inl place => return .alreadyPresent place
    | .inr (.append lists) => u.planPayload read (writeAttributes u.target true) lists
    | .inr (.replace lists) =>
      (u.target.validatePayload lists).mapError UpdateError.payload
      u.planPayload read (writeAttributes u.target false) lists

/-- Plans an update and does the write. -/
def apply {σ : Type} (u : Update) (store : VariableStore σ) (s : σ) :
    Except UpdateError (UpdateOutcome × σ) := do
  match ← u.plan (store.get s) with
  | .alreadyPresent place => return (.alreadyPresent place, s)
  | .write attributes data =>
    let s ← (store.set s u.target.id attributes data).mapError UpdateError.store
    return (.written attributes data.length, s)

end Update

end SecureBoot
