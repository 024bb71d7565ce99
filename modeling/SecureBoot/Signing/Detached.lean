import SecureBoot.Signer
import SecureBoot.Signing.Bundle
/-!
# Detached signing

Signing in two phases, for keys that are kept elsewhere.

A request becomes a pending signature when its timestamp is fixed, and with it
the message to sign. The pending signature can leave as a bundle and come back.
With a signature of the message it becomes an envelope.
-/

namespace SecureBoot

/-- A write to be signed. -/
structure SigningRequest where
  name : String
  guid : Guid
  attributes : Attributes
  payload : Bytes
deriving DecidableEq

/-- The message to sign for a request at a time. -/
def SigningRequest.message (r : SigningRequest) (timestamp : Timestamp) : Bytes :=
  signedMessage r.name r.guid r.attributes timestamp r.payload

/-- A request with its timestamp, and the message to sign. -/
structure PendingSignature where
  request : SigningRequest
  timestamp : Timestamp
  message : Bytes
deriving DecidableEq

/-- A write on its way to a signature. -/
inductive SigningState where
  | unsigned (request : SigningRequest)
  | awaitingSignature (pending : PendingSignature)
  | signed (envelope : Envelope)
deriving DecidableEq

namespace SigningState

/-- The state of a new request. -/
def start (name : String) (guid : Guid) (attributes : Attributes) (payload : Bytes) :
    SigningState := .unsigned ⟨name, guid, attributes, payload⟩

/-- The stage of a state. -/
def stage : SigningState → SigningStage
  | unsigned _ => .unsigned
  | awaitingSignature _ => .awaitingSignature
  | signed _ => .signed

/-- The message to sign, while a signature is awaited. -/
def message? : SigningState → Option Bytes
  | awaitingSignature p => some p.message
  | _ => none

/-- The refusal of an operation. -/
def refuse {α : Type} (s : SigningState) (operation : SigningOperation) : Except AuthError α :=
  .error (.invalidTransition s.stage operation)

/-- Fixes the timestamp, which must not be zero, and the message. -/
def prepare (s : SigningState) (timestamp : Timestamp) : Except AuthError SigningState :=
  match s with
  | unsigned r =>
    if timestamp.isZero then .error (.zeroTimestamp r.name)
    else .ok (.awaitingSignature ⟨r, timestamp, r.message timestamp⟩)
  | other => other.refuse .prepare

/-- The digest of a message in hexadecimal. -/
def messageDigest (message : Bytes) : String := (DigestAlgorithm.sha256.digest message).toHex

/-- The bundle for the keeper of the key. -/
def toBundle (s : SigningState) : Except AuthError SigningBundle :=
  match s with
  | awaitingSignature p =>
    .ok {
      formatVersion := SigningBundle.currentVersion
      name := p.request.name
      guid := p.request.guid
      attributes := p.request.attributes
      timestamp := p.timestamp
      payload := Text.Base64.encode p.request.payload
      messageDigest := messageDigest p.message
      messageLength := p.message.length }
  | other => other.refuse .exportBundle

/-- The state that a bundle describes. The message is built again and has to
have the length and the digest that the bundle tells. -/
def ofBundle (b : SigningBundle) : Except AuthError SigningState := do
  if b.formatVersion ≠ SigningBundle.currentVersion then
    throw (.unsupportedBundleVersion b.formatVersion.toNat)
  if b.timestamp.isZero then throw (.zeroTimestamp b.name)
  let some payload := Text.Base64.decode? b.payload | throw .malformedPayload
  let request : SigningRequest := ⟨b.name, b.guid, b.attributes, payload⟩
  let message := request.message b.timestamp
  if message.length ≠ b.messageLength then
    throw (.bundleMismatch (.length message.length b.messageLength))
  let digest := messageDigest message
  if digest.toList ≠ b.messageDigest.toList.map Char.toLower then
    throw (.bundleMismatch (.digest digest b.messageDigest))
  return .awaitingSignature ⟨request, b.timestamp, message⟩

/-- Takes a signature made elsewhere, by a certificate if one is given. -/
def attach (scheme : SignatureScheme) (s : SigningState) (signature : Bytes)
    (signer : Option Bytes) : Except AuthError SigningState :=
  match s with
  | awaitingSignature p => do
    scheme.verify signature p.message signer.toList
    return .signed ⟨p.timestamp, ← scheme.encoded signature, p.request.payload⟩
  | other => other.refuse .attachSignature

/-- Signs with a key at hand. -/
def signWith (s : SigningState) (signer : Signer) : Except AuthError SigningState :=
  match s with
  | awaitingSignature p => do
    return .signed ⟨p.timestamp, ← signer.sign p.message, p.request.payload⟩
  | other => other.refuse .sign

/-- The envelope, once signed. -/
def takeEnvelope (s : SigningState) : Except AuthError Envelope :=
  match s with
  | signed e => .ok e
  | other => other.refuse .takeEnvelope

end SigningState

end SecureBoot
