import SecureBoot.Error
import SecureBoot.Signing.Detached
/-!
# Offline signing

Making the envelope of a write away from the store that will take it. The rules
of the write are checked beforehand, so that `SigningRequest.ofLists` makes no
request that `Update.planPreSigned` would refuse once it is signed.
-/

namespace SecureBoot.SigningRequest

/-- Checks that a variable is written with an envelope at all. -/
def requireEnvelope (v : SecureVariable) : Except Error Unit :=
  if v.requiresEnvelope then .ok () else .error (.update (.envelopeNotApplicable v))

/-- Checks what is to be added to a variable, or to replace its contents. -/
def checkLists (v : SecureVariable) (append : Bool) (lists : Bytes) : Except Error Unit := do
  if append then
    if v = .pk then throw (.update (.appendNotAllowed v))
    let _ ← (parseDatabase lists).mapError Error.list
  else (v.validatePayload lists).mapError Error.payload

/-- The request to sign a write of lists. -/
def ofLists (v : SecureVariable) (append : Bool) (lists : Bytes) :
    Except Error SigningRequest := do
  requireEnvelope v
  checkLists v append lists
  return ⟨v.name, v.guid, Update.writeAttributes v append, lists⟩

/-- The envelope of a request, signed with a key at hand. -/
def sign (r : SigningRequest) (signer : Signer) (timestamp : Timestamp) :
    Except AuthError Envelope :=
  Envelope.build r.name r.guid r.attributes r.payload (.signed signer) timestamp

end SecureBoot.SigningRequest
