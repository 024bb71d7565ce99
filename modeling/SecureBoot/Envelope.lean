import SecureBoot.AuthError
import SecureBoot.Attributes
import SecureBoot.SignatureType
import SecureBoot.Timestamp
import SecureBoot.Text.Utf16
/-!
# Authenticated envelopes

A time-based authenticated write carries an envelope in front of its payload:
a timestamp, a certificate header of 24 bytes with the length of what follows
it, and certificate data, which are a detached signature or nothing.

* `signedMessage` is what the signature covers.
* `Envelope.encode` and `Envelope.parse` are the wire form.
-/

namespace SecureBoot

/-- What the signature of a time-based write covers: the name without a
terminator, the owner, the attributes, the timestamp and the payload. -/
def signedMessage (name : String) (guid : Guid) (attributes : Attributes)
    (timestamp : Timestamp) (payload : Bytes) : Bytes :=
  Text.Utf16.toBytes (Text.Utf16.encode name) ++ guid.toBytes ++ attributes.toBytes ++
    timestamp.toBytes ++ payload

/-- A timestamp, certificate data and the payload they go with. -/
structure Envelope where
  timestamp : Timestamp
  /-- An encoded detached signature, empty in an unsigned envelope. -/
  certificateData : Bytes
  payload : Bytes
deriving DecidableEq

namespace Envelope

/-- The revision of the certificate header. -/
def revision : UInt16 := 0x0200

/-- The kind of certificate whose type is named by a GUID. -/
def certificateKind : UInt16 := 0x0ef1

/-- The size of the certificate header. -/
def certificateHeaderSize : Nat := 24

/-- The size of an envelope without certificate data and payload. -/
def fixedSize : Nat := Timestamp.size + certificateHeaderSize

/-- Whether there are no certificate data. -/
def isUnsigned (e : Envelope) : Bool := e.certificateData.isEmpty

/-- The size of everything in front of the payload. -/
def headerSize (e : Envelope) : Nat := fixedSize + e.certificateData.length

/-! ## Wire form -/

/-- The length field: the certificate header and the certificate data. -/
def declaredLength (e : Envelope) : Except AuthError UInt32 :=
  let length := certificateHeaderSize + e.certificateData.length
  if length < UInt32.size then .ok (UInt32.ofNat length)
  else .error (.tooLarge e.certificateData.length)

/-- The certificate header with a length field. -/
def certificateHeader (length : UInt32) : Bytes :=
  Bytes.ofUInt32 length ++ Bytes.ofUInt16 revision ++ Bytes.ofUInt16 certificateKind ++
    SignatureType.pkcs7.guid.toBytes

/-- The bytes of an envelope and its payload. -/
def encode (e : Envelope) : Except AuthError Bytes := do
  let length ← e.declaredLength
  return e.timestamp.toBytes ++ certificateHeader length ++ e.certificateData ++ e.payload

/-- Splits an envelope into timestamp, certificate data and payload. -/
def parse (bs : Bytes) : Except AuthError Envelope := do
  let fail (fault : EnvelopeFault) : Except AuthError Unit := throw (.malformedEnvelope fault)
  if bs.length < fixedSize then fail (.tooShort bs.length)
  let length := (bs.wordAt32 16).toNat
  if bs.wordAt16 20 ≠ revision then fail (.revision (bs.wordAt16 20))
  if bs.wordAt16 22 ≠ certificateKind then fail (.certificateKind (bs.wordAt16 22))
  let type := Guid.ofBytes (bs.drop 24)
  if type ≠ SignatureType.pkcs7.guid then fail (.certificateType type)
  if length < certificateHeaderSize then fail (.lengthTooSmall length)
  let finish := Timestamp.size + length
  if bs.length < finish then fail (.lengthTooLarge length bs.length)
  return {
    timestamp := Timestamp.ofBytes bs
    certificateData := bs.slice fixedSize (finish - fixedSize)
    payload := bs.drop finish }

end Envelope

end SecureBoot
