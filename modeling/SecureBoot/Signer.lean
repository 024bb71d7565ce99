import SecureBoot.Database
import SecureBoot.Envelope
/-!
# Signers and signatures

A `Signer` is a certificate with a way to sign messages; `Signer.ofKey` makes
one from a private key. A `SignatureScheme` says how signatures are checked;
`SignatureScheme.pkcs7` is the one of firmware. `Envelope.build` makes the
envelope of a write, signed or not.
-/

namespace SecureBoot

open Crypto

/-! ## Signers -/

/-- A certificate and a way to sign messages in its name. -/
structure Signer where
  /-- The encoded certificate. -/
  certificate : Bytes
  subject : String
  sign : (message : Bytes) → Except AuthError Bytes

namespace Signer

/-- The signer of a certificate and the private key that belongs to it. -/
def ofKey (c : Certificate) (k : PrivateKey) : Except AuthError Signer := do
  let publicKey ← c.publicKey.mapError .crypto
  if !k.matches? publicKey then throw (.keyMismatch c.subject.text)
  return {
    certificate := c.der
    subject := c.subject.text
    sign := fun message =>
      match SignedMessage.sign? c k message with
      | some m => .ok m.toDer
      | none => .error .signingFailed }

/-- The signer of a certificate in either form and a private key in text
armour, with a password for an encrypted one. -/
def ofBytes (certificate key : Bytes) (password : Option String) : Except AuthError Signer := do
  let c ← (Certificate.ofBytes certificate).mapError .crypto
  let k ← (PrivateKey.ofPem key password).mapError .crypto
  ofKey c k

/-- Checks that the certificate of a signer is in the database of its
authority. -/
def checkAuthority (s : Signer) (name : String) (authority : SignatureDatabase) :
    Except AuthError Unit :=
  if authority.containsCertificate s.certificate then .ok ()
  else .error (.unauthorizedSigner s.subject name)

end Signer

/-! ## Checking signatures -/

/-- How signatures over messages are checked. -/
structure SignatureScheme where
  /-- Whether the bytes are a certificate that can be trusted at all. -/
  isCertificate : Bytes → Bool
  /-- Checks a signature of a message. With no trusted certificates, the ones
  inside the signature count, and only integrity is checked. -/
  verify : (signature message : Bytes) → (trusted : List Bytes) → Except AuthError Unit
  /-- The encoded form of a signature. -/
  encoded : (signature : Bytes) → Except AuthError Bytes

namespace SignatureScheme

/-- Reads a signature. -/
def readSignature (signature : Bytes) : Except AuthError SignedMessage :=
  match SignedMessage.ofBytes? signature with
  | some m => .ok m
  | none => .error (.invalidSignature .notSignedData)

/-- Detached signatures of PKCS #7. Chains of certificates are not followed:
the signer itself has to be trusted. -/
def pkcs7 : SignatureScheme where
  isCertificate bs := (Certificate.ofBytes? bs).isSome
  verify signature message trusted := do
    let trusted ← trusted.mapM fun bs => (Certificate.ofBytes bs).mapError .crypto
    let m ← readSignature signature
    (m.verify message trusted).mapError .invalidSignature
  encoded signature := SignedMessage.toDer <$> readSignature signature

end SignatureScheme

/-! ## Building envelopes -/

/-- How the envelope of a write is authenticated. -/
inductive EnvelopeMode where
  /-- With empty certificate data, as firmware accepts in setup mode. -/
  | unsigned
  | signed (signer : Signer)

/-- Wraps a payload for a variable. A signed envelope needs a timestamp that is
not zero. -/
def Envelope.build (name : String) (guid : Guid) (attributes : Attributes) (payload : Bytes)
    (mode : EnvelopeMode) (timestamp : Timestamp) : Except AuthError Envelope := do
  let certificateData ← match mode with
    | .unsigned => .ok []
    | .signed signer =>
      if timestamp.isZero then .error (.zeroTimestamp name)
      else signer.sign (signedMessage name guid attributes timestamp payload)
  let envelope : Envelope := { timestamp, certificateData, payload }
  let _ ← envelope.declaredLength
  return envelope

end SecureBoot
