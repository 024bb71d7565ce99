import SecureBoot.Asn1.Time
import SecureBoot.Crypto.PrivateKey
/-!
# Self-signed certificates

Building the certificate of a key of one's own, as used for Secure Boot keys.
-/

namespace SecureBoot

open Asn1 Crypto

/-- What keeps a certificate from being built. -/
inductive CertificateBuildError where
  /-- The end of a validity does not fit a year of four digits. -/
  | timeOutOfRange (days : Nat)
  /-- The private key has no public half this library can read. -/
  | publicKey (error : CryptoError)
  | missingCommonName
  | missingPrivateKey
  /-- The common name is empty or too long. -/
  | commonNameRejected
  /-- The key is too short for the digest. -/
  | signatureFailed
deriving DecidableEq

namespace CertificateBuildError

/-- The wording of a build error, without its cause. -/
def message : CertificateBuildError → String
  | timeOutOfRange days => s!"failed to get ASN.1 Time for {days} day(s) from now"
  | publicKey _ => "failed to get public key from the private key"
  | missingCommonName =>
    "Common Name not set on CertificateBuilder. Set the common name with the " ++
      "common_name() method from the CertificateBuilder object"
  | missingPrivateKey =>
    "Private key not set on CertificateBuilder. Set the private key with the " ++
      "private_key() method from the CertificateBuilder object"
  | commonNameRejected =>
    "Error creating X509 Name: failed to set Common Name in Name builder"
  | signatureFailed => "X509 certificate builder error: failed to sign X509 certificate"

/-- The wordings of the causes of a build error. -/
def causes : CertificateBuildError → List String
  | publicKey error => error.message :: error.causes
  | _ => []

end CertificateBuildError

namespace Crypto

/-- What a self-signed certificate is to say. -/
structure SelfSigned where
  commonName : Option String := none
  privateKey : Option PrivateKey := none
  digest : DigestAlgorithm := .sha256
  /-- The start of the validity, in days from now. -/
  notBefore : Nat := 0
  /-- The end of the validity, in days from now. -/
  notAfter : Nat := 3650
  /-- The serial number, a random one when absent. -/
  serial : Option UInt32 := none
  extensions : List CertificateExtension := []

namespace SelfSigned

/-- The bits of a random serial number. -/
def serialBits : Nat := 127

/-- The characters a common name may have at most. -/
def commonNameLimit : Nat := 64

/-- The encoded time a number of days after a number of seconds. -/
def timeAfter (now days : Nat) : Except CertificateBuildError Bytes :=
  match Time.encode? (now + days * 86400) with
  | some t => .ok t
  | none => .error (.timeOutOfRange days)

/-- The extension with the identifier of a public key, its SHA-1 digest. -/
def keyIdentifier (k : RsaPublicKey) : CertificateExtension :=
  ⟨ObjectId.subjectKeyIdentifier, false, octetString (DigestAlgorithm.sha1.digest k.toDer)⟩

/-- The critical extension of a certification authority. -/
def authority : CertificateExtension :=
  ⟨ObjectId.basicConstraints, true, sequenceOf [encode Tag.boolean [0xff]]⟩

/-- Builds the certificate at a moment, given in seconds after the start of the
year 1970. -/
def build (r : SelfSigned) (now : Nat) (entropy : Entropy) :
    Except CertificateBuildError Certificate := do
  let some commonName := r.commonName | throw .missingCommonName
  let some privateKey := r.privateKey | throw .missingPrivateKey
  if commonName == "" || commonNameLimit < commonName.length then throw .commonNameRejected
  let name := DistinguishedName.ofCommonName commonName
  let serial := match r.serial with
    | some n => n.toNat
    | none => (entropy.drawBits serialBits).1
  let notBefore ← timeAfter now r.notBefore
  let notAfter ← timeAfter now r.notAfter
  let publicKey ← privateKey.publicKey.mapError .publicKey
  let algorithm := (AlgorithmId.mk (ObjectId.ofRsaSignature r.digest) null).toDer
  let extensions := keyIdentifier publicKey :: r.extensions
  let signedPart := sequenceOf [encode (Tag.context 0) (integer 2), integer serial, algorithm,
    name.encoded, sequenceOf [notBefore, notAfter], name.encoded,
    (PublicKeyInfo.ofRsa publicKey).toDer,
    encode (Tag.context 3) (sequenceOf (extensions.map CertificateExtension.toDer))]
  let signature := match privateKey with
    | .rsa key => key.sign? r.digest signedPart
    | .other .. => none
  let some signature := signature | throw .signatureFailed
  let some certificate :=
      Certificate.ofDer? (sequenceOf [signedPart, algorithm, bitString signature])
    | throw .signatureFailed
  return certificate

end SelfSigned

namespace Certificate

/-- The identifier of the public key, if no extension is repeated. -/
def subjectKeyIdentifier? (c : Certificate) : Option Bytes := do
  let ids := c.extensions.map (·.id)
  if ids.length != ids.eraseDups.length then none
  let x ← c.extensions.find? (·.id == ObjectId.subjectKeyIdentifier)
  let (e, _) ← Element.read? x.value
  e.contentOf? Tag.octetString

/-- The whole days of the validity. -/
def validityDays? (c : Certificate) : Option Int :=
  Time.daysBetween? c.validity.1 c.validity.2

/-- Whether the certificate is signed by a key, and issued by its own subject. -/
def isSignedBy (c : Certificate) (k : PublicKey) : Bool :=
  match k, ObjectId.rsaSignature? c.signatureAlgorithm.algorithm with
  | .rsa key, some h => key.verify h c.signedPart c.signature
  | _, _ => false

end Certificate

end Crypto

end SecureBoot
