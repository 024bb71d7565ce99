import SecureBoot.Asn1.Armour
import SecureBoot.Crypto.Curve
import SecureBoot.Crypto.Error
import SecureBoot.Crypto.Name
import SecureBoot.Crypto.Rsa
/-!
# Certificates

The parts of an X.509 certificate that this library looks at, and reading one
from the distinguished encoding or from text armour. Bytes after an encoded
certificate do not count.
-/

namespace SecureBoot.Crypto

open Asn1

/-! ## Public keys -/

/-- A public key: one of RSA, or one of another algorithm as it is encoded. -/
inductive PublicKey where
  | rsa (key : RsaPublicKey)
  | other (algorithm parameters key : Bytes)
deriving DecidableEq

/-- The algorithms of keys that are a row of bytes, with the sizes of the row
and of the key in bits. -/
def rowAlgorithms : List (Bytes × Nat × Nat) :=
  [(ObjectId.x25519, 32, 253), (ObjectId.x448, 56, 448), (ObjectId.ed25519, 32, 256),
    (ObjectId.ed448, 57, 456)]

/-- The size of a key in bits. -/
def PublicKey.bits : PublicKey → Nat
  | .rsa key => key.bits
  | .other algorithm parameters _ =>
    if algorithm == ObjectId.ecPublicKey then
      ((Curve.ofParameters? parameters).map Curve.bits).getD 0
    else ((rowAlgorithms.lookup algorithm).map (·.2)).getD 0

/-- An algorithm and its parameters as they are encoded. -/
structure AlgorithmId where
  algorithm : Bytes
  parameters : Bytes
deriving DecidableEq

/-- Reads an algorithm. -/
def AlgorithmId.ofElement? (t : Tagging) (e : Element) : Option AlgorithmId := do
  match ← t.parts? e with
  | [oid] => return ⟨← oid.objectIdentifier?, []⟩
  | [oid, parameters] => return ⟨← oid.objectIdentifier?, ← parameters.normal?⟩
  | _ => none

/-- The encoded algorithm. -/
def AlgorithmId.toDer (a : AlgorithmId) : Bytes :=
  sequenceOf [objectIdentifier a.algorithm, a.parameters]

/-- A public key as it stands in a certificate. -/
structure PublicKeyInfo where
  algorithm : AlgorithmId
  bits : Bytes
deriving DecidableEq

namespace PublicKeyInfo

/-- Reads the public key of a certificate. -/
def ofElement? (t : Tagging) (e : Element) : Option PublicKeyInfo := do
  match ← t.parts? e with
  | [algorithm, bits] => return ⟨← AlgorithmId.ofElement? t algorithm, ← bits.bitString?⟩
  | _ => none

/-- The key as it is encoded. -/
def other (k : PublicKeyInfo) : PublicKey :=
  .other k.algorithm.algorithm k.algorithm.parameters k.bits

/-- The key, if its algorithm is known and it is well formed. -/
def key? (k : PublicKeyInfo) : Option PublicKey :=
  if k.algorithm.algorithm == ObjectId.rsaEncryption then
    (RsaPublicKey.ofDer? k.bits).map .rsa
  else if k.algorithm.algorithm == ObjectId.ecPublicKey then
    if (Curve.ofParameters? k.algorithm.parameters).any (·.isEncodedPoint k.bits) then some k.other
    else none
  else if k.algorithm.parameters == [] &&
      (rowAlgorithms.lookup k.algorithm.algorithm).any (·.1 == k.bits.length) then some k.other
  else none

/-- Whether the algorithm is known and, if it is that of RSA, the key is well
formed. -/
def isKnown (k : PublicKeyInfo) : Bool :=
  if k.algorithm.algorithm == ObjectId.rsaEncryption then (RsaPublicKey.ofDer? k.bits).isSome
  else k.algorithm.algorithm == ObjectId.ecPublicKey || k.algorithm.algorithm == ObjectId.ed25519

/-- The public key of an RSA key. -/
def ofRsa (k : RsaPublicKey) : PublicKeyInfo := ⟨⟨ObjectId.rsaEncryption, null⟩, k.toDer⟩

/-- The encoded public key. -/
def toDer (k : PublicKeyInfo) : Bytes := sequenceOf [k.algorithm.toDer, bitString k.bits]

end PublicKeyInfo

/-! ## Certificates -/

/-- An extension of a certificate. -/
structure CertificateExtension where
  id : Bytes
  critical : Bool
  value : Bytes
deriving DecidableEq

/-- A certificate. -/
structure Certificate where
  /-- The encoded certificate. -/
  der : Bytes
  /-- The part that is signed, as it is encoded. -/
  signedPart : Bytes
  version : Int
  /-- The content of the serial number. -/
  serial : Bytes
  issuer : DistinguishedName
  subject : DistinguishedName
  /-- The contents of the two ends of its validity. -/
  validity : Bytes × Bytes
  publicKeyInfo : PublicKeyInfo
  extensions : List CertificateExtension
  signatureAlgorithm : AlgorithmId
  signature : Bytes
deriving DecidableEq

namespace CertificateExtension

/-- Reads an extension. -/
def ofElement? (t : Tagging) (e : Element) : Option CertificateExtension := do
  match ← t.parts? e with
  | [id, value] => return ⟨← id.objectIdentifier?, false, ← value.stringOf? Tag.octetString⟩
  | [id, critical, value] =>
    match ← critical.contentOf? Tag.boolean with
    | [b] => return ⟨← id.objectIdentifier?, b != 0, ← value.stringOf? Tag.octetString⟩
    | _ => none
  | _ => none

/-- The encoded extension. -/
def toDer (x : CertificateExtension) : Bytes :=
  sequenceOf [objectIdentifier x.id, if x.critical then encode Tag.boolean [0xff] else [],
    octetString x.value]

end CertificateExtension

namespace Certificate

/-- Takes an element off the front, if its tag passes a test. -/
def takeIf (test : UInt8 → Bool) : List Element → Option Element × List Element
  | e :: rest => if test e.tag then (some e, rest) else (none, e :: rest)
  | [] => (none, [])

/-- Takes an element of a tag off the front, if it is there. -/
def takeOptional (tag : UInt8) : List Element → Option Element × List Element :=
  takeIf (· == tag)

/-- Reads the version, which is the first one when absent. -/
def version? : Option Element → Option Int
  | none => some 0
  | some e => do
    match ← elements? e.content with
    | [v] => v.int?
    | _ => none

/-- Reads the content of a time. -/
def time? (e : Element) : Option Bytes :=
  if e.tag = Tag.utcTime ∨ e.tag = Tag.generalizedTime then some e.content else none

/-- Reads the two ends of a validity. -/
def validity? (t : Tagging) (e : Element) : Option (Bytes × Bytes) := do
  match ← t.parts? e with
  | [a, b] => return (← time? a, ← time? b)
  | _ => none

/-- Reads the extensions, none when absent. -/
def extensions? (t : Tagging) : Option Element → Option (List CertificateExtension)
  | none => some []
  | some e => do
    match ← elements? e.content with
    | [list] => (← t.sequenceItems? list).mapM (CertificateExtension.ofElement? t)
    | _ => none

/-- Reads a certificate from its three parts. -/
def ofParts? (t : Tagging) (signedPart algorithm signature : Element) : Option Certificate := do
  let (version, parts) := takeOptional (Tag.context 0) (← t.parts? signedPart)
  match parts with
  | serial :: innerAlgorithm :: issuer :: validity :: subject :: key :: rest =>
    let (issuerId, rest) := takeOptional (Tag.contextPrimitive 1) rest
    let (subjectId, rest) := takeOptional (Tag.contextPrimitive 2) rest
    let ids := issuerId.toList ++ subjectId.toList
    if ids.any fun e => (Element.bitsOf? e.content).isNone then none
    let (extensions, rest) := takeOptional (Tag.context 3) rest
    if !rest.isEmpty then none
    let _ ← AlgorithmId.ofElement? t innerAlgorithm
    let signatureAlgorithm ← AlgorithmId.ofElement? t algorithm
    let signatureBits ← signature.bits?
    return {
      der := sequenceOf
        [signedPart.raw, signatureAlgorithm.toDer, encode Tag.bitString signatureBits]
      signedPart := signedPart.raw
      version := ← version? version
      serial := ← serial.integer?
      issuer := ← DistinguishedName.ofElement? t issuer
      subject := ← DistinguishedName.ofElement? t subject
      validity := ← validity? t validity
      publicKeyInfo := ← PublicKeyInfo.ofElement? t key
      extensions := ← extensions? t extensions
      signatureAlgorithm
      signature := signatureBits.drop 1 }
  | _ => none

/-- Reads a certificate from an element. -/
def ofElement? (t : Tagging) (e : Element) : Option Certificate := do
  match ← t.parts? e with
  | [signedPart, algorithm, signature] => ofParts? t signedPart algorithm signature
  | _ => none

/-- Reads a certificate from the start of a byte string. -/
def ofDer? (bs : Bytes) : Option Certificate := do
  let (e, _) ← Element.read? bs
  ofElement? .exact e

/-- The labels that armoured certificates have. -/
def labels : List String := ["CERTIFICATE", "X509 CERTIFICATE", "TRUSTED CERTIFICATE"]

/-- Reads the first armoured certificate. -/
def ofPem? (bs : Bytes) : Option Certificate := do
  let block ← Armour.find? labels bs
  if !block.headers.isEmpty then none
  ofDer? block.body

/-- Reads a certificate in either form. -/
def ofBytes? (bs : Bytes) : Option Certificate := ofDer? bs <|> ofPem? bs

/-- Reads a certificate in either form. -/
def ofBytes (bs : Bytes) : Except CryptoError Certificate :=
  match ofBytes? bs with
  | some c => .ok c
  | none => .error .notPemCertificate

/-- The armoured certificate. -/
def toPem (c : Certificate) : String := Armour.encode "CERTIFICATE" c.der

/-- The public key, if it can be read. -/
def publicKey (c : Certificate) : Except CryptoError PublicKey :=
  match c.publicKeyInfo.key? with
  | some k => .ok k
  | none => .error .unreadablePublicKey

/-- Whether the certificate has an issuer and a serial number. -/
def isIssuedBy (c : Certificate) (issuer : DistinguishedName) (serial : Bytes) : Bool :=
  c.serial == serial && c.issuer.isSame issuer

/-! ## The part that is signed -/

/-- Whether the algorithms of a certificate are among those whose certificates
are taken apart, and its RSA key is well formed. -/
def hasKnownAlgorithms (c : Certificate) : Bool :=
  let ecdsa : List Bytes := [1, 2, 3, 4].map fun n =>
    ObjectId.ofComponents [1, 2, 840, 10045, 4, 3, n]
  let known (oid : Bytes) : Bool :=
    (ObjectId.rsaSignature? oid).isSome || ecdsa.contains oid || oid == ObjectId.ed25519 ||
      oid == ObjectId.ofComponents [1, 2, 840, 113549, 1, 1, 4] ||
      oid == ObjectId.ofComponents [1, 2, 840, 113549, 1, 1, 14]
  known c.signatureAlgorithm.algorithm && 0 ≤ c.version && c.version ≤ 2 &&
    c.publicKeyInfo.isKnown

/-- The signed part of a certificate of the distinguished encoding, whose
sequences may be tagged as sets. -/
def signedPartOf (der : Bytes) : Except CryptoError Bytes :=
  let found := do
    let (e, _) ← Element.read? der
    let c ← ofElement? .loose e
    if c.hasKnownAlgorithms then some c.signedPart else none
  match found with
  | some bs => .ok bs
  | none => .error .malformedCertificate

/-- The digest of the signed part, as entries that revoke a certificate hold it. -/
def signedPartDigest (h : DigestAlgorithm) (der : Bytes) : Except CryptoError Bytes :=
  h.digest <$> signedPartOf der

end Certificate

end SecureBoot.Crypto
