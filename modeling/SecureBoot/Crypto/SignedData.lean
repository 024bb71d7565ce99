import SecureBoot.Crypto.PrivateKey
/-!
# Signed messages

The signed-data content of PKCS #7, detached from the message it signs.

`SignedMessage.ofBytes?` reads one from the distinguished encoding or from text
armour, `SignedMessage.verify` checks it over a message, and
`SignedMessage.sign?` makes one: a single signer without attributes, SHA-256,
and the certificate of the signer.
-/

namespace SecureBoot.Crypto

open Asn1

/-- A statement of a signer. -/
structure SignerAttribute where
  id : Bytes
  values : List Element

/-- The signature of one signer. -/
structure SignerInfo where
  /-- The content of the version. -/
  version : Bytes
  issuer : DistinguishedName
  /-- The content of the serial number. -/
  serial : Bytes
  digestAlgorithm : AlgorithmId
  /-- The attributes that are signed in place of the message. -/
  attributes : Option (List SignerAttribute)
  signatureAlgorithm : AlgorithmId
  signature : Bytes
  /-- The attributes that are not signed. -/
  unsigned : Option (List SignerAttribute)

/-- The content of a signed message. -/
structure SignedData where
  /-- The content of the version. -/
  version : Bytes
  digestAlgorithms : List AlgorithmId
  /-- The encoded content that the message stands for. -/
  contents : Bytes
  certificates : Option (List Certificate)
  /-- The encoded revocation lists. -/
  revocations : Option Bytes
  signers : List SignerInfo

/-- What a structure of PKCS #7 holds. -/
inductive SignedMessage where
  | signed (data : SignedData)
  /-- Something that is not signed, as it is encoded. -/
  | other (der : Bytes)

/-- Why a signature is refused. -/
inductive SignatureFault where
  /-- It is no structure of PKCS #7. -/
  | notSignedData
  /-- No trusted certificate is the signer's. -/
  | untrustedSigner
  /-- It is no signature of the message. -/
  | messageNotCovered
deriving DecidableEq

/-- The wording of a refusal. -/
def SignatureFault.message : SignatureFault → String
  | notSignedData => "not a DER or PEM PKCS#7 structure"
  | untrustedSigner => "signer is not one of the trusted certificates"
  | messageNotCovered => "signature does not cover the message"

/-! ## Reading -/

namespace SignerAttribute

/-- Reads a statement. -/
def ofElement? (e : Element) : Option SignerAttribute := do
  match ← e.children? Tag.sequence with
  | [id, values] =>
    let values ← Tagging.exact.setItems? values
    if values.any (·.normal?.isNone) then none
    return ⟨← id.objectIdentifier?, values⟩
  | _ => none

/-- Reads statements, if there are any. -/
def ofRow? : Option Element → Option (Option (List SignerAttribute))
  | none => some none
  | some e => do return some (← (← elements? e.content).mapM ofElement?)

/-- The encoded statement. -/
def toDer (a : SignerAttribute) : Bytes :=
  sequenceOf [objectIdentifier a.id, setOf (a.values.filterMap (·.normal?))]

/-- Encoded statements under a tag. -/
def rowDer (tag : UInt8) (attributes : List SignerAttribute) : Bytes :=
  encode tag (attributes.flatMap toDer)

/-- The digest of the message that statements hold. -/
def digest? (attributes : List SignerAttribute) : Option Bytes := do
  let a ← attributes.find? (·.id == ObjectId.messageDigest)
  (← a.values.head?).stringOf? Tag.octetString

end SignerAttribute

namespace SignerInfo

/-- Reads a signer. -/
def ofElement? (e : Element) : Option SignerInfo := do
  match ← e.children? Tag.sequence with
  | version :: identity :: digest :: rest =>
    let (attributes, rest) := Certificate.takeIf (Tag.isAlike · (Tag.context 0)) rest
    match ← identity.children? Tag.sequence, rest with
    | [issuer, serial], algorithm :: signature :: rest =>
      let (unsigned, rest) := Certificate.takeIf (Tag.isAlike · (Tag.context 1)) rest
      if !rest.isEmpty then none
      return {
        version := ← version.integer?
        issuer := ← DistinguishedName.ofElement? .exact issuer
        serial := ← serial.integer?
        digestAlgorithm := ← AlgorithmId.ofElement? .exact digest
        attributes := ← SignerAttribute.ofRow? attributes
        signatureAlgorithm := ← AlgorithmId.ofElement? .exact algorithm
        signature := ← signature.stringOf? Tag.octetString
        unsigned := ← SignerAttribute.ofRow? unsigned }
    | _, _ => none
  | _ => none

/-- The encoded signer. -/
def toDer (s : SignerInfo) : Bytes :=
  sequenceOf [encode Tag.integer s.version,
    sequenceOf [s.issuer.encoded, encode Tag.integer s.serial],
    s.digestAlgorithm.toDer,
    (s.attributes.map (SignerAttribute.rowDer (Tag.context 0))).getD [],
    s.signatureAlgorithm.toDer, octetString s.signature,
    (s.unsigned.map (SignerAttribute.rowDer (Tag.context 1))).getD []]

end SignerInfo

namespace SignedData

/-- Whether an element is built like a revocation list. -/
def isRevocationList (e : Element) : Bool :=
  let isTime (t : UInt8) : Bool := t == Tag.utcTime || t == Tag.generalizedTime
  let isListBody (e : Element) : Option Bool := do
    let (version, rest) := Certificate.takeOptional Tag.integer (← e.children? Tag.sequence)
    if version.any (·.integer?.isNone) then none
    match rest with
    | algorithm :: issuer :: time :: rest =>
      let (_, rest) := Certificate.takeIf isTime rest
      let (revoked, rest) := Certificate.takeOptional Tag.sequence rest
      let (extensions, rest) := Certificate.takeOptional (Tag.context 0) rest
      let _ ← AlgorithmId.ofElement? .exact algorithm
      let _ ← DistinguishedName.ofElement? .exact issuer
      let _ ← Certificate.extensions? .exact extensions
      let revoked ← (revoked.map fun e => elements? e.content).getD (some [])
      return isTime time.tag && rest.isEmpty && revoked.all (·.tag == Tag.sequence)
    | _ => none
  (do
    match ← e.children? Tag.sequence with
    | [body, algorithm, signature] =>
      let _ ← AlgorithmId.ofElement? .exact algorithm
      let _ ← signature.bitString?
      isListBody body
    | _ => none).getD false

/-- Reads content with its type as it is encoded. Plain data is an octet string. -/
def contentsOf? (e : Element) : Option Bytes := do
  match ← e.children? Tag.sequence with
  | [type] =>
    let type ← type.objectIdentifier?
    return sequenceOf [objectIdentifier type]
  | [type, content] =>
    let type ← type.objectIdentifier?
    match ← content.children? (Tag.context 0) with
    | [content] =>
      let content ←
        if type == ObjectId.data then (content.stringOf? Tag.octetString).map octetString
        else content.normal?
      return sequenceOf [objectIdentifier type, encode (Tag.context 0) content]
    | _ => none
  | _ => none

/-- Reads the content of a signed message. -/
def ofElement? (e : Element) : Option SignedData := do
  match ← e.children? Tag.sequence with
  | version :: digests :: contents :: rest =>
    let (certificates, rest) := Certificate.takeIf (Tag.isAlike · (Tag.context 0)) rest
    let (revocations, rest) := Certificate.takeIf (Tag.isAlike · (Tag.context 1)) rest
    match rest with
    | [signers] =>
      let readCertificates (e : Element) : Option (List Certificate) := do
        (← elements? e.content).mapM (Certificate.ofElement? .exact)
      let certificates ← match certificates with
        | none => some none
        | some e => (readCertificates e).map some
      let lists ← (revocations.map fun e => elements? e.content).getD (some [])
      if !lists.all isRevocationList then none
      return {
        version := ← version.integer?
        digestAlgorithms :=
          ← (← Tagging.exact.setItems? digests).mapM (AlgorithmId.ofElement? .exact)
        contents := ← contentsOf? contents
        certificates
        revocations := revocations.map (·.raw)
        signers := ← (← Tagging.exact.setItems? signers).mapM SignerInfo.ofElement? }
    | _ => none
  | _ => none

/-- The encoded content. -/
def toDer (d : SignedData) : Bytes :=
  sequenceOf [encode Tag.integer d.version, setOf (d.digestAlgorithms.map (·.toDer)), d.contents,
    (d.certificates.map fun cs => encode (Tag.context 0) (cs.flatMap (·.der))).getD [],
    d.revocations.getD [], setOf (d.signers.map (·.toDer))]

/-! ## Verification -/

/-- The certificate of a signer among some. -/
def certificateOf? (s : SignerInfo) (cs : List Certificate) : Option Certificate :=
  cs.find? (·.isIssuedBy s.issuer s.serial)

/-- A digest that a content announces, by its own identifier or by that of an
RSA signature over it. -/
structure Announced where
  digest : DigestAlgorithm
  bySignature : Bool

/-- Reads an announced digest. -/
def Announced.ofAlgorithm? (a : AlgorithmId) : Option Announced :=
  ((ObjectId.digest? a.algorithm).map (⟨·, false⟩)).orElse fun _ =>
    (ObjectId.rsaSignature? a.algorithm).map (⟨·, true⟩)

/-- Whether a signer whose digest has an identifier means an announced one. It
may name the digest, or the signature if this one was announced. An identifier
that is not listed anywhere means any digest that is announced as such. -/
def Announced.isMeantBy (a : Announced) (oid : Bytes) : Bool :=
  oid == ObjectId.ofDigest a.digest ||
    (if a.bySignature then oid == ObjectId.ofRsaSignature a.digest else !ObjectId.isListed oid)

/-- The digest of a signer, which has to be announced by the content. -/
def announcedDigest? (d : SignedData) (s : SignerInfo) : Option DigestAlgorithm := do
  let announced ← d.digestAlgorithms.mapM Announced.ofAlgorithm?
  (announced.find? (·.isMeantBy s.digestAlgorithm.algorithm)).map (·.digest)

/-- Whether a signer signed a message with the key of a certificate. With
attributes, these hold the digest of the message and are what is signed. -/
def isSignedBy (d : SignedData) (message : Bytes) (s : SignerInfo) (c : Certificate) : Bool :=
  match announcedDigest? d s, c.publicKeyInfo.key? with
  | some h, some (.rsa key) =>
    match s.attributes.getD [] with
    | [] => key.verify h message s.signature
    | attributes =>
      ObjectId.isListed s.digestAlgorithm.algorithm &&
        SignerAttribute.digest? attributes == some (h.digest message) &&
        key.verify h (SignerAttribute.rowDer Tag.set attributes) s.signature
  | _, _ => false

end SignedData

namespace SignedMessage

/-- Reads a structure of PKCS #7. -/
def ofElement? (e : Element) : Option SignedMessage := do
  match ← e.children? Tag.sequence with
  | [type] =>
    let _ ← type.objectIdentifier?
    return .other e.raw
  | [type, content] =>
    let id ← type.objectIdentifier?
    let inner ← content.children? (Tag.context 0)
    if id == ObjectId.signedData then
      match inner with
      | [data] => (SignedData.ofElement? data).map .signed
      | _ => none
    else return .other e.raw
  | _ => none

/-- Reads a structure of PKCS #7 from the start of a byte string. -/
def ofDer? (bs : Bytes) : Option SignedMessage := do
  let (e, _) ← Element.read? bs
  ofElement? e

/-- The labels that armoured structures have. -/
def labels : List String := ["PKCS7", "PKCS #7 SIGNED DATA"]

/-- Reads a structure in either form. -/
def ofBytes? (bs : Bytes) : Option SignedMessage :=
  ofDer? bs <|> do
    let block ← Armour.find? labels bs
    if !block.headers.isEmpty then none
    ofDer? block.body

/-- The encoded structure. -/
def toDer : SignedMessage → Bytes
  | signed d => sequenceOf [objectIdentifier ObjectId.signedData, encode (Tag.context 0) d.toDer]
  | other der => der

/-- The signers, each with its certificate: one of the trusted ones if there
are any, else one of those inside. -/
def signers? (m : SignedMessage) (trusted : List Certificate) :
    Option (List (SignerInfo × Certificate)) :=
  match m with
  | signed d =>
    let known := if trusted.isEmpty then d.certificates.getD [] else trusted
    if d.signers.isEmpty then none
    else d.signers.mapM fun s => (SignedData.certificateOf? s known).map (s, ·)
  | other _ => none

/-- Checks that every signer is known and signed a message. -/
def verify (m : SignedMessage) (message : Bytes) (trusted : List Certificate) :
    Except SignatureFault Unit :=
  match m, m.signers? trusted with
  | signed d, some signers =>
    if signers.all fun (s, c) => d.isSignedBy message s c then .ok ()
    else .error .messageNotCovered
  | _, _ => .error (if trusted.isEmpty then .messageNotCovered else .untrustedSigner)

/-! ## Signing -/

/-- Signs a message in the name of a certificate. -/
def sign? (c : Certificate) (k : PrivateKey) (message : Bytes) : Option SignedMessage :=
  match k with
  | .other .. => none
  | .rsa key =>
    let digest : AlgorithmId := ⟨ObjectId.ofDigest .sha256, null⟩
    (key.sign? .sha256 message).map fun signature =>
      signed {
        version := [1]
        digestAlgorithms := [digest]
        contents := sequenceOf [objectIdentifier ObjectId.data]
        certificates := some [c]
        revocations := none
        signers := [{
          version := [1]
          issuer := c.issuer
          serial := c.serial
          digestAlgorithm := digest
          attributes := none
          signatureAlgorithm := ⟨ObjectId.rsaEncryption, null⟩
          signature
          unsigned := none }] }

end SignedMessage

end SecureBoot.Crypto
