import SecureBoot.Asn1.Element
import SecureBoot.Hash
/-!
# Object identifiers

The contents of the object identifiers this library reads and writes, and the
short names of the attributes of distinguished names.
-/

namespace SecureBoot.Asn1.ObjectId

/-- The base-128 digits of a component, all but the last marked. -/
def componentBytes (n : Nat) : Bytes :=
  let rec go : Nat → Nat → Bytes → Bytes
    | 0, _, acc => acc
    | fuel + 1, n, acc =>
      if n = 0 then acc else go fuel (n / 128) (UInt8.ofNat (n % 128 + 128) :: acc)
  go n (n / 128) [UInt8.ofNat (n % 128)]

/-- The content of the identifier with the given components. -/
def ofComponents : List Nat → Bytes
  | a :: b :: rest => componentBytes (40 * a + b) ++ rest.flatMap componentBytes
  | _ => []

/-! ## Algorithms -/

def rsaEncryption : Bytes := ofComponents [1, 2, 840, 113549, 1, 1, 1]
def ecPublicKey : Bytes := ofComponents [1, 2, 840, 10045, 2, 1]
def x25519 : Bytes := ofComponents [1, 3, 101, 110]
def x448 : Bytes := ofComponents [1, 3, 101, 111]
def ed25519 : Bytes := ofComponents [1, 3, 101, 112]
def ed448 : Bytes := ofComponents [1, 3, 101, 113]
def signedData : Bytes := ofComponents [1, 2, 840, 113549, 1, 7, 2]
def data : Bytes := ofComponents [1, 2, 840, 113549, 1, 7, 1]
def messageDigest : Bytes := ofComponents [1, 2, 840, 113549, 1, 9, 4]
def commonName : Bytes := ofComponents [2, 5, 4, 3]
def subjectKeyIdentifier : Bytes := ofComponents [2, 5, 29, 14]
def basicConstraints : Bytes := ofComponents [2, 5, 29, 19]
def pbes2 : Bytes := ofComponents [1, 2, 840, 113549, 1, 5, 13]
def pbkdf2 : Bytes := ofComponents [1, 2, 840, 113549, 1, 5, 12]
def aes128Cbc : Bytes := ofComponents [2, 16, 840, 1, 101, 3, 4, 1, 2]
def aes192Cbc : Bytes := ofComponents [2, 16, 840, 1, 101, 3, 4, 1, 22]
def aes256Cbc : Bytes := ofComponents [2, 16, 840, 1, 101, 3, 4, 1, 42]

/-- The identifier of a digest. -/
def ofDigest : DigestAlgorithm → Bytes
  | .sha1 => ofComponents [1, 3, 14, 3, 2, 26]
  | .sha256 => ofComponents [2, 16, 840, 1, 101, 3, 4, 2, 1]
  | .sha384 => ofComponents [2, 16, 840, 1, 101, 3, 4, 2, 2]
  | .sha512 => ofComponents [2, 16, 840, 1, 101, 3, 4, 2, 3]

/-- The identifier of an RSA signature over a digest. -/
def ofRsaSignature : DigestAlgorithm → Bytes
  | .sha1 => ofComponents [1, 2, 840, 113549, 1, 1, 5]
  | .sha256 => ofComponents [1, 2, 840, 113549, 1, 1, 11]
  | .sha384 => ofComponents [1, 2, 840, 113549, 1, 1, 12]
  | .sha512 => ofComponents [1, 2, 840, 113549, 1, 1, 13]

/-- The identifier of the keyed digest over a digest. -/
def ofHmac : DigestAlgorithm → Bytes
  | .sha1 => ofComponents [1, 2, 840, 113549, 2, 7]
  | .sha256 => ofComponents [1, 2, 840, 113549, 2, 9]
  | .sha384 => ofComponents [1, 2, 840, 113549, 2, 10]
  | .sha512 => ofComponents [1, 2, 840, 113549, 2, 11]

/-- The digests with an identifier. -/
def digests : List DigestAlgorithm := [.sha1, .sha256, .sha384, .sha512]

/-- The digest of an identifier. -/
def digest? (oid : Bytes) : Option DigestAlgorithm := digests.find? (ofDigest · == oid)

/-- The digest of the identifier of an RSA signature. -/
def rsaSignature? (oid : Bytes) : Option DigestAlgorithm := digests.find? (ofRsaSignature · == oid)

/-- The digest of the identifier of a keyed digest. -/
def hmac? (oid : Bytes) : Option DigestAlgorithm := digests.find? (ofHmac · == oid)

/-- Whether an identifier is one that the directory of algorithms lists. -/
def isListed (oid : Bytes) : Bool :=
  let listed (arc : List Nat) (count : Nat) : Bool :=
    (List.range count).any fun n => oid == ofComponents (arc ++ [n + 1])
  listed [2, 16, 840, 1, 101, 3, 4, 1] 48 || listed [2, 16, 840, 1, 101, 3, 4, 2] 14 ||
    listed [2, 16, 840, 1, 101, 3, 4, 3] 16 || listed [1, 2, 840, 113549, 1, 1] 16 ||
    [ecPublicKey, x25519, x448, ed25519, ed448, ofDigest .sha1,
      ofComponents [1, 2, 840, 113549, 2, 5]].contains oid

/-! ## Attributes of names -/

/-- Short names under the arc of the X.500 attributes. -/
def x500Names : List (Nat × String) :=
  [(3, "CN"), (4, "SN"), (5, "serialNumber"), (6, "C"), (7, "L"), (8, "ST"), (9, "street"),
    (10, "O"), (11, "OU"), (12, "title"), (13, "description"), (14, "searchGuide"),
    (15, "businessCategory"), (16, "postalAddress"), (17, "postalCode"), (18, "postOfficeBox"),
    (19, "physicalDeliveryOfficeName"), (20, "telephoneNumber"), (21, "telexNumber"),
    (22, "teletexTerminalIdentifier"), (23, "facsimileTelephoneNumber"), (24, "x121Address"),
    (25, "internationaliSDNNumber"), (26, "registeredAddress"), (27, "destinationIndicator"),
    (28, "preferredDeliveryMethod"), (29, "presentationAddress"),
    (30, "supportedApplicationContext"), (31, "member"), (32, "owner"), (33, "roleOccupant"),
    (34, "seeAlso"), (35, "userPassword"), (36, "userCertificate"), (37, "cACertificate"),
    (38, "authorityRevocationList"), (39, "certificateRevocationList"),
    (40, "crossCertificatePair"), (41, "name"), (42, "GN"), (43, "initials"),
    (44, "generationQualifier"), (45, "x500UniqueIdentifier"), (46, "dnQualifier"),
    (47, "enhancedSearchGuide"), (48, "protocolInformation"), (49, "distinguishedName"),
    (50, "uniqueMember"), (51, "houseIdentifier"), (52, "supportedAlgorithms"),
    (53, "deltaRevocationList"), (54, "dmdName"), (65, "pseudonym"), (72, "role"),
    (97, "organizationIdentifier"), (98, "c3"), (99, "n3"), (100, "dnsName")]

/-- Short names under the arc of the pilot attributes of directories. -/
def pilotNames : List (Nat × String) :=
  [(1, "UID"), (2, "textEncodedORAddress"), (3, "mail"), (4, "info"), (5, "favouriteDrink"),
    (6, "roomNumber"), (7, "photo"), (8, "userClass"), (9, "host"), (10, "manager"),
    (11, "documentIdentifier"), (12, "documentTitle"), (13, "documentVersion"),
    (14, "documentAuthor"), (15, "documentLocation"), (20, "homeTelephoneNumber"),
    (21, "secretary"), (22, "otherMailbox"), (23, "lastModifiedTime"), (24, "lastModifiedBy"),
    (25, "DC"), (26, "aRecord"), (27, "pilotAttributeType27"), (28, "mXRecord"),
    (29, "nSRecord"), (30, "sOARecord"), (31, "cNAMERecord"), (37, "associatedDomain"),
    (38, "associatedName"), (39, "homePostalAddress"), (40, "personalTitle"),
    (41, "mobileTelephoneNumber"), (42, "pagerTelephoneNumber"), (43, "friendlyCountryName"),
    (44, "uid"), (45, "organizationalStatus"), (46, "janetMailbox"),
    (47, "mailPreferenceOption"), (48, "buildingName"), (49, "dSAQuality"),
    (50, "singleLevelQuality"), (51, "subtreeMinimumQuality"), (52, "subtreeMaximumQuality"),
    (53, "personalSignature"), (54, "dITRedirect"), (55, "audio"), (56, "documentPublisher")]

/-- Short names under the ninth arc of the public key standards. -/
def pkcs9Names : List (Nat × String) :=
  [(1, "emailAddress"), (2, "unstructuredName"), (3, "contentType"), (4, "messageDigest"),
    (5, "signingTime"), (6, "countersignature"), (7, "challengePassword"),
    (8, "unstructuredAddress"), (9, "extendedCertificateAttributes"), (14, "extReq"),
    (15, "SMIME-CAPS"), (16, "SMIME"), (20, "friendlyName"), (21, "localKeyID")]

/-- Short names under the arc of extended validation. -/
def validationNames : List (Nat × String) :=
  [(1, "jurisdictionL"), (2, "jurisdictionST"), (3, "jurisdictionC")]

/-- Short names of the arcs above those attributes. -/
def arcNames : List (List Nat × String) :=
  [([2, 5], "X500"), ([2, 5, 4], "X509"),
    ([0, 9], "data"), ([0, 9, 2342], "pss"), ([0, 9, 2342, 19200300], "ucl"),
    ([0, 9, 2342, 19200300, 100], "pilot"),
    ([0, 9, 2342, 19200300, 100, 1], "pilotAttributeType"),
    ([1, 2], "member-body"), ([1, 2, 840], "ISO-US"), ([1, 2, 840, 113549], "rsadsi"),
    ([1, 2, 840, 113549, 1], "pkcs"), ([1, 2, 840, 113549, 1, 9], "pkcs9"),
    ([1, 3], "identified-organization"), ([1, 3, 6], "DOD"), ([1, 3, 6, 1], "IANA"),
    ([1, 3, 6, 1, 4], "private"), ([1, 3, 6, 1, 4, 1], "enterprises")]

/-- Every attribute with a short name, by the content of its identifier. -/
def attributeNames : List (Bytes × String) :=
  let under (arc : List Nat) (names : List (Nat × String)) : List (Bytes × String) :=
    names.map fun (n, name) => (ofComponents (arc ++ [n]), name)
  under [2, 5, 4] x500Names ++
    under [0, 9, 2342, 19200300, 100, 1] pilotNames ++
    under [1, 2, 840, 113549, 1, 9] pkcs9Names ++
    under [1, 3, 6, 1, 4, 1, 311, 60, 2, 1] validationNames ++
    arcNames.map fun (arc, name) => (ofComponents arc, name)

/-- The short name of an attribute, `UNDEF` for an unknown one. -/
def shortName (oid : Bytes) : String := (attributeNames.lookup oid).getD "UNDEF"

end SecureBoot.Asn1.ObjectId
