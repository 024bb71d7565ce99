import SecureBoot.Guid
/-!
# Signature types

The encodings a signature list can have, each named by a GUID. Most fix the
number of data bytes of their entries (`SignatureType.dataSize?`).
-/

namespace SecureBoot

/-- The encoding of the entries of a signature list. -/
inductive SignatureType where
  | sha1
  | sha256
  | sha384
  | sha512
  | rsa2048
  | x509
  | x509Sha256
  | x509Sha384
  | x509Sha512
  | pkcs7
  /-- A type without a registered meaning. -/
  | unknown (guid : Guid)
deriving DecidableEq

namespace SignatureType

/-- The GUID that names a type. -/
def guid : SignatureType → Guid
  | sha1 => ⟨0x826ca512, 0xcf10, 0x4ac9, 0xb187be01496631bd⟩
  | sha256 => ⟨0xc1c41626, 0x504c, 0x4092, 0xaca941f936934328⟩
  | sha384 => ⟨0xff3e5307, 0x9fd0, 0x48c9, 0x85f18ad56c701e01⟩
  | sha512 => ⟨0x093e0fae, 0xa6c4, 0x4f50, 0x9f1bd41e2b89c19a⟩
  | rsa2048 => ⟨0x3c5766e8, 0x269c, 0x4e34, 0xaa14ed776e85b3b6⟩
  | x509 => ⟨0xa5c059a1, 0x94e4, 0x4aa7, 0x87b5ab155c2bf072⟩
  | x509Sha256 => ⟨0x3bd2a492, 0x96c0, 0x4079, 0xb420fcf98ef103ed⟩
  | x509Sha384 => ⟨0x7076876e, 0x80c2, 0x4ee6, 0xaad228b349a6865b⟩
  | x509Sha512 => ⟨0x446dbf63, 0x2502, 0x4cda, 0xbcfa2465d2b0fe9d⟩
  | pkcs7 => ⟨0x4aafd29d, 0x68df, 0x49ee, 0x8aa9347d375665a7⟩
  | unknown guid => guid

/-- The types with a registered meaning. -/
def registered : List SignatureType :=
  [sha1, sha256, sha384, sha512, rsa2048, x509, x509Sha256, x509Sha384, x509Sha512, pkcs7]

/-- The type that a GUID names. -/
def ofGuid (g : Guid) : SignatureType :=
  (registered.find? (·.guid == g)).getD (unknown g)

/-- Every type read from a GUID is named by that GUID. -/
@[simp] theorem guid_ofGuid (g : Guid) : (ofGuid g).guid = g := by
  unfold ofGuid
  cases h : registered.find? (·.guid == g) with
  | none => rfl
  | some t => simpa using List.find?_some h

/-- A short label for listings. -/
def label : SignatureType → String
  | sha1 => "SHA1"
  | sha256 => "SHA256"
  | sha384 => "SHA384"
  | sha512 => "SHA512"
  | rsa2048 => "RSA2048"
  | x509 => "X509"
  | x509Sha256 => "X509_SHA256"
  | x509Sha384 => "X509_SHA384"
  | x509Sha512 => "X509_SHA512"
  | pkcs7 => "PKCS7"
  | unknown _ => "Unknown"

/-- The number of data bytes of every entry, where the type fixes it. A
certificate hash is followed by the sixteen bytes of a time of revocation. -/
def dataSize? : SignatureType → Option Nat
  | sha1 => some 20
  | sha256 => some 32
  | sha384 => some 48
  | sha512 => some 64
  | rsa2048 => some 256
  | x509Sha256 => some (32 + 16)
  | x509Sha384 => some (48 + 16)
  | x509Sha512 => some (64 + 16)
  | x509 | pkcs7 | unknown _ => none

/-- Whether the entries are digests of images. -/
def isHash : SignatureType → Bool
  | sha1 | sha256 | sha384 | sha512 => true
  | _ => false

end SignatureType

end SecureBoot
