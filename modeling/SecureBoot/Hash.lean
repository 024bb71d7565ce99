import SecureBoot.Hash.Md5
import SecureBoot.Hash.Sha1
import SecureBoot.Hash.Sha256
import SecureBoot.Hash.Sha512
/-!
# Digests

The digest algorithms of the SHA family by name, and the keyed digest built
on them.
-/

namespace SecureBoot

/-- A digest algorithm. -/
inductive DigestAlgorithm where
  | sha1
  | sha256
  | sha384
  | sha512
deriving DecidableEq

namespace DigestAlgorithm

/-- The digest of a message. -/
def digest : DigestAlgorithm → Bytes → Bytes
  | sha1 => Hash.Sha1.digest
  | sha256 => Hash.Sha256.digest
  | sha384 => Hash.Sha512.digest384
  | sha512 => Hash.Sha512.digest

/-- The number of bytes taken in at a time. -/
def blockSize : DigestAlgorithm → Nat
  | sha1 | sha256 => 64
  | sha384 | sha512 => 128

/-- The number of bytes of a digest. -/
def digestSize : DigestAlgorithm → Nat
  | sha1 => 20
  | sha256 => 32
  | sha384 => 48
  | sha512 => 64

/-- The keyed digest HMAC. -/
def hmac (h : DigestAlgorithm) (key message : Bytes) : Bytes :=
  let key := if key.length ≤ h.blockSize then key else h.digest key
  let key := key ++ List.replicate (h.blockSize - key.length) 0
  h.digest (key.map (· ^^^ 0x5c) ++ h.digest (key.map (· ^^^ 0x36) ++ message))

end DigestAlgorithm

end SecureBoot
