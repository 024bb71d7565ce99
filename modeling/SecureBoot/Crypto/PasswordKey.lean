import SecureBoot.Crypto.Aes
import SecureBoot.Asn1.ObjectId
/-!
# Keys from passwords

The two ways to turn a password into the key of a cipher: the iterated keyed
digest of PKCS #5, and the digest of earlier private key files.
-/

namespace SecureBoot.Crypto

open Asn1

/-- Iterates a keyed digest, adding up its values. -/
def iterateDigest (h : DigestAlgorithm) (password : Bytes) :
    (count : Nat) → (last sum : Bytes) → Bytes
  | 0, _, sum => sum
  | count + 1, last, sum =>
    let next := h.hmac password last
    iterateDigest h password count next (Aes.xor sum next)

/-- The key of a size that PBKDF2 derives from a password. -/
def pbkdf2 (h : DigestAlgorithm) (password salt : Bytes) (iterations size : Nat) : Bytes :=
  ((List.range ((size + h.digestSize - 1) / h.digestSize)).flatMap fun i =>
    let first := h.hmac password (salt ++ Bytes.ofNatBE 4 (i + 1))
    iterateDigest h password (iterations - 1) first first).take size

/-- The key of a size that the traditional form derives from a password. -/
def traditionalKey (password salt : Bytes) (size : Nat) : Bytes :=
  ((List.range ((size + 15) / 16)).foldl (fun (acc : Bytes × Bytes) _ =>
    let next := Hash.Md5.digest (acc.2 ++ password ++ salt)
    (acc.1 ++ next, next)) ([], [])).1.take size

/-- The key sizes of the ciphers, by identifier. -/
def cipherKeySizes : List (Bytes × Nat) :=
  [(ObjectId.aes128Cbc, 16), (ObjectId.aes192Cbc, 24), (ObjectId.aes256Cbc, 32)]

/-- The key sizes of the ciphers, by the names in the headers of text armour. -/
def cipherNames : List (String × Nat) :=
  [("AES-128-CBC", 16), ("AES-192-CBC", 24), ("AES-256-CBC", 32)]

/-- The parameters of a password based cipher. -/
structure PasswordCipher where
  digest : DigestAlgorithm
  salt : Bytes
  iterations : Nat
  cipher : Bytes
  iv : Bytes

namespace PasswordCipher

/-- Reads the keyed digest of a derivation, by default the one of SHA-1. -/
def digest? : List Element → Option DigestAlgorithm
  | [] => some .sha1
  | e :: rest =>
    if e.tag = Tag.integer then digest? rest
    else do
      match ← e.children? Tag.sequence with
      | oid :: _ => ObjectId.hmac? (← oid.objectIdentifier?)
      | [] => none

/-- Reads the parameters of the second password based scheme. -/
def ofElement? (e : Element) : Option PasswordCipher := do
  match ← e.children? Tag.sequence with
  | [scheme, parameters] =>
    if (← scheme.objectIdentifier?) != ObjectId.pbes2 then none
    match ← parameters.children? Tag.sequence with
    | [derivation, cipher] =>
      match ← derivation.children? Tag.sequence, ← cipher.children? Tag.sequence with
      | [kdf, kdfParameters], [cipherId, iv] =>
        if (← kdf.objectIdentifier?) != ObjectId.pbkdf2 then none
        match ← kdfParameters.children? Tag.sequence with
        | salt :: iterations :: rest =>
          return {
            digest := ← digest? rest
            salt := ← salt.contentOf? Tag.octetString
            iterations := ← iterations.natural?
            cipher := ← cipherId.objectIdentifier?
            iv := ← iv.contentOf? Tag.octetString }
        | _ => none
      | _, _ => none
    | _ => none
  | _ => none

/-- The encoded parameters. -/
def toDer (c : PasswordCipher) : Bytes :=
  sequenceOf [objectIdentifier ObjectId.pbes2,
    sequenceOf [
      sequenceOf [objectIdentifier ObjectId.pbkdf2,
        sequenceOf [octetString c.salt, integer c.iterations,
          sequenceOf [objectIdentifier (ObjectId.ofHmac c.digest), null]]],
      sequenceOf [objectIdentifier c.cipher, octetString c.iv]]]

/-- The key that a password gives. -/
def key? (c : PasswordCipher) (password : Bytes) : Option Bytes := do
  let size ← cipherKeySizes.lookup c.cipher
  return pbkdf2 c.digest password c.salt c.iterations size

/-- Deciphers what was enciphered with a password. -/
def decrypt? (c : PasswordCipher) (password message : Bytes) : Option Bytes := do
  Aes.decryptCbc? (← c.key? password) c.iv message

/-- Enciphers with a password. -/
def encrypt? (c : PasswordCipher) (password message : Bytes) : Option Bytes := do
  return Aes.encryptCbc (← c.key? password) c.iv message

end PasswordCipher

end SecureBoot.Crypto
