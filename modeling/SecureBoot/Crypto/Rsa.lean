import SecureBoot.Asn1.ObjectId
import SecureBoot.Crypto.Entropy
/-!
# RSA

Keys, the signatures of PKCS #1 version 1.5 over a digest, and the generation
of keys from entropy.
-/

namespace SecureBoot.Crypto

open Asn1

/-! ## Arithmetic -/

/-- Multiplies an accumulator by a power, taking at most `fuel` bits of the
exponent. -/
def powModStep (m : Nat) : (fuel base exponent acc : Nat) → Nat
  | 0, _, _, acc => acc
  | fuel + 1, base, exponent, acc =>
    powModStep m fuel (base * base % m) (exponent / 2)
      (if exponent % 2 = 1 then acc * base % m else acc)

/-- A power modulo a number. -/
def powMod (base exponent m : Nat) : Nat :=
  powModStep m (Nat.log2 exponent + 1) (base % m) exponent (1 % m)

/-- The greatest common divisor of two numbers with the coefficients of the
first, taking at most `fuel` divisions. -/
def bezoutStep : (fuel : Nat) → (a b x y : Int) → Int × Int
  | 0, a, _, x, _ => (a, x)
  | fuel + 1, a, b, x, y => if b = 0 then (a, x) else bezoutStep fuel b (a % b) y (x - a / b * y)

/-- The inverse of a number modulo another, if there is one. -/
def inverseMod? (a m : Nat) : Option Nat :=
  let (g, x) := bezoutStep (2 * Nat.log2 (a + m) + 4) a m 1 0
  if g = 1 then some (x % m).toNat else none

/-! ## Keys -/

/-- A modulus and a public exponent. -/
structure RsaPublicKey where
  modulus : Nat
  exponent : Nat
deriving DecidableEq

/-- A private key with the numbers that speed up its use. -/
structure RsaPrivateKey where
  /-- The version of the encoding, which is any number but the one for keys of
  more than two primes. -/
  version : Int
  modulus : Nat
  publicExponent : Nat
  privateExponent : Nat
  prime1 : Nat
  prime2 : Nat
  exponent1 : Nat
  exponent2 : Nat
  coefficient : Nat
deriving DecidableEq

namespace RsaPublicKey

/-- The number of bits of the modulus. -/
def bits (k : RsaPublicKey) : Nat := if k.modulus = 0 then 0 else Nat.log2 k.modulus + 1

/-- The number of bytes of the modulus, and so of a signature. -/
def size (k : RsaPublicKey) : Nat := (k.bits + 7) / 8

/-- The encoded key. -/
def toDer (k : RsaPublicKey) : Bytes := sequenceOf [integer k.modulus, integer k.exponent]

/-- Reads an encoded key. -/
def ofDer? (der : Bytes) : Option RsaPublicKey := do
  let (e, _) ← Element.read? der
  match ← e.children? Tag.sequence with
  | [n, e] => return ⟨← n.magnitude?, ← e.magnitude?⟩
  | _ => none

end RsaPublicKey

namespace RsaPrivateKey

/-- The public half. -/
def publicKey (k : RsaPrivateKey) : RsaPublicKey := ⟨k.modulus, k.publicExponent⟩

/-- The encoded key. -/
def toDer (k : RsaPrivateKey) : Bytes :=
  sequenceOf (smallInt k.version :: [k.modulus, k.publicExponent, k.privateExponent, k.prime1,
    k.prime2, k.exponent1, k.exponent2, k.coefficient].map integer)

/-- Reads an encoded key of two primes. -/
def ofDer? (der : Bytes) : Option RsaPrivateKey := do
  let (e, _) ← Element.read? der
  match ← e.children? Tag.sequence with
  | version :: numbers =>
    let version ← version.smallInt?
    if version = 1 then none
    match ← numbers.mapM Element.magnitude? with
    | [n, e, d, p, q, dp, dq, qi] => return ⟨version, n, e, d, p, q, dp, dq, qi⟩
    | _ => none
  | [] => none

end RsaPrivateKey

/-! ## Signatures -/

/-- The digest of a message with the name of its algorithm. -/
def digestInfo (h : DigestAlgorithm) (message : Bytes) : Bytes :=
  sequenceOf [sequenceOf [objectIdentifier (ObjectId.ofDigest h), null],
    octetString (h.digest message)]

/-- The padded digest of a message for a modulus of a number of bytes, if it
has room for eight bytes of padding. -/
def paddedDigest? (size : Nat) (h : DigestAlgorithm) (message : Bytes) : Option Bytes :=
  let info := digestInfo h message
  if size < info.length + 11 then none
  else some (0 :: 1 :: List.replicate (size - info.length - 3) 0xff ++ 0 :: info)

/-- Signs a message. -/
def RsaPrivateKey.sign? (k : RsaPrivateKey) (h : DigestAlgorithm) (message : Bytes) :
    Option Bytes :=
  let size := k.publicKey.size
  (paddedDigest? size h message).map fun padded =>
    Bytes.ofNatBE size (powMod (Bytes.toNatBE padded) k.privateExponent k.modulus)

/-- Whether a signature of a message was made with the private half of a key. -/
def RsaPublicKey.verify (k : RsaPublicKey) (h : DigestAlgorithm)
    (message signature : Bytes) : Bool :=
  let s := Bytes.toNatBE signature
  signature.length == k.size && s < k.modulus &&
    paddedDigest? k.size h message ==
      some (Bytes.ofNatBE k.size (powMod s k.exponent k.modulus))

/-! ## Generation -/

/-- The divisors tried first. -/
def smallPrimes : List Nat :=
  ((List.range 2000).drop 3).filter fun n =>
    ((List.range 45).drop 2).all fun d => n ≤ d || n % d != 0

/-- Whether some square in a chain of at most `fuel` squares is minus one. -/
def reachesMinusOne (n : Nat) : (fuel x : Nat) → Bool
  | 0, _ => false
  | fuel + 1, x => x == n - 1 || reachesMinusOne n fuel (x * x % n)

/-- The number of times two divides a number, and the odd rest. -/
def splitPowerOfTwo : (fuel n : Nat) → Nat × Nat
  | 0, n => (0, n)
  | fuel + 1, n =>
    if n % 2 = 0 ∧ n ≠ 0 then
      let (k, odd) := splitPowerOfTwo fuel (n / 2)
      (k + 1, odd)
    else (0, n)

/-- Whether a number passes the strong test to some bases. -/
def isProbablePrime (n : Nat) : Bool :=
  let (k, odd) := splitPowerOfTwo (Nat.log2 n + 1) (n - 1)
  [2, 3, 5, 7, 11, 13, 17, 19, 23, 29, 31, 37].all fun base =>
    let x := powMod base odd n
    x == 1 || reachesMinusOne n k x

/-- Searches at most `fuel` odd numbers for a prime that does not have one as
residue for the public exponent. -/
def searchPrime (exponent : Nat) : (fuel candidate : Nat) → Option Nat
  | 0, _ => none
  | fuel + 1, n =>
    if smallPrimes.all (n % · != 0) && n % exponent != 1 && isProbablePrime n then some n
    else searchPrime exponent fuel (n + 2)

/-- A prime of a number of bits with its two highest bits set. -/
def drawPrime? (exponent bits : Nat) (e : Entropy) : Option Nat × Entropy :=
  let (r, e) := e.drawBits (bits - 2)
  let start := 3 <<< (bits - 2) + r / 2 * 2 + 1
  ((searchPrime exponent (16 * bits) start).filter (· < 1 <<< bits), e)

/-- The public exponent of generated keys. -/
def fermatExponent : Nat := 65537

/-- The key of two primes. -/
def RsaPrivateKey.ofPrimes? (p q : Nat) : Option RsaPrivateKey := do
  let (p, q) := if q < p then (p, q) else (q, p)
  let d ← inverseMod? fermatExponent ((p - 1) * (q - 1) / Nat.gcd (p - 1) (q - 1))
  let coefficient ← inverseMod? q p
  return ⟨0, p * q, fermatExponent, d, p, q, d % (p - 1), d % (q - 1), coefficient⟩

/-- Draws primes at most `fuel` times, until they make a key. -/
def generateFrom (bits : Nat) : (fuel : Nat) → Entropy → Option RsaPrivateKey
  | 0, _ => none
  | fuel + 1, e =>
    let (p, e) := drawPrime? fermatExponent ((bits + 1) / 2) e
    let (q, e) := drawPrime? fermatExponent (bits / 2) e
    let key := do
      let p ← p
      let q ← q
      if p = q then none else RsaPrivateKey.ofPrimes? p q
    match key with
    | some key => some key
    | none => generateFrom bits fuel e

/-- The least number of bits of a generated modulus. -/
def minimumBits : Nat := 512

/-- Generates a key whose modulus has a number of bits. -/
def RsaPrivateKey.generate? (bits : Nat) (seed : Bytes) : Option RsaPrivateKey :=
  if bits < minimumBits then none else generateFrom bits 16 (.ofSeed seed)

end SecureBoot.Crypto
