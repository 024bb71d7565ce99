import SecureBoot.Asn1.ObjectId
import SecureBoot.Crypto.Rsa
/-!
# Elliptic curves

The curves y² = x³ + ax + b over a prime field that keys name, and which byte
strings stand for points of them. Every curve here has a prime number of
points.
-/

namespace SecureBoot.Crypto

/-- A curve with a name. -/
structure Curve where
  /-- The content of its identifier. -/
  id : Bytes
  /-- The number of bits of the field. -/
  bits : Nat
  /-- The prime of the field. -/
  prime : Nat
  a : Nat
  b : Nat
deriving DecidableEq

namespace Curve

open Asn1

/-- The curve of 192 bits with a = -3. -/
def p192 : Curve :=
  let p := 0xfffffffffffffffffffffffffffffffeffffffffffffffff
  ⟨ObjectId.ofComponents [1, 2, 840, 10045, 3, 1, 1], 192, p, p - 3,
    0x64210519e59c80e70fa7e9ab72243049feb8deecc146b9b1⟩

/-- The curve of 224 bits with a = -3. -/
def p224 : Curve :=
  let p := 0xffffffffffffffffffffffffffffffff000000000000000000000001
  ⟨ObjectId.ofComponents [1, 3, 132, 0, 33], 224, p, p - 3,
    0xb4050a850c04b3abf54132565044b0b7d7bfd8ba270b39432355ffb4⟩

/-- The curve of 256 bits with a = -3. -/
def p256 : Curve :=
  let p := 0xffffffff00000001000000000000000000000000ffffffffffffffffffffffff
  ⟨ObjectId.ofComponents [1, 2, 840, 10045, 3, 1, 7], 256, p, p - 3,
    0x5ac635d8aa3a93e7b3ebbd55769886bc651d06b0cc53b0f63bce3c3e27d2604b⟩

/-- The curve of 256 bits with a = 0 and b = 7. -/
def k256 : Curve :=
  ⟨ObjectId.ofComponents [1, 3, 132, 0, 10], 256,
    0xfffffffffffffffffffffffffffffffffffffffffffffffffffffffefffffc2f, 0, 7⟩

/-- The curve of 384 bits with a = -3. -/
def p384 : Curve :=
  let p := (1 <<< 384) - (1 <<< 128) - (1 <<< 96) + (1 <<< 32) - 1
  ⟨ObjectId.ofComponents [1, 3, 132, 0, 34], 384, p, p - 3,
    (0xb3312fa7e23ee7e4988e056be3f82d19181d9c6efe814112 <<< 192) +
      0x0314088f5013875ac656398d8a2ed19d2a85c8edd3ec2aef⟩

/-- The curve of 521 bits with a = -3. -/
def p521 : Curve :=
  let p := (1 <<< 521) - 1
  ⟨ObjectId.ofComponents [1, 3, 132, 0, 35], 521, p, p - 3,
    (0x51953eb9618e1c9a1f929a21a0b68540eea2da725b99b315f3b8b489918ef109 <<< 264) +
      0xe156193951ec7e937b1652c0bd3bb1bf073573df883d2c34f1ef451fd46b503f00⟩

/-- Every curve that keys may name. -/
def all : List Curve := [p192, p224, p256, k256, p384, p521]

/-- The curve that the parameters of a key name. -/
def ofParameters? (parameters : Bytes) : Option Curve :=
  all.find? fun c => parameters == objectIdentifier c.id

/-- The number of bytes of a coordinate. -/
def size (c : Curve) : Nat := (c.bits + 7) / 8

/-- The square of the other coordinate of a point. -/
def square (c : Curve) (x : Nat) : Nat := (x * x * x + c.a * x + c.b) % c.prime

/-- Whether a coordinate is that of a point: a number other than zero is a
square when its power to half of one less than the prime is one. -/
def hasPointAt (c : Curve) (x : Nat) : Bool :=
  x < c.prime && powMod (c.square x) (c.prime / 2) c.prime == 1

/-- Whether two coordinates are those of a point. -/
def isPoint (c : Curve) (x y : Nat) : Bool :=
  x < c.prime && y < c.prime && y * y % c.prime == c.square x

/-- Whether bytes stand for a point: a zero byte for the one at infinity, a
coordinate after the parity of the other one, or both coordinates, after their
parity or not. -/
def isEncodedPoint (c : Curve) : Bytes → Bool
  | [] => false
  | 0 :: rest => rest == []
  | form :: rest =>
    let x := Bytes.toNatBE (rest.take c.size)
    let y := Bytes.toNatBE (rest.drop c.size)
    if form = 2 ∨ form = 3 then rest.length == c.size && c.hasPointAt x
    else if form = 4 then rest.length == 2 * c.size && c.isPoint x y
    else if form = 6 ∨ form = 7 then
      rest.length == 2 * c.size && c.isPoint x y && y % 2 == form.toNat % 2
    else false

end Curve

end SecureBoot.Crypto
