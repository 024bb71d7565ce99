import SecureBoot.Hash
/-!
# Entropy

A stream of bytes that looks random, expanded from a seed. What is generated
from it is a function of the seed.
-/

namespace SecureBoot.Crypto

/-- A seed and the number of blocks already drawn from it. -/
structure Entropy where
  seed : Bytes
  drawn : Nat

namespace Entropy

/-- The stream of a seed. -/
def ofSeed (seed : Bytes) : Entropy := ⟨seed, 0⟩

/-- Draws a number of blocks of 32 bytes. -/
def blocks (seed : Bytes) (start : Nat) : (count : Nat) → Bytes
  | 0 => []
  | count + 1 =>
    DigestAlgorithm.sha256.digest (Bytes.ofNatBE 8 start ++ seed) ++
      blocks seed (start + 1) count

/-- Draws a number of bytes. -/
def draw (e : Entropy) (size : Nat) : Bytes × Entropy :=
  let count := (size + 31) / 32
  ((blocks e.seed e.drawn count).take size, { e with drawn := e.drawn + count })

/-- Draws a number of at most the given number of bits. -/
def drawBits (e : Entropy) (bits : Nat) : Nat × Entropy :=
  let (bytes, e) := e.draw ((bits + 7) / 8)
  (Bytes.toNatBE bytes % (1 <<< bits), e)

end Entropy

end SecureBoot.Crypto
