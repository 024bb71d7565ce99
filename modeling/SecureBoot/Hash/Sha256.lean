import SecureBoot.Hash.Block
/-!
# SHA-256

The digest of 256 bits over blocks of 64 bytes.
-/

namespace SecureBoot.Hash.Sha256

/-- The eight working variables. -/
structure State where
  a : UInt32
  b : UInt32
  c : UInt32
  d : UInt32
  e : UInt32
  f : UInt32
  g : UInt32
  h : UInt32

/-- The fractional parts of the square roots of the first eight primes. -/
def initial : State :=
  ⟨0x6a09e667, 0xbb67ae85, 0x3c6ef372, 0xa54ff53a,
    0x510e527f, 0x9b05688c, 0x1f83d9ab, 0x5be0cd19⟩

/-- The fractional parts of the cube roots of the first 64 primes. -/
def roundConstants : List UInt32 :=
  [0x428a2f98, 0x71374491, 0xb5c0fbcf, 0xe9b5dba5, 0x3956c25b, 0x59f111f1,
    0x923f82a4, 0xab1c5ed5, 0xd807aa98, 0x12835b01, 0x243185be, 0x550c7dc3,
    0x72be5d74, 0x80deb1fe, 0x9bdc06a7, 0xc19bf174, 0xe49b69c1, 0xefbe4786,
    0x0fc19dc6, 0x240ca1cc, 0x2de92c6f, 0x4a7484aa, 0x5cb0a9dc, 0x76f988da,
    0x983e5152, 0xa831c66d, 0xb00327c8, 0xbf597fc7, 0xc6e00bf3, 0xd5a79147,
    0x06ca6351, 0x14292967, 0x27b70a85, 0x2e1b2138, 0x4d2c6dfc, 0x53380d13,
    0x650a7354, 0x766a0abb, 0x81c2c92e, 0x92722c85, 0xa2bfe8a1, 0xa81a664b,
    0xc24b8b70, 0xc76c51a3, 0xd192e819, 0xd6990624, 0xf40e3585, 0x106aa070,
    0x19a4c116, 0x1e376c08, 0x2748774c, 0x34b0bcb5, 0x391c0cb3, 0x4ed8aa4a,
    0x5b9cca4f, 0x682e6ff3, 0x748f82ee, 0x78a5636f, 0x84c87814, 0x8cc70208,
    0x90befffa, 0xa4506ceb, 0xbef9a3f7, 0xc67178f2]

def sigma0 (x : UInt32) : UInt32 := rotateRight32 x 7 ^^^ rotateRight32 x 18 ^^^ x >>> 3

def sigma1 (x : UInt32) : UInt32 := rotateRight32 x 17 ^^^ rotateRight32 x 19 ^^^ x >>> 10

def bigSigma0 (x : UInt32) : UInt32 :=
  rotateRight32 x 2 ^^^ rotateRight32 x 13 ^^^ rotateRight32 x 22

def bigSigma1 (x : UInt32) : UInt32 :=
  rotateRight32 x 6 ^^^ rotateRight32 x 11 ^^^ rotateRight32 x 25

/-- Extends the words of a block by a number of words. -/
def extend : (count : Nat) → Array UInt32 → Array UInt32
  | 0, w => w
  | count + 1, w =>
    let t := w.size
    extend count (w.push
      (sigma1 (w.getD (t - 2) 0) + w.getD (t - 7) 0 + sigma0 (w.getD (t - 15) 0) +
        w.getD (t - 16) 0))

/-- One round. -/
def round (s : State) (k w : UInt32) : State :=
  let t1 := s.h + bigSigma1 s.e + choose32 s.e s.f s.g + k + w
  let t2 := bigSigma0 s.a + majority32 s.a s.b s.c
  ⟨t1 + t2, s.a, s.b, s.c, s.d + t1, s.e, s.f, s.g⟩

/-- Adds two states word by word. -/
def add (s t : State) : State :=
  ⟨s.a + t.a, s.b + t.b, s.c + t.c, s.d + t.d, s.e + t.e, s.f + t.f, s.g + t.g, s.h + t.h⟩

/-- Takes one block into the state. -/
def compress (s : State) (block : Bytes) : State :=
  let schedule := extend 48 (words32 block)
  add s ((roundConstants.zip schedule.toList).foldl (fun t kw => round t kw.1 kw.2) s)

/-- The bytes of a state. -/
def State.toBytes (s : State) : Bytes :=
  [s.a, s.b, s.c, s.d, s.e, s.f, s.g, s.h].flatMap fun x => Bytes.ofNatBE 4 x.toNat

/-- The SHA-256 digest of a message. -/
def digest (message : Bytes) : Bytes :=
  ((paddedBlocks 64 (Bytes.ofNatBE 8 (8 * message.length)) message).foldl compress
    initial).toBytes

end SecureBoot.Hash.Sha256
