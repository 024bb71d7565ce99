import SecureBoot.Hash.Block
/-!
# SHA-1

The digest of 160 bits over blocks of 64 bytes.
-/

namespace SecureBoot.Hash.Sha1

/-- The five working variables. -/
structure State where
  a : UInt32
  b : UInt32
  c : UInt32
  d : UInt32
  e : UInt32

/-- The state before the first block. -/
def initial : State := ⟨0x67452301, 0xefcdab89, 0x98badcfe, 0x10325476, 0xc3d2e1f0⟩

/-- Extends the words of a block by a number of words. -/
def extend : (count : Nat) → Array UInt32 → Array UInt32
  | 0, w => w
  | count + 1, w =>
    let t := w.size
    extend count (w.push (rotateLeft32
      (w.getD (t - 3) 0 ^^^ w.getD (t - 8) 0 ^^^ w.getD (t - 14) 0 ^^^ w.getD (t - 16) 0) 1))

/-- The function and the constant of a round. -/
def stage (t : Nat) (b c d : UInt32) : UInt32 × UInt32 :=
  if t < 20 then (choose32 b c d, 0x5a827999)
  else if t < 40 then (b ^^^ c ^^^ d, 0x6ed9eba1)
  else if t < 60 then (majority32 b c d, 0x8f1bbcdc)
  else (b ^^^ c ^^^ d, 0xca62c1d6)

/-- One round. -/
def round (s : State) (t : Nat) (w : UInt32) : State :=
  let (f, k) := stage t s.b s.c s.d
  ⟨rotateLeft32 s.a 5 + f + s.e + k + w, s.a, rotateLeft32 s.b 30, s.c, s.d⟩

/-- Takes one block into the state. -/
def compress (s : State) (block : Bytes) : State :=
  let t := (extend 64 (words32 block)).toList.zipIdx.foldl (fun t wi => round t wi.2 wi.1) s
  ⟨s.a + t.a, s.b + t.b, s.c + t.c, s.d + t.d, s.e + t.e⟩

/-- The SHA-1 digest of a message. -/
def digest (message : Bytes) : Bytes :=
  let s := (paddedBlocks 64 (Bytes.ofNatBE 8 (8 * message.length)) message).foldl compress initial
  [s.a, s.b, s.c, s.d, s.e].flatMap fun x => Bytes.ofNatBE 4 x.toNat

end SecureBoot.Hash.Sha1
