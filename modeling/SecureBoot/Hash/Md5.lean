import SecureBoot.Hash.Block
/-!
# MD5

The digest of 128 bits over blocks of 64 bytes. It serves only to derive the
keys of private keys encrypted in the traditional way.
-/

namespace SecureBoot.Hash.Md5

/-- The four working variables. -/
structure State where
  a : UInt32
  b : UInt32
  c : UInt32
  d : UInt32

/-- The state before the first block. -/
def initial : State := ⟨0x67452301, 0xefcdab89, 0x98badcfe, 0x10325476⟩

/-- The absolute sines of the numbers from one on, scaled to 32 bits. -/
def roundConstants : List UInt32 :=
  [0xd76aa478, 0xe8c7b756, 0x242070db, 0xc1bdceee, 0xf57c0faf, 0x4787c62a,
    0xa8304613, 0xfd469501, 0x698098d8, 0x8b44f7af, 0xffff5bb1, 0x895cd7be,
    0x6b901122, 0xfd987193, 0xa679438e, 0x49b40821, 0xf61e2562, 0xc040b340,
    0x265e5a51, 0xe9b6c7aa, 0xd62f105d, 0x02441453, 0xd8a1e681, 0xe7d3fbc8,
    0x21e1cde6, 0xc33707d6, 0xf4d50d87, 0x455a14ed, 0xa9e3e905, 0xfcefa3f8,
    0x676f02d9, 0x8d2a4c8a, 0xfffa3942, 0x8771f681, 0x6d9d6122, 0xfde5380c,
    0xa4beea44, 0x4bdecfa9, 0xf6bb4b60, 0xbebfbc70, 0x289b7ec6, 0xeaa127fa,
    0xd4ef3085, 0x04881d05, 0xd9d4d039, 0xe6db99e5, 0x1fa27cf8, 0xc4ac5665,
    0xf4292244, 0x432aff97, 0xab9423a7, 0xfc93a039, 0x655b59c3, 0x8f0ccc92,
    0xffeff47d, 0x85845dd1, 0x6fa87e4f, 0xfe2ce6e0, 0xa3014314, 0x4e0811a1,
    0xf7537e82, 0xbd3af235, 0x2ad7d2bb, 0xeb86d391]

/-- The rotations of the four rounds, four steps each. -/
def rotations : List (List UInt32) :=
  [[7, 12, 17, 22], [5, 9, 14, 20], [4, 11, 16, 23], [6, 10, 15, 21]]

/-- The function of a step and the index of the word it takes. -/
def stage (i : Nat) (b c d : UInt32) : UInt32 × Nat :=
  if i < 16 then (choose32 b c d, i)
  else if i < 32 then (choose32 d b c, (5 * i + 1) % 16)
  else if i < 48 then (b ^^^ c ^^^ d, (3 * i + 5) % 16)
  else (c ^^^ (b ||| ~~~d), (7 * i) % 16)

/-- One step. -/
def step (words : Array UInt32) (s : State) (i : Nat) (k : UInt32) : State :=
  let (f, word) := stage i s.b s.c s.d
  let turn := (rotations.getD (i / 16) []).getD (i % 4) 0
  ⟨s.d, s.b + rotateLeft32 (s.a + f + k + words.getD word 0) turn, s.b, s.c⟩

/-- Takes one block into the state. -/
def compress (s : State) (block : Bytes) : State :=
  let words := wordsLE32 block
  let t := roundConstants.zipIdx.foldl (fun t ki => step words t ki.2 ki.1) s
  ⟨s.a + t.a, s.b + t.b, s.c + t.c, s.d + t.d⟩

/-- The MD5 digest of a message. -/
def digest (message : Bytes) : Bytes :=
  let s := (paddedBlocks 64 (Bytes.ofNatLE 8 (8 * message.length)) message).foldl compress initial
  [s.a, s.b, s.c, s.d].flatMap Bytes.ofUInt32

end SecureBoot.Hash.Md5
