import SecureBoot.Bytes
/-!
# Message padding

What the digests of this library share: a message is followed by a one bit,
zeros and its length in bits, and cut into blocks of one size.
-/

namespace SecureBoot.Hash

/-- Cuts a number of blocks of one size off the front. -/
def blocks (size : Nat) : (count : Nat) → Bytes → List Bytes
  | 0, _ => []
  | count + 1, bs => bs.take size :: blocks size count (bs.drop size)

/-- The bytes between a message of a given length and the field for its
length, so that all of it fills whole blocks. -/
def filler (blockSize lengthSize length : Nat) : Bytes :=
  let used := (length + 1 + lengthSize) % blockSize
  0x80 :: List.replicate ((blockSize - used) % blockSize) 0

/-- The blocks of a message, its length in bits being written at the end. -/
def paddedBlocks (blockSize : Nat) (lengthField : Bytes) (message : Bytes) : List Bytes :=
  let padded := message ++ filler blockSize lengthField.length message.length ++ lengthField
  blocks blockSize (padded.length / blockSize) padded

/-- The big-endian 32-bit words of a block. -/
def words32 (block : Bytes) : Array UInt32 :=
  ((blocks 4 (block.length / 4) block).map fun w => UInt32.ofNat (Bytes.toNatBE w)).toArray

/-- The little-endian 32-bit words of a block. -/
def wordsLE32 (block : Bytes) : Array UInt32 :=
  ((blocks 4 (block.length / 4) block).map fun w => UInt32.ofNat (Bytes.toNatLE w)).toArray

/-- The big-endian 64-bit words of a block. -/
def words64 (block : Bytes) : Array UInt64 :=
  ((blocks 8 (block.length / 8) block).map fun w => UInt64.ofNat (Bytes.toNatBE w)).toArray

/-- Rotates a word to the left. -/
def rotateLeft32 (x : UInt32) (n : UInt32) : UInt32 := x <<< n ||| x >>> (32 - n)

/-- Rotates a word to the right. -/
def rotateRight32 (x : UInt32) (n : UInt32) : UInt32 := x >>> n ||| x <<< (32 - n)

/-- Rotates a word to the right. -/
def rotateRight64 (x : UInt64) (n : UInt64) : UInt64 := x >>> n ||| x <<< (64 - n)

/-- Takes the bits of `y` where `x` is set, and those of `z` elsewhere. -/
def choose32 (x y z : UInt32) : UInt32 := (x &&& y) ^^^ (~~~x &&& z)

/-- The bits that at least two of three words have. -/
def majority32 (x y z : UInt32) : UInt32 := (x &&& y) ^^^ (x &&& z) ^^^ (y &&& z)

end SecureBoot.Hash
