/-!
# Byte strings

Every format of this library is written over `Bytes`, plain lists of octets.
This file holds what they share: integers of a fixed width in little-endian
and big-endian order (`ofNatLE`, `toNatLE`, `ofNatBE`, `toNatBE`), cutting a
piece out of a longer string (`slice`), and hexadecimal text.

The two integer codecs are inverse to each other: `toNatLE_ofNatLE` reads
back what fits the width, and `ofNatLE_toNatLE` writes back any byte string.
-/

namespace SecureBoot

/-- A string of octets. -/
abbrev Bytes := List UInt8

namespace Bytes

/-! ## Integers of a fixed width -/

/-- The value of a byte string whose first byte is the least significant. -/
def toNatLE : Bytes → Nat
  | [] => 0
  | b :: bs => b.toNat + 256 * toNatLE bs

/-- The `width` low bytes of a number, least significant first. -/
def ofNatLE : (width : Nat) → Nat → Bytes
  | 0, _ => []
  | w + 1, n => UInt8.ofNat n :: ofNatLE w (n / 256)

/-- The value of a byte string whose first byte is the most significant. -/
def toNatBE (bs : Bytes) : Nat := bs.foldl (fun n b => n * 256 + b.toNat) 0

/-- The `width` low bytes of a number, most significant first. -/
def ofNatBE (width n : Nat) : Bytes := (ofNatLE width n).reverse

@[simp] theorem length_ofNatLE (w n : Nat) : (ofNatLE w n).length = w := by
  induction w generalizing n with
  | zero => rfl
  | succ w ih => simp [ofNatLE, ih]

@[simp] theorem length_ofNatBE (w n : Nat) : (ofNatBE w n).length = w := by
  simp [ofNatBE]

/-- The number of values of a width in bytes. -/
def limit : (width : Nat) → Nat
  | 0 => 1
  | width + 1 => 256 * limit width

/-- Reading a written number gives its residue for the width. -/
theorem toNatLE_ofNatLE (w n : Nat) : toNatLE (ofNatLE w n) = n % limit w := by
  induction w generalizing n with
  | zero => simp [ofNatLE, toNatLE, limit, Nat.mod_one]
  | succ w ih =>
    have h : (UInt8.ofNat n).toNat = n % 256 := by simp
    rw [ofNatLE, toNatLE, ih, h, limit, Nat.mod_mul]

/-- Writing the value of a byte string at its own width gives it back. -/
theorem ofNatLE_toNatLE (bs : Bytes) : ofNatLE bs.length (toNatLE bs) = bs := by
  induction bs with
  | nil => rfl
  | cons b bs ih =>
    have hb : b.toNat < 256 := b.toNat_lt
    have h1 : (b.toNat + 256 * toNatLE bs) / 256 = toNatLE bs := by omega
    have h2 : UInt8.ofNat (b.toNat + 256 * toNatLE bs) = b := by
      apply UInt8.toNat_inj.1
      simp
    rw [List.length_cons, toNatLE, ofNatLE, h1, ih, h2]

/-- The value of a byte string is below the limit of its width. -/
theorem toNatLE_lt (bs : Bytes) : toNatLE bs < limit bs.length := by
  induction bs with
  | nil => simp [toNatLE, limit]
  | cons b bs ih =>
    have hb : b.toNat < 256 := b.toNat_lt
    rw [toNatLE, List.length_cons, limit]
    omega

/-- The bytes of a 16-bit word, least significant first. -/
def ofUInt16 (x : UInt16) : Bytes := ofNatLE 2 x.toNat

/-- The bytes of a 32-bit word, least significant first. -/
def ofUInt32 (x : UInt32) : Bytes := ofNatLE 4 x.toNat

/-- The bytes of a 64-bit word, least significant first. -/
def ofUInt64 (x : UInt64) : Bytes := ofNatLE 8 x.toNat

@[simp] theorem length_ofUInt16 (x : UInt16) : (ofUInt16 x).length = 2 := length_ofNatLE ..

@[simp] theorem length_ofUInt32 (x : UInt32) : (ofUInt32 x).length = 4 := length_ofNatLE ..

@[simp] theorem length_ofUInt64 (x : UInt64) : (ofUInt64 x).length = 8 := length_ofNatLE ..

/-! ## Pieces -/

/-- The `size` bytes from `start` on, fewer when the string ends before. -/
def slice (bs : Bytes) (start size : Nat) : Bytes := (bs.drop start).take size

theorem length_slice (bs : Bytes) (start size : Nat) :
    (slice bs start size).length = min size (bs.length - start) := by
  simp [slice]

/-- The 16-bit word at an offset, least significant byte first. -/
def wordAt16 (bs : Bytes) (offset : Nat) : UInt16 :=
  UInt16.ofNat (toNatLE (slice bs offset 2))

/-- The 32-bit word at an offset, least significant byte first. -/
def wordAt32 (bs : Bytes) (offset : Nat) : UInt32 :=
  UInt32.ofNat (toNatLE (slice bs offset 4))

/-- The 64-bit word at an offset, least significant byte first. -/
def wordAt64 (bs : Bytes) (offset : Nat) : UInt64 :=
  UInt64.ofNat (toNatLE (slice bs offset 8))

/-- The byte at an offset, zero past the end. -/
def byteAt (bs : Bytes) (offset : Nat) : UInt8 := (bs.drop offset).headD 0

/-! ## Hexadecimal text -/

/-- The lower-case hexadecimal digit of a number below sixteen. -/
def hexDigit (n : Nat) : Char :=
  if n < 10 then Char.ofNat (48 + n) else Char.ofNat (87 + n)

/-- The value of a hexadecimal digit of either case. -/
def hexValue? (c : Char) : Option Nat :=
  if '0' ≤ c ∧ c ≤ '9' then some (c.toNat - 48)
  else if 'a' ≤ c ∧ c ≤ 'f' then some (c.toNat - 87)
  else if 'A' ≤ c ∧ c ≤ 'F' then some (c.toNat - 55)
  else none

/-- The two digits of a byte. -/
def hexOfByte (b : UInt8) : List Char := [hexDigit (b.toNat / 16), hexDigit (b.toNat % 16)]

/-- Two lower-case digits for each byte. -/
def toHex (bs : Bytes) : String := String.ofList (bs.flatMap hexOfByte)

/-- The bytes of a text of digit pairs, of either case. -/
def ofHexChars? : List Char → Option Bytes
  | [] => some []
  | [_] => none
  | a :: b :: rest => do
    let hi ← hexValue? a
    let lo ← hexValue? b
    return UInt8.ofNat (16 * hi + lo) :: (← ofHexChars? rest)

/-- The bytes of a text of digit pairs, of either case. -/
def ofHex? (s : String) : Option Bytes := ofHexChars? s.toList

/-! ## Text as bytes -/

/-- The UTF-8 bytes of a text. -/
def ofString (s : String) : Bytes := s.toUTF8.toList

/-- The text whose UTF-8 bytes these are, if they are well formed. -/
def toString? (bs : Bytes) : Option String := String.fromUTF8? ⟨bs.toArray⟩

end Bytes

end SecureBoot
