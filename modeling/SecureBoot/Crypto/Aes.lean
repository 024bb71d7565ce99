import SecureBoot.Bytes
/-!
# AES in cipher block chaining

The block cipher for keys of 16, 24 and 32 bytes, on blocks of 16 bytes held
as lists in column order, and its chaining mode with the usual padding, in
which the last byte counts the bytes of padding.
-/

namespace SecureBoot.Crypto.Aes

/-! ## The field of 256 elements -/

/-- Multiplies by the polynomial `x`. -/
def double (a : UInt8) : UInt8 := (a <<< 1) ^^^ (if a &&& 0x80 = 0 then 0 else 0x1b)

/-- Multiplies two elements, going through the bits of the second. -/
def mul (a b : UInt8) : UInt8 :=
  ((List.range 8).foldl (fun (acc : UInt8 × UInt8) i =>
    (if b &&& (1 <<< UInt8.ofNat i) = 0 then acc.1 else acc.1 ^^^ acc.2, double acc.2)) (0, a)).1

/-- The inverse, zero for zero: the power 254. -/
def inverse (a : UInt8) : UInt8 :=
  ((List.range 7).foldl (fun (acc : UInt8 × UInt8) _ =>
    let square := mul acc.2 acc.2
    (mul acc.1 square, square)) (1, a)).1

/-- The substitution of a byte. -/
def substitute (a : UInt8) : UInt8 :=
  let b := inverse a
  let turn (n : UInt8) : UInt8 := b <<< n ||| b >>> (8 - n)
  b ^^^ turn 1 ^^^ turn 2 ^^^ turn 3 ^^^ turn 4 ^^^ 0x63

/-- The table of the substitution. -/
def box : Array UInt8 := Array.ofFn fun i : Fin 256 => substitute (UInt8.ofNat i)

/-- The table of the inverse substitution. -/
def inverseBox : Array UInt8 :=
  (List.range 256).foldl (fun t i => t.setIfInBounds (box.getD i 0).toNat (UInt8.ofNat i))
    (Array.replicate 256 0)

/-- The tables of the products by the factors of the inverse mixing. -/
def productTables : Array (Array UInt8) :=
  #[9, 11, 13, 14].map fun k => Array.ofFn fun i : Fin 256 => mul k (UInt8.ofNat i)

/-- The product by a factor of the inverse mixing, from the tables. -/
def product (table : Nat) (a : UInt8) : UInt8 := (productTables.getD table #[]).getD a.toNat 0

/-! ## Keys -/

/-- Adds two rows of bytes. -/
def xor (a b : Bytes) : Bytes := List.zipWith (· ^^^ ·) a b

/-- The word of a key schedule after the words so far, of a key of `n` words. -/
def nextWord (n : Nat) (words : Array Bytes) (round : UInt8) : Bytes :=
  let i := words.size
  let before := words.getD (i - 1) []
  let sub (b : Bytes) : Bytes := b.map fun x => box.getD x.toNat 0
  let mixed :=
    if i % n = 0 then xor (sub (before.drop 1 ++ before.take 1)) [round, 0, 0, 0]
    else if 6 < n ∧ i % n = 4 then sub before
    else before
  xor (words.getD (i - n) []) mixed

/-- Extends a key schedule by a number of words. -/
def extendKey (n : Nat) : (count : Nat) → Array Bytes → UInt8 → Array Bytes
  | 0, words, _ => words
  | count + 1, words, round =>
    let next := nextWord n words round
    extendKey n count (words.push next) (if words.size % n = 0 then double round else round)

/-- The round keys of a key, sixteen bytes each. -/
def roundKeys (key : Bytes) : List Bytes :=
  let n := key.length / 4
  let start := ((List.range n).map fun i => key.slice (4 * i) 4).toArray
  let words := extendKey n (4 * (n + 7) - n) start 1
  (List.range (n + 7)).map fun r => (words.extract (4 * r) (4 * r + 4)).toList.flatten

/-! ## Blocks -/

/-- The bytes of a state at the given places. -/
def pick (order : List Nat) (s : Bytes) : Bytes :=
  let a := s.toArray
  order.map fun i => a.getD i 0

/-- Turns each row of a state to the left by its number. -/
def shiftRows (s : Bytes) : Bytes := pick [0, 5, 10, 15, 4, 9, 14, 3, 8, 13, 2, 7, 12, 1, 6, 11] s

/-- Turns each row of a state to the right by its number. -/
def unshiftRows (s : Bytes) : Bytes :=
  pick [0, 13, 10, 7, 4, 1, 14, 11, 8, 5, 2, 15, 12, 9, 6, 3] s

/-- Mixes each column of a state. -/
def mixColumns : Bytes → Bytes
  | a :: b :: c :: d :: rest =>
    let all := a ^^^ b ^^^ c ^^^ d
    (a ^^^ all ^^^ double (a ^^^ b)) :: (b ^^^ all ^^^ double (b ^^^ c)) ::
      (c ^^^ all ^^^ double (c ^^^ d)) :: (d ^^^ all ^^^ double (d ^^^ a)) :: mixColumns rest
  | _ => []

/-- Undoes the mixing of each column. -/
def unmixColumns : Bytes → Bytes
  | a :: b :: c :: d :: rest =>
    (product 3 a ^^^ product 1 b ^^^ product 2 c ^^^ product 0 d) ::
      (product 0 a ^^^ product 3 b ^^^ product 1 c ^^^ product 2 d) ::
      (product 2 a ^^^ product 0 b ^^^ product 3 c ^^^ product 1 d) ::
      (product 1 a ^^^ product 2 b ^^^ product 0 c ^^^ product 3 d) :: unmixColumns rest
  | _ => []

/-- Enciphers a block by the round keys after the first. -/
def encryptRounds : List Bytes → Bytes → Bytes
  | [], s => s
  | [last], s => xor (shiftRows (s.map fun x => box.getD x.toNat 0)) last
  | key :: keys, s =>
    encryptRounds keys (xor (mixColumns (shiftRows (s.map fun x => box.getD x.toNat 0))) key)

/-- Enciphers a block. -/
def encryptBlock (keys : List Bytes) (block : Bytes) : Bytes :=
  encryptRounds (keys.drop 1) (xor block (keys.headD []))

/-- Deciphers a block by the round keys in reverse, after the first. -/
def decryptRounds : List Bytes → Bytes → Bytes
  | [], s => s
  | [last], s => xor ((unshiftRows s).map fun x => inverseBox.getD x.toNat 0) last
  | key :: keys, s =>
    decryptRounds keys
      (unmixColumns (xor ((unshiftRows s).map fun x => inverseBox.getD x.toNat 0) key))

/-- Deciphers a block. -/
def decryptBlock (keys : List Bytes) (block : Bytes) : Bytes :=
  let keys := keys.reverse
  decryptRounds (keys.drop 1) (xor block (keys.headD []))

/-! ## Chaining -/

/-- Enciphers a number of blocks, each after adding the one before. -/
def encryptChain (keys : List Bytes) : (count : Nat) → (before rest : Bytes) → Bytes
  | 0, _, _ => []
  | count + 1, before, rest =>
    let block := encryptBlock keys (xor (rest.take 16) before)
    block ++ encryptChain keys count block (rest.drop 16)

/-- Deciphers a number of blocks, adding the one before to each. -/
def decryptChain (keys : List Bytes) : (count : Nat) → (before rest : Bytes) → Bytes
  | 0, _, _ => []
  | count + 1, before, rest =>
    let block := rest.take 16
    xor (decryptBlock keys block) before ++ decryptChain keys count block (rest.drop 16)

/-- Enciphers a message after padding it. -/
def encryptCbc (key iv message : Bytes) : Bytes :=
  let pad := 16 - message.length % 16
  let padded := message ++ List.replicate pad (UInt8.ofNat pad)
  encryptChain (roundKeys key) (padded.length / 16) iv padded

/-- Deciphers a message and takes its padding off. -/
def decryptCbc? (key iv message : Bytes) : Option Bytes :=
  if message = [] ∨ message.length % 16 ≠ 0 then none
  else
    let padded := decryptChain (roundKeys key) (message.length / 16) iv message
    let pad := (padded.getLastD 0).toNat
    let kept := padded.length - pad
    if 1 ≤ pad ∧ pad ≤ 16 ∧ (padded.drop kept).all (·.toNat == pad) then some (padded.take kept)
    else none

end SecureBoot.Crypto.Aes
