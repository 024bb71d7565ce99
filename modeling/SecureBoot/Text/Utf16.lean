import SecureBoot.Bytes
/-!
# UTF-16

Names of variables are texts of 16-bit units. A character of the basic plane
is one unit, any other a pair of surrogates. Firmware ends a name with a zero
unit (`terminated`, `ofTerminated`); a surrogate without its partner reads as
the replacement character.
-/

namespace SecureBoot.Text.Utf16

/-! ## Writing -/

/-- The units of a character. -/
def ofChar (c : Char) : List UInt16 :=
  let n := c.toNat
  if n < 0x10000 then [UInt16.ofNat n]
  else
    [UInt16.ofNat (0xD800 + (n - 0x10000) / 0x400), UInt16.ofNat (0xDC00 + (n - 0x10000) % 0x400)]

/-- The units of a text. -/
def encode (s : String) : List UInt16 := s.toList.flatMap ofChar

/-- The units of a text and a zero unit. -/
def terminated (s : String) : List UInt16 := encode s ++ [0]

/-! ## Reading -/

/-- Whether a unit is the first of a pair. -/
def isHigh (u : UInt16) : Bool := 0xD800 ≤ u && u < 0xDC00

/-- Whether a unit is the second of a pair. -/
def isLow (u : UInt16) : Bool := 0xDC00 ≤ u && u < 0xE000

/-- The character that stands for what is none. -/
def replacement : Char := '\uFFFD'

/-- The character of a unit on its own. -/
def charOfUnit (u : UInt16) : Char :=
  if isHigh u || isLow u then replacement else Char.ofNat u.toNat

/-- The character of a pair of surrogates. -/
def charOfPair (high low : UInt16) : Char :=
  Char.ofNat (0x10000 + (high.toNat - 0xD800) * 0x400 + (low.toNat - 0xDC00))

/-- The characters of units. -/
def decodeChars : List UInt16 → List Char
  | [] => []
  | [u] => [charOfUnit u]
  | u :: v :: rest =>
    if isHigh u && isLow v then charOfPair u v :: decodeChars rest
    else charOfUnit u :: decodeChars (v :: rest)

/-- The text of units. -/
def decode (units : List UInt16) : String := String.ofList (decodeChars units)

/-- The text of the units before the first zero, or of all. -/
def ofTerminated (units : List UInt16) : String := decode (units.takeWhile (· != 0))

/-! ## As bytes -/

/-- Units with their least significant byte first. -/
def toBytes (units : List UInt16) : Bytes := units.flatMap Bytes.ofUInt16

/-- The units of a byte string of even length. -/
def ofBytes : Bytes → List UInt16
  | a :: b :: rest => UInt16.ofNat (a.toNat + 256 * b.toNat) :: ofBytes rest
  | _ => []

end SecureBoot.Text.Utf16
