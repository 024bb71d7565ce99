import SecureBoot.Bytes
import SecureBoot.Text.Blank
import SecureBoot.Text.Numeral
/-!
# GUIDs

A GUID is four words. Its text is the lower-case hyphenated form; on the wire
firmware stores the first three words with the least significant byte first
and the last one with the most significant byte first (`Guid.toBytes`,
`Guid.ofBytes?`). Reading text accepts the hyphenated form in any letter case,
bare, in braces or after `urn:uuid:`, and the 32 digits without hyphens.
-/

namespace SecureBoot

/-- A globally unique identifier, as its four words. -/
structure Guid where
  data1 : UInt32
  data2 : UInt16
  data3 : UInt16
  data4 : UInt64
deriving DecidableEq, Inhabited

/-- Why a GUID cannot be read. -/
inductive GuidError where
  /-- There are fewer than sixteen bytes. -/
  | tooShort (size : Nat)
  /-- The text is in none of the accepted forms. -/
  | unreadable (text : String)
deriving DecidableEq

/-- The wording of a GUID error. -/
def GuidError.message : GuidError → String
  | .tooShort size => s!"a GUID needs 16 bytes, got {size}"
  | .unreadable text => s!"invalid GUID '{text}'"

namespace Guid

/-- The size of a GUID on the wire. -/
def size : Nat := 16

/-! ## Wire form -/

/-- The sixteen bytes firmware stores. -/
def toBytes (g : Guid) : Bytes :=
  Bytes.ofUInt32 g.data1 ++ Bytes.ofUInt16 g.data2 ++ Bytes.ofUInt16 g.data3 ++
    Bytes.ofNatBE 8 g.data4.toNat

@[simp] theorem length_toBytes (g : Guid) : g.toBytes.length = 16 := by
  simp [toBytes]

/-- The GUID at the start of a byte string, absent bytes counting as zero. -/
def ofBytes (bs : Bytes) : Guid where
  data1 := bs.wordAt32 0
  data2 := bs.wordAt16 4
  data3 := bs.wordAt16 6
  data4 := UInt64.ofNat (Bytes.toNatBE (bs.slice 8 8))

/-- The GUID at the start of a byte string of sufficient length. -/
def ofBytes? (bs : Bytes) : Except GuidError Guid :=
  if bs.length < size then .error (.tooShort bs.length) else .ok (ofBytes bs)

/-! ## Text -/

/-- The 32 digits in order, without hyphens. -/
def digits (g : Guid) : List Char :=
  (Text.hexPadded 8 g.data1.toNat).toList ++ (Text.hexPadded 4 g.data2.toNat).toList ++
    (Text.hexPadded 4 g.data3.toNat).toList ++ (Text.hexPadded 16 g.data4.toNat).toList

/-- Digits cut into the groups 8-4-4-4-12. -/
def hyphenate (ds : List Char) : List Char :=
  ds.take 8 ++ '-' :: (ds.drop 8).take 4 ++ '-' :: (ds.drop 12).take 4 ++
    '-' :: (ds.drop 16).take 4 ++ '-' :: ds.drop 20

/-- Lower-case hyphenated text. -/
def text (g : Guid) : String := String.ofList (hyphenate g.digits)

instance : ToString Guid := ⟨text⟩

/-- Reads 32 digits without hyphens. -/
def ofDigits? (cs : List Char) : Option Guid :=
  if cs.length = 32 then do
    let d1 ← Text.hexadecimal? (cs.take 8)
    let d2 ← Text.hexadecimal? ((cs.drop 8).take 4)
    let d3 ← Text.hexadecimal? ((cs.drop 12).take 4)
    let d4 ← Text.hexadecimal? (cs.drop 16)
    return ⟨UInt32.ofNat d1, UInt16.ofNat d2, UInt16.ofNat d3, UInt64.ofNat d4⟩
  else none

/-- Reads the groups 8-4-4-4-12 with their four hyphens. -/
def ofHyphenated? (cs : List Char) : Option Guid :=
  let ds := cs.take 8 ++ (cs.drop 9).take 4 ++ (cs.drop 14).take 4 ++ (cs.drop 19).take 4 ++
    cs.drop 24
  if cs.length = 36 ∧ cs[8]? = some '-' ∧ cs[13]? = some '-' ∧ cs[18]? = some '-' ∧
      cs[23]? = some '-' then ofDigits? ds
  else none

/-- Reads any of the accepted forms, without trimming. -/
def ofChars? (cs : List Char) : Option Guid :=
  match cs with
  | '{' :: rest =>
    if rest.getLast? = some '}' then ofHyphenated? rest.dropLast else none
  | _ =>
    if cs.length = 32 then ofDigits? cs
    else if cs.length = 45 ∧ (cs.take 9).map Char.toLower = "urn:uuid:".toList then
      ofHyphenated? (cs.drop 9)
    else ofHyphenated? cs

/-- Reads a GUID between blanks. -/
def parse (text : String) : Except GuidError Guid :=
  match ofChars? (Text.trimChars text.toList) with
  | some g => .ok g
  | none => .error (.unreadable text)

/-! ## Order -/

/-- The number whose sixteen digits pairs are the text of the GUID. -/
def toNat (g : Guid) : Nat :=
  ((g.data1.toNat * UInt16.size + g.data2.toNat) * UInt16.size + g.data3.toNat) * UInt64.size +
    g.data4.toNat

/-! ## Well-known owners -/

/-- The owner of PK, KEK and the platform status variables. -/
def globalVariable : Guid := ⟨0x8be4df61, 0x93ca, 0x11d2, 0xaa0d00e098032b8c⟩

/-- The owner of db, dbx and dbt. -/
def imageSecurityDatabase : Guid := ⟨0xd719b2cb, 0x3d3a, 0x4596, 0xa3bcdad00e67656f⟩

/-- The owner of the machine owner keys of the boot shim. -/
def shimLock : Guid := ⟨0x605dab50, 0xe046, 0x4300, 0xabb63dd810dd8b23⟩

/-- The mark of an authenticated variable store in a flash image. -/
def authenticatedStore : Guid := ⟨0xaaf32c78, 0x947b, 0x439a, 0xa1802e144ec37792⟩

end Guid

end SecureBoot
