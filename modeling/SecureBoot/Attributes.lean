import SecureBoot.Bytes
import SecureBoot.Text.Blank
import SecureBoot.Text.Numeral
/-!
# Variable attributes

The 32-bit attribute word of a variable: a set of flags with union,
difference and inclusion, a text, and a reader of decimal and hexadecimal
words.
-/

namespace SecureBoot

/-- The attribute word attached to every variable. -/
structure Attributes where
  bits : UInt32
deriving DecidableEq, Inhabited

/-- An attribute word that cannot be read. -/
structure AttributesError where
  text : String
deriving DecidableEq

/-- The wording of an attribute error. -/
def AttributesError.message (e : AttributesError) : String :=
  s!"invalid attribute word '{e.text}'"

namespace Attributes

/-! ## Flags -/

def nonVolatile : Attributes := ⟨0x01⟩
def bootServiceAccess : Attributes := ⟨0x02⟩
def runtimeAccess : Attributes := ⟨0x04⟩
def hardwareErrorRecord : Attributes := ⟨0x08⟩
def authenticatedWriteAccess : Attributes := ⟨0x10⟩
def timeBasedWriteAccess : Attributes := ⟨0x20⟩
def appendWrite : Attributes := ⟨0x40⟩

/-- The word of PK, KEK, db, dbx and dbt. -/
def authenticatedDatabase : Attributes := ⟨0x27⟩

/-- The word of the machine owner keys. -/
def bootNonVolatile : Attributes := ⟨0x03⟩

/-! ## Sets of flags -/

/-- Whether every flag of `b` is in `a`. -/
def contains (a b : Attributes) : Bool := a.bits &&& b.bits == b.bits

/-- The flags of either word. -/
def union (a b : Attributes) : Attributes := ⟨a.bits ||| b.bits⟩

/-- The flags of the first word that are not in the second. -/
def difference (a b : Attributes) : Attributes := ⟨a.bits &&& ~~~b.bits⟩

/-- Whether writes carry an authenticated envelope. -/
def isTimeBased (a : Attributes) : Bool := a.contains timeBasedWriteAccess

/-- Whether a write extends the current data. -/
def isAppend (a : Attributes) : Bool := a.contains appendWrite

/-- The four bytes of the word. -/
def toBytes (a : Attributes) : Bytes := Bytes.ofUInt32 a.bits

@[simp] theorem length_toBytes (a : Attributes) : a.toBytes.length = 4 := by
  simp [toBytes]

/-! ## Text -/

/-- The flags with a name, in the order of their bits. -/
def named : List (Attributes × String) :=
  [(nonVolatile, "NV"), (bootServiceAccess, "BS"), (runtimeAccess, "RT"),
    (hardwareErrorRecord, "HR"), (authenticatedWriteAccess, "AW"),
    (timeBasedWriteAccess, "AT"), (appendWrite, "AP")]

/-- The word in hexadecimal, then the names of its flags in parentheses. -/
def text (a : Attributes) : String :=
  let names := (named.filter (a.contains ·.1)).map (·.2)
  let word := "0x" ++ Text.hexPadded 8 a.bits.toNat
  if names.isEmpty then word else word ++ " (" ++ "|".intercalate names ++ ")"

/-- A word of 32 bits: hexadecimal after `0x` or `0X`, else decimal; a
plus sign may stand before the digits. -/
def ofChars? (cs : List Char) : Option Attributes :=
  let value := match cs with
    | '0' :: 'x' :: rest | '0' :: 'X' :: rest => Text.hexadecimal? (Text.dropPlus rest)
    | _ => Text.decimal? (Text.dropPlus cs)
  match value with
  | some n => if n < UInt32.size then some ⟨UInt32.ofNat n⟩ else none
  | none => none

/-- Reads a word between blanks. -/
def parse (text : String) : Except AttributesError Attributes :=
  match ofChars? (Text.trimChars text.toList) with
  | some a => .ok a
  | none => .error ⟨text⟩

end Attributes

end SecureBoot
