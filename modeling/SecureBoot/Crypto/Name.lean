import SecureBoot.Asn1.ObjectId
/-!
# Distinguished names

A name is a row of sets of attributes. `DistinguishedName.text` lists its
attributes by their short names. Two names are alike (`isSame`) when their
attributes are, where letters differ in case only and rows of blanks count as
one.
-/

namespace SecureBoot.Crypto

open Asn1

/-- A type and a value, the value with the tag of its kind of text. -/
structure NameAttribute where
  type : Bytes
  tag : UInt8
  value : Bytes
deriving DecidableEq

/-- A row of sets of attributes, and its encoding. -/
structure DistinguishedName where
  sets : List (List NameAttribute)
  encoded : Bytes
deriving DecidableEq

namespace NameAttribute

/-- The characters of big-endian units of a size. -/
def unitChars? (size : Nat) (bs : Bytes) : Option (List Char) :=
  if bs.length % size ≠ 0 then none
  else
    (Hash.blocks size (bs.length / size) bs).mapM fun u =>
      let n := Bytes.toNatBE u
      if n.isValidChar then some (Char.ofNat n) else none

/-- The text of a value, if its tag is that of a kind of text. -/
def chars? (a : NameAttribute) : Option (List Char) :=
  match a.tag.toNat with
  | 12 => (Bytes.toString? a.value).map String.toList
  | 18 | 19 | 20 | 22 | 23 | 24 | 26 => some (a.value.map fun b => Char.ofNat b.toNat)
  | 28 => unitChars? 4 a.value
  | 30 => unitChars? 2 a.value
  | _ => none

/-- Whether a value may stand in a name. -/
def isAllowed (a : NameAttribute) : Bool :=
  match a.tag.toNat with
  | 12 | 19 | 20 | 22 | 28 | 30 => a.chars?.isSome
  | 3 => Element.isContentOf 3 a.value
  | 18 | 0x30 => true
  | 7 | 8 | 9 | 11 | 13 | 14 | 15 | 29 => true
  | _ => false

/-- The short name of the type and the value, empty where it is no text. -/
def text (a : NameAttribute) : String :=
  ObjectId.shortName a.type ++ "=" ++ String.ofList (a.chars?.getD [])

/-- Whether a character is a blank of a name. -/
def isNameBlank (c : Char) : Bool := c == ' ' || ('\t' ≤ c && c ≤ '\r')

/-- Makes each row of blanks one blank, and letters lower case. -/
def fold : List Char → List Char
  | [] => []
  | c :: rest =>
    let after := fold rest
    if isNameBlank c then (if after.head? == some ' ' then after else ' ' :: after)
    else c.toLower :: after

/-- The form of an attribute that comparison goes by. -/
def canonical (a : NameAttribute) : Bytes :=
  let body :=
    match a.tag.toNat with
    | 12 | 19 | 20 | 22 | 26 | 28 | 30 =>
      let cs := (a.chars?.getD []).dropWhile isNameBlank
      let cs := (cs.reverse.dropWhile isNameBlank).reverse
      encode Tag.utf8String (Bytes.ofString (String.ofList (fold cs)))
    | _ => encode a.tag a.value
  objectIdentifier a.type ++ body

/-- The tag and the content of a value, which may come in pieces. -/
def valueOf? (e : Element) : Option (UInt8 × Bytes) :=
  let tag := e.tag &&& ~~~Tag.constructed
  if e.tag = Tag.sequence then some (e.tag, e.content) else (e.stringOf? tag).map (tag, ·)

/-- Reads an attribute. -/
def ofElement? (t : Tagging) (e : Element) : Option NameAttribute := do
  match ← t.parts? e with
  | [type, value] =>
    let (tag, content) ← valueOf? value
    let a : NameAttribute := ⟨← type.objectIdentifier?, tag, content⟩
    if a.isAllowed then some a else none
  | _ => none

/-- The encoded attribute. -/
def toDer (a : NameAttribute) : Bytes :=
  sequenceOf [objectIdentifier a.type, encode a.tag a.value]

end NameAttribute

namespace DistinguishedName

/-- Reads a name. -/
def ofElement? (t : Tagging) (e : Element) : Option DistinguishedName := do
  let sets ← (← t.sequenceItems? e).mapM fun s => do
    (← t.setItems? s).mapM (NameAttribute.ofElement? t)
  return ⟨sets, e.raw⟩

/-- The attributes in order, by their short names. -/
def text (n : DistinguishedName) : String :=
  ", ".intercalate (n.sets.flatten.map NameAttribute.text)

/-- The form of a name that comparison goes by, in which empty sets do not count. -/
def canonical (n : DistinguishedName) : List (List Bytes) :=
  (n.sets.filter (! ·.isEmpty)).map fun s => (s.map NameAttribute.canonical).mergeSort encodingLe

/-- Whether two names are alike. -/
def isSame (a b : DistinguishedName) : Bool := a.canonical == b.canonical

/-- The name of sets of attributes. -/
def ofSets (sets : List (List NameAttribute)) : DistinguishedName :=
  ⟨sets, sequenceOf (sets.map fun s => setOf (s.map NameAttribute.toDer))⟩

/-- The name with a common name only. -/
def ofCommonName (text : String) : DistinguishedName :=
  ofSets [[⟨ObjectId.commonName, Tag.utf8String, Bytes.ofString text⟩]]

end DistinguishedName

end SecureBoot.Crypto
