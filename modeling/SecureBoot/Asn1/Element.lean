import SecureBoot.Bytes
/-!
# Elements of the distinguished encoding

An element is a tag, a length and content. `Element.read?` takes the element
at the start of a byte string, `elements?` cuts content into the elements that
fill it, and `encode` writes an element with the shortest length field.
-/

namespace SecureBoot.Asn1

/-! ## Tags -/

namespace Tag

def boolean : UInt8 := 0x01
def integer : UInt8 := 0x02
def bitString : UInt8 := 0x03
def octetString : UInt8 := 0x04
def null : UInt8 := 0x05
def objectIdentifier : UInt8 := 0x06
def utf8String : UInt8 := 0x0c
def utcTime : UInt8 := 0x17
def generalizedTime : UInt8 := 0x18
def sequence : UInt8 := 0x30
def set : UInt8 := 0x31

/-- The flag of a tag whose content is a row of elements. -/
def constructed : UInt8 := 0x20

/-- Whether two tags differ at most in the flag. -/
def isAlike (t u : UInt8) : Bool := t ||| constructed == u ||| constructed

/-- Whether a tag is one of a row of elements of one type, where the flag of a
constructed tag may be missing. -/
def isSequenceOf (t : UInt8) : Bool := isAlike t sequence

/-- Whether a tag is one of a set of elements of one type, where the flag of a
constructed tag may be missing. -/
def isSetOf (t : UInt8) : Bool := isAlike t set

/-- The constructed tag of a number in the context of its parent. -/
def context (n : UInt8) : UInt8 := 0xa0 + n

/-- The primitive tag of a number in the context of its parent. -/
def contextPrimitive (n : UInt8) : UInt8 := 0x80 + n

end Tag

/-! ## Tag, length and content -/

/-- The bytes of a number without leading zero bytes. -/
def naturalBytes (n : Nat) : Bytes :=
  Bytes.ofNatBE ((Nat.log2 n) / 8 + 1) n

/-- The shortest length field of a value. -/
def lengthField (n : Nat) : Bytes :=
  if n < 0x80 then [UInt8.ofNat n]
  else
    let bytes := naturalBytes n
    UInt8.ofNat (0x80 + bytes.length) :: bytes

/-- The bytes of an element. -/
def encode (tag : UInt8) (content : Bytes) : Bytes :=
  tag :: lengthField content.length ++ content

/-! ## Reading -/

/-- A tag, its content, and the bytes it was read from. -/
structure Element where
  tag : UInt8
  content : Bytes
  raw : Bytes
deriving DecidableEq

/-- A length field: its value, and what follows it. A field of more than one
byte has something after it, and at most eight bytes without leading zeros. -/
def readLength? : Bytes → Option (Nat × Bytes)
  | [] => none
  | b :: rest =>
    if b < 0x80 then some (b.toNat, rest)
    else
      let width := b.toNat - 0x80
      let field := rest.take width
      if width = 0 ∨ rest.length ≤ width ∨ 8 < (field.dropWhile (· == 0)).length then none
      else some (Bytes.toNatBE field, rest.drop width)

/-- The element at the start of a byte string, and what follows it. -/
def Element.read? (bs : Bytes) : Option (Element × Bytes) :=
  match bs with
  | [] => none
  | tag :: rest =>
    if tag &&& 0x1f = 0x1f then none
    else
      match readLength? rest with
      | none => none
      | some (length, after) =>
        if after.length < length then none
        else
          let left := after.drop length
          some (⟨tag, after.take length, bs.take (bs.length - left.length)⟩, left)

/-- Cuts at most `fuel` elements off the front; they have to fill the bytes. -/
def cutElements? : (fuel : Nat) → Bytes → Option (List Element)
  | _, [] => some []
  | 0, _ => none
  | fuel + 1, bs => do
    let (e, rest) ← Element.read? bs
    return e :: (← cutElements? fuel rest)

/-- The elements that fill a byte string. -/
def elements? (bs : Bytes) : Option (List Element) := cutElements? bs.length bs

namespace Element

/-- The elements inside, if the tag is the given one. -/
def children? (tag : UInt8) (e : Element) : Option (List Element) :=
  if e.tag = tag then elements? e.content else none

/-- The content, if the tag is the given one. -/
def contentOf? (tag : UInt8) (e : Element) : Option Bytes :=
  if e.tag = tag then some e.content else none

/-- The content of a string that comes in pieces, which nest at most `fuel` deep. -/
def joinPieces? : (fuel : Nat) → Bytes → Option Bytes
  | 0, _ => none
  | fuel + 1, bs => do
    let pieces ← (← elements? bs).mapM fun piece =>
      if piece.tag &&& Tag.constructed = 0 then some piece.content
      else joinPieces? fuel piece.content
    return pieces.flatten

/-- How deep the pieces of a string may nest. -/
def pieceDepth : Nat := 5

/-- The content of a string of a tag, which may come in pieces. -/
def stringOf? (tag : UInt8) (e : Element) : Option Bytes :=
  if e.tag = tag then some e.content
  else if e.tag = tag ||| Tag.constructed then joinPieces? pieceDepth e.content
  else none

/-- The bytes of a non-negative or negative integer without needless bytes. -/
def isMinimalInteger : Bytes → Bool
  | [] => false
  | [_] => true
  | a :: b :: _ => !(a == 0 && b < 0x80) && !(a == 0xff && 0x80 ≤ b)

/-- The content of an integer, if it has no needless bytes. -/
def integer? (e : Element) : Option Bytes := do
  let content ← e.contentOf? Tag.integer
  if isMinimalInteger content then some content else none

/-- The value of an integer. -/
def int? (e : Element) : Option Int := do
  let content ← e.integer?
  let n : Int := Bytes.toNatBE content
  return if content.headD 0 < 0x80 then n else n - Bytes.limit content.length

/-- The value of an integer of at most 32 bits, for which content may be absent. -/
def smallInt? (e : Element) : Option Int := do
  if (← e.contentOf? Tag.integer) == [] then return 0
  let n ← e.int?
  if n = n.bmod UInt32.size then some n else none

/-- The value of an integer that is not negative. -/
def natural? (e : Element) : Option Nat := do
  let content ← e.integer?
  if content.headD 0 < 0x80 then some (Bytes.toNatBE content) else none

/-- The value of the content of an integer, whose first bit is no sign. -/
def magnitude? (e : Element) : Option Nat := (e.contentOf? Tag.integer).map Bytes.toNatBE

/-- Whether content is a row of sub-identifiers. -/
def isObjectIdentifier (content : Bytes) : Bool :=
  content != [] && content.getLastD 0x80 < 0x80 &&
    ((0 :: content).zip content).all fun (before, b) => !(b == 0x80 && before < 0x80)

/-- The content of an object identifier. -/
def objectIdentifier? (e : Element) : Option Bytes := do
  let content ← e.contentOf? Tag.objectIdentifier
  if isObjectIdentifier content then some content else none

/-- The content of a bit string with its unused bits zero. -/
def bitsOf? : Bytes → Option Bytes
  | [] => none
  | [unused] => if 7 < unused then none else some [0]
  | unused :: bits =>
    if 7 < unused then none
    else some (unused :: bits.dropLast ++ [bits.getLastD 0 &&& ((0xff : UInt8) <<< unused)])

/-- The content of a bit string, which begins with the number of unused bits. -/
def bits? (e : Element) : Option Bytes := do bitsOf? (← e.stringOf? Tag.bitString)

/-- The bytes of a bit string, in which unused bits are zero. -/
def bitString? (e : Element) : Option Bytes := e.bits?.map (·.drop 1)

/-- Whether content follows the rules of a universal type. -/
def isContentOf (type : Nat) (content : Bytes) : Bool :=
  match type with
  | 1 => content.length == 1
  | 2 | 10 => isMinimalInteger content
  | 3 => (bitsOf? content).isSome
  | 5 => content == []
  | 6 => isObjectIdentifier content
  | 28 => content.length % 4 == 0
  | 30 => content.length % 2 == 0
  | _ => true

/-- The element in the one form it is written in, if it follows the rules of
its type: pieces of a string are joined, rows stay as they are. -/
def normal? (e : Element) : Option Bytes :=
  let type := (e.tag &&& 0x1f).toNat
  let inPieces := e.tag &&& Tag.constructed != 0
  let write (content : Bytes) : Option Bytes :=
    if !isContentOf type content then none
    else some (encode (e.tag &&& 0x1f) (if type = 3 then (bitsOf? content).getD [] else content))
  if 0x40 ≤ e.tag then some e.raw
  else if type = 0 ∧ e.content = [] then none
  else if type = 16 ∨ type = 17 then if inPieces then some e.raw else none
  else if !inPieces then write e.content
  else if [1, 2, 5, 6, 10].contains type then none
  else (joinPieces? pieceDepth e.content).bind write

end Element

/-! ## Tagging -/

/-- Which tags count as those of sequences, of rows and of sets of elements of
one type. -/
structure Tagging where
  isSequence : UInt8 → Bool
  isSequenceOf : UInt8 → Bool
  isSetOf : UInt8 → Bool

namespace Tagging

/-- The tags as they are defined. -/
def exact : Tagging := ⟨(· == Tag.sequence), Tag.isSequenceOf, Tag.isSetOf⟩

/-- Sequences and sets may take each other's tags. -/
def loose : Tagging :=
  let either (t : UInt8) : Bool := t == Tag.sequence || t == Tag.set
  ⟨either, either, either⟩

/-- The parts of a sequence. -/
def parts? (t : Tagging) (e : Element) : Option (List Element) :=
  if t.isSequence e.tag then elements? e.content else none

/-- The items of a row of elements of one type. -/
def sequenceItems? (t : Tagging) (e : Element) : Option (List Element) :=
  if t.isSequenceOf e.tag then elements? e.content else none

/-- The items of a set of elements of one type. -/
def setItems? (t : Tagging) (e : Element) : Option (List Element) :=
  if t.isSetOf e.tag then elements? e.content else none

end Tagging

/-! ## Writing -/

/-- A sequence of encoded elements. -/
def sequenceOf (parts : List Bytes) : Bytes := encode Tag.sequence parts.flatten

/-- Whether one byte string comes before another in the order of encodings. -/
def encodingLe : Bytes → Bytes → Bool
  | [], _ => true
  | _ :: _, [] => false
  | a :: as, b :: bs => a < b || (a == b && encodingLe as bs)

/-- A set of encoded elements, in the order of their encodings. -/
def setOf (parts : List Bytes) : Bytes := encode Tag.set (parts.mergeSort encodingLe).flatten

/-- A non-negative integer. -/
def integer (n : Nat) : Bytes :=
  let bytes := naturalBytes n
  encode Tag.integer (if bytes.headD 0 < 0x80 then bytes else 0 :: bytes)

/-- An integer of at most 32 bits. -/
def smallInt (n : Int) : Bytes :=
  let width := ([1, 2, 3].find? fun w => n = n.bmod (Bytes.limit w)).getD 4
  encode Tag.integer (Bytes.ofNatBE width (n % Bytes.limit width).toNat)

/-- The element without content. -/
def null : Bytes := encode Tag.null []

/-- An object identifier of given content. -/
def objectIdentifier (content : Bytes) : Bytes := encode Tag.objectIdentifier content

/-- An octet string. -/
def octetString (content : Bytes) : Bytes := encode Tag.octetString content

/-- A bit string of whole bytes. -/
def bitString (bits : Bytes) : Bytes := encode Tag.bitString (0 :: bits)

end SecureBoot.Asn1
