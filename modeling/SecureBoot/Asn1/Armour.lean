import SecureBoot.Bytes
import SecureBoot.Text.Base64
/-!
# Text armour

Binary data between a `BEGIN` and an `END` line of one label, in base64.

`Armour.encode` writes lines of 64 characters. `Armour.read?` takes the first
block at or after a line; what stands before the `BEGIN` line does not count,
nor does white space at the end of a line. Lines before an empty line are
headers, and the lines after it have to be full but for the last.
-/

namespace SecureBoot.Asn1

/-- A block of armoured data. -/
structure Armour where
  label : String
  headers : List Bytes
  body : Bytes

namespace Armour

/-! ## Writing -/

/-- Cuts characters into lines, each with its line feed. -/
def wrapLines (width : Nat) : (count : Nat) → List Char → List Char
  | 0, _ => []
  | count + 1, cs => cs.take width ++ '\n' :: wrapLines width count (cs.drop width)

/-- The armoured text of data under a label. -/
def encode (label : String) (body : Bytes) : String :=
  let cs := Text.Base64.encodeChars body
  "-----BEGIN " ++ label ++ "-----\n" ++
    String.ofList (wrapLines 64 ((cs.length + 63) / 64) cs) ++
    "-----END " ++ label ++ "-----\n"

/-! ## Reading -/

/-- The lines of a text, without their line feeds. -/
def splitLines (bs : Bytes) : List Bytes :=
  let lines := bs.splitOn 0x0a
  if lines.getLast? = some [] then lines.dropLast else lines

/-- Whether a byte at the end of a line does not count. -/
def isTrailing (b : UInt8) : Bool := b ≤ 0x20 || 0x80 ≤ b

/-- A line without what does not count at its end. -/
def trimLine (line : Bytes) : Bytes := (line.reverse.dropWhile isTrailing).reverse

/-- What stands between a start and an end. -/
def between? (start finish : Bytes) (line : Bytes) : Option Bytes :=
  if start.isPrefixOf line && finish.isSuffixOf line &&
      start.length + finish.length ≤ line.length then
    some ((line.drop start.length).take (line.length - start.length - finish.length))
  else none

/-- The label of a `BEGIN` line. -/
def beginLabel? (line : Bytes) : Option Bytes :=
  between? (Bytes.ofString "-----BEGIN ") (Bytes.ofString "-----") line

/-- Whether a line ends the block of a label. -/
def isEnd (label line : Bytes) : Bool :=
  line == Bytes.ofString "-----END " ++ label ++ Bytes.ofString "-----"

/-- The rows of a block up to its `END` line, and the lines after it. -/
def bodyLines? (label : Bytes) : List Bytes → Option (List Bytes × List Bytes)
  | [] => none
  | line :: rest =>
    let line := trimLine line
    if (Bytes.ofString "-----END ").isPrefixOf line then
      if isEnd label line then some ([], rest) else none
    else (bodyLines? label rest).map fun (rows, after) => (line :: rows, after)

/-- Whether rows after a header are full, all but the last. -/
def areFull : List Bytes → Bool
  | [] => true
  | [last] => last.length ≤ 64
  | row :: rows => row.length == 64 && areFull rows

/-- Splits the rows of a block into headers and data. -/
def splitHeaders? (rows : List Bytes) : Option (List Bytes × List Bytes) :=
  let headers := rows.takeWhile (· != [])
  match rows.dropWhile (· != []) with
  | [] => if rows.any (·.contains 0x3a) then none else some ([], rows)
  | _ :: data => if data.contains [] || !areFull data then none else some (headers, data)

/-- The data of rows of base64, in which blanks do not count and a hyphen ends
the data. -/
def decodeRows? (rows : List Bytes) : Option Bytes :=
  let kept := (rows.flatten.takeWhile (· != 0x2d)).filter fun b =>
    !(b == 0x20 || b == 0x09 || b == 0x0d)
  Text.Base64.decodeLenient? (kept.map fun b => Char.ofNat b.toNat)

/-- The first block of the lines, and the lines after it; nothing if there is
no block or the first one is broken. -/
def read? : List Bytes → Option (Armour × List Bytes)
  | [] => none
  | line :: rest =>
    match beginLabel? (trimLine line) with
    | none => read? rest
    | some label => do
      let (rows, after) ← bodyLines? label rest
      let (headers, data) ← splitHeaders? rows
      let body ← decodeRows? data
      return (⟨(Bytes.toString? label).getD "", headers, body⟩, after)

/-- At most `fuel` blocks of the lines, up to the first broken one. -/
def readMany : (fuel : Nat) → List Bytes → List Armour
  | 0, _ => []
  | fuel + 1, lines =>
    match read? lines with
    | none => []
    | some (block, rest) => block :: readMany fuel rest

/-- The blocks of a text, up to the first broken one. -/
def blocks (bs : Bytes) : List Armour :=
  let lines := splitLines bs
  readMany lines.length lines

/-- The body of the first block with one of the labels. -/
def find? (labels : List String) (bs : Bytes) : Option Armour :=
  (blocks bs).find? (labels.contains ·.label)

end Armour

end SecureBoot.Asn1
