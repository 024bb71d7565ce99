import SecureBoot.CommandLine.Target
/-!
# Flash images

The commands that look into a flash image and provision it: a variable is put
there as it is, without authentication.
-/

namespace SecureBoot.CommandLine

/-! ## Listing -/

/-- A number in hexadecimal after `0x`. -/
def hexNumber (n : Nat) : String := hexText 1 n

/-- The name of the state of a record. -/
def stateName (r : FlashRecord) : String :=
  if r.isLive then "added"
  else if r.isInDeletedTransition then "in-deleted-transition"
  else "deleted"

/-- A record in a listing. -/
def describeRecord (r : FlashRecord) : Json :=
  answer [("name", .text r.id.name), ("guid", .text r.id.guid.text),
    ("offset", .text (hexNumber r.offset)), ("state", .text (stateName r)),
    ("attributes", .text r.attributes.text), ("timestamp", .text r.timestamp.text),
    ("size", .natural r.data.length)]

/-- Lists the variables of a flash image, with deleted ones if they are asked
for. -/
def listFlash (c : Context) (image : Option String) (all : Bool) : CommandScript Json := do
  let some path := image <|> c.settings.flashImage
    | CommandScript.refuse "no flash image given and store.flash_image is not set"
  let store ← readImage path
  let records ← CommandScript.check .flash store.records
  let free ← CommandScript.check .flash store.freeSpace
  let listed := records.filter fun r => all || r.isValid
  return answer [("image", .text path), ("store_offset", .text (hexNumber store.offset)),
    ("free", .natural free), ("variables", .array (listed.map describeRecord))]

/-! ## Provisioning -/

/-- Reads an attribute word in hexadecimal between blanks, which may start with
`0x` or `0X`. -/
def attributeWord? (text : String) : Option Attributes :=
  let digits := match Text.trimChars text.toList with
    | '0' :: 'x' :: rest | '0' :: 'X' :: rest => rest
    | cs => cs
  match Text.hexadecimal? (Text.dropPlus digits) with
  | some n => if n < UInt32.size then some ⟨UInt32.ofNat n⟩ else none
  | none => none

namespace FlashWriteRequest

/-- The variable, if it is one of those that hold databases. -/
def known? (r : FlashWriteRequest) : Option SecureVariable := SecureVariable.ofName? r.variableName

/-- The owner that is given, else that of the variable. -/
def guid (r : FlashWriteRequest) : CommandScript Guid :=
  match r.owner, r.known? with
  | some text, _ => CommandScript.check .guid (Guid.parse text)
  | none, some v => return v.guid
  | none, none =>
    CommandScript.refuse
      s!"{r.variableName} is not a known variable, pass its GUID with --owner"

/-- The attributes that are given, else those of the variable. -/
def attributeWord (r : FlashWriteRequest) : CommandScript Attributes :=
  match r.attributes, r.known? with
  | some text, _ =>
    match attributeWord? text with
    | some a => return a
    | none =>
      CommandScript.refuse s!"invalid attributes '{text}', expected a hexadecimal word"
  | none, some v => return v.attributes
  | none, none => return .authenticatedDatabase

end FlashWriteRequest

/-- Puts the contents of a file into a flash image as a variable. -/
def writeFlash (c : Context) (r : FlashWriteRequest) : CommandScript Json := do
  let guid ← r.guid
  let attributes ← r.attributeWord
  let timestamp ← c.timeOf r.timestamp
  let id : VariableId := ⟨(r.known?.map (·.name)).getD r.variableName, guid⟩
  let data ← CommandScript.readFile r.file
  let store ← readImage r.image
  writeImage r.image (← CommandScript.check .flash (store.write id attributes timestamp data))
  return answerWith
    s!"Set {id.text} ({data.length} bytes, attributes {attributes.text}) in {r.image}"
    [("name", .text id.name), ("guid", .text guid.text), ("bytes", .natural data.length)]

end SecureBoot.CommandLine
