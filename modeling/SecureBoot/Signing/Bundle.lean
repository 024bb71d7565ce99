import SecureBoot.Envelope
import SecureBoot.Json
/-!
# Signing bundles

The text file that goes to the keeper of a key and back. It holds a request,
and the digest and the length of the message to sign, so that a bundle edited
by hand is noticed.
-/

namespace SecureBoot

/-- What is given to the keeper of a key. -/
structure SigningBundle where
  formatVersion : UInt32
  /-- The name of the variable. -/
  name : String
  guid : Guid
  attributes : Attributes
  timestamp : Timestamp
  /-- The payload in base64. -/
  payload : String
  /-- The SHA-256 digest of the message in hexadecimal. -/
  messageDigest : String
  messageLength : Nat
deriving DecidableEq

/-! ## Timestamps -/

namespace Timestamp

/-- The names of the fields of a timestamp. -/
def fieldNames : List String :=
  ["year", "month", "day", "hour", "minute", "second", "nanosecond", "time_zone", "daylight"]

/-- A timestamp as a record of numbers. -/
def toJson (t : Timestamp) : Json :=
  .ofMembers (fieldNames.zip [.natural t.year.toNat, .natural t.month.toNat,
    .natural t.day.toNat, .natural t.hour.toNat, .natural t.minute.toNat,
    .natural t.second.toNat, .natural t.nanosecond.toNat, .integer t.timeZone.toInt,
    .natural t.daylight.toNat])

/-- Reads a timestamp. -/
def ofJson? (v : Json) : Option Timestamp := do
  match ← v.fields? fieldNames with
  | [year, month, day, hour, minute, second, nanosecond, timeZone, daylight] =>
    return {
      year := UInt16.ofNat (← year.natural? UInt16.size)
      month := UInt8.ofNat (← month.natural? UInt8.size)
      day := UInt8.ofNat (← day.natural? UInt8.size)
      hour := UInt8.ofNat (← hour.natural? UInt8.size)
      minute := UInt8.ofNat (← minute.natural? UInt8.size)
      second := UInt8.ofNat (← second.natural? UInt8.size)
      nanosecond := UInt32.ofNat (← nanosecond.natural? UInt32.size)
      timeZone := Int16.ofInt (← timeZone.integer? Int16.minValue.toInt Int16.maxValue.toInt)
      daylight := UInt8.ofNat (← daylight.natural? UInt8.size) }
  | _ => none

end Timestamp

/-! ## Bundles -/

namespace SigningBundle

/-- The version of the format. -/
def currentVersion : UInt32 := 1

/-- The names of the fields of a bundle. -/
def fieldNames : List String :=
  ["format_version", "variable", "guid", "attributes", "timestamp", "payload",
    "message_sha256", "message_length"]

/-- A bundle as a record. -/
def toValue (b : SigningBundle) : Json :=
  .ofMembers (fieldNames.zip [.natural b.formatVersion.toNat, .text b.name,
    .text b.guid.text, .natural b.attributes.bits.toNat, b.timestamp.toJson,
    .text b.payload, .text b.messageDigest, .natural b.messageLength])

/-- Reads a bundle. -/
def ofValue? (v : Json) : Option SigningBundle := do
  match ← v.fields? fieldNames with
  | [version, name, guid, attributes, timestamp, payload, digest, length] =>
    return {
      formatVersion := UInt32.ofNat (← version.natural? UInt32.size)
      name := ← name.text?
      guid := ← Guid.ofChars? (← guid.text?).toList
      attributes := ⟨UInt32.ofNat (← attributes.natural? UInt32.size)⟩
      timestamp := ← Timestamp.ofJson? timestamp
      payload := ← payload.text?
      messageDigest := ← digest.text?
      messageLength := ← length.natural? UInt64.size }
  | _ => none

/-- The text of a bundle. -/
def toJson (b : SigningBundle) : String := b.toValue.pretty

/-- Reads the text of a bundle. -/
def ofJson (text : String) : Except AuthError SigningBundle :=
  match (Json.parse? text).bind ofValue? with
  | some b => .ok b
  | none => .error .malformedBundle

end SigningBundle

end SecureBoot
