import SecureBoot.Bytes
import SecureBoot.Text.Blank
import SecureBoot.Text.Numeral
/-!
# Timestamps

The sixteen-byte timestamp of authenticated variables and flash records: its
wire form (`Timestamp.toBytes`, `Timestamp.ofBytes?`), its order
(`Timestamp.isAfter`, the order of the numbers `Timestamp.instant`), and the
text `YYYY-MM-DD HH:MM:SS`, read as a moment of the proleptic Gregorian
calendar.
-/

namespace SecureBoot

/-- A moment with second and nanosecond, a zone and a daylight flag. -/
structure Timestamp where
  year : UInt16
  month : UInt8
  day : UInt8
  hour : UInt8
  minute : UInt8
  second : UInt8
  nanosecond : UInt32
  timeZone : Int16
  daylight : UInt8
deriving DecidableEq, Inhabited

/-- Why a timestamp cannot be read. -/
inductive TimestampError where
  /-- There are fewer bytes than a timestamp has. -/
  | tooShort (expected got : Nat)
  /-- The text is not a date and time. -/
  | unreadable (text : String)
deriving DecidableEq

/-- The wording of a timestamp error. -/
def TimestampError.message : TimestampError → String
  | .tooShort expected got => s!"EFI_TIME needs {expected} bytes, got {got}"
  | .unreadable text => s!"invalid timestamp '{text}', expected YYYY-MM-DD HH:MM:SS"

namespace Timestamp

/-- The size of a timestamp on the wire. -/
def size : Nat := 16

/-- The timestamp whose fields are all zero. -/
def zero : Timestamp := ⟨0, 0, 0, 0, 0, 0, 0, 0, 0⟩

/-- Whether every field is zero. -/
def isZero (t : Timestamp) : Bool := t == zero

/-! ## Wire form -/

/-- The sixteen bytes of a timestamp. The eighth and the last are padding. -/
def toBytes (t : Timestamp) : Bytes :=
  Bytes.ofUInt16 t.year ++
    [t.month, t.day, t.hour, t.minute, t.second, 0] ++
    Bytes.ofUInt32 t.nanosecond ++ Bytes.ofUInt16 t.timeZone.toUInt16 ++ [t.daylight, 0]

@[simp] theorem length_toBytes (t : Timestamp) : t.toBytes.length = 16 := by
  simp [toBytes]

/-- The timestamp at the start of a byte string, absent bytes counting as zero. -/
def ofBytes (bs : Bytes) : Timestamp where
  year := bs.wordAt16 0
  month := bs.byteAt 2
  day := bs.byteAt 3
  hour := bs.byteAt 4
  minute := bs.byteAt 5
  second := bs.byteAt 6
  nanosecond := bs.wordAt32 8
  timeZone := (bs.wordAt16 12).toInt16
  daylight := bs.byteAt 14

/-- The timestamp at the start of a byte string of sufficient length. -/
def ofBytes? (bs : Bytes) : Except TimestampError Timestamp :=
  if bs.length < size then .error (.tooShort size bs.length) else .ok (ofBytes bs)

/-! ## Order -/

/-- Year to nanosecond as one number in mixed radix, so that its order is the
order of the fields from the year on. Zone and daylight flag do not count. -/
def instant (t : Timestamp) : Nat :=
  (((((t.year.toNat * 256 + t.month.toNat) * 256 + t.day.toNat) * 256 + t.hour.toNat) * 256 +
    t.minute.toNat) * 256 + t.second.toNat) * UInt32.size + t.nanosecond.toNat

/-- Whether the first timestamp is strictly later. -/
def isAfter (a b : Timestamp) : Bool := decide (b.instant < a.instant)

/-- The later of two timestamps, the first on a tie. -/
def later (a b : Timestamp) : Timestamp := if b.isAfter a then b else a

/-! ## Calendar -/

/-- Whether a year of the proleptic Gregorian calendar has a 29 February. -/
def isLeapYear (year : Int) : Bool :=
  year % 4 == 0 && (year % 100 != 0 || year % 400 == 0)

/-- The number of days of a month. -/
def daysInMonth (year : Int) (month : Nat) : Nat :=
  match month with
  | 2 => if isLeapYear year then 29 else 28
  | 4 | 6 | 9 | 11 => 30
  | _ => 31

/-- The years a date can have. -/
def isCalendarYear (year : Int) : Bool := -262143 ≤ year && year ≤ 262142

/-- The timestamp of a date and time of day. A leap second is the second
before it, and a year that does not fit sixteen bits counts as zero. -/
def ofCivil? (year : Int) (month day hour minute second : Nat) : Option Timestamp :=
  if isCalendarYear year && 1 ≤ month && month ≤ 12 && 1 ≤ day &&
      day ≤ daysInMonth year month && hour ≤ 23 && minute ≤ 59 && second ≤ 60 then
    some {
      year := if 0 ≤ year ∧ year < 65536 then UInt16.ofNat year.toNat else 0
      month := UInt8.ofNat month
      day := UInt8.ofNat day
      hour := UInt8.ofNat hour
      minute := UInt8.ofNat minute
      second := UInt8.ofNat (min second 59)
      nanosecond := 0
      timeZone := 0
      daylight := 0 }
  else none

/-- The number of days in an era of 400 years. -/
def daysPerEra : Nat := 146097

/-- Year, month and day of a number of days after the first of March of the
year zero. -/
def dateOfMarchDays (days : Nat) : Nat × Nat × Nat :=
  let era := days / daysPerEra
  let ofEra := days % daysPerEra
  let yearOfEra := (ofEra - ofEra / 1460 + ofEra / 36524 - ofEra / 146096) / 365
  let ofYear := ofEra - (365 * yearOfEra + yearOfEra / 4 - yearOfEra / 100)
  let march := (5 * ofYear + 2) / 153
  let day := ofYear - (153 * march + 2) / 5 + 1
  let month := if march < 10 then march + 3 else march - 9
  let year := era * 400 + yearOfEra + (if month ≤ 2 then 1 else 0)
  (year, month, day)

/-- The number of days of a date after the first of March of the year zero. -/
def marchDaysOfDate (year month day : Nat) : Nat :=
  let year := if month ≤ 2 then year - 1 else year
  let yearOfEra := year % 400
  let march := if month ≤ 2 then month + 9 else month - 3
  let ofYear := (153 * march + 2) / 5 + (day - 1)
  year / 400 * daysPerEra + (yearOfEra * 365 + yearOfEra / 4 - yearOfEra / 100 + ofYear)

/-- The days from the first of March of the year zero to the year 1970. -/
def epochDays : Nat := 719468

/-- The moment a number of seconds after the start of the year 1970. -/
def ofEpochSeconds (seconds : Nat) : Timestamp :=
  let (year, month, day) := dateOfMarchDays (seconds / 86400 + epochDays)
  let ofDay := seconds % 86400
  (ofCivil? year month day (ofDay / 3600) (ofDay / 60 % 60) (ofDay % 60)).getD zero

/-! ## Text -/

/-- A number of at most `width` digits, after any blanks, and what follows it. -/
def number? (width : Nat) (cs : List Char) : Option (Nat × List Char) :=
  let cs := Text.trimStart cs
  let digits := (cs.take width).takeWhile Char.isDigit
  (Text.decimal? digits).map (·, cs.drop digits.length)

/-- A year: up to four digits, or any number of digits after a sign. -/
def year? (cs : List Char) : Option (Int × List Char) :=
  match Text.trimStart cs with
  | '-' :: rest =>
    let digits := rest.takeWhile Char.isDigit
    (Text.decimal? digits).map fun n => (-(n : Int), rest.drop digits.length)
  | '+' :: rest =>
    let digits := rest.takeWhile Char.isDigit
    (Text.decimal? digits).map fun n => ((n : Int), rest.drop digits.length)
  | rest => (number? 4 rest).map fun (n, after) => ((n : Int), after)

/-- What follows a given character. -/
def expect? (c : Char) : List Char → Option (List Char)
  | d :: rest => if c = d then some rest else none
  | [] => none

/-- Reads `YYYY-MM-DD HH:MM:SS`. Each number may have blanks before it and
fewer digits, and the blank between date and time may be missing. -/
def ofChars? (cs : List Char) : Option Timestamp := do
  let (year, cs) ← year? cs
  let cs ← expect? '-' cs
  let (month, cs) ← number? 2 cs
  let cs ← expect? '-' cs
  let (day, cs) ← number? 2 cs
  let (hour, cs) ← number? 2 cs
  let cs ← expect? ':' cs
  let (minute, cs) ← number? 2 cs
  let cs ← expect? ':' cs
  let (second, cs) ← number? 2 cs
  if cs.isEmpty then ofCivil? year month day hour minute second else none

/-- Reads a date and time between blanks, as Coordinated Universal Time. -/
def parse (text : String) : Except TimestampError Timestamp :=
  match ofChars? (Text.trimChars text.toList) with
  | some t => .ok t
  | none => .error (.unreadable text)

/-- The text `YYYY-MM-DD HH:MM:SS`. -/
def text (t : Timestamp) : String :=
  let two (n : UInt8) := Text.decimalPadded 2 n.toNat
  s!"{Text.decimalPadded 4 t.year.toNat}-{two t.month}-{two t.day} " ++
    s!"{two t.hour}:{two t.minute}:{two t.second}"

end Timestamp

end SecureBoot
