import SecureBoot.Asn1.Element
import SecureBoot.Timestamp
/-!
# Times of certificates

A time is written with a year of two digits up to the year 2049 and of four
digits from then on, in both forms to the second.
-/

namespace SecureBoot.Asn1.Time

/-- The last second that can be written, after the start of the year 1970. -/
def maximum : Nat := (Timestamp.marchDaysOfDate 10000 1 1 - Timestamp.epochDays) * 86400 - 1

/-- The encoded time of a number of seconds after the start of the year 1970,
if its year has four digits. -/
def encode? (seconds : Nat) : Option Bytes :=
  if maximum < seconds then none
  else
    let (year, month, day) :=
      Timestamp.dateOfMarchDays (seconds / 86400 + Timestamp.epochDays)
    let ofDay := seconds % 86400
    let rest := String.join ([month, day, ofDay / 3600, ofDay / 60 % 60, ofDay % 60].map
      (Text.decimalPadded 2)) ++ "Z"
    if year < 2050 then
      some (encode Tag.utcTime (Bytes.ofString (Text.decimalPadded 2 (year % 100) ++ rest)))
    else some (encode Tag.generalizedTime (Bytes.ofString (Text.decimalPadded 4 year ++ rest)))

/-- The number of digits at the front of a row. -/
def digits? (width : Nat) (cs : List Char) : Option Nat :=
  if cs.length < width then none else Text.decimal? (cs.take width)

/-- The days and seconds of a written time, the days counted from the first of
March of the year zero. -/
def parse? (content : Bytes) : Option (Nat × Nat) := do
  let cs := content.map fun b => Char.ofNat b.toNat
  let yearWidth := cs.length - 11
  let year ← digits? yearWidth cs
  let year := if yearWidth = 2 then (if year < 50 then 2000 + year else 1900 + year) else year
  let field (i : Nat) : Option Nat := digits? 2 (cs.drop (yearWidth + 2 * i))
  return (Timestamp.marchDaysOfDate year (← field 0) (← field 1),
    (← field 2) * 3600 + (← field 3) * 60 + (← field 4))

/-- The whole days between two written times. -/
def daysBetween? (start finish : Bytes) : Option Int := do
  let (d1, s1) ← parse? start
  let (d2, s2) ← parse? finish
  return Int.tdiv (((d2 : Int) - d1) * 86400 + ((s2 : Int) - s1)) 86400

end SecureBoot.Asn1.Time
