import SecureBoot.Text.Numeral
/-!
# Decimal fractions

Numbers with a fraction are kept in binary with 53 significant bits. `Binary.ofRatio?`
finds the nearest such number to a fraction, and `Binary.shortest` the fewest
decimal digits that lead back to it. `canonicalDecimal?` writes a decimal numeral as
the shortest one of the same binary number, without an exponent.
-/

namespace SecureBoot.Text

/-! ## Powers -/

/-- A power of two. -/
def twoTo (exponent : Nat) : Nat := 1 <<< exponent

/-- A power of ten. -/
def tenTo : (exponent : Nat) → Nat
  | 0 => 1
  | exponent + 1 => 10 * tenTo exponent

/-! ## Binary numbers -/

/-- The number `mantissa * 2 ^ exponent`. -/
structure Binary where
  mantissa : Nat
  exponent : Int
deriving DecidableEq

namespace Binary

/-- The bits of a mantissa. -/
def precision : Nat := 53

/-- The least exponent. -/
def leastExponent : Int := -1074

/-- The greatest exponent. -/
def greatestExponent : Int := 971

/-- A quotient rounded to the nearest whole number, halves to the even one. -/
def roundHalfEven (n d : Nat) : Nat :=
  let q := n / d
  let twice := 2 * (n % d)
  if d < twice ∨ (twice = d ∧ q % 2 = 1) then q + 1 else q

/-- The greatest exponent `e` with `2 ^ e * d ≤ n`, for numbers that are not zero. -/
def floorLog2 (n d : Nat) : Int :=
  let e : Int := n.log2 - d.log2
  if d * twoTo e.toNat ≤ n * twoTo (-e).toNat then e else e - 1

/-- The number nearest to a fraction, if it is not too large. -/
def ofRatio? (n d : Nat) : Option Binary :=
  if n = 0 then some ⟨0, 0⟩
  else
    let e := max leastExponent (floorLog2 n d - (precision - 1))
    let m := roundHalfEven (n * twoTo (-e).toNat) (d * twoTo e.toNat)
    let (m, e) := if m = twoTo precision then (twoTo (precision - 1), e + 1) else (m, e)
    if e ≤ greatestExponent then some ⟨m, e⟩ else none

/-- The number nearest to `digits * 10 ^ exponent`, if it is not too large. -/
def ofDecimal? (digits : Nat) (exponent : Int) : Option Binary :=
  ofRatio? (digits * tenTo exponent.toNat) (tenTo (-exponent).toNat)

/-- The number as a fraction. -/
def ratio (b : Binary) : Nat × Nat :=
  (b.mantissa * twoTo b.exponent.toNat, twoTo (-b.exponent).toNat)

/-- The place of the first decimal digit of a fraction that is not zero: the
greatest `e` with `10 ^ e * d ≤ n`. -/
def firstPlace (n d : Nat) : Int :=
  let guess : Int := ((Nat.toDigits 10 n).length : Int) - (Nat.toDigits 10 d).length
  if d * tenTo guess.toNat ≤ n * tenTo (-guess).toNat then guess else guess - 1

/-- The neighbours of a number on the grid of a decimal exponent that lead back
to the number, the nearer one first. -/
def onGrid (b : Binary) (exponent : Int) : List Nat :=
  let (n, d) := b.ratio
  let n := n * tenTo (-exponent).toNat
  let d := d * tenTo exponent.toNat
  let below := n / d
  let pair := if d < 2 * (n % d) then [below + 1, below] else [below, below + 1]
  pair.filter fun digits => ofDecimal? digits exponent == some b

/-- The fewest decimal digits that lead back to a number, with their exponent. -/
def shortest (b : Binary) : Nat × Int :=
  if b.mantissa = 0 then (0, 0)
  else
    let (n, d) := b.ratio
    let first := firstPlace n d
    let found := (List.range 17).findSome? fun more =>
      let exponent := first - Int.ofNat more
      (b.onGrid exponent).head?.map (·, exponent)
    found.getD (b.mantissa, 0)

end Binary

/-! ## Numerals -/

/-- The row of digits of `digits * 10 ^ exponent`, with a point where it needs one. -/
def positional (digits : Nat) (exponent : Int) : List Char :=
  let ds := Nat.toDigits 10 digits
  let ds := ds ++ List.replicate exponent.toNat '0'
  let places := (-exponent).toNat
  if places = 0 then ds
  else
    let ds := padZeros (places + 1) ds
    let (whole, fraction) := ds.splitAt (ds.length - places)
    let fraction := (fraction.reverse.dropWhile (· == '0')).reverse
    if fraction.isEmpty then whole else whole ++ '.' :: fraction

/-- The digits at the front, and what follows. -/
def spanDigits (cs : List Char) : List Char × List Char :=
  (cs.takeWhile Char.isDigit, cs.dropWhile Char.isDigit)

/-- The value of a row of digits, which may be empty. -/
def digitsValue (ds : List Char) : Nat := (decimal? ds).getD 0

/-- Reads what is left of a numeral as an exponent, zero when nothing is left. -/
def exponentPart? : List Char → Option Int
  | [] => some 0
  | c :: rest =>
    if c = 'e' ∨ c = 'E' then
      match rest with
      | '-' :: ds => (decimal? ds).map fun n => -(n : Int)
      | '+' :: ds => (decimal? ds).map fun n => (n : Int)
      | ds => (decimal? ds).map fun n => (n : Int)
    else none

/-- Reads a numeral without a sign as digits and an exponent. There have to be
digits before the point or after it. -/
def unsignedDecimal? (cs : List Char) : Option (Nat × Int) := do
  let (whole, rest) := spanDigits cs
  let (fraction, rest) := match rest with
    | '.' :: rest => spanDigits rest
    | rest => ([], rest)
  if whole.isEmpty && fraction.isEmpty then none
  let exponent ← exponentPart? rest
  return (digitsValue (whole ++ fraction), exponent - (fraction.length : Int))

/-- Far from zero every exponent gives a number that is too large or too small. -/
def exponentLimit : Int := 5000

/-- The binary number nearest to `digits * 10 ^ exponent`, none when it is too large. -/
def nearest? (digits : Nat) (exponent : Int) : Option Binary :=
  let place := exponent + (Nat.toDigits 10 digits).length
  if digits = 0 ∨ place < -exponentLimit then some ⟨0, 0⟩
  else if exponentLimit < place then none
  else Binary.ofDecimal? digits exponent

/-- The sign of a numeral: the part after it, and whether it is a minus. -/
def takeSign : List Char → Bool × List Char
  | '-' :: rest => (true, rest)
  | '+' :: rest => (false, rest)
  | cs => (false, cs)

/-- The words for what is no number, and for what is too large. -/
def specialNumeral? (cs : List Char) : Option String :=
  match String.ofList (cs.map Char.toLower) with
  | "inf" | "infinity" => some "inf"
  | "nan" => some "NaN"
  | _ => none

/-- The text of a decimal numeral in its shortest form without an exponent. -/
def canonicalDecimal? (text : String) : Option String := do
  let (negative, cs) := takeSign text.toList
  let sign := if negative then "-" else ""
  match specialNumeral? cs with
  | some "NaN" => return "NaN"
  | some word => return sign ++ word
  | none =>
    let (digits, exponent) ← unsignedDecimal? cs
    match nearest? digits exponent with
    | none => return sign ++ "inf"
    | some b =>
      let (digits, exponent) := b.shortest
      return sign ++ String.ofList (positional digits exponent)

end SecureBoot.Text
