import SecureBoot.Bytes
/-!
# Numerals

Reading numbers in base ten and sixteen from characters, and writing them
padded with zeros to a width.
-/

namespace SecureBoot.Text

/-- The value of a decimal digit. -/
def digitValue? (c : Char) : Option Nat :=
  if '0' ≤ c ∧ c ≤ '9' then some (c.toNat - 48) else none

/-- The number that a non-empty row of digits stands for. -/
def numeral? (base : Nat) (digit : Char → Option Nat) : List Char → Option Nat
  | [] => none
  | cs => cs.foldlM (fun n c => (digit c).map (n * base + ·)) 0

/-- The number that a non-empty row of decimal digits stands for. -/
def decimal? (cs : List Char) : Option Nat := numeral? 10 digitValue? cs

/-- The number that a non-empty row of hexadecimal digits of either case stands for. -/
def hexadecimal? (cs : List Char) : Option Nat := numeral? 16 Bytes.hexValue? cs

/-- A leading plus sign is allowed in front of an unsigned numeral. -/
def dropPlus : List Char → List Char
  | '+' :: rest => rest
  | cs => cs

/-- Puts zeros in front up to a width. -/
def padZeros (width : Nat) (cs : List Char) : List Char :=
  List.replicate (width - cs.length) '0' ++ cs

/-- Decimal digits, with zeros in front up to a width. -/
def decimalPadded (width n : Nat) : String :=
  String.ofList (padZeros width (Nat.toDigits 10 n))

/-- Lower-case hexadecimal digits, with zeros in front up to a width. -/
def hexPadded (width n : Nat) : String :=
  String.ofList (padZeros width (Nat.toDigits 16 n))

end SecureBoot.Text
