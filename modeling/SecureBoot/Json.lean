import SecureBoot.Bytes
import SecureBoot.Text.Numeral
/-!
# JSON

Values, their text, and reading text back.

`Json.pretty` writes a value with two blanks for each level of nesting.
`Json.parse?` reads a text that is one value between blanks. Of numbers only
whole ones keep their value, and a text in which a surrogate stands alone has
none.
-/

namespace SecureBoot

/-- A value. -/
inductive Json where
  | null
  | bool (b : Bool)
  | integer (n : Int)
  /-- A number with a fraction or an exponent, or minus zero. -/
  | inexact
  /-- A text, if all its surrogates come in pairs. -/
  | string (s : Option String)
  | array (items : List Json)
  | object (members : List (Option String × Json))
deriving Inhabited

namespace Json

/-- A text value. -/
def text (s : String) : Json := .string (some s)

/-- A number that is not negative. -/
def natural (n : Nat) : Json := .integer n

/-- A value that may be missing. -/
def ofOption {α : Type} (f : α → Json) : Option α → Json
  | some a => f a
  | none => .null

/-- An object with the given members. -/
def ofMembers (members : List (String × Json)) : Json :=
  .object (members.map fun (name, value) => (some name, value))

/-! ## Writing -/

/-- The escape of a control character. -/
def controlEscape (c : Char) : List Char :=
  ['\\', 'u', '0', '0', Bytes.hexDigit (c.toNat / 16), Bytes.hexDigit (c.toNat % 16)]

/-- A character as it stands in a text. -/
def escapeChar (c : Char) : List Char :=
  if c = '"' then ['\\', '"']
  else if c = '\\' then ['\\', '\\']
  else if c = '\x08' then ['\\', 'b']
  else if c = '\x0c' then ['\\', 'f']
  else if c = '\n' then ['\\', 'n']
  else if c = '\r' then ['\\', 'r']
  else if c = '\t' then ['\\', 't']
  else if c < ' ' then controlEscape c
  else [c]

/-- A text between quotation marks. -/
def quote (s : String) : List Char := '"' :: s.toList.flatMap escapeChar ++ ['"']

/-- Two blanks for each level. -/
def indent (level : Nat) : List Char := List.replicate (2 * level) ' '

/-- Parts on lines of their own between two brackets. -/
def block (level : Nat) (start finish : Char) (parts : List (List Char)) : List Char :=
  match parts with
  | [] => [start, finish]
  | _ =>
    let line (part : List Char) : List Char := '\n' :: indent (level + 1) ++ part
    start :: [','].intercalate (parts.map line) ++ '\n' :: indent level ++ [finish]

mutual

/-- The text of a value at a level of nesting. -/
def write (level : Nat) : Json → List Char
  | .null => "null".toList
  | .bool b => (if b then "true" else "false").toList
  | .integer n => (toString n).toList
  | .inexact => "0.0".toList
  | .string s => quote (s.getD "")
  | .array items => block level '[' ']' (writeItems level items)
  | .object members => block level '\x7b' '\x7d' (writeMembers level members)

/-- The texts of the items of an array. -/
def writeItems (level : Nat) : List Json → List (List Char)
  | [] => []
  | v :: rest => write (level + 1) v :: writeItems level rest

/-- The texts of the members of an object. -/
def writeMembers (level : Nat) : List (Option String × Json) → List (List Char)
  | [] => []
  | (name, v) :: rest =>
    (quote (name.getD "") ++ [':', ' '] ++ write (level + 1) v) :: writeMembers level rest

end

/-- The text of a value, with two blanks for each level of nesting. -/
def pretty (v : Json) : String := String.ofList (write 0 v)

/-! ## Reading -/

/-- Whether a character is a blank between the parts of a value. -/
def isBlank (c : Char) : Bool := c == ' ' || c == '\n' || c == '\t' || c == '\r'

/-- Drops the blanks at the front. -/
def skip (cs : List Char) : List Char := cs.dropWhile isBlank

/-- Drops a given row of characters at the front. -/
def expect? (wanted cs : List Char) : Option (List Char) :=
  if wanted.isPrefixOf cs then some (cs.drop wanted.length) else none

/-- The digits at the front, of which there has to be one. -/
def digits? (cs : List Char) : Option (List Char × List Char) :=
  let ds := cs.takeWhile Char.isDigit
  if ds.isEmpty then none else some (ds, cs.drop ds.length)

/-- Drops a fraction, if there is one, and tells whether there was. -/
def fraction? : List Char → Option (Bool × List Char)
  | '.' :: rest => (digits? rest).map fun (_, after) => (true, after)
  | cs => some (false, cs)

/-- Drops an exponent, if there is one, and tells whether there was. -/
def exponent? : List Char → Option (Bool × List Char)
  | c :: rest =>
    if c = 'e' ∨ c = 'E' then
      let rest := match rest with
        | '+' :: after | '-' :: after => after
        | after => after
      (digits? rest).map fun (_, after) => (true, after)
    else some (false, c :: rest)
  | [] => some (false, [])

/-- Reads a number without a sign. The digit zero stands alone. -/
def magnitude? (cs : List Char) : Option (Option Nat × List Char) := do
  let (ds, rest) ← digits? cs
  if ds.head? = some '0' ∧ 1 < ds.length then none
  let (hasFraction, rest) ← fraction? rest
  let (hasExponent, rest) ← exponent? rest
  return (if hasFraction || hasExponent then none else Text.decimal? ds, rest)

/-- Reads a number. -/
def number? (cs : List Char) : Option (Json × List Char) :=
  match cs with
  | '-' :: cs => (magnitude? cs).map fun
    | (some 0, rest) | (none, rest) => (.inexact, rest)
    | (some n, rest) => (.integer (-n), rest)
  | cs => (magnitude? cs).map fun
    | (none, rest) => (.inexact, rest)
    | (some n, rest) => (.integer n, rest)

/-- The value of four hexadecimal digits at the front. -/
def hex4? : List Char → Option (Nat × List Char)
  | a :: b :: c :: d :: rest => (Text.hexadecimal? [a, b, c, d]).map (·, rest)
  | _ => none

/-- A unit of sixteen bits or a character, as it stands in a text. -/
inductive Piece where
  | char (c : Char)
  | unit (n : Nat)

/-- The character that a letter after a backslash stands for. -/
def escaped? : Char → Option Char
  | '"' => some '"'
  | '\\' => some '\\'
  | '/' => some '/'
  | 'b' => some '\x08'
  | 'f' => some '\x0c'
  | 'n' => some '\n'
  | 'r' => some '\r'
  | 't' => some '\t'
  | _ => none

/-- Reads the pieces of a text up to its closing quotation mark. -/
def pieces? : (fuel : Nat) → List Char → Option (List Piece × List Char)
  | 0, _ => none
  | fuel + 1, cs =>
    match cs with
    | [] => none
    | '"' :: rest => some ([], rest)
    | '\\' :: 'u' :: rest => do
      let (n, rest) ← hex4? rest
      let (after, rest) ← pieces? fuel rest
      return (.unit n :: after, rest)
    | '\\' :: c :: rest => do
      let c ← escaped? c
      let (after, rest) ← pieces? fuel rest
      return (.char c :: after, rest)
    | c :: rest =>
      if c < ' ' then none
      else (pieces? fuel rest).map fun (after, rest) => (.char c :: after, rest)

/-- Joins pairs of surrogates. -/
def join? : List Piece → Option (List Char)
  | [] => some []
  | .char c :: rest => (join? rest).map (c :: ·)
  | .unit n :: rest =>
    if n < 0xD800 ∨ 0xDFFF < n then (join? rest).map (Char.ofNat n :: ·)
    else
      match rest with
      | .unit m :: rest =>
        if n < 0xDC00 ∧ 0xDC00 ≤ m ∧ m ≤ 0xDFFF then
          (join? rest).map (Char.ofNat (0x10000 + (n - 0xD800) * 0x400 + (m - 0xDC00)) :: ·)
        else none
      | _ => none

/-- Reads a text after its opening quotation mark. -/
def string? (cs : List Char) : Option (Option String × List Char) :=
  (pieces? (cs.length + 1) cs).map fun (ps, rest) => ((join? ps).map String.ofList, rest)

mutual

/-- Reads a value after any blanks. -/
def value? : (fuel : Nat) → List Char → Option (Json × List Char)
  | 0, _ => none
  | fuel + 1, cs =>
    match skip cs with
    | [] => none
    | '"' :: rest => (string? rest).map fun (s, rest) => (.string s, rest)
    | '[' :: rest =>
      match skip rest with
      | ']' :: rest => some (.array [], rest)
      | rest => (items? fuel rest).map fun (items, rest) => (.array items, rest)
    | '\x7b' :: rest =>
      match skip rest with
      | '\x7d' :: rest => some (.object [], rest)
      | rest => (members? fuel rest).map fun (members, rest) => (.object members, rest)
    | 'n' :: rest => (expect? "ull".toList rest).map (.null, ·)
    | 't' :: rest => (expect? "rue".toList rest).map (.bool true, ·)
    | 'f' :: rest => (expect? "alse".toList rest).map (.bool false, ·)
    | cs => number? cs

/-- Reads the items of an array and its closing bracket. -/
def items? : (fuel : Nat) → List Char → Option (List Json × List Char)
  | 0, _ => none
  | fuel + 1, cs => do
    let (v, rest) ← value? fuel cs
    match skip rest with
    | ']' :: rest => some ([v], rest)
    | ',' :: rest => (items? fuel rest).map fun (vs, rest) => (v :: vs, rest)
    | _ => none

/-- Reads the members of an object and its closing bracket. -/
def members? : (fuel : Nat) → List Char → Option (List (Option String × Json) × List Char)
  | 0, _ => none
  | fuel + 1, cs => do
    match skip cs with
    | '"' :: rest =>
      let (name, rest) ← string? rest
      match skip rest with
      | ':' :: rest =>
        let (v, rest) ← value? fuel rest
        match skip rest with
        | '\x7d' :: rest => some ([(name, v)], rest)
        | ',' :: rest => (members? fuel rest).map fun (ms, rest) => ((name, v) :: ms, rest)
        | _ => none
      | _ => none
    | _ => none

end

/-- Reads a text that is one value between blanks. -/
def parse? (s : String) : Option Json := do
  let (v, rest) ← value? (2 * s.length + 2) s.toList
  if (skip rest).isEmpty then some v else none

/-! ## Taking values apart -/

/-- A text. -/
def text? : Json → Option String
  | .string s => s
  | _ => none

/-- A whole number between two bounds. -/
def integer? (low high : Int) : Json → Option Int
  | .integer n => if low ≤ n ∧ n ≤ high then some n else none
  | _ => none

/-- A whole number below a limit that is not negative. -/
def natural? (limit : Nat) (v : Json) : Option Nat :=
  (v.integer? 0 ((limit : Int) - 1)).map Int.toNat

/-- The only member of a name. -/
def member? (members : List (Option String × Json)) (name : String) : Option Json :=
  match members.filter (·.1 = some name) with
  | [(_, v)] => some v
  | _ => none

/-- The values of a record of named fields: either an object with every field
once, or an array of the fields in order. Other members do not count. -/
def fields? (names : List String) : Json → Option (List Json)
  | .object members =>
    if members.any (·.1.isNone) then none else names.mapM (member? members)
  | .array items => if items.length = names.length then some items else none
  | _ => none

end Json

end SecureBoot
