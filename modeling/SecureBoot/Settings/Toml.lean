import SecureBoot.Settings.Value
import SecureBoot.Text.Decimal
/-!
# TOML

Reading a settings file. `Toml.parse?` gives the table that a text describes,
or nothing for a text that breaks the rules of the format: each key has one
value, and each table is opened once.
-/

namespace SecureBoot.Toml

/-! ## Blanks and comments -/

/-- Blanks inside a line. -/
def isSpace (c : Char) : Bool := c == ' ' || c == '\t'

/-- Control characters, which stand nowhere but for the tab and ends of lines. -/
def isControl (c : Char) : Bool := c.toNat < 0x20 && c != '\t' || c.toNat == 0x7f

/-- Drops the blanks at the front. -/
def skipSpace (cs : List Char) : List Char := cs.dropWhile isSpace

/-- Takes the end of a line off the front. -/
def lineEnd? : List Char → Option (List Char)
  | '\n' :: rest => some rest
  | '\r' :: '\n' :: rest => some rest
  | _ => none

/-- Whether a line ends here. -/
def atLineEnd (cs : List Char) : Bool := cs.isEmpty || (lineEnd? cs).isSome

/-- Drops blanks and a comment up to the end of the line. -/
def skipComment? (cs : List Char) : Option (List Char) :=
  match skipSpace cs with
  | '#' :: rest =>
    let rest := rest.dropWhile fun c => !isControl c
    if atLineEnd rest then some rest else none
  | rest => some rest

/-- Drops blanks, comments and ends of lines. -/
def skipLines? : (fuel : Nat) → List Char → Option (List Char)
  | 0, _ => none
  | fuel + 1, cs => do
    let rest ← skipComment? cs
    match lineEnd? rest with
    | some rest => skipLines? fuel rest
    | none => some rest

/-- Takes the rest of a line that has nothing more to say. -/
def endLine? (cs : List Char) : Option (List Char) := do
  let rest ← skipComment? cs
  if rest.isEmpty then some rest else lineEnd? rest

/-! ## Strings -/

/-- The character that a number of hexadecimal digits after a backslash stands for. -/
def codePoint? (width : Nat) (cs : List Char) : Option (Char × List Char) := do
  let ds := cs.take width
  if ds.length ≠ width then none
  let n ← Text.hexadecimal? ds
  if h : n.isValidChar then some (Char.ofNatAux n h, cs.drop width) else none

/-- What a backslash and the characters after it stand for. -/
def escape? : List Char → Option (Char × List Char)
  | 'b' :: rest => some ('\x08', rest)
  | 't' :: rest => some ('\t', rest)
  | 'n' :: rest => some ('\n', rest)
  | 'f' :: rest => some ('\x0c', rest)
  | 'r' :: rest => some ('\r', rest)
  | '"' :: rest => some ('"', rest)
  | '\\' :: rest => some ('\\', rest)
  | 'u' :: rest => codePoint? 4 rest
  | 'U' :: rest => codePoint? 8 rest
  | _ => none

/-- Reads a string after its opening mark. Only between double marks a backslash
starts an escape. -/
def quoted? (mark : Char) : (fuel : Nat) → List Char → Option (List Char × List Char)
  | 0, _ => none
  | fuel + 1, cs =>
    match cs with
    | [] => none
    | c :: rest =>
      if c = mark then some ([], rest)
      else if c = '\\' ∧ mark = '"' then do
        let (c, rest) ← escape? rest
        (quoted? mark fuel rest).map fun (cs, rest) => (c :: cs, rest)
      else if isControl c then none
      else (quoted? mark fuel rest).map fun (cs, rest) => (c :: cs, rest)

/-- Drops the blanks and ends of lines after a backslash at the end of a line. -/
def continueLine? (cs : List Char) : Option (List Char) := do
  let rest ← lineEnd? (skipSpace cs)
  return rest.dropWhile fun c => isSpace c || c == '\n' || c == '\r'

/-- The length of the row of marks at the front. -/
def countMarks (mark : Char) (cs : List Char) : Nat := (cs.takeWhile (· == mark)).length

/-- Reads a string of several lines after its three opening marks. Up to two
marks stand for themselves, and the last three of a longer row end the string. -/
def longQuoted? (mark : Char) : (fuel : Nat) → List Char → Option (List Char × List Char)
  | 0, _ => none
  | fuel + 1, cs =>
    match cs with
    | [] => none
    | c :: rest =>
      if c = mark then
        let n := countMarks mark cs
        if n < 3 then (longQuoted? mark fuel rest).map fun (cs, rest) => (c :: cs, rest)
        else if n ≤ 5 then some (List.replicate (n - 3) mark, cs.drop n)
        else none
      else if c = '\\' ∧ mark = '"' then
        match continueLine? rest with
        | some rest => longQuoted? mark fuel rest
        | none => do
          let (c, rest) ← escape? rest
          (longQuoted? mark fuel rest).map fun (cs, rest) => (c :: cs, rest)
      else
        match lineEnd? cs with
        | some rest => (longQuoted? mark fuel rest).map fun (cs, rest) => ('\n' :: cs, rest)
        | none =>
          if isControl c then none
          else (longQuoted? mark fuel rest).map fun (cs, rest) => (c :: cs, rest)

/-- Reads a string of either mark. -/
def string? (mark : Char) (rest : List Char) : Option (String × List Char) :=
  let fuel := rest.length + 1
  let read := match rest with
    | a :: b :: rest =>
      if a = mark ∧ b = mark then longQuoted? mark fuel ((lineEnd? rest).getD rest)
      else quoted? mark fuel (a :: b :: rest)
    | rest => quoted? mark fuel rest
  -- two marks with no third one are an empty string
  let read := match rest with
    | a :: b :: rest => if a = mark ∧ b ≠ mark then some ([], b :: rest) else read
    | _ => read
  read.map fun (cs, rest) => (String.ofList cs, rest)

/-! ## Keys -/

/-- Whether a character may stand in a key without marks. -/
def isBareKey (c : Char) : Bool := c.isAlphanum || c == '_' || c == '-'

/-- Reads one part of a key. -/
def simpleKey? (cs : List Char) : Option (String × List Char) :=
  match cs with
  | '"' :: rest => (quoted? '"' (rest.length + 1) rest).map fun (k, rest) => (String.ofList k, rest)
  | '\'' :: rest =>
    (quoted? '\'' (rest.length + 1) rest).map fun (k, rest) => (String.ofList k, rest)
  | cs =>
    let k := cs.takeWhile isBareKey
    if k.isEmpty then none else some (String.ofList k, cs.drop k.length)

/-- Reads the parts of a key with points between them, and the blanks after it. -/
def key? : (fuel : Nat) → List Char → Option (List String × List Char)
  | 0, _ => none
  | fuel + 1, cs => do
    let (name, rest) ← simpleKey? (skipSpace cs)
    match skipSpace rest with
    | '.' :: rest => (key? fuel rest).map fun (names, rest) => (name :: names, rest)
    | rest => some ([name], rest)

/-! ## Numbers and times -/

/-- The digits of a row with underscores between them, none if one stands
elsewhere. -/
def joinDigits? (isDigit : Char → Bool) (cs : List Char) : Option (List Char) :=
  let parts := cs.splitOn '_'
  if parts.all fun part => !part.isEmpty && part.all isDigit then some parts.flatten else none

/-- The value of a digit in a base up to sixteen. -/
def digit? (base : Nat) (c : Char) : Option Nat := (Bytes.hexValue? c).filter (· < base)

/-- Reads a whole number in a base other than ten. -/
def based? (base : Nat) (cs : List Char) : Option Int := do
  let ds ← joinDigits? (fun c => (digit? base c).isSome) cs
  let n ← Text.numeral? base (digit? base) ds
  return n

/-- Reads the digits of a decimal number, of which a zero in front stands alone. -/
def decimalDigits? (cs : List Char) : Option (List Char) := do
  let ds ← joinDigits? Char.isDigit cs
  if ds.head? = some '0' ∧ 1 < ds.length then none
  return ds

/-- Reads a whole number. -/
def integer? (cs : List Char) : Option Int := do
  let n ← match cs with
    | '0' :: 'x' :: ds => based? 16 ds
    | '0' :: 'o' :: ds => based? 8 ds
    | '0' :: 'b' :: ds => based? 2 ds
    | cs =>
      let (negative, ds) := Text.takeSign cs
      let n ← Text.decimal? (← decimalDigits? ds)
      some (if negative then -(n : Int) else n)
  if SettingValue.isInteger n then some n else none

/-- Splits off the exponent of a decimal number, without its letter. -/
def splitExponent (cs : List Char) : List Char × Option (List Char) :=
  let isMark (c : Char) : Bool := c == 'e' || c == 'E'
  let rest := cs.dropWhile (!isMark ·)
  (cs.takeWhile (!isMark ·), if rest.isEmpty then none else some (rest.drop 1))

/-- Reads a number with a fraction, an exponent, or both. -/
def decimal? (cs : List Char) : Option String := do
  let (negative, body) := Text.takeSign cs
  let sign := if negative then ['-'] else []
  if body = "inf".toList ∨ body = "nan".toList then
    Text.canonicalDecimal? (String.ofList (sign ++ body))
  else
    let (number, exponent) := splitExponent body
    let whole ← decimalDigits? (number.takeWhile (· != '.'))
    let fraction ← match number.dropWhile (· != '.') with
      | [] => if exponent.isSome then some [] else none
      | _ :: ds => (joinDigits? Char.isDigit ds).map ('.' :: ·)
    let exponent ← match exponent with
      | none => some []
      | some cs => do
        let (negative, ds) := Text.takeSign cs
        let ds ← joinDigits? Char.isDigit ds
        some ('e' :: (if negative then ['-'] else []) ++ ds)
    let text ← Text.canonicalDecimal? (String.ofList (sign ++ whole ++ fraction ++ exponent))
    if text = "inf" ∨ text = "-inf" then none else some text

/-- Reads a number of exactly so many digits between two bounds. -/
def fixed? (width low high : Nat) (cs : List Char) : Option (List Char) := do
  let ds := cs.take width
  if ds.length ≠ width ∨ !ds.all Char.isDigit then none
  let n ← Text.decimal? ds
  if low ≤ n ∧ n ≤ high then some (cs.drop width) else none

/-- Takes a character off the front. -/
def expect? (wanted : Char) : List Char → Option (List Char)
  | c :: rest => if c = wanted then some rest else none
  | [] => none

/-- The days of a month. -/
def daysOf (year month : Nat) : Nat :=
  if month = 2 then (if year % 4 = 0 ∧ (year % 100 ≠ 0 ∨ year % 400 = 0) then 29 else 28)
  else if month = 4 ∨ month = 6 ∨ month = 9 ∨ month = 11 then 30
  else 31

/-- Takes a date off the front. -/
def date? (cs : List Char) : Option (List Char × List Char) := do
  let rest ← fixed? 4 0 9999 cs >>= expect? '-'
  let rest ← fixed? 2 1 12 rest >>= expect? '-'
  let days := daysOf (Text.digitsValue (cs.take 4)) (Text.digitsValue ((cs.drop 5).take 2))
  let rest ← fixed? 2 1 days rest
  return (cs.take 10, rest)

/-- The digits of a fraction of a second, as they are written again. -/
def fractionText (ds : List Char) : List Char :=
  '.' :: ((Text.padZeros 0 (ds.take 9)).reverse.dropWhile (· == '0')).reverse

/-- Takes a time of day off the front. -/
def clock? (cs : List Char) : Option (List Char × List Char) := do
  let rest ← fixed? 2 0 23 cs >>= expect? ':'
  let rest ← fixed? 2 0 59 rest >>= expect? ':'
  let rest ← fixed? 2 0 60 rest
  match rest with
  | '.' :: rest =>
    let (ds, rest) := Text.spanDigits rest
    if ds.isEmpty then none else some (cs.take 8 ++ fractionText ds, rest)
  | rest => some (cs.take 8, rest)

/-- Reads what is left as the distance from universal time. -/
def offset? (cs : List Char) : Option (List Char) :=
  match cs with
  | [] => some []
  | ['Z'] | ['z'] => some ['Z']
  | c :: rest =>
    if c = '+' ∨ c = '-' then do
      let after ← fixed? 2 0 23 rest >>= expect? ':' >>= fixed? 2 0 59
      if after.isEmpty then some cs else none
    else none

/-- Reads a date, a time of day, or both. -/
def time? (cs : List Char) : Option String :=
  match date? cs with
  | some (date, []) => some (String.ofList date)
  | some (date, c :: rest) =>
    if c = 'T' ∨ c = 't' ∨ c = ' ' then do
      let (clock, rest) ← clock? rest
      let offset ← offset? rest
      some (String.ofList (date ++ 'T' :: clock ++ offset))
    else none
  | none =>
    match clock? cs with
    | some (clock, []) => some (String.ofList clock)
    | _ => none

/-- Whether a character may stand in a number or a time. -/
def isWord (c : Char) : Bool :=
  c.isAlphanum || c == '_' || c == '-' || c == '+' || c == '.' || c == ':'

/-- The word at the front. A date may be followed by a blank and a time. -/
def word (cs : List Char) : List Char × List Char :=
  let w := cs.takeWhile isWord
  let rest := cs.drop w.length
  match date? w, rest with
  | some (_, []), ' ' :: after =>
    if (after.head?.map Char.isDigit).getD false then
      let time := after.takeWhile isWord
      (w ++ ' ' :: time, after.drop time.length)
    else (w, rest)
  | _, _ => (w, rest)

/-- Reads a word as a value. -/
def wordValue? (w : List Char) : Option SettingValue :=
  if w = "true".toList then some (.boolean true)
  else if w = "false".toList then some (.boolean false)
  else
    match integer? w with
    | some n => some (.integer n)
    | none =>
      match decimal? w with
      | some text => some (.decimal text)
      | none => (time? w).map .text

/-! ## Tables -/

/-- How a table came to be. -/
inductive Origin where
  /-- Named in front of the point of a header. -/
  | implied
  /-- Opened by a header. -/
  | header
  /-- Named in front of the point of a key. -/
  | dotted
deriving DecidableEq

/-- What a key leads to. -/
inductive Node where
  /-- A value, to which nothing can be added. -/
  | value (v : SettingValue)
  | table (origin : Origin) (members : List (String × Node))
  /-- An array of tables, each opened by a header, the last one in front. -/
  | tables (rows : List (List (String × Node)))
deriving Inhabited

namespace Node

mutual

/-- The value that a node comes down to. -/
def toValue : Node → SettingValue
  | value v => v
  | table _ members => .table (membersToValues members)
  | tables rows => .array (rowsToValues rows).reverse

/-- The values of the members of a table. -/
def membersToValues : List (String × Node) → List (String × SettingValue)
  | [] => []
  | (name, node) :: rest => (name, node.toValue) :: membersToValues rest

/-- The values of the tables of an array. -/
def rowsToValues : List (List (String × Node)) → List SettingValue
  | [] => []
  | row :: rest => .table (membersToValues row) :: rowsToValues rest

end

end Node

/-- The members of a table. -/
abbrev Members := List (String × Node)

/-- Members with one replaced or added. -/
def setMember (ms : Members) (name : String) (node : Node) : Members :=
  if ms.any (·.1 == name) then ms.map fun m => if m.1 == name then (name, node) else m
  else ms ++ [(name, node)]

/-- Goes down along names, which become tables of an origin where there is
nothing, and changes the members at the end. The names of a key do not lead
into a table that has a header, nor end at one that is part of a header. -/
def update? (origin : Origin) (change : Members → Option Members) :
    List String → Members → Option Members
  | [], ms => change ms
  | name :: rest, ms => do
    let node ← match ms.lookup name with
      | none => (update? origin change rest []).map (Node.table origin)
      | some (.value _) => none
      | some (.table o inner) =>
        if origin = .dotted ∧ (o = .header ∨ (o = .implied ∧ rest.isEmpty)) then none
        else (update? origin change rest inner).map (Node.table o)
      | some (.tables (row :: rows)) =>
        (update? origin change rest row).map fun row => Node.tables (row :: rows)
      | some (.tables []) => none
    return setMember ms name node

/-- Opens a table that was not opened before. -/
def openTable? (name : String) (ms : Members) : Option Members :=
  match ms.lookup name with
  | none => some (setMember ms name (.table .header []))
  | some (.table .implied inner) => some (setMember ms name (.table .header inner))
  | some _ => none

/-- Opens one more table of an array of tables. -/
def openRow? (name : String) (ms : Members) : Option Members :=
  match ms.lookup name with
  | none => some (setMember ms name (.tables [[]]))
  | some (.tables rows) => some (setMember ms name (.tables ([] :: rows)))
  | some _ => none

/-- Adds a value under a name that has none. -/
def addValue? (name : String) (v : SettingValue) (ms : Members) : Option Members :=
  if ms.any (·.1 == name) then none else some (setMember ms name (.value v))

/-- Changes the members of the table that a header opened, which may be in the
last table of an array. -/
def atHeader? (change : Members → Option Members) (header : List String) (ms : Members) :
    Option Members := update? .implied change header ms

/-- Adds a value under a key of several names to the members of a table. -/
def addDotted? (names : List String) (v : SettingValue) (ms : Members) : Option Members :=
  match names.getLast? with
  | none => none
  | some name => update? .dotted (addValue? name v) names.dropLast ms

/-! ## Values -/

mutual

/-- Reads a value. -/
def value? : (fuel : Nat) → List Char → Option (SettingValue × List Char)
  | 0, _ => none
  | fuel + 1, cs =>
    match cs with
    | '"' :: rest => (string? '"' rest).map fun (s, rest) => (.text s, rest)
    | '\'' :: rest => (string? '\'' rest).map fun (s, rest) => (.text s, rest)
    | '[' :: rest => (items? fuel rest).map fun (items, rest) => (.array items, rest)
    | '\x7b' :: rest =>
      match skipSpace rest with
      | '\x7d' :: rest => some (.table [], rest)
      | rest =>
        (inlineMembers? fuel [] rest).map fun (ms, rest) =>
          ((Node.table .header ms).toValue, rest)
    | cs =>
      let (w, rest) := word cs
      (wordValue? w).map (·, rest)

/-- Reads the items of an array and its closing bracket. -/
def items? : (fuel : Nat) → List Char → Option (List SettingValue × List Char)
  | 0, _ => none
  | fuel + 1, cs => do
    match ← skipLines? (cs.length + 1) cs with
    | ']' :: rest => some ([], rest)
    | cs =>
      let (v, rest) ← value? fuel cs
      match ← skipLines? (rest.length + 1) rest with
      | ']' :: rest => some ([v], rest)
      | ',' :: rest => (items? fuel rest).map fun (vs, rest) => (v :: vs, rest)
      | _ => none

/-- Reads the members of a table in one line and its closing brace. -/
def inlineMembers? : (fuel : Nat) → Members → List Char → Option (Members × List Char)
  | 0, _, _ => none
  | fuel + 1, ms, cs => do
    let (names, rest) ← key? (cs.length + 1) cs
    let rest ← expect? '=' rest
    let (v, rest) ← value? fuel (skipSpace rest)
    let ms ← addDotted? names v ms
    match skipSpace rest with
    | '\x7d' :: rest => some (ms, rest)
    | ',' :: rest => inlineMembers? fuel ms rest
    | _ => none

end

/-! ## Files -/

/-- What is read so far: all members, and the header of the open table. -/
structure Document where
  members : Members
  header : List String

/-- Opens a table, or one more of an array, by its header. -/
def Document.openAt? (d : Document) (isRow : Bool) (names : List String) : Option Document := do
  let name ← names.getLast?
  let openNew := if isRow then openRow? name else openTable? name
  return ⟨← update? .implied openNew names.dropLast d.members, names⟩

/-- Adds a value to the open table. -/
def Document.add? (d : Document) (names : List String) (v : SettingValue) : Option Document := do
  return { d with members := ← atHeader? (addDotted? names v) d.header d.members }

/-- Reads an expression at the start of a line. -/
def expression? (d : Document) (cs : List Char) : Option (Document × List Char) :=
  let fuel := cs.length + 1
  match cs with
  | '[' :: '[' :: rest => do
    let (names, rest) ← key? fuel rest
    let rest ← expect? ']' rest >>= expect? ']'
    return (← d.openAt? true names, rest)
  | '[' :: rest => do
    let (names, rest) ← key? fuel rest
    let rest ← expect? ']' rest
    return (← d.openAt? false names, rest)
  | cs => do
    let (names, rest) ← key? fuel cs
    let rest ← expect? '=' rest
    let (v, rest) ← value? fuel (skipSpace rest)
    return (← d.add? names v, rest)

/-- Reads expressions, each on a line of its own, to the end. -/
def document? : (fuel : Nat) → Document → List Char → Option Document
  | 0, _, _ => none
  | fuel + 1, d, cs => do
    match ← skipLines? (cs.length + 1) cs with
    | [] => some d
    | cs =>
      let (d, rest) ← expression? d cs
      document? fuel d (← endLine? rest)

/-- The mark that a text may start with. -/
def byteOrderMark : Char := '\uFEFF'

/-- Reads a text as a table. -/
def parse? (text : String) : Option (List (String × SettingValue)) :=
  let cs := match text.toList with
    | c :: rest => if c = byteOrderMark then rest else c :: rest
    | [] => []
  (document? (cs.length + 1) ⟨[], []⟩ cs).map fun d => Node.membersToValues d.members

end SecureBoot.Toml
