/-!
# Setting values

The values that settings have before their meaning is known: what a settings
file or the environment says. Tables of later sources are laid over those of
earlier ones, key by key.
-/

namespace SecureBoot

/-- A value of a setting. -/
inductive SettingValue where
  /-- A setting that is known and has no value. -/
  | absent
  | boolean (b : Bool)
  | integer (n : Int)
  /-- A number that need not be whole, by its text. -/
  | decimal (text : String)
  | text (s : String)
  | array (items : List SettingValue)
  | table (members : List (String × SettingValue))
deriving Inhabited

namespace SettingValue

/-- Whether a whole number fits 64 bits with a sign. -/
def isInteger (n : Int) : Bool := Int64.minValue.toInt ≤ n && n ≤ Int64.maxValue.toInt

/-- The members of a table. Nothing else has members. -/
def members : SettingValue → List (String × SettingValue)
  | table ms => ms
  | _ => []

/-- The member of a name. -/
def member? (v : SettingValue) (name : String) : Option SettingValue := v.members.lookup name

/-- A table with a member replaced or added. What is no table becomes one. -/
def replace (v : SettingValue) (name : String) (new : SettingValue) : SettingValue :=
  if v.members.any (·.1 == name) then
    .table (v.members.map fun m => if m.1 == name then (name, new) else m)
  else .table (v.members ++ [(name, new)])

mutual

/-- A value laid over an earlier one: tables are joined, and anything else
replaces what was there. -/
def laidOver (old : Option SettingValue) : SettingValue → SettingValue
  | table ms => membersLaidOver (old.getD (.table [])) ms
  | v => v

/-- Members laid over a value one after the other. -/
def membersLaidOver (v : SettingValue) : List (String × SettingValue) → SettingValue
  | [] => v
  | (name, new) :: rest => membersLaidOver (v.replace name (laidOver (v.member? name) new)) rest

end

/-- Lays a value over the one that a row of names leads to. -/
def put (v : SettingValue) : (path : List String) → SettingValue → SettingValue
  | [], new => laidOver (some v) new
  | name :: rest, new =>
    match rest with
    | [] => v.replace name (laidOver (v.member? name) new)
    | _ => v.replace name (((v.member? name).getD (.table [])).put rest new)

/-- Whether a character may stand in a name of a dotted path. -/
def isNameChar (c : Char) : Bool := c.isAlphanum || c == '_' || c == '-'

/-- The names of a dotted path. A key that is no such path is a name itself. -/
def pathOfKey (key : String) : List String :=
  let names := key.splitOn "."
  if names.all fun name => name != "" && name.all isNameChar then names else [key]

/-- Lays the members of a table over a value, each at the path that its key is. -/
def putAll (v : SettingValue) (ms : List (String × SettingValue)) : SettingValue :=
  ms.foldl (fun v (key, new) => v.put (pathOfKey key) new) v

/-! ## Taking values apart -/

/-- A text that may be missing. Numbers and truth values count by their text. -/
def optionalText? : SettingValue → Option (Option String)
  | absent => some none
  | boolean b => some (some (if b then "true" else "false"))
  | integer n => some (some (toString n))
  | decimal digits => some (some digits)
  | text s => some (some s)
  | array _ | table _ => none

/-- The name of one of several choices, alone or as the only key of a table. -/
def name? : SettingValue → Option String
  | text s => some s
  | table [(name, _)] => some name
  | _ => none

/-- The values of a record of named fields: the members of a table, or the items
of an array in the order of the fields. -/
def fields? (names : List String) : SettingValue → Option (List SettingValue)
  | table ms => some (names.map fun name => (ms.lookup name).getD .absent)
  | array items => if names.length ≤ items.length then some (items.take names.length) else none
  | _ => none

end SettingValue

end SecureBoot
