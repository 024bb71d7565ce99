import SecureBoot.Script
import SecureBoot.Settings.Toml
/-!
# Settings

What an operator sets once: the store to work on, the default signer and owner,
and the form of the output. Settings come from a file and from the environment,
which wins; `Settings.load` reads both.
-/

namespace SecureBoot

/-- A kind of variable store. -/
inductive Backend where
  /-- The variables of the running system, each in a file. -/
  | variableFiles
  /-- The store inside a flash image. -/
  | flash
deriving DecidableEq

namespace Backend

/-- Every kind of store. -/
def all : List Backend := [variableFiles, flash]

/-- The name of a kind of store. -/
def name : Backend → String
  | variableFiles => "efivarfs"
  | flash => "flash"

/-- The kind of store of a name. -/
def ofName? (text : String) : Option Backend := all.find? (·.name == text)

end Backend

/-- A form of output. -/
inductive OutputFormat where
  | text
  | json
deriving DecidableEq

namespace OutputFormat

/-- Every form of output. -/
def all : List OutputFormat := [text, json]

/-- The name of a form of output. -/
def name : OutputFormat → String
  | text => "text"
  | json => "json"

/-- The form of output of a name. -/
def ofName? (s : String) : Option OutputFormat := all.find? (·.name == s)

end OutputFormat

/-- What an operator has set. -/
structure Settings where
  backend : Backend := .variableFiles
  /-- The directory of variables, found among the mounts when absent. -/
  variablesDirectory : Option String := none
  flashImage : Option String := none
  /-- The files of the signer to use when no other is given. -/
  certificate : Option String := none
  key : Option String := none
  keyPassword : Option String := none
  /-- The owner of new entries when no other is given. -/
  defaultOwner : Option String := none
  format : OutputFormat := .text
deriving DecidableEq

/-- What can be wrong with settings. -/
inductive SettingsError where
  /-- The file that was asked for is not there. -/
  | missingFile (path : String)
  | unreadableFile (path : String) (error : FileError)
  /-- The file is not in the format of settings. -/
  | malformedFile (path : String)
  /-- A setting has a value of the wrong kind. -/
  | invalidValue
deriving DecidableEq

/-- The wording of a settings error. -/
def SettingsError.message : SettingsError → String
  | missingFile path => s!"Specified configuration file not found: {path}"
  | unreadableFile path error => s!"{path}: {error.message}"
  | malformedFile path => s!"{path} is not a valid configuration file"
  | invalidValue => "a setting has an invalid value"

/-- The variables of the environment. -/
abbrev Environment := List (String × String)

/-- Cuts a text at the first place of a character. -/
def splitFirst? (c : Char) (cs : List Char) : Option (List Char × List Char) :=
  match cs.dropWhile (· != c) with
  | _ :: rest => some (cs.takeWhile (· != c), rest)
  | [] => none

/-- Reads the variables of an environment from lines `NAME=VALUE` that end with a
null. -/
def Environment.ofBlock (block : Bytes) : Environment :=
  ((block.toString?.getD "").splitOn "\x00").filterMap fun line => do
    let (name, value) ← splitFirst? '=' line.toList
    return (String.ofList name, String.ofList value)

namespace Settings

/-! ## Values -/

/-- The settings that nothing is said about, as values. -/
def defaultValue : SettingValue :=
  .table [
    ("store", .table [("backend", .text Backend.variableFiles.name), ("efivarfs_path", .absent),
      ("flash_image", .absent)]),
    ("signing", .table [("certificate", .absent), ("key", .absent), ("key_password", .absent),
      ("default_owner", .absent)]),
    ("output", .table [("format", .text OutputFormat.text.name)])]

/-- Reads settings from their values. Names that are not known do not count. -/
def ofValue? (v : SettingValue) : Option Settings := do
  match ← v.fields? ["store", "signing", "output"] with
  | [store, signing, output] =>
    match ← store.fields? ["backend", "efivarfs_path", "flash_image"],
      ← signing.fields? ["certificate", "key", "key_password", "default_owner"],
      ← output.fields? ["format"] with
    | [backend, directory, image], [certificate, key, password, owner], [format] =>
      return {
        backend := ← backend.name? >>= Backend.ofName?
        variablesDirectory := ← directory.optionalText?
        flashImage := ← image.optionalText?
        certificate := ← certificate.optionalText?
        key := ← key.optionalText?
        keyPassword := ← password.optionalText?
        defaultOwner := ← owner.optionalText?
        format := ← format.name? >>= OutputFormat.ofName? }
    | _, _, _ => none
  | _ => none

/-! ## The environment -/

/-- What the names of variables with settings start with. -/
def environmentMark : String := "efikeys_"

/-- What stands between the names of a path in the name of a variable. -/
def environmentSeparator : String := "__"

/-- The value that a text of the environment stands for. -/
def valueOfText (text : String) : SettingValue :=
  match text.toLower with
  | "true" => .boolean true
  | "false" => .boolean false
  | _ =>
    let (negative, digits) := Text.takeSign text.toList
    match Text.decimal? digits with
    | some n =>
      let n : Int := if negative then -(n : Int) else n
      if SettingValue.isInteger n then .integer n
      else .decimal ((Text.canonicalDecimal? text).getD text)
    | none =>
      match Text.canonicalDecimal? text with
      | some digits => .decimal digits
      | none => .text text

/-- The setting that a variable of the environment is, if it is one. Upper and
lower case do not differ in its name. -/
def ofVariable? (name text : String) : Option (String × SettingValue) :=
  let name := name.toLower
  match name.dropPrefix? environmentMark with
  | some key => some (key.toString.replace environmentSeparator ".", valueOfText text)
  | none => none

/-- The settings among the variables of an environment. -/
def ofEnvironment (env : Environment) : List (String × SettingValue) :=
  env.filterMap fun (name, text) => ofVariable? name text

/-! ## Loading -/

/-- The places of a settings file that nobody named, the first one that is there
counts. -/
def standardPaths (env : Environment) : List String :=
  ["efikeysctl.toml"] ++
    ((env.lookup "HOME").map (Path.join · ".config/efikeysctl/config.toml")).toList ++
    ((env.lookup "XDG_CONFIG_HOME").map (Path.join · "efikeysctl/config.toml")).toList ++
    ["/etc/efikeys/efikeysctl.conf"]

/-- The first of several paths that leads anywhere. -/
def firstExisting : List String → Script (Option String)
  | [] => return none
  | path :: rest => do if ← Script.pathExists path then return some path else firstExisting rest

/-- Finds the settings file: the one asked for, which has to be there, or the
first at a standard place. -/
def findFile (asked : Option String) (env : Environment) :
    FallibleScript SettingsError (Option String) := do
  match asked with
  | some path =>
    if ← Script.pathExists path then return some path else throw (.missingFile path)
  | none => firstExisting (standardPaths env)

/-- Reads the table of a settings file. -/
def readFile (path : String) : FallibleScript SettingsError (List (String × SettingValue)) := do
  match ← Script.readFile path with
  | .error e => throw (.unreadableFile path e)
  | .ok contents =>
    match contents.toString?.bind Toml.parse? with
    | some table => return table
    | none => throw (.malformedFile path)

/-- Loads the settings from a file, if there is one, and from the environment. -/
def load (asked : Option String) (env : Environment) : FallibleScript SettingsError Settings := do
  let file ← match ← findFile asked env with
    | some path => readFile path
    | none => pure []
  let value := (defaultValue.putAll file).putAll (ofEnvironment env)
  match ofValue? value with
  | some settings => return settings
  | none => throw .invalidValue

end Settings

end SecureBoot
