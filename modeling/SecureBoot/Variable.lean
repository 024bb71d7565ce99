import SecureBoot.Attributes
import SecureBoot.Database
/-!
# Secure Boot variables

The six variables that hold signature databases, with the rules attached to
each: its owner, its attributes, who may sign updates to it, and what a full
replacement of its contents must look like.
-/

namespace SecureBoot

/-- A variable that holds a signature database. -/
inductive SecureVariable where
  /-- The platform key. -/
  | pk
  /-- The key exchange keys. -/
  | kek
  /-- What may run. -/
  | db
  /-- What must not run. -/
  | dbx
  /-- Keys for time stamps. -/
  | dbt
  /-- The machine owner keys of the boot shim. -/
  | mokList
deriving DecidableEq

/-- What can be wrong with a variable or its contents. -/
inductive VariableError where
  /-- No variable has that name. -/
  | unknown (name : String)
  /-- The platform key must be one certificate. -/
  | invalidPlatformKey (found x509 : Nat)
  /-- The contents are not a signature database. -/
  | format (name : String) (error : ListError)
deriving DecidableEq

/-- The wording of a variable error. -/
def VariableError.message : VariableError → String
  | unknown name =>
    s!"unknown variable '{name}', expected one of PK, KEK, db, dbx, dbt, MokList"
  | invalidPlatformKey found x509 =>
    s!"PK must contain exactly one X509 certificate, found {found} entr(y/ies) " ++
      s!"of which {x509} X509"
  | format name error => s!"invalid payload for {name}: {error.message}"

/-- The wordings of the causes of a variable error. -/
def VariableError.causes : VariableError → List String
  | format _ error => [error.message]
  | _ => []

namespace SecureVariable

/-- Every variable, in the order of their registration. -/
def all : List SecureVariable := [pk, kek, db, dbx, dbt, mokList]

/-- The name under which firmware knows a variable. -/
def name : SecureVariable → String
  | pk => "PK"
  | kek => "KEK"
  | db => "db"
  | dbx => "dbx"
  | dbt => "dbt"
  | mokList => "MokList"

/-- The owner under which firmware knows a variable. -/
def guid : SecureVariable → Guid
  | pk | kek => .globalVariable
  | db | dbx | dbt => .imageSecurityDatabase
  | mokList => .shimLock

/-- The attributes a variable is written with, apart from appending. -/
def attributes : SecureVariable → Attributes
  | mokList => .bootNonVolatile
  | _ => .authenticatedDatabase

/-- Whether writes must carry an authenticated envelope. -/
def requiresEnvelope (v : SecureVariable) : Bool := v.attributes.isTimeBased

/-- The variable whose certificates may sign updates. -/
def authority? : SecureVariable → Option SecureVariable
  | pk | kek => some pk
  | db | dbx | dbt => some kek
  | mokList => none

/-- The variable of a name in any letter case, between blanks. -/
def ofName? (text : String) : Option SecureVariable :=
  let wanted := (Text.trimChars text.toList).map Char.toLower
  all.find? fun v => v.name.toList.map Char.toLower == wanted

/-- The variable of a name in any letter case, between blanks. -/
def ofName (text : String) : Except VariableError SecureVariable :=
  match ofName? text with
  | some v => .ok v
  | none => .error (.unknown text)

/-- The number of entries of lists that a predicate on their type holds of. -/
def countEntries (p : SignatureType → Bool) (ls : List ListView) : Except ListError Nat :=
  (ls.filter (p ·.type)).foldlM (fun n l => (n + ·) <$> l.entryCount) 0

/-- Checks the contents for a full replacement of a variable: a signature
database, which for the platform key is empty or has a certificate as its only
entry. -/
def validatePayload (v : SecureVariable) (payload : Bytes) : Except VariableError Unit := do
  let lists ← (parseDatabase payload).mapError (.format v.name)
  if v = pk ∧ payload ≠ [] then
    let found ← (countEntries (fun _ => true) lists).mapError (.format v.name)
    let x509 ← (countEntries (· == .x509) lists).mapError (.format v.name)
    if ¬(found = 1 ∧ x509 = 1) then throw (.invalidPlatformKey found x509)

end SecureVariable

end SecureBoot
