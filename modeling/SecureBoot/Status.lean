import SecureBoot.Store.Firmware
/-!
# Platform status

What the status variables of a store tell: whether the platform has a platform
key, and whether it enforces Secure Boot.
-/

namespace SecureBoot

/-- Whether a platform enforces signatures. -/
inductive PlatformMode where
  /-- There is no platform key, and writes need no signature. -/
  | setup
  /-- Writes have to be signed by an authority. -/
  | user
  /-- The store does not tell. -/
  | unknown
deriving DecidableEq

/-- The wording of a mode. -/
def PlatformMode.text : PlatformMode → String
  | setup => "setup mode"
  | user => "user mode"
  | unknown => "unknown mode"

/-- The name of a mode. -/
def PlatformMode.name : PlatformMode → String
  | setup => "setup"
  | user => "user"
  | unknown => "unknown"

/-- The values of the status variables, as far as they can be read. -/
structure PlatformStatus where
  setupMode : Option Bool
  secureBoot : Option Bool
deriving DecidableEq

namespace PlatformStatus

/-- Reads a status variable. An empty one tells nothing. -/
def readFlag (read : VariableReader) (v : StatusVariable) : Except StoreError (Option Bool) := do
  return ((← read.optional v.id).bind (·.data.head?)).map (· == 1)

/-- Reads the status variables. -/
def read (reader : VariableReader) : Except StoreError PlatformStatus := do
  return ⟨← readFlag reader .setupMode, ← readFlag reader .secureBoot⟩

/-- The mode of the platform. -/
def mode (s : PlatformStatus) : PlatformMode :=
  match s.setupMode with
  | some true => .setup
  | some false => .user
  | none => .unknown

/-- Whether Secure Boot is known to be enforced. -/
def isEnforced (s : PlatformStatus) : Bool := s.secureBoot == some true

end PlatformStatus

end SecureBoot
