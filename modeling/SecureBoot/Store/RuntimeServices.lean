import SecureBoot.Store.Basic
import SecureBoot.Text.Utf16
/-!
# Runtime services

The variable services that firmware offers, and the store over them.
-/

namespace SecureBoot

/-- The variable services of firmware over states of a type. Names are units
of 16 bits with a zero at the end. -/
structure RuntimeServices (σ : Type) where
  /-- Reads a variable whose data fit a number of bytes. -/
  getVariable : σ → (name : List UInt16) → Guid → (capacity : Nat) →
    Except FirmwareStatus Variable
  setVariable : σ → (name : List UInt16) → Guid → Attributes → Bytes → Except FirmwareStatus σ

namespace RuntimeServices

/-- The number of bytes of the first attempt to read. -/
def initialCapacity : Nat := 4096

/-- The store error of a status. -/
def storeError (id : VariableId) : FirmwareStatus → StoreError
  | .notFound => .notFound id
  | .securityViolation => .refused id.name .securityViolation
  | .writeProtected => .refused id.name .writeProtected
  | status => .firmware id.name status

/-- The store error of a status of a write, where attributes that differ from
the stored ones are an invalid parameter. -/
def writeError (id : VariableId) : FirmwareStatus → StoreError
  | .invalidParameter => .refused id.name .invalidParameter
  | status => storeError id status

variable {σ : Type}

/-- Reads a variable, a second time if the first buffer is too small. -/
def read (services : RuntimeServices σ) (s : σ) (id : VariableId) : Except StoreError Variable :=
  let attempt := services.getVariable s (Text.Utf16.terminated id.name) id.guid
  let found := match attempt initialCapacity with
    | .error (.bufferTooSmall required) => attempt required
    | answer => answer
  found.mapError (storeError id)

/-- The store over runtime services. -/
def store (services : RuntimeServices σ) : VariableStore σ where
  get := services.read
  set s id attributes data :=
    (services.setVariable s (Text.Utf16.terminated id.name) id.guid attributes data).mapError
      (writeError id)

end RuntimeServices

end SecureBoot
