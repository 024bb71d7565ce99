import SecureBoot.Attributes
import SecureBoot.Store.Error
/-!
# Variable stores

A variable store reads and writes variables by name and owner. It is a pair of
functions over a state: a write gives the state after it, or an error and no
change. A read-modify-write is two steps, and other writes may come between
them.
-/

namespace SecureBoot

/-- A variable as it is stored. -/
structure Variable where
  attributes : Attributes
  data : Bytes
deriving DecidableEq

/-- Reads one variable of a store in some state. -/
abbrev VariableReader := VariableId → Except StoreError Variable

/-- Reads a variable that may be missing. -/
def VariableReader.optional (read : VariableReader) (id : VariableId) :
    Except StoreError (Option Variable) :=
  match read id with
  | .ok v => .ok (some v)
  | .error (.notFound _) => .ok none
  | .error e => .error e

/-- A store whose states are of a type. -/
structure VariableStore (σ : Type) where
  /-- Reads a variable. A missing one is the error `StoreError.notFound`. -/
  get : σ → VariableReader
  /-- Writes a variable. The data of a time-based write start with their
  envelope. -/
  set : σ → VariableId → Attributes → Bytes → Except StoreError σ

end SecureBoot
