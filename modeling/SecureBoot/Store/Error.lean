import SecureBoot.AuthError
import SecureBoot.Files
import SecureBoot.Guid
/-!
# Errors of variable stores

The statuses that firmware answers with, and the errors of flash images and of
variable stores in general.
-/

namespace SecureBoot

/-- The name and the owner of a variable. -/
structure VariableId where
  name : String
  guid : Guid
deriving DecidableEq

/-- The text `name-owner`. -/
def VariableId.text (id : VariableId) : String := s!"{id.name}-{id.guid.text}"

/-- A number in hexadecimal, with the sign of the base. -/
def hexText (width n : Nat) : String := "0x" ++ Text.hexPadded width n

/-! ## Firmware -/

/-- The refusals of the variable services of firmware. -/
inductive FirmwareStatus where
  | notFound
  /-- The data need a buffer of that size. -/
  | bufferTooSmall (required : Nat)
  | invalidParameter
  | outOfResources
  | deviceError
  | writeProtected
  | securityViolation
  | unsupported
  | other (code : Nat)
deriving DecidableEq

/-- The name of a status. -/
def FirmwareStatus.text : FirmwareStatus → String
  | notFound => "EFI_NOT_FOUND"
  | bufferTooSmall required => s!"EFI_BUFFER_TOO_SMALL ({required} bytes needed)"
  | invalidParameter => "EFI_INVALID_PARAMETER"
  | outOfResources => "EFI_OUT_OF_RESOURCES"
  | deviceError => "EFI_DEVICE_ERROR"
  | writeProtected => "EFI_WRITE_PROTECTED"
  | securityViolation => "EFI_SECURITY_VIOLATION"
  | unsupported => "EFI_UNSUPPORTED"
  | other code => s!"EFI status {hexText 1 code}"

/-! ## Flash images -/

/-- What is wrong with the header of the store in a flash image. -/
inductive FlashHeaderFault where
  | truncated
  | notHealthy (format state : UInt8)
  | sizeDoesNotFit (size image : Nat)
deriving DecidableEq

/-- The wording of a header fault. -/
def FlashHeaderFault.message : FlashHeaderFault → String
  | truncated => "header is truncated"
  | notHealthy format state =>
    s!"format {hexText 2 format.toNat} state {hexText 2 state.toNat}, " ++
      "expected formatted and healthy"
  | sizeDoesNotFit size image => s!"size {hexText 1 size} does not fit in the {image} byte image"

/-- What is wrong with a record of the store in a flash image. -/
inductive FlashRecordFault where
  | oddNameSize
  | overrun
deriving DecidableEq

/-- The wording of a record fault. -/
def FlashRecordFault.message : FlashRecordFault → String
  | oddNameSize => "odd name size"
  | overrun => "runs past the end of the store"

/-- What can be wrong with a flash image. -/
inductive FlashError where
  /-- No store starts anywhere in the image. -/
  | storeNotFound (image : Nat)
  | corruptStore (offset : Nat) (fault : FlashHeaderFault)
  | corruptRecord (offset : Nat) (fault : FlashRecordFault)
  | storeFull (needed available : Nat)
  /-- The image cannot hold a store. -/
  | unusableSize (size : Nat)
  /-- A time-based write carries no envelope. -/
  | envelope (name : String) (error : AuthError)
  | readFailed (path : String) (error : FileError)
  | writeFailed (path : String) (error : FileError)
deriving DecidableEq

namespace FlashError

/-- The wording of a flash error, without its cause. -/
def message : FlashError → String
  | storeNotFound image => s!"no authenticated variable store in {image} byte image"
  | corruptStore offset fault =>
    s!"variable store at {hexText 1 offset} is corrupt: {fault.message}"
  | corruptRecord offset fault =>
    s!"variable record at {hexText 1 offset} is corrupt: {fault.message}"
  | storeFull needed available =>
    s!"variable store is full: {needed} bytes needed, {available} free"
  | unusableSize size => s!"{size} bytes cannot hold a variable store"
  | envelope name _ => s!"invalid authenticated write to {name}"
  | readFailed path _ => s!"failed to read flash image {path}"
  | writeFailed path _ => s!"failed to write flash image {path}"

/-- The wordings of the causes of a flash error. -/
def causes : FlashError → List String
  | envelope _ error => error.message :: error.causes
  | readFailed _ error | writeFailed _ error => [error.message]
  | _ => []

end FlashError

/-! ## Stores -/

/-- What can go wrong with a variable store. -/
inductive StoreError where
  | notFound (id : VariableId)
  /-- Firmware does not allow the write. -/
  | refused (name : String) (status : FirmwareStatus)
  /-- The kernel does not allow the write. -/
  | denied (name : String) (error : FileError)
  /-- A file is too short for the attributes of a variable. -/
  | corrupt (name : String) (size : Nat)
  | file (path : String) (error : FileError)
  /-- Firmware answers with another status. -/
  | firmware (name : String) (status : FirmwareStatus)
  /-- There is no file system of variables. -/
  | notMounted
  | flash (error : FlashError)
deriving DecidableEq

namespace StoreError

/-- The wording of a store error, without its cause. -/
def message : StoreError → String
  | notFound id => s!"variable {id.text} not found"
  | refused name status => s!"Firmware refused to write {name}: {status.text}"
  | denied name error => s!"Cannot write to {name}: {error.message}"
  | corrupt name size =>
    s!"variable {name} is corrupt: {size} byte file cannot hold the attribute word"
  | file path _ => s!"I/O error on {path}"
  | firmware name status => s!"firmware refused {name}: {status.text}"
  | notMounted => "efivarfs is not mounted"
  | flash _ => "flash image error"

/-- The wordings of the causes of a store error. -/
def causes : StoreError → List String
  | file _ error => [error.message]
  | flash error => error.message :: error.causes
  | _ => []

end StoreError

end SecureBoot
