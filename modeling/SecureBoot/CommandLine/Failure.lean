import SecureBoot.Error
import SecureBoot.Settings
/-!
# Failures of commands

Why a command fails, the exit status that tells a calling program what went
wrong, and the report for an operator. An error of the library keeps its class,
and so does one that says what was being done.
-/

namespace SecureBoot.CommandLine

/-- Why a command fails. -/
inductive Failure where
  | settings (error : SettingsError)
  | library (error : Error)
  /-- The request makes no sense. -/
  | invalid (reason : String)
  | file (path : String) (error : FileError)
  /-- An error of the library, and what was being done. -/
  | context (doing : String) (error : Error)
deriving DecidableEq

namespace Failure

/-- The exit status of a class of errors. -/
def statusOfKind : ErrorKind → Nat
  | .usage => 1
  | .notFound => 2
  | .permissionDenied => 3
  | .format => 4
  | .keyMismatch | .unauthorizedSigner => 5
  | .store => 6

/-- The exit status of a file error. -/
def statusOfFile : FileError → Nat
  | .notFound => 2
  | .permissionDenied | .notPermitted => 3
  | _ => 6

/-- The exit status of a failure. -/
def exitStatus : Failure → Nat
  | settings _ | invalid _ => 1
  | library e | context _ e => statusOfKind e.kind
  | file _ e => statusOfFile e

/-- The name of a failure for programs. -/
def code (f : Failure) : String :=
  match f.exitStatus with
  | 2 => "NOT_FOUND"
  | 3 => "PERMISSION_DENIED"
  | 4 => "FORMAT_ERROR"
  | 5 => "UNAUTHORIZED"
  | 6 => "STORE_ERROR"
  | _ =>
    match f with
    | settings _ => "CONFIG_ERROR"
    | invalid _ => "VALIDATION_ERROR"
    | _ => "USAGE_ERROR"

/-- The report of a failure. What was being done is followed by every wording
that the error has, and by those of all its causes. -/
def report : Failure → String
  | settings e => s!"Configuration error: {e.message}"
  | library e => e.report
  | invalid reason => s!"Validation error: {reason}"
  | file path e => s!"File error on {path}: {e.message}"
  | context doing e => ": ".intercalate (doing :: e.message :: e.message :: e.causes)

end Failure

/-- A script of a command. -/
abbrev CommandScript (α : Type) := FallibleScript Failure α

namespace CommandScript

/-- Goes on with a result, or fails with its error. -/
def ofExcept {ε α : Type} (wrap : ε → Failure) : Except ε α → CommandScript α
  | .ok a => return a
  | .error e => throw (wrap e)

/-- Goes on with a result of the library, or fails with its error. -/
def check {ε α : Type} (wrap : ε → Error) (r : Except ε α) : CommandScript α :=
  ofExcept (fun e => .library (wrap e)) r

/-- Goes on with a result of the library, or fails with its error and what was
being done. -/
def during {ε α : Type} (doing : String) (wrap : ε → Error) (r : Except ε α) :
    CommandScript α :=
  ofExcept (fun e => .context doing (wrap e)) r

/-- Fails because the request makes no sense. -/
def refuse {α : Type} (reason : String) : CommandScript α := throw (.invalid reason)

/-- Reads a file. -/
def readFile (path : String) : CommandScript Bytes := do
  ofExcept (.file path) (← Script.readFile path)

/-- Writes a file. -/
def writeFile (path : String) (contents : Bytes) : CommandScript Unit := do
  ofExcept (.file path) (← Script.writeFile path contents)

end CommandScript

end SecureBoot.CommandLine
