import Std.Time.DateTime.Timestamp
import SecureBoot.CommandLine.Program
/-!
# The executable

Runs the script of a command line over the files of the machine, with its clock,
its environment and its random bytes.
-/

namespace SecureBoot.CommandLine

/-- The number and the text of an error of the machine. -/
def errorDetails : IO.Error → UInt32 × String
  | .alreadyExists _ code text | .invalidArgument _ code text | .permissionDenied _ code text
  | .resourceExhausted _ code text | .inappropriateType _ code text | .noSuchThing _ code text
  | .otherError code text | .resourceBusy code text | .resourceVanished code text
  | .unsupportedOperation code text | .hardwareFault code text
  | .unsatisfiedConstraints code text | .illegalOperation code text | .protocolError code text
  | .timeExpired code text | .interrupted _ code text | .noFileOrDirectory _ code text =>
    (code, text)
  | .unexpectedEof => (0, "end of file")
  | .userError text => (0, text)

/-- The file error for an error of the machine, whose number may come negated. -/
def fileErrorOf (e : IO.Error) : FileError :=
  let (code, text) := errorDetails e
  let number := min code.toNat (-code).toNat
  match FileError.ofNumber? number with
  | some e => e
  | none => .other s!"{text} (os error {number})"

/-- Runs an action on a file. -/
def tryFile {α : Type} (action : IO α) : IO (Except FileError α) := do
  match ← action.toBaseIO with
  | .ok a => return .ok a
  | .error e => return .error (fileErrorOf e)

/-- Writes a file of the machine. -/
def writeMachineFile (path : String) (contents : Bytes) (access : FileAccess) : IO Unit := do
  if access = .owner then
    IO.FS.writeBinFile path .empty
    IO.setAccessRights path { user := { read := true, write := true } }
  IO.FS.writeBinFile path ⟨contents.toArray⟩

/-- Runs a script over the files of the machine. -/
def runOnMachine {α : Type} : Script α → IO α
  | .done a => return a
  | .read path next => do
    let contents ← tryFile (IO.FS.readBinFile path)
    runOnMachine (next (contents.map fun bs => bs.data.toList))
  | .write path contents access next => do
    let result ← tryFile (writeMachineFile path contents access)
    runOnMachine (next result)
  | .probe path next => do
    let found ← tryFile (IO.FS.realPath path)
    runOnMachine (next found.toBool)
  | .say line next => do
    IO.eprintln line
    runOnMachine next

/-- What the machine surrounds the program with. -/
def machineSurroundings : IO Surroundings := do
  let environment ← tryFile (IO.FS.readBinFile "/proc/self/environ")
  let now ← Std.Time.Timestamp.now
  let seed ← IO.getRandomBytes 32
  return {
    environment := (environment.map fun bs => Environment.ofBlock bs.data.toList).toOption.getD []
    now := now.toSecondsSinceUnixEpoch.val.toNat
    seed := seed.data.toList }

end SecureBoot.CommandLine

open SecureBoot.CommandLine in
/-- Runs the program. -/
def main (words : List String) : IO UInt32 := do
  let outcome ← runOnMachine (runProgram (← machineSurroundings) words)
  IO.print outcome.stdout
  IO.eprint outcome.stderr
  return UInt32.ofNat outcome.exitStatus
