import SecureBoot.CommandLine.Inputs
import SecureBoot.Store.Flash
import SecureBoot.Store.VariableFiles
import SecureBoot.Update
/-!
# The store of a command

The variable store that settings name: the variables of the running system, or
those in a flash image, whose changes are written back at the end.
-/

namespace SecureBoot.CommandLine

/-- The variable store that a command works on. -/
inductive Target where
  /-- The files below a directory. -/
  | variableFiles (root : String)
  /-- The store inside a flash image, with the path of the image. -/
  | flash (path : String) (store : FlashStore)

/-- The table of mounts of the running system. -/
def mountsPath : String := "/proc/self/mounts"

/-- Finds the directory of variables among the mounts. -/
def discoverDirectory : CommandScript String := do
  let fail {α : Type} (e : StoreError) : CommandScript α := throw (.library (.store e))
  match ← Script.readFile mountsPath with
  | .error e => fail (.file mountsPath e)
  | .ok contents =>
    match contents.toString? with
    | none => fail (.file mountsPath .notText)
    | some table =>
      match VariableFiles.discover? table with
      | some root => return root
      | none => fail .notMounted

/-- Reads a flash image. -/
def readImage (path : String) : CommandScript FlashStore := do
  let store := match ← Script.readFile path with
    | .ok image => FlashStore.ofImage image
    | .error e => .error (.readFailed path e)
  CommandScript.during s!"Failed to open flash image {path}" .flash store

/-- Writes a flash image. -/
def writeImage (path : String) (store : FlashStore) : CommandScript Unit := do
  CommandScript.check (fun e => .flash (.writeFailed path e))
    (← Script.writeFile path store.image)

namespace Target

/-- Opens the store that settings name. -/
def ofSettings (s : Settings) : CommandScript Target :=
  match s.backend with
  | .variableFiles =>
    match s.variablesDirectory with
    | some root => return .variableFiles root
    | none => do return .variableFiles (← discoverDirectory)
  | .flash =>
    match s.flashImage with
    | some path => do return .flash path (← readImage path)
    | none =>
      CommandScript.refuse
        "the flash store needs an image: set store.flash_image or pass --flash-image"

/-- The wording for a store. -/
def text : Target → String
  | variableFiles root => s!"efivarfs at {root}"
  | flash path _ => s!"flash image {path}"

/-- The variables that commands read. -/
def knownIds : List VariableId :=
  SecureVariable.all.map SecureVariable.id ++ [StatusVariable.setupMode, .secureBoot].map (·.id)

/-- Reads variables from their files. -/
def readFiles (root : String) :
    List VariableId → Script (List (VariableId × Except StoreError Variable))
  | [] => return []
  | id :: rest => do
    let contents ← Script.readFile (VariableFiles.path root id)
    return (id, VariableFiles.ofRead root id contents) :: (← readFiles root rest)

/-- The current values of the variables that commands read. -/
def reader : Target → Script VariableReader
  | variableFiles root => do
    let found ← readFiles root knownIds
    return fun id => (found.lookup id).getD (.error (.notFound id))
  | flash _ store => return FlashStore.store.get store

/-- Writes a variable. -/
def set (t : Target) (id : VariableId) (attributes : Attributes) (data : Bytes) :
    Script (Except StoreError Target) :=
  match t with
  | variableFiles root => do
    let contents := VariableFiles.encode attributes data
    match ← Script.writeFile (VariableFiles.path root id) contents with
    | .ok () => return .ok t
    | .error e => return .error (VariableFiles.writeError root id e)
  | flash path store =>
    return (FlashStore.store.set store id attributes data).map (Target.flash path)

/-- Plans an update and does the write. -/
def apply (t : Target) (u : Update) : Script (Except UpdateError (UpdateOutcome × Target)) := do
  match u.plan (← t.reader) with
  | .error e => return .error e
  | .ok (.alreadyPresent place) => return .ok (.alreadyPresent place, t)
  | .ok (.write attributes data) =>
    match ← t.set u.target.id attributes data with
    | .ok t => return .ok (.written attributes data.length, t)
    | .error e => return .error (.store e)

/-- Writes back what is not written yet. -/
def commit : Target → CommandScript Unit
  | variableFiles _ => return ()
  | flash path store => writeImage path store

end Target

end SecureBoot.CommandLine
