import SecureBoot.Store.Basic
/-!
# Variables as files

A directory with one file for each variable, named `name-owner`, whose contents
are the attribute word and the data. Writing such a file with one write is a
call of the variable services of firmware.
-/

namespace SecureBoot.VariableFiles

/-- The type of the file system of variables in a table of mounts. -/
def fileSystemType : String := "efivarfs"

/-- The words of a line. -/
def words (line : List Char) : List (List Char) :=
  (line.splitOnP Text.isBlank).filter (!·.isEmpty)

/-- The directory of the first file system of variables in a table of mounts,
whose lines are the words for device, directory, type and more. -/
def discover? (mounts : String) : Option String :=
  (mounts.toList.splitOn '\n').findSome? fun line =>
    match words line with
    | _ :: directory :: type :: _ =>
      if String.ofList type == fileSystemType then some (String.ofList directory) else none
    | _ => none

/-- The path of the file of a variable. -/
def path (root : String) (id : VariableId) : String := Path.join root id.text

/-- The contents of the file of a variable. -/
def encode (attributes : Attributes) (data : Bytes) : Bytes := attributes.toBytes ++ data

/-- The size of the attribute word. -/
def attributesSize : Nat := 4

/-- The variable of what reading its file gives. -/
def ofRead (root : String) (id : VariableId) : Except FileError Bytes → Except StoreError Variable
  | .ok bs =>
    if bs.length < attributesSize then .error (.corrupt id.name bs.length)
    else .ok ⟨⟨bs.wordAt32 0⟩, bs.drop attributesSize⟩
  | .error .notFound => .error (.notFound id)
  | .error e => .error (.file (path root id) e)

/-- The error of writing the file of a variable. Several refusals are how the
kernel tells that firmware did not take the write. -/
def writeError (root : String) (id : VariableId) (e : FileError) : StoreError :=
  match e with
  | .permissionDenied | .notPermitted | .readOnly | .invalidArgument => .denied id.name e
  | _ => .file (path root id) e

/-- The store of the files below a directory. -/
def store (root : String) : VariableStore FileSystem where
  get fs id := ofRead root id (fs.read (path root id))
  set fs id attributes data :=
    (fs.write (path root id) (encode attributes data)).mapError (writeError root id)

end SecureBoot.VariableFiles
