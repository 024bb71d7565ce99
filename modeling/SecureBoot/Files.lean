import SecureBoot.Bytes
/-!
# Files

A file system as a value: the files and directories there are, by path, and
the errors of reading and writing them. Paths are texts with slashes.
-/

namespace SecureBoot

/-- Why the file system refuses an operation. -/
inductive FileError where
  | notFound
  | permissionDenied
  /-- The operation is not for this user. -/
  | notPermitted
  | readOnly
  | invalidArgument
  | exists
  | notDirectory
  | isDirectory
  | nameTooLong
  /-- The path has a null character. -/
  | nullInPath
  /-- The contents are no text. -/
  | notText
  /-- Any other refusal, with its text. -/
  | other (text : String)
deriving DecidableEq

/-- The wording of a file error. -/
def FileError.message : FileError → String
  | notFound => "No such file or directory (os error 2)"
  | permissionDenied => "Permission denied (os error 13)"
  | notPermitted => "Operation not permitted (os error 1)"
  | readOnly => "Read-only file system (os error 30)"
  | invalidArgument => "Invalid argument (os error 22)"
  | «exists» => "File exists (os error 17)"
  | notDirectory => "Not a directory (os error 20)"
  | isDirectory => "Is a directory (os error 21)"
  | nameTooLong => "File name too long (os error 36)"
  | nullInPath => "file name contained an unexpected NUL byte"
  | notText => "stream did not contain valid UTF-8"
  | other text => text

/-- The file errors that the kernel has numbers for. -/
def FileError.numbered : List (Nat × FileError) :=
  [(1, notPermitted), (2, notFound), (13, permissionDenied), (17, «exists»), (20, notDirectory),
    (21, isDirectory), (22, invalidArgument), (30, readOnly), (36, nameTooLong)]

/-- The file error of a number. -/
def FileError.ofNumber? (n : Nat) : Option FileError := FileError.numbered.lookup n

/-- What a path leads to. -/
inductive FileNode where
  | file (contents : Bytes)
  | directory
deriving DecidableEq

namespace Path

/-- Whether a path starts at the root. -/
def isAbsolute (path : String) : Bool := path.startsWith "/"

/-- The name that stands for the root in front of the names of an absolute path. -/
def root : String := "/"

/-- The name of the directory above. -/
def above : String := ".."

/-- The names along a path. Empty names and dots do not count. -/
def components (path : String) : List String :=
  (if isAbsolute path then [root] else []) ++
    ((path.toList.splitOn '/').map String.ofList).filter fun name => name != "" && name != "."

/-- A name below a directory; an absolute name stands alone. -/
def join (directory name : String) : String :=
  if isAbsolute name then name
  else if directory == "" then name
  else if directory.endsWith "/" then directory ++ name
  else directory ++ "/" ++ name

end Path

/-- Files and directories by the names along their paths. No name among these
leads upwards. -/
structure FileSystem where
  nodes : List (List String × FileNode)

namespace FileSystem

/-- What a row of names leads to. No names lead to the current directory. -/
def find? (fs : FileSystem) (names : List String) : Option FileNode :=
  if names == [] || names == [Path.root] then some .directory else fs.nodes.lookup names

/-- Enters a name below a row of names, which has to lead to a directory. What
is above the current directory is not known. -/
def enter (fs : FileSystem) (names : List String) (name : String) :
    Except FileError (List String) :=
  match fs.find? names with
  | none => .error .notFound
  | some (.file _) => .error .notDirectory
  | some .directory =>
    if name != Path.above then .ok (names ++ [name])
    else if names == [] then .ok [Path.above]
    else if names == [Path.root] then .ok names
    else .ok names.dropLast

/-- The error of a path itself, whatever there is. -/
def pathError? (path : String) : Option FileError :=
  if path.contains '\x00' then some .nullInPath
  else if path == "" then some .notFound
  else if (Path.components path).any (255 < ·.utf8ByteSize) || 4096 ≤ path.utf8ByteSize then
    some .nameTooLong
  else none

/-- The row of names that a path stands for, entered name by name. -/
def resolve (fs : FileSystem) (path : String) : Except FileError (List String) :=
  match pathError? path with
  | some e => .error e
  | none => (Path.components path).foldlM fs.enter []

/-- Whether a path may lead to a directory only. -/
def wantsDirectory (path : String) : Bool := path.endsWith "/"

/-- Reads a file. -/
def read (fs : FileSystem) (path : String) : Except FileError Bytes := do
  match fs.find? (← fs.resolve path) with
  | none => throw .notFound
  | some .directory => throw .isDirectory
  | some (.file contents) => if wantsDirectory path then throw .notDirectory else return contents

/-- Whether a path leads anywhere. -/
def contains (fs : FileSystem) (path : String) : Bool :=
  match fs.read path with
  | .ok _ | .error .isDirectory => true
  | .error _ => false

/-- Puts a node at a path. -/
def insert (fs : FileSystem) (path : List String) (node : FileNode) : FileSystem :=
  ⟨(path, node) :: fs.nodes.filter (·.1 != path)⟩

/-- Writes a file, new or not. -/
def write (fs : FileSystem) (path : String) (contents : Bytes) :
    Except FileError FileSystem := do
  let names ← fs.resolve path
  if fs.find? names = some .directory || wantsDirectory path then throw .isDirectory
  return fs.insert names (.file contents)

end FileSystem

end SecureBoot
