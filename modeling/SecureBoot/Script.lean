import SecureBoot.Files
/-!
# Scripts

A script is a program that may only read and write whole files, and say lines.
It is a tree of requests, each with what follows every answer.

`Script.run` runs a script over a file system that is a value; the program that
comes with this library runs the same tree over the files of the machine.
-/

namespace SecureBoot

/-- Who may read a new file. -/
inductive FileAccess where
  | everyone
  | owner
deriving DecidableEq

/-- A program over files with a result. -/
inductive Script (α : Type) where
  | done (result : α)
  | read (path : String) (next : Except FileError Bytes → Script α)
  | write (path : String) (contents : Bytes) (access : FileAccess)
      (next : Except FileError Unit → Script α)
  /-- Asks whether a path leads anywhere. -/
  | probe (path : String) (next : Bool → Script α)
  /-- Says a line. -/
  | say (line : String) (next : Script α)

/-- What a script works on: the files, and the lines that were said. -/
structure Workspace where
  files : FileSystem
  said : List String := []

namespace Script

/-- Goes on with the result of a script. -/
def andThen {α β : Type} : Script α → (α → Script β) → Script β
  | done a, f => f a
  | read path next, f => .read path fun answer => (next answer).andThen f
  | write path contents access next, f =>
    .write path contents access fun answer => (next answer).andThen f
  | probe path next, f => .probe path fun answer => (next answer).andThen f
  | say line next, f => .say line (next.andThen f)

instance : Monad Script where
  pure := done
  bind := andThen

/-- Reads a file. -/
def readFile (path : String) : Script (Except FileError Bytes) := .read path done

/-- Writes a file that anyone may read. -/
def writeFile (path : String) (contents : Bytes) : Script (Except FileError Unit) :=
  .write path contents .everyone done

/-- Writes a file that only its owner may read. -/
def writeSecret (path : String) (contents : Bytes) : Script (Except FileError Unit) :=
  .write path contents .owner done

/-- Whether a path leads anywhere. -/
def pathExists (path : String) : Script Bool := .probe path done

/-- Says a line of progress. -/
def note (line : String) : Script Unit := .say line (done ())

/-- Runs a script. A write that fails changes nothing. -/
def run {α : Type} : Script α → Workspace → α × Workspace
  | done a, w => (a, w)
  | read path next, w => (next (w.files.read path)).run w
  | write path contents _ next, w =>
    match w.files.write path contents with
    | .ok files => (next (.ok ())).run { w with files }
    | .error e => (next (.error e)).run w
  | probe path next, w => (next (w.files.contains path)).run w
  | say line next, w => next.run { w with said := w.said ++ [line] }

/-- A script that goes on with the result of another runs after it. -/
theorem run_andThen {α β : Type} (s : Script α) (f : α → Script β) (w : Workspace) :
    (s.andThen f).run w = (f (s.run w).1).run (s.run w).2 := by
  induction s generalizing w with
  | done a => rfl
  | read path next ih => exact ih _ w
  | write path contents access next ih =>
    simp only [andThen, run]
    cases w.files.write path contents with
    | ok files => exact ih _ _
    | error e => exact ih _ w
  | probe path next ih => exact ih _ w
  | say line next ih => exact ih _

end Script

/-- A script that stops at the first error. -/
abbrev FallibleScript (ε α : Type) := ExceptT ε Script α

end SecureBoot
