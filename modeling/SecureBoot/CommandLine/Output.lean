import SecureBoot.CommandLine.Failure
import SecureBoot.Json
/-!
# Output

A command answers with a JSON object, its members in the order of their names.
For programs it is printed as it is, and for people as lines `name: value`, with
its message first.
-/

namespace SecureBoot.CommandLine

/-- How a run of the program ends. -/
structure Outcome where
  exitStatus : Nat
  stdout : String := ""
  /-- The last text of the error output. -/
  stderr : String := ""

/-- An answer with members in the order of their names. -/
def answer (members : List (String × Json)) : Json :=
  .ofMembers (members.mergeSort fun a b => decide (a.1 ≤ b.1))

/-- An answer that is a message and other members. -/
def answerWith (message : String) (members : List (String × Json)) : Json :=
  answer (("message", .text message) :: members)

namespace Output

/-- The text of a value without parts. -/
def scalar : Json → String
  | .string s => s.getD ""
  | .null => "-"
  | .bool b => if b then "true" else "false"
  | .integer n => toString n
  | .inexact | .array _ | .object _ => ""

/-- The name of the member that stands on a line of its own. -/
def messageName : Option String := some "message"

/-- Blanks in front of a line. -/
def pad (indent : Nat) : String := String.ofList (List.replicate indent ' ')

/-- The first member that is a message. -/
def messageLine (indent : Nat) (members : List (Option String × Json)) : List String :=
  match members.lookup messageName with
  | some m => [pad indent ++ scalar m]
  | none => []

mutual

/-- The lines of a value. -/
def lines (indent : Nat) : Json → List String
  | .object members => messageLine indent members ++ memberLines indent members
  | .array items => itemLines indent items
  | v => [pad indent ++ scalar v]

/-- The lines of the members of an object, but for its message. -/
def memberLines (indent : Nat) : List (Option String × Json) → List String
  | [] => []
  | (name, v) :: rest =>
    let start := pad indent ++ name.getD "" ++ ":"
    let own :=
      if name == messageName then []
      else
        match v with
        | .array [] => [start ++ " (none)"]
        | .array items => start :: itemLines (indent + 2) items
        | .object members =>
          start :: (messageLine (indent + 2) members ++ memberLines (indent + 2) members)
        | v => [start ++ " " ++ scalar v]
    own ++ memberLines indent rest

/-- The lines of the items of an array. -/
def itemLines (indent : Nat) : List Json → List String
  | [] => []
  | v :: rest =>
    let own := match v with
      | .array items => (pad indent ++ "-") :: itemLines (indent + 2) items
      | .object members =>
        (pad indent ++ "-") ::
          (messageLine (indent + 2) members ++ memberLines (indent + 2) members)
      | v => [pad indent ++ "- " ++ scalar v]
    own ++ itemLines indent rest

end

/-- The lines of an answer for people. -/
def text (v : Json) : String := "\n".intercalate (lines 0 v)

/-- A text without the blanks at its end. -/
def trimEnd (s : String) : String :=
  String.ofList (Text.trimStart s.toList.reverse).reverse

/-- What is printed of an answer. -/
def print (format : OutputFormat) (v : Json) : String :=
  match format with
  | .json => v.pretty ++ "\n"
  | .text => trimEnd (text v) ++ "\n"

/-- The answer that tells programs of a failure. -/
def failureAnswer (f : Failure) : Json :=
  answer [("error", answer [("code", .text f.code), ("exit_code", .natural f.exitStatus),
    ("message", .text f.report)])]

end Output

namespace Outcome

/-- The outcome of a command that succeeds. -/
def success (format : OutputFormat) (v : Json) : Outcome :=
  { exitStatus := 0, stdout := Output.print format v }

/-- The outcome of a command that fails. Programs are told in the output, and
people in the error output. -/
def failure (format : OutputFormat) (f : Failure) : Outcome :=
  match format with
  | .json =>
    { exitStatus := f.exitStatus, stdout := Output.print .json (Output.failureAnswer f) }
  | .text => { exitStatus := f.exitStatus, stderr := s!"Error: {f.report}\n" }

end Outcome

end SecureBoot.CommandLine
