import SecureBoot.Text.Numeral
/-!
# The grammar of command lines

A command line names a command, options and operands. A `Grammar` says which
commands there are, by their paths, and what each may be given; `Grammar.parse`
reads a command line as the levels of its command, the innermost one first.

Options come before or after operands. An option that takes a value has it after
an equals sign, or, if it is a letter, right behind it, or else as the next
word, which does not start with a dash. After two dashes alone there are only
operands.
-/

namespace SecureBoot.CommandLine

/-! ## Rules -/

/-- The values that an option or operand takes. -/
inductive ValueRule where
  | text
  /-- The path of a file, which is not empty. -/
  | path
  | oneOf (values : List String)
  /-- A whole number below a limit. -/
  | natural (limit : Nat)
  /-- A whole number below a limit, where zero may be negative. -/
  | integer (limit : Nat)

/-- Reads a whole number, which may have a plus sign in front. -/
def natural? (value : String) : Option Nat := Text.decimal? (Text.dropPlus value.toList)

/-- Reads a whole number with a sign of either kind or none, which is not below
zero. -/
def integer? (value : String) : Option Nat :=
  match value.toList with
  | '-' :: digits => (Text.decimal? digits).filter (· = 0)
  | _ => natural? value

/-- Whether a value follows a rule. -/
def ValueRule.accepts : ValueRule → String → Bool
  | text, _ => true
  | path, value => value != ""
  | oneOf values, value => values.contains value
  | natural limit, value => (natural? value).any (· < limit)
  | integer limit, value => (integer? value).any (· < limit)

/-- How an option is used. -/
inductive OptionUse where
  /-- It stands at most once, without a value. -/
  | flag
  /-- It may be repeated, without a value. -/
  | counter
  /-- It stands at most once, with a value. -/
  | value (rule : ValueRule)
  /-- It asks for help, and nothing else counts. -/
  | help
  /-- It asks for the version, and nothing else counts. -/
  | version

/-- An option. -/
structure OptionRule where
  name : String
  letter : Option Char := none
  use : OptionUse

/-- An operand. -/
structure OperandRule where
  name : String
  rule : ValueRule
  required : Bool := true

/-- A condition on the options of a command. -/
inductive Constraint where
  | required (name : String)
  /-- The first option stands only with the second. -/
  | needs (name other : String)
  /-- The two options do not stand together. -/
  | excludes (name other : String)
  | exactlyOne (names : List String)

/-- What a command may be given. -/
structure CommandRule where
  options : List OptionRule := []
  operands : List OperandRule := []
  /-- A row of values after the operands: their rule, and how many stand
  together at least. -/
  row : Option (ValueRule × Nat) := none
  constraints : List Constraint := []

/-- A grammar: the options that every command takes, and the commands by their
paths, with the empty path for the program itself. -/
structure Grammar where
  shared : List OptionRule
  commands : List (List String × CommandRule)

/-! ## Command lines -/

/-- What a command line gives to one command. -/
structure Level where
  command : List String
  /-- The options, with an empty value for those that take none. -/
  options : List (String × String) := []
  operands : List String := []

namespace Level

/-- The value of an option. -/
def value? (l : Level) (name : String) : Option String := l.options.lookup name

/-- Whether an option stands there. -/
def has (l : Level) (name : String) : Bool := (l.value? name).isSome

/-- Whether a condition is met. -/
def satisfies (l : Level) : Constraint → Bool
  | .required name => l.has name
  | .needs name other => !l.has name || l.has other
  | .excludes name other => !(l.has name && l.has other)
  | .exactlyOne names => (names.filter l.has).length == 1

end Level

/-- Why there is no command to run. -/
inductive Refusal where
  /-- The command line does not follow the grammar. -/
  | usage
  /-- Help on a command is asked for. -/
  | help (command : List String)
  | version
  /-- Nothing at all is said on what to do. -/
  | missingCommand (command : List String)
deriving DecidableEq

namespace Grammar

/-- The rule of a command. -/
def rule (g : Grammar) (command : List String) : CommandRule := (g.commands.lookup command).getD {}

/-- Whether a command has a part of a name. -/
def hasPart (g : Grammar) (command : List String) (name : String) : Bool :=
  g.commands.any (·.1 == command ++ [name])

/-- Whether a command has parts, one of which has to be named. -/
def hasParts (g : Grammar) (command : List String) : Bool :=
  g.commands.any fun c => c.1 != [] && c.1.dropLast == command

/-- The option that asks for help. -/
def helpOption : OptionRule := ⟨"help", some 'h', .help⟩

/-- The option that asks for the version of the program. -/
def versionOption : OptionRule := ⟨"version", some 'V', .version⟩

/-- The word that asks for help where a command has parts. -/
def helpWord : String := "help"

/-- The options that a command takes. -/
def options (g : Grammar) (command : List String) : List OptionRule :=
  (g.rule command).options ++ g.shared ++
    [helpOption] ++ (if command == [] then [versionOption] else [])

end Grammar

/-! ## Reading -/

/-- How far a command line is read. -/
structure Reading where
  level : Level
  /-- The levels around it, the innermost one first. -/
  outer : List Level := []
  /-- The option that waits for its value. -/
  awaiting : Option OptionRule := none
  /-- Whether two dashes came. -/
  onlyOperands : Bool := false
  /-- The command that help is asked for. -/
  helpOn : Option (List String) := none
  /-- How many values of the row stand together so far. -/
  together : Nat := 0

namespace Reading

/-- Ends the values of the row that stand together. -/
def endRow (g : Grammar) (r : Reading) : Except Refusal Reading :=
  match (g.rule r.level.command).row with
  | some (_, least) =>
    if r.together ≠ 0 ∧ r.together < least then .error .usage else .ok { r with together := 0 }
  | none => .ok r

/-- Adds an option with its value. -/
def note (r : Reading) (o : OptionRule) (value : String) : Except Refusal Reading :=
  let added := { r with
    level := { r.level with options := r.level.options ++ [(o.name, value)] }, awaiting := none }
  match o.use with
  | .counter => .ok added
  | .value rule => if r.level.has o.name || !rule.accepts value then .error .usage else .ok added
  | _ => if r.level.has o.name then .error .usage else .ok added

/-- Takes an option, with the value that is attached to it. -/
def takeOption (g : Grammar) (r : Reading) (o : OptionRule) (attached : Option String) :
    Except Refusal Reading := do
  let r ← r.endRow g
  match o.use, attached with
  | .value _, some value => r.note o value
  | .value _, none => return { r with awaiting := some o }
  | _, some _ => throw .usage
  | .help, none => throw (.help r.level.command)
  | .version, none => throw .version
  | _, none => r.note o ""

/-- Takes an option by its name, which an equals sign may end. -/
def takeNamed (g : Grammar) (r : Reading) (word : List Char) : Except Refusal Reading :=
  let name := String.ofList (word.takeWhile (· != '='))
  let attached := match word.dropWhile (· != '=') with
    | _ :: value => some (String.ofList value)
    | [] => none
  match (g.options r.level.command).find? (·.name == name) with
  | some o => r.takeOption g o attached
  | none => .error .usage

/-- Takes options by their letters. What follows the letter of an option with a
value is that value, but for an equals sign in front. -/
def takeLetters (g : Grammar) (r : Reading) : List Char → Except Refusal Reading
  | [] => .ok r
  | c :: rest =>
    match (g.options r.level.command).find? (·.letter == some c) with
    | none => .error .usage
    | some o =>
      match o.use with
      | .value _ =>
        let attached := match rest with
          | [] => none
          | '=' :: value => some (String.ofList value)
          | value => some (String.ofList value)
        r.takeOption g o attached
      | _ => do takeLetters g (← r.takeOption g o none) rest

/-- Takes an operand, or a value of the row after the operands. -/
def takeOperand (g : Grammar) (r : Reading) (word : String) : Except Refusal Reading :=
  let rule := g.rule r.level.command
  let added := { r with level := { r.level with operands := r.level.operands ++ [word] } }
  match rule.operands[r.level.operands.length]?, rule.row with
  | some o, _ => if o.rule.accepts word then .ok added else .error .usage
  | none, some (rule, _) =>
    if rule.accepts word then .ok { added with together := r.together + 1 } else .error .usage
  | none, none => .error .usage

/-- Takes a word that is no option: the name of a part of the command, or an
operand. -/
def takeWord (g : Grammar) (r : Reading) (word : String) : Except Refusal Reading :=
  let command := r.level.command
  if g.hasPart command word then
    .ok { level := ⟨command ++ [word], [], []⟩, outer := r.level :: r.outer }
  else if g.hasParts command && word == Grammar.helpWord then .ok { r with helpOn := some command }
  else r.takeOperand g word

/-- Whether a word is no option. A dash alone is none. -/
def isPlain (word : String) : Bool := !word.startsWith "-" || word == "-"

/-- Takes one word. -/
def step (g : Grammar) (r : Reading) (word : String) : Except Refusal Reading :=
  match r.helpOn, r.awaiting with
  | some command, _ =>
    if g.hasPart command word then .ok { r with helpOn := some (command ++ [word]) }
    else .error .usage
  | none, some o => if isPlain word then r.note o word else .error .usage
  | none, none =>
    if r.onlyOperands then r.takeOperand g word
    else if word == "--" then .ok { r with onlyOperands := true }
    else if isPlain word then r.takeWord g word
    else if word.startsWith "--" then r.takeNamed g (word.toList.drop 2)
    else r.takeLetters g (word.toList.drop 1)

/-- Checks that nothing is missing at the end. -/
def finish (g : Grammar) (r : Reading) : Except Refusal (List Level) := do
  if let some command := r.helpOn then throw (.help command)
  if r.awaiting.isSome then throw .usage
  let r ← r.endRow g
  let level := r.level
  if g.hasParts level.command then
    throw (if level.options.isEmpty then .missingCommand level.command else .usage)
  let rule := g.rule level.command
  let least := (rule.operands.filter (·.required)).length + (if rule.row.isSome then 1 else 0)
  if level.operands.length < least then throw .usage
  if !rule.constraints.all level.satisfies then throw .usage
  return level :: r.outer

end Reading

/-- Reads the words of a command line. -/
def Grammar.parse (g : Grammar) (words : List String) : Except Refusal (List Level) := do
  (← words.foldlM (Reading.step g) { level := ⟨[], [], []⟩ }).finish g

/-- The value of an option, which the innermost level that has it decides. -/
def valueOf? (levels : List Level) (name : String) : Option String :=
  levels.findSome? (·.value? name)

end SecureBoot.CommandLine
