import SecureBoot.CommandLine.FlashImages
import SecureBoot.CommandLine.Keys
import SecureBoot.CommandLine.Signing
import SecureBoot.CommandLine.Updates
/-!
# The program

From the words of a command line to the outcome of a run: reading the words,
loading the settings, and running the command. All of it is one script, so that
a run over given files is a value.
-/

namespace SecureBoot.CommandLine

/-- Runs a command. -/
def runCommand (c : Context) : Command → CommandScript Json
  | .read request => readDatabases c request
  | .update request => updateVariable c request
  | .sign job signer output => signUpdate c job signer output
  | .prepare job bundle message => prepareSigning c job bundle message
  | .complete request => completeSigning c request
  | .encodeCertificate certificate output owner => encodeCertificate c certificate output owner
  | .encodeHashes images output owner => encodeHashes c images output owner
  | .revoke request => revokeCertificate c request
  | .extractCertificates lists start => extractCertificates lists start
  | .status => platformStatus c
  | .listFlash image all => listFlash c image all
  | .writeFlash request => writeFlash c request
  | .generateKey request => generateKey c request

/-! ## Words on the program -/

/-- The name of the program. -/
def programName : String := "efikeysctl"

/-- The version of the program. -/
def programVersion : String := "0.1.0"

/-- An option in a usage line. -/
def OptionRule.usage (o : OptionRule) : String :=
  match o.use with
  | .value _ => s!"[--{o.name} <{o.name.toUpper}>]"
  | _ => s!"[--{o.name}]"

/-- An operand in a usage line. -/
def OperandRule.usage (o : OperandRule) : String :=
  if o.required then s!"<{o.name.toUpper}>" else s!"[{o.name.toUpper}]"

/-- The usage line of a command. -/
def usageLine (command : List String) : String :=
  let rule := grammar.rule command
  let row := match rule.row with
    | some _ => ["<FILE>..."]
    | none => []
  let parts := if grammar.hasParts command then ["<COMMAND>"] else []
  " ".intercalate (programName :: command ++ rule.options.map OptionRule.usage ++
    rule.operands.map OperandRule.usage ++ row ++ parts)

/-- The help on a command: its usage, its parts, and the options that every
command takes. -/
def helpText (command : List String) : String :=
  let parts := (grammar.commands.filter fun c => c.1 != [] && c.1.dropLast == command).map
    fun c => "  " ++ usageLine c.1
  let parts := if parts.isEmpty then [] else ["", "Commands:"] ++ parts
  let shared := ["", "Options:"] ++ grammar.shared.map fun o => "  " ++ o.usage
  "\n".intercalate (["Usage: " ++ usageLine command] ++ parts ++ shared) ++ "\n"

/-- The outcome of a run without a command. -/
def refusalOutcome : Refusal → Outcome
  | .usage =>
    { exitStatus := 2
      stderr := s!"error: the command line is not understood, try {programName} --help\n" }
  | .help command => { exitStatus := 0, stdout := helpText command }
  | .version => { exitStatus := 0, stdout := s!"{programName} {programVersion}\n" }
  | .missingCommand command => { exitStatus := 2, stderr := helpText command }

/-! ## Runs -/

/-- Runs a request. -/
def runRequest (s : Surroundings) (r : Request) : Script Outcome := do
  match ← (Settings.load r.shared.settingsFile s.environment).run with
  | .error e => return .failure (r.shared.format.getD .text) (.settings e)
  | .ok loaded =>
    let settings := r.shared.apply loaded
    match ← (runCommand ⟨settings, r.shared.quiet, s⟩ r.command).run with
    | .ok v => return .success settings.format v
    | .error f => return .failure settings.format f

/-- Runs the program with the words of a command line. -/
def runProgram (s : Surroundings) (words : List String) : Script Outcome :=
  match Request.parse words with
  | .ok r => runRequest s r
  | .error refusal => return refusalOutcome refusal

end SecureBoot.CommandLine
