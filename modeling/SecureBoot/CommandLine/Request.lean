import SecureBoot.CommandLine.Grammar
import SecureBoot.Settings
/-!
# Requests

What an operator can ask of the program: the commands with what they are given,
the grammar of their command lines, and reading one.
-/

namespace SecureBoot.CommandLine

/-! ## Commands -/

/-- One list of a database, or one entry of a list, if anything is selected. -/
structure Selection where
  list : Option Nat
  entry : Option Nat

/-- Prints or exports databases. -/
structure ReadRequest where
  /-- The variable, else the databases of the firmware one after the other. -/
  variableName : Option String
  selection : Selection
  /-- Where the selected bytes go instead of being printed. -/
  output : Option String
  /-- A file to read instead of the store. -/
  source : Option String

/-- What an update is made from. -/
inductive UpdateSource where
  /-- A file with an envelope or with lists. -/
  | file (path : String)
  /-- A program whose hash is enrolled. -/
  | image (path : String)
  | certificate (path : String)
  /-- The place of what is deleted. -/
  | deletion (place : String)

/-- The files of a certificate and its private key. -/
structure SignerFiles where
  certificate : String
  key : String

/-- Changes a variable. -/
structure UpdateRequest where
  variableName : String
  source : UpdateSource
  append : Bool
  /-- Whether the file is a list and no envelope. -/
  isList : Bool
  owner : Option String
  signer : Option SignerFiles
  unsigned : Bool
  mergeLocally : Bool
  timestamp : Option String
  /-- Where the update goes instead of the store. -/
  output : Option String

/-- What is to be signed. -/
structure SigningJob where
  variableName : String
  /-- The file with the lists. -/
  lists : String
  append : Bool
  timestamp : Option String

/-- Finishes a detached signing. -/
structure CompletionRequest where
  bundle : String
  signature : String
  /-- The only certificate whose signature is accepted. -/
  signer : Option String
  output : String
  /-- Whether the envelope is written to the store as well. -/
  write : Bool

/-- Revokes a certificate by the digest of its signed part. -/
structure RevocationRequest where
  certificate : String
  output : String
  owner : Option String
  digestBits : Nat
  time : Option String

/-- Puts a variable into a flash image as it is. -/
structure FlashWriteRequest where
  image : String
  variableName : String
  file : String
  owner : Option String
  attributes : Option String
  timestamp : Option String

/-- Makes a key and a certificate of its own. -/
structure KeyRequest where
  commonName : String
  certificate : String
  key : String
  days : Nat
  /-- Where the certificate goes in its encoding as well. -/
  der : Option String
  password : Option String

/-- A command. -/
inductive Command where
  | read (request : ReadRequest)
  | update (request : UpdateRequest)
  | sign (job : SigningJob) (signer : Option SignerFiles) (output : String)
  /-- Starts a detached signing: the file of the bundle, and one for the message. -/
  | prepare (job : SigningJob) (bundle : String) (message : Option String)
  | complete (request : CompletionRequest)
  | encodeCertificate (certificate output : String) (owner : Option String)
  | encodeHashes (images : List String) (output : String) (owner : Option String)
  | revoke (request : RevocationRequest)
  | extractCertificates (lists start : String)
  | status
  | listFlash (image : Option String) (all : Bool)
  | writeFlash (request : FlashWriteRequest)
  | generateKey (request : KeyRequest)

/-- What every command may be given. -/
structure SharedOptions where
  settingsFile : Option String
  backend : Option Backend
  variablesDirectory : Option String
  flashImage : Option String
  quiet : Bool
  format : Option OutputFormat

/-- A command and what it shares with every other. -/
structure Request where
  shared : SharedOptions
  command : Command

/-- The settings, but for what the command line says otherwise. An image on the
command line is the store to work on, unless another kind is named there. -/
def SharedOptions.apply (o : SharedOptions) (s : Settings) : Settings :=
  { s with
    backend := o.backend.getD (if o.flashImage.isSome then .flash else s.backend)
    variablesDirectory := o.variablesDirectory <|> s.variablesDirectory
    flashImage := o.flashImage <|> s.flashImage
    format := o.format.getD s.format }

/-! ## Grammar -/

/-- An option with a value. -/
def valueOption (name : String) (letter : Option Char) (rule : ValueRule) : OptionRule :=
  ⟨name, letter, .value rule⟩

/-- An option without a value. -/
def flagOption (name : String) (letter : Option Char) : OptionRule := ⟨name, letter, .flag⟩

/-- One more than the greatest index. -/
def indexLimit : Nat := UInt64.size

/-- One more than the greatest number of days. -/
def daysLimit : Nat := UInt32.size

/-- The days that a certificate is valid if nothing else is said. -/
def defaultDays : Nat := 3650

/-- The bits of the digest of a revocation if nothing else is said. -/
def defaultDigestBits : Nat := 256

/-- The options for who owns new entries. -/
def ownerOption : OptionRule := valueOption "owner" (some 'g') .text

/-- The option for a time. -/
def timestampOption : OptionRule := valueOption "timestamp" (some 't') .text

/-- The option for adding to a variable. -/
def appendOption : OptionRule := flagOption "append" (some 'a')

/-- The option for the file to write. -/
def outputOption : OptionRule := valueOption "output" (some 'o') .path

/-- What the command of an update may be given. -/
def updateRule : CommandRule where
  options := [valueOption "file" (some 'f') .path, valueOption "hash-binary" (some 'b') .path,
    valueOption "cert" (some 'x') .path, valueOption "delete" (some 'd') .text, appendOption,
    flagOption "esl" (some 'e'), ownerOption, valueOption "signer-cert" none .path,
    valueOption "signer-key" none .path, flagOption "unsigned" none,
    flagOption "merge-locally" none, timestampOption, outputOption]
  operands := [⟨"variable", .text, true⟩]
  constraints := [.exactlyOne ["file", "hash-binary", "cert", "delete"],
    .needs "signer-cert" "signer-key", .needs "signer-key" "signer-cert",
    .excludes "unsigned" "signer-cert", .excludes "unsigned" "signer-key",
    .needs "merge-locally" "append"]

/-- The grammar of the program. -/
def grammar : Grammar where
  shared := [valueOption "config" (some 'c') .text,
    valueOption "store" none (.oneOf (Backend.all.map Backend.name)),
    valueOption "efivarfs" none .text, valueOption "flash-image" none .text,
    ⟨"verbose", some 'v', .counter⟩, flagOption "quiet" (some 'q'),
    valueOption "format" none (.oneOf (OutputFormat.all.map OutputFormat.name))]
  commands := [
    ([], {}),
    (["read"], {
      options := [valueOption "list" (some 's') (.natural indexLimit),
        valueOption "entry" (some 'e') (.natural indexLimit), outputOption,
        valueOption "esl" none .path]
      operands := [⟨"variable", .text, false⟩]
      constraints := [.needs "entry" "list"] }),
    (["update"], updateRule),
    (["sign"], {
      options := [valueOption "esl" none .path, valueOption "cert" none .path,
        valueOption "key" none .path, appendOption, timestampOption, outputOption]
      operands := [⟨"variable", .text, true⟩]
      constraints := [.required "esl", .required "output", .needs "cert" "key",
        .needs "key" "cert"] }),
    (["sign-prepare"], {
      options := [valueOption "esl" none .path, appendOption, timestampOption,
        valueOption "bundle" (some 'b') .path, valueOption "message" (some 'm') .path]
      operands := [⟨"variable", .text, true⟩]
      constraints := [.required "esl", .required "bundle"] }),
    (["sign-complete"], {
      options := [valueOption "bundle" (some 'b') .path, valueOption "signature" (some 's') .path,
        valueOption "signer-cert" none .path, outputOption, flagOption "write" (some 'w')]
      constraints := [.required "bundle", .required "signature", .required "output"] }),
    (["cert-to-esl"], {
      options := [ownerOption]
      operands := [⟨"cert", .path, true⟩, ⟨"output", .path, true⟩] }),
    (["hash-to-esl"], { options := [ownerOption], row := some (.path, 2) }),
    (["cert-to-hash-esl"], {
      options := [ownerOption, valueOption "hash" (some 's') (.oneOf ["256", "384", "512"]),
        valueOption "revocation-time" (some 't') .text]
      operands := [⟨"cert", .path, true⟩, ⟨"output", .path, true⟩] }),
    (["esl-to-certs"], { operands := [⟨"esl", .path, true⟩, ⟨"prefix", .text, true⟩] }),
    (["status"], {}),
    (["flash"], {}),
    (["flash", "list"], {
      options := [flagOption "all" (some 'a')]
      operands := [⟨"image", .path, false⟩] }),
    (["flash", "set"], {
      options := [ownerOption, valueOption "attributes" none .text, timestampOption]
      operands :=
        [⟨"image", .path, true⟩, ⟨"variable", .text, true⟩, ⟨"file", .path, true⟩] }),
    (["keygen"], {
      options := [valueOption "common-name" none .text, valueOption "cert" none .path,
        valueOption "key" none .path, valueOption "days" none (.integer daysLimit),
        valueOption "der" none .path, valueOption "key-password" none .text]
      constraints := [.required "common-name", .required "cert", .required "key"] })]

/-! ## Reading -/

namespace Request

/-- The number that an option gives. -/
def number? (l : Level) (name : String) : Option Nat := l.value? name >>= natural?

/-- The source of an update. -/
def source? (l : Level) : Option UpdateSource :=
  (l.value? "file").map .file <|> (l.value? "hash-binary").map .image <|>
    (l.value? "cert").map .certificate <|> (l.value? "delete").map .deletion

/-- The files of a signer, if both are given. -/
def signer? (l : Level) (certificate key : String) : Option SignerFiles := do
  return ⟨← l.value? certificate, ← l.value? key⟩

/-- What is to be signed. -/
def signingJob? (l : Level) : Option SigningJob := do
  return ⟨← l.operands[0]?, ← l.value? "esl", l.has "append", l.value? "timestamp"⟩

/-- The command of a level. -/
def command? (l : Level) : Option Command :=
  let owner := l.value? "owner"
  match l.command, l.operands with
  | ["read"], names =>
    let selection : Selection := ⟨number? l "list", number? l "entry"⟩
    some (.read ⟨names.head?, selection, l.value? "output", l.value? "esl"⟩)
  | ["update"], [name] => do
    return .update {
      variableName := name
      source := ← source? l
      append := l.has "append"
      isList := l.has "esl"
      owner
      signer := signer? l "signer-cert" "signer-key"
      unsigned := l.has "unsigned"
      mergeLocally := l.has "merge-locally"
      timestamp := l.value? "timestamp"
      output := l.value? "output" }
  | ["sign"], _ => do
    return .sign (← signingJob? l) (signer? l "cert" "key") (← l.value? "output")
  | ["sign-prepare"], _ => do
    return .prepare (← signingJob? l) (← l.value? "bundle") (l.value? "message")
  | ["sign-complete"], _ => do
    return .complete ⟨← l.value? "bundle", ← l.value? "signature", l.value? "signer-cert",
      ← l.value? "output", l.has "write"⟩
  | ["cert-to-esl"], [certificate, output] => some (.encodeCertificate certificate output owner)
  | ["hash-to-esl"], files => do
    return .encodeHashes files.dropLast (← files.getLast?) owner
  | ["cert-to-hash-esl"], [certificate, output] =>
    some (.revoke ⟨certificate, output, owner, (number? l "hash").getD defaultDigestBits,
      l.value? "revocation-time"⟩)
  | ["esl-to-certs"], [lists, start] => some (.extractCertificates lists start)
  | ["status"], _ => some .status
  | ["flash", "list"], images => some (.listFlash images.head? (l.has "all"))
  | ["flash", "set"], [image, name, file] =>
    some (.writeFlash ⟨image, name, file, owner, l.value? "attributes", l.value? "timestamp"⟩)
  | ["keygen"], _ => do
    return .generateKey ⟨← l.value? "common-name", ← l.value? "cert", ← l.value? "key",
      (l.value? "days" >>= integer?).getD defaultDays, l.value? "der", l.value? "key-password"⟩
  | _, _ => none

/-- The options of every command. -/
def sharedOptions (levels : List Level) : SharedOptions where
  settingsFile := valueOf? levels "config"
  backend := valueOf? levels "store" >>= Backend.ofName?
  variablesDirectory := valueOf? levels "efivarfs"
  flashImage := valueOf? levels "flash-image"
  quiet := (valueOf? levels "quiet").isSome
  format := valueOf? levels "format" >>= OutputFormat.ofName?

/-- Reads a command line. -/
def parse (words : List String) : Except Refusal Request := do
  let levels ← grammar.parse words
  match levels.head?.bind command? with
  | some command => return ⟨sharedOptions levels, command⟩
  | none => throw .usage

end Request

end SecureBoot.CommandLine
