import SecureBoot.CommandLine.Output
import SecureBoot.CommandLine.Request
/-!
# Inputs of commands

What commands make of the texts and files they are given: owners, times,
certificates and signers.
-/

namespace SecureBoot.CommandLine

open Crypto

/-- What the program finds around it when it starts. -/
structure Surroundings where
  environment : Environment
  /-- The seconds since the start of the year 1970. -/
  now : Nat
  /-- Random bytes. -/
  seed : Bytes

/-- What a command works with. -/
structure Context where
  settings : Settings
  /-- Whether lines of progress are left out. -/
  quiet : Bool
  surroundings : Surroundings

namespace Context

/-- The time of a write that was given none. -/
def timestamp (c : Context) : Timestamp := Timestamp.ofEpochSeconds c.surroundings.now

/-- Says a line of progress. -/
def progress (c : Context) (line : String) : CommandScript Unit :=
  if c.quiet then return () else Script.note line

/-- The owner of new entries: the one given, else the one that is set, else the
identifier of zeros. -/
def owner (c : Context) (given : Option String) : CommandScript Guid :=
  match given <|> c.settings.defaultOwner with
  | some text => CommandScript.check .guid (Guid.parse text)
  | none => return ⟨0, 0, 0, 0⟩

/-- A time that may be given. -/
def givenTime (text : Option String) : CommandScript (Option Timestamp) :=
  match text with
  | some text => do return some (← CommandScript.check .timestamp (Timestamp.parse text))
  | none => return none

/-- The time of a write: the one given, else now. -/
def timeOf (c : Context) (text : Option String) : CommandScript Timestamp := do
  return (← givenTime text).getD c.timestamp

end Context

/-- Reads the file of a certificate in either form. -/
def readCertificate (path : String) : Script (Except CryptoError Certificate) := do
  if !(← Script.pathExists path) then return .error (.fileNotFound path)
  match ← Script.readFile path with
  | .ok contents => return Certificate.ofBytes contents
  | .error e => return .error (.readFailed path e)

/-- Loads a certificate. -/
def loadCertificate (path : String) : CommandScript Certificate := do
  CommandScript.check .crypto (← readCertificate path)

/-- Loads the signer of a certificate and its private key. -/
def Context.loadSigner (c : Context) (files : SignerFiles) : CommandScript Signer := do
  let ofCrypto (e : CryptoError) : Error := .auth (.crypto e)
  let certificate ← CommandScript.check ofCrypto (← readCertificate files.certificate)
  let contents ← match ← Script.readFile files.key with
    | .ok contents => pure contents
    | .error e => throw (.library (ofCrypto (.readFailed files.key e)))
  let key ← CommandScript.check ofCrypto (PrivateKey.ofPem contents c.settings.keyPassword)
  CommandScript.check .auth (Signer.ofKey certificate key)

/-- The signer that is given, else the one that is set, if there is one. -/
def Context.signer (c : Context) (given : Option SignerFiles) : CommandScript (Option Signer) :=
  match given, c.settings.certificate, c.settings.key with
  | some files, _, _ => some <$> c.loadSigner files
  | none, some certificate, some key => some <$> c.loadSigner ⟨certificate, key⟩
  | none, none, none => return none
  | none, _, _ =>
    CommandScript.refuse "signing.certificate and signing.key must be set together"

end SecureBoot.CommandLine
