import SecureBoot.CommandLine.Target
import SecureBoot.Signing.Offline
/-!
# Signing

The commands that make envelopes: at once with a key at hand, or in two steps
around the keeper of a key. `completionUpdate` is the write of an envelope whose
signature came back.
-/

namespace SecureBoot.CommandLine

open Crypto

/-- A checked job: the variable, and the request to sign. -/
structure CheckedJob where
  variableId : SecureVariable
  request : SigningRequest

/-- Reads and checks what is to be signed. A variable without envelopes is
refused before its lists are read. -/
def SigningJob.load (job : SigningJob) : CommandScript CheckedJob := do
  let v ← CommandScript.check .payload (SecureVariable.ofName job.variableName)
  CommandScript.check id (SigningRequest.requireEnvelope v)
  let lists ← CommandScript.readFile job.lists
  return ⟨v, ← CommandScript.check id (SigningRequest.ofLists v job.append lists)⟩

/-- What the commands tell of a signed or prepared write. -/
def signingMembers (v : SecureVariable) (attributes : Attributes) (timestamp : Timestamp) :
    List (String × Json) :=
  [("variable", .text v.name), ("attributes", .text attributes.text),
    ("timestamp", .text timestamp.text)]

/-- Signs a write and saves its envelope. -/
def signUpdate (c : Context) (job : SigningJob) (signer : Option SignerFiles)
    (output : String) : CommandScript Json := do
  let ⟨v, request⟩ ← job.load
  let some signer ← c.signer signer
    | CommandScript.refuse
        "sign needs --cert and --key, or signing.certificate and signing.key"
  let timestamp ← c.timeOf job.timestamp
  let envelope ← CommandScript.check .auth (request.sign signer timestamp)
  let bytes ← CommandScript.check .auth envelope.encode
  CommandScript.writeFile output bytes
  return answerWith
    s!"Signed {v.name} update as {signer.subject}, wrote {bytes.length} bytes to {output}"
    (("bytes", .natural bytes.length) :: signingMembers v request.attributes envelope.timestamp)

/-! ## Two steps -/

/-- Saves a bundle. -/
def saveBundle (path : String) (b : SigningBundle) : CommandScript Unit := do
  CommandScript.check (fun e => .auth (.file path e))
    (← Script.writeFile path (Bytes.ofString b.toJson))

/-- Loads a bundle. -/
def loadBundle (path : String) : CommandScript SigningBundle := do
  let text := match ← Script.readFile path with
    | .error e => .error (.file path e)
    | .ok contents =>
      match contents.toString? with
      | some text => SigningBundle.ofJson text
      | none => .error (.file path .notText)
  CommandScript.check .auth text

/-- Fixes what is to be signed, and writes the bundle for the keeper of the key. -/
def prepareSigning (c : Context) (job : SigningJob) (bundle : String)
    (message : Option String) : CommandScript Json := do
  let ⟨v, request⟩ ← job.load
  let timestamp ← c.timeOf job.timestamp
  let state ← CommandScript.check .auth ((SigningState.unsigned request).prepare timestamp)
  let b ← CommandScript.check .auth state.toBundle
  saveBundle bundle b
  if let (some path, some contents) := (message, state.message?) then
    CommandScript.writeFile path contents
  return answerWith s!"Wrote signing bundle for {v.name} to {bundle}"
    ([("message_sha256", .text b.messageDigest), ("message_length", .natural b.messageLength)] ++
      signingMembers v request.attributes b.timestamp)

/-- The envelope of a bundle and the signature that came back. -/
def completeEnvelope (scheme : SignatureScheme) (b : SigningBundle) (signature : Bytes)
    (signer : Option Bytes) : Except AuthError Envelope := do
  let state ← SigningState.ofBundle b
  (← state.attach scheme signature signer).takeEnvelope

/-- The write of the envelope of a bundle. The name in the bundle has to stand
for a variable, in any letter case, and the owner has to be that of it. -/
def completionUpdate (b : SigningBundle) (envelope : Bytes) : Except Failure Update := do
  let v ← (SecureVariable.ofName b.name).mapError fun e => Failure.library (.payload e)
  if v.guid ≠ b.guid then
    throw (.invalid s!"the bundle is for {b.name}-{b.guid.text}, not the {v.name} variable")
  return {
    target := v
    action := .preSigned envelope b.attributes.isAppend
    timestamp := b.timestamp }

/-- Writes the envelope of a bundle to the store, and tells what was written. -/
def writeCompletion (c : Context) (b : SigningBundle) (envelope : Bytes) :
    CommandScript (List (String × Json)) := do
  let update ← CommandScript.ofExcept id (completionUpdate b envelope)
  let target ← Target.ofSettings c.settings
  match ← CommandScript.check .update (← target.apply update) with
  | (.alreadyPresent _, _) => return []
  | (.written attributes _, target) =>
    target.commit
    let text := s!"{update.target.name} in {target.text}, attributes {attributes.text}"
    return [("written", .text text)]

/-- Finishes a detached signing. -/
def completeSigning (c : Context) (r : CompletionRequest) : CommandScript Json := do
  let b ← loadBundle r.bundle
  let signature ← CommandScript.readFile r.signature
  let signer ← match r.signer with
    | some path => some <$> loadCertificate path
    | none => pure none
  let envelope ← CommandScript.check .auth
    (completeEnvelope .pkcs7 b signature (signer.map (·.der)))
  c.progress s!"Signature over the {b.messageLength} byte message verified"
  let bytes ← CommandScript.check .auth envelope.encode
  CommandScript.writeFile r.output bytes
  let written ← if r.write then writeCompletion c b bytes else pure []
  return answerWith s!"Wrote {bytes.length} byte envelope for {b.name} to {r.output}"
    ([("variable", .text b.name), ("timestamp", .text b.timestamp.text),
      ("bytes", .natural bytes.length)] ++ written)

end SecureBoot.CommandLine
