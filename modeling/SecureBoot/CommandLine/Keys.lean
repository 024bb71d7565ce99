import SecureBoot.CommandLine.Inputs
/-!
# Making keys

The command that makes a private key and a certificate of its own.
-/

namespace SecureBoot.CommandLine

open Crypto

/-- The bits of the modulus of a new key. -/
def newKeyBits : Nat := 2048

/-- What random bytes are drawn for. -/
inductive SeedUse where
  | primes
  | serialNumber
  | keyPassword

/-- The number of a use. -/
def SeedUse.number : SeedUse → UInt8
  | primes => 0
  | serialNumber => 1
  | keyPassword => 2

/-- A seed for one use, which tells nothing of the others. -/
def seedFor (use : SeedUse) (seed : Bytes) : Bytes :=
  DigestAlgorithm.sha256.digest (use.number :: seed)

/-- The key and the certificate of a request. -/
def KeyRequest.generate (r : KeyRequest) (now : Nat) (seed : Bytes) :
    Except Error (RsaPrivateKey × Certificate) := do
  let some key := RsaPrivateKey.generate? newKeyBits (seedFor .primes seed)
    | throw (.crypto .generationFailed)
  let request : SelfSigned := {
    commonName := some r.commonName
    privateKey := some (.rsa key)
    notAfter := r.days }
  let entropy := Entropy.ofSeed (seedFor .serialNumber seed)
  return (key, ← (request.build now entropy).mapError Error.certificate)

/-- Goes on once the file of a key or certificate is written. -/
def checkWritten (path : String) (result : Except FileError Unit) : CommandScript Unit :=
  CommandScript.check (fun e => .crypto (.createFailed path e)) result

/-- Makes a private key and a certificate of its own. -/
def generateKey (c : Context) (r : KeyRequest) : CommandScript Json := do
  if (Text.trim r.commonName).isEmpty then
    CommandScript.refuse "the common name must not be empty"
  let seed := c.surroundings.seed
  let (key, certificate) ← CommandScript.check id (r.generate c.surroundings.now seed)
  let keyText := key.fileText r.password (.ofSeed (seedFor .keyPassword seed))
  checkWritten r.key (← Script.writeSecret r.key (Bytes.ofString keyText))
  checkWritten r.certificate
    (← Script.writeFile r.certificate (Bytes.ofString certificate.toPem))
  if let some path := r.der then CommandScript.writeFile path certificate.der
  return answerWith s!"Wrote certificate {r.certificate} and key {r.key}"
    [("subject", .text certificate.subject.text), ("der", Json.ofOption .text r.der)]

end SecureBoot.CommandLine
