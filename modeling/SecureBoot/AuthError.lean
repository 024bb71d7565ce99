import SecureBoot.Crypto.SignedData
import SecureBoot.Guid
/-!
# Errors of authentication

What can be wrong with an authenticated envelope, a signer, a signature, or a
signing bundle.
-/

namespace SecureBoot

/-- What can be wrong with the header of an envelope. -/
inductive EnvelopeFault where
  /-- The header does not fit. -/
  | tooShort (size : Nat)
  | revision (found : UInt16)
  | certificateKind (found : UInt16)
  | certificateType (found : Guid)
  /-- The declared length cannot hold the certificate header. -/
  | lengthTooSmall (declared : Nat)
  /-- The declared length runs past the end. -/
  | lengthTooLarge (declared size : Nat)
deriving DecidableEq

/-- The wording of an envelope fault. -/
def EnvelopeFault.message : EnvelopeFault → String
  | tooShort size => s!"{size} bytes cannot hold the 40 byte header"
  | revision found => s!"unexpected WIN_CERTIFICATE revision 0x{Text.hexPadded 4 found.toNat}"
  | certificateKind found => s!"unexpected WIN_CERTIFICATE type 0x{Text.hexPadded 4 found.toNat}"
  | certificateType found => s!"unexpected certificate type {found.text}"
  | lengthTooSmall declared => s!"dwLength {declared} is smaller than the certificate header"
  | lengthTooLarge declared size =>
    s!"dwLength {declared} runs past the end of the {size} byte envelope"

/-- How a bundle disagrees with the message rebuilt from it. -/
inductive BundleMismatch where
  | length (actual declared : Nat)
  | digest (actual declared : String)
deriving DecidableEq

/-- The wording of a mismatch. -/
def BundleMismatch.message : BundleMismatch → String
  | length actual declared => s!"message is {actual} bytes, the bundle declares {declared}"
  | digest actual declared => s!"message digest is {actual}, the bundle declares {declared}"

/-- The stages of detached signing. -/
inductive SigningStage where
  | unsigned
  | awaitingSignature
  | signed
deriving DecidableEq

/-- The name of a stage. -/
def SigningStage.text : SigningStage → String
  | unsigned => "unsigned"
  | awaitingSignature => "awaiting a signature"
  | signed => "signed"

/-- The operations of detached signing. -/
inductive SigningOperation where
  | prepare
  | exportBundle
  | attachSignature
  | sign
  | takeEnvelope
deriving DecidableEq

/-- The name of an operation. -/
def SigningOperation.text : SigningOperation → String
  | prepare => "prepare"
  | exportBundle => "export a bundle"
  | attachSignature => "attach a signature"
  | sign => "sign"
  | takeEnvelope => "take the envelope"

/-- What can go wrong in authentication. -/
inductive AuthError where
  /-- The private key does not belong to the certificate. -/
  | keyMismatch (subject : String)
  /-- The signer is not enrolled in the authority variable. -/
  | unauthorizedSigner (subject authority : String)
  /-- The key cannot make the signature. -/
  | signingFailed
  | invalidSignature (fault : Crypto.SignatureFault)
  | malformedEnvelope (fault : EnvelopeFault)
  | bundleMismatch (fault : BundleMismatch)
  | unsupportedBundleVersion (version : Nat)
  /-- The operation does not fit the stage of signing. -/
  | invalidTransition (stage : SigningStage) (operation : SigningOperation)
  /-- A signed write needs a timestamp. -/
  | zeroTimestamp (name : String)
  /-- The certificate data do not fit the length field. -/
  | tooLarge (size : Nat)
  | crypto (error : CryptoError)
  /-- The text of a bundle does not follow its format. -/
  | malformedBundle
  /-- The payload of a bundle is not base64. -/
  | malformedPayload
  | file (path : String) (error : FileError)
deriving DecidableEq

namespace AuthError

/-- The wording of an authentication error, without its cause. -/
def message : AuthError → String
  | keyMismatch subject =>
    s!"the private key does not match the public key of certificate {subject}"
  | unauthorizedSigner subject authority => s!"signer {subject} is not enrolled in {authority}"
  | signingFailed => "failed to create the PKCS#7 signature"
  | invalidSignature fault => s!"signature verification failed: {fault.message}"
  | malformedEnvelope fault => s!"malformed authenticated variable: {fault.message}"
  | bundleMismatch fault => s!"signing bundle does not match its message: {fault.message}"
  | unsupportedBundleVersion version => s!"unsupported signing bundle format version {version}"
  | invalidTransition stage operation =>
    s!"cannot {operation.text} while the update is {stage.text}"
  | zeroTimestamp name => s!"the timestamp of a signed update to {name} must not be zero"
  | tooLarge size => s!"certificate data of {size} bytes does not fit the 32-bit length field"
  | crypto _ => "crypto error"
  | malformedBundle => "failed to (de)serialize the signing bundle"
  | malformedPayload => "failed to decode base64 payload"
  | file path _ => s!"failed to access {path}"

/-- The wordings of the causes of an authentication error. -/
def causes : AuthError → List String
  | crypto error => error.message :: error.causes
  | file _ error => [error.message]
  | _ => []

end AuthError

end SecureBoot
