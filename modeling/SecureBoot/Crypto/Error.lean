import SecureBoot.Files
/-!
# Errors of keys and certificates
-/

namespace SecureBoot

/-- What can be wrong with a key or certificate, or with the file it is in. -/
inductive CryptoError where
  /-- There is no such file. -/
  | fileNotFound (path : String)
  | createFailed (path : String) (error : FileError)
  | readFailed (path : String) (error : FileError)
  /-- A certificate is not in the distinguished encoding. -/
  | malformedCertificate
  | notDerCertificate
  | notPemCertificate
  /-- The public key of a certificate cannot be read. -/
  | unreadablePublicKey
  /-- A private key cannot be read, or not with the given password. -/
  | unreadablePrivateKey
  | unsupportedKeyAlgorithm (id : String)
  | generationFailed
deriving DecidableEq

namespace CryptoError

/-- The wording of a crypto error, without its cause. -/
def message : CryptoError → String
  | fileNotFound path => s!"could not find file {path}"
  | createFailed path _ => s!"failed to create file {path}"
  | readFailed path _ => s!"failed to read {path}"
  | malformedCertificate => "malformed DER certificate"
  | notDerCertificate => "failed to load X509 certificate from DER"
  | notPemCertificate => "failed to load X509 certificate from PEM"
  | unreadablePublicKey => "failed to get certificate public key"
  | unreadablePrivateKey => "failed to decode private key from PEM"
  | unsupportedKeyAlgorithm id => s!"unsupported key algorithm: {id}"
  | generationFailed => "failed to generate RSA key pair"

/-- The wordings of the causes of a crypto error. -/
def causes : CryptoError → List String
  | createFailed _ error | readFailed _ error => [error.message]
  | _ => []

end CryptoError

end SecureBoot
