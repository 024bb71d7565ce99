import SecureBoot.CommandLine.Databases
/-!
# Making signature lists

The commands between files: certificates and programs to signature lists, and
signature lists to certificates.
-/

namespace SecureBoot.CommandLine

open Crypto

/-- Puts a certificate into a list of its own. -/
def encodeCertificate (c : Context) (certificate output : String) (owner : Option String) :
    CommandScript Json := do
  let owner ← c.owner owner
  let certificate ← loadCertificate certificate
  let list ← CommandScript.check .list (SignatureList.encodeCertificate owner certificate.der)
  CommandScript.writeFile output list
  return answerWith
    s!"Wrote X509 list for {certificate.subject.text} ({list.length} bytes) to {output}"
    [("owner", .text owner.text), ("bytes", .natural list.length)]

/-- The hash that enrolls a program. -/
def hashImage (path : String) : CommandScript Bytes := do
  let image ← CommandScript.readFile path
  CommandScript.during s!"Failed to hash {path}" .authenticode (Authenticode.digest .sha256 image)

/-- The hashes of programs, with their paths. -/
def hashImages (paths : List String) : CommandScript (List (String × Bytes)) :=
  paths.mapM fun path => do return (path, ← hashImage path)

/-- Puts the hashes of programs into lists of their own, one after the other. -/
def encodeHashes (c : Context) (images : List String) (output : String)
    (owner : Option String) : CommandScript Json := do
  let owner ← c.owner owner
  let hashes ← hashImages images
  let lists ← CommandScript.check .list
    (hashes.mapM fun (_, digest) => SignatureList.encodeHashes .sha256 owner [digest])
  CommandScript.writeFile output lists.flatten
  return answerWith s!"Wrote {images.length} SHA256 list(s) to {output}"
    [("hashes", .array (hashes.map fun (path, digest) =>
      answer [("file", .text path), ("sha256", .text digest.toHex)]))]

/-- The type of the entries and the digest of a revocation, by the bits of the
digest. -/
def revocationType? (bits : Nat) : Option (SignatureType × DigestAlgorithm) :=
  match bits with
  | 256 => some (.x509Sha256, .sha256)
  | 384 => some (.x509Sha384, .sha384)
  | 512 => some (.x509Sha512, .sha512)
  | _ => none

/-- Puts the digest of a certificate into a list of its own. Without a time of
revocation, the time of zeros stands for always. -/
def revokeCertificate (c : Context) (r : RevocationRequest) : CommandScript Json := do
  let some (type, hash) := revocationType? r.digestBits
    | CommandScript.refuse
        s!"unsupported hash size {r.digestBits}, expected 256, 384 or 512"
  let owner ← c.owner r.owner
  let time := (← Context.givenTime r.time).getD .zero
  let certificate ← loadCertificate r.certificate
  let digest ← CommandScript.check .crypto (Certificate.signedPartDigest hash certificate.der)
  let list ← CommandScript.check .list
    (SignatureList.encodeCertificateHash type owner digest time)
  CommandScript.writeFile r.output list
  return answerWith
    s!"Wrote {type.label} revocation of {certificate.subject.text} to {r.output}"
    [("tbs_hash", .text digest.toHex), ("time_of_revocation", .text time.text)]

/-- The files for a number of certificates. -/
def certificatePaths (start : String) (count : Nat) : List String :=
  (List.range count).map fun n => s!"{start}-{n}.der"

/-- Writes the certificates of a file with lists to files of their own. -/
def extractCertificates (lists start : String) : CommandScript Json := do
  let db ← databaseOf lists (← CommandScript.readFile lists)
  let certificates := db.certificates
  let paths := certificatePaths start certificates.length
  (paths.zip certificates).forM fun (path, der) => CommandScript.writeFile path der
  let message :=
    if paths.isEmpty then s!"{lists} holds no X509 certificates"
    else s!"Extracted {paths.length} certificate(s)"
  return answerWith message [("files", .array (paths.map .text))]

end SecureBoot.CommandLine
