import SecureBoot.Authenticode
import SecureBoot.Crypto.SelfSigned
import SecureBoot.Update
/-!
# Errors

The errors of the whole library, the class an operator sees each under, and
their report: the wording of an error and of its causes.
-/

namespace SecureBoot

/-- The class of an error. -/
inductive ErrorKind where
  /-- The input is malformed. -/
  | format
  /-- A variable, a list or an entry is missing. -/
  | notFound
  /-- The store does not allow the write. -/
  | permissionDenied
  /-- Certificate and private key do not belong together. -/
  | keyMismatch
  /-- The signer is not enrolled in the authority variable. -/
  | unauthorizedSigner
  /-- Files or firmware fail. -/
  | store
  /-- The request makes no sense. -/
  | usage
deriving DecidableEq

namespace DatabaseError

/-- The class of a database error. -/
def kind : DatabaseError → ErrorKind
  | format _ => .format
  | listNotFound .. | entryNotFound .. => .notFound

end DatabaseError

namespace CryptoError

/-- The class of a crypto error. -/
def kind : CryptoError → ErrorKind
  | fileNotFound _ => .notFound
  | createFailed .. | readFailed .. => .store
  | _ => .format

end CryptoError

namespace AuthError

/-- The class of an authentication error. -/
def kind : AuthError → ErrorKind
  | keyMismatch _ => .keyMismatch
  | unauthorizedSigner .. => .unauthorizedSigner
  | invalidTransition .. | zeroTimestamp _ => .usage
  | crypto error => error.kind
  | file .. => .store
  | _ => .format

end AuthError

namespace FlashError

/-- The class of a flash error. -/
def kind : FlashError → ErrorKind
  | envelope _ error => error.kind
  | storeNotFound _ | corruptStore .. | corruptRecord .. | unusableSize _ => .format
  | storeFull .. | readFailed .. | writeFailed .. => .store

end FlashError

namespace StoreError

/-- The class of a store error. -/
def kind : StoreError → ErrorKind
  | notFound _ => .notFound
  | refused .. | denied .. => .permissionDenied
  | corrupt .. => .format
  | flash error => error.kind
  | file .. | firmware .. | notMounted => .store

end StoreError

namespace UpdateError

/-- The class of an update error. -/
def kind : UpdateError → ErrorKind
  | missingAuthorization _ | envelopeNotApplicable _ | unsignedInUserMode _
  | appendNotAllowed _ => .usage
  | currentInvalid .. | list _ | payload _ => .format
  | database error => error.kind
  | auth error => error.kind
  | store error => error.kind

end UpdateError

/-- An error of the library. -/
inductive Error where
  | list (error : ListError)
  | database (error : DatabaseError)
  | auth (error : AuthError)
  | store (error : StoreError)
  | flash (error : FlashError)
  | crypto (error : CryptoError)
  | certificate (error : CertificateBuildError)
  | payload (error : VariableError)
  | update (error : UpdateError)
  | authenticode (error : AuthenticodeError)
  | timestamp (error : TimestampError)
  | guid (error : GuidError)
  | attributes (error : AttributesError)
deriving DecidableEq

namespace Error

/-- The class of an error. -/
def kind : Error → ErrorKind
  | database error => error.kind
  | auth error => error.kind
  | store error => error.kind
  | flash error => error.kind
  | crypto error => error.kind
  | update error => error.kind
  | payload (.unknown _) | timestamp _ | guid _ | attributes _ => .usage
  | list _ | payload _ | authenticode _ | certificate _ => .format

/-- The wording of an error, without its cause. -/
def message : Error → String
  | list error => s!"Signature list error: {error.message}"
  | database error => s!"Signature database error: {error.message}"
  | auth error => s!"Authentication error: {error.message}"
  | store error => s!"Variable store error: {error.message}"
  | flash error => s!"Flash image error: {error.message}"
  | crypto error => s!"Crypto error: {error.message}"
  | certificate error => s!"Certificate builder error: {error.message}"
  | payload error => s!"Variable error: {error.message}"
  | update error => s!"Update error: {error.message}"
  | authenticode error => s!"Authenticode error: {error.message}"
  | timestamp error => s!"Invalid timestamp: {error.message}"
  | guid error => s!"Invalid GUID: {error.message}"
  | attributes error => s!"Invalid attributes: {error.message}"

/-- The wordings of the causes of an error. -/
def causes : Error → List String
  | list error => [error.message]
  | database error => error.message :: error.causes
  | auth error => error.message :: error.causes
  | store error => error.message :: error.causes
  | flash error => error.message :: error.causes
  | crypto error => error.message :: error.causes
  | certificate error => error.message :: error.causes
  | payload error => error.message :: error.causes
  | update error => error.message :: error.causes
  | authenticode error => [error.message]
  | timestamp error => [error.message]
  | guid error => [error.message]
  | attributes error => [error.message]

/-- Adds the wordings of causes to a report, but for those it has already. -/
def addCauses (report : String) (causes : List String) : String :=
  causes.foldl (fun report cause =>
    if (report.splitOn cause).length == 1 then report ++ ": " ++ cause else report) report

/-- The wording of an error and of its causes. -/
def report (e : Error) : String := addCauses e.message e.causes

end Error

end SecureBoot
