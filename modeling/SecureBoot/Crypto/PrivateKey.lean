import SecureBoot.Crypto.Certificate
import SecureBoot.Crypto.PasswordKey
/-!
# Private keys

Private keys in text armour: plain and encrypted keys of PKCS #8, and the
traditional forms of RSA and elliptic curve keys. Keys are written as PKCS #8.
-/

namespace SecureBoot.Crypto

open Asn1

/-- A private key: one of RSA, or one of another algorithm, of which only the
public half is known, if it is stored with it. -/
inductive PrivateKey where
  | rsa (key : RsaPrivateKey)
  | other (algorithm : Bytes) (publicKey : Option PublicKey)
deriving DecidableEq

/-- The registered numbers of key algorithms. -/
def keyAlgorithmNumbers : List (Bytes × Nat) :=
  [(ObjectId.ecPublicKey, 408), (ObjectId.x25519, 1034), (ObjectId.x448, 1035),
    (ObjectId.ed25519, 1087), (ObjectId.ed448, 1088),
    (ObjectId.ofComponents [1, 2, 840, 10040, 4, 1], 116),
    (ObjectId.ofComponents [1, 2, 840, 113549, 1, 1, 10], 912)]

namespace PrivateKey

/-- The permissions of a file that holds a private key. -/
def fileMode : Nat := 0o600

/-- The public half of an RSA key. -/
def publicKey (k : PrivateKey) : Except CryptoError RsaPublicKey :=
  match k with
  | rsa key => .ok key.publicKey
  | other algorithm _ =>
    let number := (keyAlgorithmNumbers.lookup algorithm).getD 0
    .error (.unsupportedKeyAlgorithm s!"Id({number})")

/-- Whether the key is one of RSA. -/
def isRsa : PrivateKey → Bool
  | rsa _ => true
  | other .. => false

/-- Whether the key is one of an elliptic curve. -/
def isCurve : PrivateKey → Bool
  | rsa _ => false
  | other algorithm _ => algorithm == ObjectId.ecPublicKey

/-- Whether a public key is the public half. -/
def matches? (k : PrivateKey) (p : PublicKey) : Bool :=
  match k with
  | rsa key => p == .rsa key.publicKey
  | other _ publicKey => publicKey == some p

/-! ## Reading -/

/-- The only element inside an element that may be absent. -/
def inner? : Option Element → Option (Option Element)
  | none => some none
  | some e => do
    match ← elements? e.content with
    | [inner] => return some inner
    | _ => none

/-- Reads an elliptic curve key, whose curve may be given from outside. Its own
curve wins, and its public half, if stored, is a point of the curve. -/
def ofCurveDer? (outer : Option Bytes) (der : Bytes) : Option PrivateKey := do
  let (e, _) ← Element.read? der
  match ← e.children? Tag.sequence with
  | version :: secret :: rest =>
    let _ ← version.smallInt?
    let _ ← secret.stringOf? Tag.octetString
    let (own, rest) := Certificate.takeOptional (Tag.context 0) rest
    let (stored, rest) := Certificate.takeOptional (Tag.context 1) rest
    if !rest.isEmpty then none
    let own ← inner? own
    let parameters ← match own with
      | some e => e.normal?
      | none => outer
    let curve ← Curve.ofParameters? parameters
    match ← inner? stored with
    | none => return .other ObjectId.ecPublicKey none
    | some stored =>
      let point ← stored.bitString?
      if !curve.isEncodedPoint point then none
      return .other ObjectId.ecPublicKey (some (.other ObjectId.ecPublicKey parameters point))
  | _ => none

/-- Whether the content of a key that is a row of bytes is one of a number of bytes. -/
def isRow (size : Nat) (content : Bytes) : Bool :=
  ((Element.read? content).bind fun (e, _) => e.stringOf? Tag.octetString).any (·.length == size)

/-- Reads the key of RSA alone. -/
def ofRsaDer? (der : Bytes) : Option PrivateKey := (RsaPrivateKey.ofDer? der).map .rsa

/-- Reads a key with its algorithm. -/
def ofDer? (der : Bytes) : Option PrivateKey := do
  let (e, _) ← Element.read? der
  match ← e.children? Tag.sequence with
  | version :: algorithm :: key :: rest =>
    let (attributes, rest) := Certificate.takeIf (Tag.isAlike · (Tag.context 0)) rest
    if !rest.isEmpty then none
    let _ ← elements? ((attributes.map (·.content)).getD [])
    let _ ← version.integer?
    let algorithm ← AlgorithmId.ofElement? .exact algorithm
    let content ← key.stringOf? Tag.octetString
    if algorithm.algorithm == ObjectId.rsaEncryption then ofRsaDer? content
    else if algorithm.algorithm == ObjectId.ecPublicKey then
      ofCurveDer? (some algorithm.parameters) content
    else
      let _ ← keyAlgorithmNumbers.lookup algorithm.algorithm
      if (rowAlgorithms.lookup algorithm.algorithm).all fun row =>
        algorithm.parameters == [] && isRow row.1 content
      then some (.other algorithm.algorithm none)
      else none
  | _ => none

/-- Reads an encrypted key. -/
def ofEncryptedDer? (password der : Bytes) : Option PrivateKey := do
  let (e, _) ← Element.read? der
  match ← e.children? Tag.sequence with
  | [scheme, message] =>
    let cipher ← PasswordCipher.ofElement? scheme
    ofDer? (← cipher.decrypt? password (← message.contentOf? Tag.octetString))
  | _ => none

/-- The body of a traditional block, deciphered if its headers say so. -/
def plainBody? (password : Bytes) (block : Armour) : Option Bytes :=
  match block.headers with
  | [] => some block.body
  | [process, info] => do
    let process ← Bytes.toString? process
    let info ← Bytes.toString? info
    if process != "Proc-Type: 4,ENCRYPTED" || !info.startsWith "DEK-Info: " then none
    match (info.drop 10).toString.splitOn "," with
    | [name, iv] =>
      let size ← cipherNames.lookup name
      let iv ← Bytes.ofHex? iv
      if iv.length != 16 || password.isEmpty then none
      Aes.decryptCbc? (traditionalKey password (iv.take 8) size) iv block.body
    | _ => none
  | _ => none

/-- Reads the key of a block of text armour; `none` if it is no key at all. -/
def ofArmour? (password : Bytes) (block : Armour) : Option (Option PrivateKey) :=
  match block.label with
  | "PRIVATE KEY" => some (if block.headers.isEmpty then ofDer? block.body else none)
  | "ENCRYPTED PRIVATE KEY" =>
    some (if password.isEmpty || !block.headers.isEmpty then none
      else ofEncryptedDer? password block.body)
  | "RSA PRIVATE KEY" => some ((plainBody? password block).bind fun body =>
      ofRsaDer? body <|> (ofDer? body).filter (·.isRsa))
  | "EC PRIVATE KEY" => some ((plainBody? password block).bind fun body =>
      ofCurveDer? none body <|> (ofDer? body).filter (·.isCurve))
  | _ => none

/-- Reads the first private key of a text, with a password for encrypted ones. -/
def ofPem (text : Bytes) (password : Option String) : Except CryptoError PrivateKey :=
  let password := Bytes.ofString (password.getD "")
  match ((Armour.blocks text).findSome? (ofArmour? password)).join with
  | some key => .ok key
  | none => .error .unreadablePrivateKey

end PrivateKey

/-! ## Writing -/

namespace RsaPrivateKey

/-- The encoded key with its algorithm. -/
def toInfoDer (k : RsaPrivateKey) : Bytes :=
  sequenceOf [integer 0, (AlgorithmId.mk ObjectId.rsaEncryption null).toDer, octetString k.toDer]

/-- The armoured key. -/
def toPem (k : RsaPrivateKey) : String := Armour.encode "PRIVATE KEY" k.toInfoDer

/-- The armoured key, encrypted with a password. -/
def toEncryptedPem (k : RsaPrivateKey) (password : String) (entropy : Entropy) : String :=
  let (salt, entropy) := entropy.draw 8
  let (iv, _) := entropy.draw 16
  let cipher : PasswordCipher := ⟨.sha256, salt, 2048, ObjectId.aes256Cbc, iv⟩
  let message := (cipher.encrypt? (Bytes.ofString password) k.toInfoDer).getD []
  Armour.encode "ENCRYPTED PRIVATE KEY" (sequenceOf [cipher.toDer, octetString message])

/-- The text that a key file has: encrypted if there is a password. -/
def fileText (k : RsaPrivateKey) (password : Option String) (entropy : Entropy) : String :=
  match password.filter (· != "") with
  | some password => k.toEncryptedPem password entropy
  | none => k.toPem

end RsaPrivateKey

end SecureBoot.Crypto
