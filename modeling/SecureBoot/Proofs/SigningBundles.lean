import SecureBoot.Proofs.Except
import SecureBoot.Proofs.SignedMessages
import SecureBoot.Proofs.TextForm
import SecureBoot.Signing.Detached

/-!
# What the digest of a bundle pins down

A bundle tells the digest and the length of its message, not where its fields
begin.  So what the digest pins down is the message and no more:

* `SigningState.message_of_digest` — with the digest of a pending signature only
  its message can come back, and its fields as well if the name has kept its number
  of units;
* `SigningState.ofBundle_of_message` — every other way to cut the message into fields
  is taken too, so that a bundle can be edited and come back
  (`SigningState.edited_bundle_imported`).
-/

namespace SecureBoot

namespace SigningState

/-! ## Bundles -/

/-- The pending signature of a request at a time. -/
def pending (r : SigningRequest) (t : Timestamp) : PendingSignature := ⟨r, t, r.message t⟩

theorem prepare_eq_ok {r : SigningRequest} {t : Timestamp} {s : SigningState} :
    (unsigned r).prepare t = .ok s ↔ t.isZero = false ∧ s = awaitingSignature (pending r t) := by
  rw [prepare]
  cases t.isZero with
  | true => exact iff_of_false (by simp) (by simp)
  | false => simp [pending, eq_comm]

/-- A bundle is imported when it has the current version, a timestamp and a payload,
and tells the length and the digest of the message that its fields make. -/
theorem ofBundle_eq_ok {b : SigningBundle} {s : SigningState} :
    ofBundle b = .ok s ↔ b.formatVersion = SigningBundle.currentVersion ∧
      b.timestamp.isZero = false ∧ ∃ payload, Text.Base64.decode? b.payload = some payload ∧
        (signedMessage b.name b.guid b.attributes b.timestamp payload).length = b.messageLength ∧
        (messageDigest
          (signedMessage b.name b.guid b.attributes b.timestamp payload)).toList =
            b.messageDigest.toList.map Char.toLower ∧
        s = awaitingSignature (pending ⟨b.name, b.guid, b.attributes, payload⟩ b.timestamp) := by
  unfold ofBundle
  simp only [guard_eq_ok, ne_eq, Decidable.not_not, Bool.not_eq_true]
  refine and_congr_right fun _ => and_congr_right fun _ => ?_
  cases Text.Base64.decode? b.payload with
  | none =>
    refine iff_of_false (fun h => throw_eq_ok.1 h) ?_
    rintro ⟨payload, ⟨⟩, -⟩
  | some payload =>
    simp only [guard_eq_ok, pure_eq_ok, Decidable.not_not, Option.some.injEq, exists_eq_left',
      eq_comm (a := s)]
    rfl

/-- Every way to cut a message into fields is imported, with the length and the digest
of the message. -/
theorem ofBundle_of_message {b : SigningBundle} {message payload : Bytes}
    (hversion : b.formatVersion = SigningBundle.currentVersion)
    (htimestamp : b.timestamp.isZero = false)
    (hpayload : Text.Base64.decode? b.payload = some payload)
    (hmessage : signedMessage b.name b.guid b.attributes b.timestamp payload = message)
    (hlength : b.messageLength = message.length)
    (hdigest : b.messageDigest = messageDigest message) :
    ofBundle b =
      .ok (awaitingSignature (pending ⟨b.name, b.guid, b.attributes, payload⟩ b.timestamp)) := by
  refine ofBundle_eq_ok.2 ⟨hversion, htimestamp, payload, hpayload, ?_, ?_, rfl⟩
  · rw [hmessage, hlength]
  · rw [hmessage, hdigest]
    exact (Bytes.map_toLower_toHex _).symm

/-- Messages whose digests read the same have the same digest. -/
theorem digest_eq_of_messageDigest {message message' : Bytes}
    (h : (messageDigest message').toList = (messageDigest message).toList.map Char.toLower) :
    DigestAlgorithm.sha256.digest message' = DigestAlgorithm.sha256.digest message := by
  rw [messageDigest, messageDigest, Bytes.map_toLower_toHex, String.toList_inj] at h
  have hread := congrArg Bytes.ofHex? h
  rw [Bytes.ofHex?_toHex, Bytes.ofHex?_toHex] at hread
  exact Option.some.inj hread

/-- Two pending signatures do not have messages that differ with the same digest. -/
def NoCollision (s s' : SigningState) : Prop :=
  ∀ message message', s.message? = some message → s'.message? = some message' →
    DigestAlgorithm.sha256.digest message' = DigestAlgorithm.sha256.digest message →
      message' = message

/-! ## The main result -/

open Text.Utf16 in
/-- **What the digest of a bundle pins down.**  Take a pending signature and any bundle
with the digest of its bundle.  If this is imported, it has the same message, and it
is the same pending signature exactly when its name has the same number of units. -/
theorem message_of_digest {r : SigningRequest} {t : Timestamp} {s s' : SigningState}
    {exported b : SigningBundle} (hprepare : (unsigned r).prepare t = .ok s)
    (hexport : s.toBundle = .ok exported) (hdigest : b.messageDigest = exported.messageDigest)
    (himport : ofBundle b = .ok s') (hsecure : NoCollision s s') :
    s'.message? = s.message? ∧ (s' = s ↔ (encode b.name).length = (encode r.name).length) := by
  obtain ⟨-, rfl⟩ := prepare_eq_ok.1 hprepare
  cases hexport
  obtain ⟨-, -, payload, -, -, hdigest', rfl⟩ := ofBundle_eq_ok.1 himport
  rw [hdigest] at hdigest'
  have hmessage : signedMessage b.name b.guid b.attributes b.timestamp payload = r.message t :=
    hsecure _ _ rfl rfl (digest_eq_of_messageDigest hdigest')
  refine ⟨congrArg some hmessage, ?_⟩
  constructor
  · intro hsame
    cases hsame
    rfl
  · intro hunits
    obtain ⟨hname, hguid, hattributes, htimestamp, hpayload⟩ :=
      (signedMessage_inj hunits).1 hmessage
    rw [hname, hguid, hattributes, htimestamp, hpayload]

/-- A write of five bytes to db. -/
def dbRequest : SigningRequest where
  name := "db"
  guid := .imageSecurityDatabase
  attributes := .authenticatedDatabase
  payload := [0x11, 0x22, 0x33, 0x44, 0x55]

/-- The first moment of the year 2025. -/
def newYear : Timestamp := { Timestamp.zero with year := 2025, month := 1, day := 1 }

/-- The bundle of `dbRequest` at `newYear`. -/
def dbBundle : SigningBundle where
  formatVersion := SigningBundle.currentVersion
  name := dbRequest.name
  guid := dbRequest.guid
  attributes := dbRequest.attributes
  timestamp := newYear
  payload := Text.Base64.encode dbRequest.payload
  messageDigest := messageDigest (dbRequest.message newYear)
  messageLength := (dbRequest.message newYear).length

theorem prepare_dbRequest :
    (unsigned dbRequest).prepare newYear = .ok (awaitingSignature (pending dbRequest newYear)) :=
  prepare_eq_ok.2 ⟨by decide, rfl⟩

theorem toBundle_dbRequest :
    (awaitingSignature (pending dbRequest newYear)).toBundle = .ok dbBundle := rfl

theorem dbBundle_imported :
    ∃ s', ofBundle dbBundle = .ok s' ∧ s' = awaitingSignature (pending dbRequest newYear) := by
  have himport : ofBundle dbBundle = .ok (awaitingSignature (pending dbRequest newYear)) :=
    ofBundle_of_message rfl (by decide) (by decide) rfl rfl rfl
  have hsecure : NoCollision (awaitingSignature (pending dbRequest newYear))
      (awaitingSignature (pending dbRequest newYear)) := by
    rintro _ _ ⟨⟩ ⟨⟩ -
    rfl
  obtain ⟨-, hsame⟩ := message_of_digest prepare_dbRequest toBundle_dbRequest rfl himport hsecure
  exact ⟨_, himport, hsame.2 rfl⟩

/-- `dbBundle` with the second unit of its name moved to the GUID, and the bytes that this
pushes out of every field moved to the next. -/
def shiftedBundle : SigningBundle :=
  { dbBundle with
    name := "d"
    guid := ⟨0xb2cb0062, 0xd719, 0x3d3a, 0x9645a3bcdad00e67⟩
    attributes := ⟨0x276f65⟩
    timestamp := { Timestamp.zero with month := 233, day := 7, hour := 1, minute := 1 }
    payload := Text.Base64.encode (0 :: 0 :: dbRequest.payload) }

theorem edited_bundle_imported :
    ¬∀ (r : SigningRequest) (t : Timestamp) (s s' : SigningState) (exported b : SigningBundle),
      (unsigned r).prepare t = .ok s → s.toBundle = .ok exported →
      b.formatVersion = SigningBundle.currentVersion →
      b.messageDigest = exported.messageDigest → b.messageLength = exported.messageLength →
      ofBundle b = .ok s' → NoCollision s s' → s' = s := by
  intro h
  have hmessage : signedMessage shiftedBundle.name shiftedBundle.guid shiftedBundle.attributes
      shiftedBundle.timestamp (0 :: 0 :: dbRequest.payload) = dbRequest.message newYear := by
    decide +kernel
  have himport := ofBundle_of_message (b := shiftedBundle) rfl (by decide) (by decide)
    hmessage rfl rfl
  have hsame := h _ _ _ _ _ shiftedBundle prepare_dbRequest toBundle_dbRequest rfl rfl rfl
    himport ?_
  · injection hsame with hpending
    injection hpending with hrequest
    injection hrequest with hname
    revert hname
    decide
  · rintro _ _ ⟨⟩ ⟨⟩ -
    exact hmessage

end SigningState

end SecureBoot
