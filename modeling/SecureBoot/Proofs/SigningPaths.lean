import SecureBoot.Proofs.PlannedWrites
import SecureBoot.Proofs.SigningRuns

/-!
# Two paths to a signed write

A write can be signed at once, or wait for its signature and travel as a bundle meanwhile.  The
two paths make the message, the envelope and their refusals apart from each other.

* `SigningState.carry_of_faithful` — a journey as a bundle leaves a pending signature as it is,
  and from it any number of journeys does;
* `SigningRequest.inTwoPhases_eq`, `SigningRequest.atOnce_eq` — what each path answers;
* `SigningRequest.paths_agree` — that they answer the same, for every request, timestamp and
  signer;
* `Signer.ofKey_ignoresTime` — the signer of a key never takes the blame for a timestamp.
-/

namespace SecureBoot

/-! ## Journeys as a bundle -/

namespace SigningState

variable {p : PendingSignature}

/-- A journey as a bundle. -/
def carry (s : SigningState) : Except AuthError SigningState := s.toBundle >>= ofBundle

/-- Journeys as a bundle, one after the other. -/
def carryTimes (s : SigningState) : Nat → Except AuthError SigningState
  | 0 => .ok s
  | n + 1 => s.carry >>= (·.carryTimes n)

/-- **A pending signature comes back from a journey as it left.** -/
theorem carry_of_faithful (h : p.Faithful) :
    (awaitingSignature p).carry = .ok (awaitingSignature p) := by
  obtain ⟨request, timestamp, message⟩ := p
  obtain rfl : message = request.message timestamp := h.message_eq
  obtain ⟨b, hb⟩ : ∃ b, (awaitingSignature
      ⟨request, timestamp, request.message timestamp⟩).toBundle = .ok b := ⟨_, rfl⟩
  rw [carry, hb, ok_bind]
  cases hb
  exact ofBundle_of_message rfl h.timestamp_ne (Text.Base64.decode?_encode request.payload)
    rfl rfl rfl

theorem carryTimes_of_faithful (h : p.Faithful) (n : Nat) :
    (awaitingSignature p).carryTimes n = .ok (awaitingSignature p) := by
  induction n with
  | zero => rfl
  | succ n ih => rw [carryTimes, carry_of_faithful h, ok_bind, ih]

theorem prepare_start (r : SigningRequest) (t : Timestamp) :
    (start r.name r.guid r.attributes r.payload).prepare t =
      if t.isZero then .error (.zeroTimestamp r.name)
      else .ok (awaitingSignature (pending r t)) := rfl

end SigningState

/-! ## The two paths -/

namespace SigningRequest

open SigningState

/-- The bytes of a write that waits for its signature, after a number of journeys. -/
def inTwoPhases (r : SigningRequest) (t : Timestamp) (journeys : Nat) (signer : Signer) :
    Except AuthError Bytes := do
  let prepared ← (start r.name r.guid r.attributes r.payload).prepare t
  let arrived ← prepared.carryTimes journeys
  let signed ← arrived.signWith signer
  (← signed.takeEnvelope).encode

/-- The bytes of a write that is signed at once. -/
def atOnce (r : SigningRequest) (t : Timestamp) (signer : Signer) : Except AuthError Bytes := do
  (← Envelope.build r.name r.guid r.attributes r.payload (.signed signer) t).encode

/-- The bytes of the envelope with a signature of the message. -/
def signedBytes (r : SigningRequest) (t : Timestamp) (signer : Signer) :
    Except AuthError Bytes := do
  Envelope.encode ⟨t, ← signer.sign (r.message t), r.payload⟩

theorem inTwoPhases_eq (r : SigningRequest) (t : Timestamp) (journeys : Nat) (signer : Signer) :
    r.inTwoPhases t journeys signer =
      if t.isZero then .error (.zeroTimestamp r.name) else r.signedBytes t signer := by
  rw [inTwoPhases, prepare_start]
  cases hzero : t.isZero with
  | true => rfl
  | false =>
    rw [if_neg Bool.false_ne_true, if_neg Bool.false_ne_true, ok_bind,
      carryTimes_of_faithful (faithful_pending hzero), ok_bind, signedBytes]
    show (signer.sign (r.message t) >>= fun d => pure (signed ⟨t, d, r.payload⟩)) >>= _ = _
    cases signer.sign (r.message t) <;> rfl

/-- An envelope that is built fits, and is encoded as it would be without the check. -/
theorem encode_after_declaredLength (e : Envelope) :
    (e.declaredLength >>= fun _ => pure e) >>= Envelope.encode = e.encode := by
  unfold Envelope.encode
  cases hfits : e.declaredLength with
  | error err => rfl
  | ok length =>
    show e.declaredLength >>= _ = _
    rw [hfits]

theorem atOnce_eq (r : SigningRequest) (t : Timestamp) (signer : Signer) :
    r.atOnce t signer =
      if t.isZero then .error (.zeroTimestamp r.name) else r.signedBytes t signer := by
  rw [atOnce, Envelope.build]
  cases hzero : t.isZero with
  | true => rfl
  | false =>
    simp only [Bool.false_eq_true, if_false]
    show (signer.sign (r.message t) >>= _) >>= _ = signer.sign (r.message t) >>= _
    cases signer.sign (r.message t) with
    | error e => rfl
    | ok d => exact encode_after_declaredLength ⟨t, d, r.payload⟩

end SigningRequest

/-! ## The blame for a timestamp -/

/-- A signer refuses no message for the timestamp of a write, of which it knows nothing. -/
def Signer.IgnoresTime (signer : Signer) : Prop :=
  ∀ message name, signer.sign message ≠ .error (.zeroTimestamp name)

/-- What the signer of a key makes of a message. -/
theorem Signer.sign_of_ofKey {c : Crypto.Certificate} {k : Crypto.PrivateKey} {signer : Signer}
    (h : ofKey c k = .ok signer) (message : Bytes) :
    signer.sign message = match Crypto.SignedMessage.sign? c k message with
      | some m => .ok m.toDer
      | none => .error .signingFailed := by
  unfold ofKey at h
  simp only [bind_eq_ok, guard_eq_ok, pure_eq_ok] at h
  obtain ⟨_, -, -, rfl⟩ := h
  rfl

/-- The signer of a key fails as such. -/
theorem Signer.ofKey_ignoresTime {c : Crypto.Certificate} {k : Crypto.PrivateKey}
    {signer : Signer} (h : ofKey c k = .ok signer) : signer.IgnoresTime := by
  intro message name hsign
  rw [sign_of_ofKey h] at hsign
  cases hmessage : Crypto.SignedMessage.sign? c k message <;> simp [hmessage] at hsign

namespace SigningRequest

open SigningState (dbRequest newYear)

variable {r : SigningRequest} {t : Timestamp} {signer : Signer}

/-- A signed envelope is refused by its signer or for its size. -/
theorem signedBytes_ne_zeroTimestamp (hsigner : signer.IgnoresTime) (name : String) :
    r.signedBytes t signer ≠ .error (.zeroTimestamp name) := by
  intro h
  rw [signedBytes] at h
  cases hsign : signer.sign (r.message t) with
  | error e =>
    rw [hsign] at h
    cases h
    exact hsigner _ _ hsign
  | ok d =>
    rw [hsign, ok_bind, Envelope.encode, Envelope.declaredLength] at h
    by_cases hfits : Envelope.certificateHeaderSize + d.length < UInt32.size
    · rw [if_pos hfits] at h
      cases h
    · rw [if_neg hfits] at h
      cases h

/-- **Both paths to a signed write lead to the same**, with any number of journeys in between:
to the same bytes or to the same refusal.  A zero timestamp is refused as such, and nothing
else is. -/
theorem paths_agree (r : SigningRequest) (t : Timestamp) (journeys : Nat) (signer : Signer) :
    r.inTwoPhases t journeys signer = r.atOnce t signer ∧
      (t.isZero = true → r.atOnce t signer = .error (.zeroTimestamp r.name)) ∧
      (t.isZero = false → r.atOnce t signer = r.signedBytes t signer) ∧
      (signer.IgnoresTime → ∀ name, r.atOnce t signer = .error (.zeroTimestamp name) →
        t.isZero = true ∧ name = r.name) := by
  rw [inTwoPhases_eq, atOnce_eq]
  cases t.isZero with
  | true =>
    refine ⟨rfl, fun _ => rfl, by simp, fun _ name h => ⟨rfl, ?_⟩⟩
    cases h
    rfl
  | false =>
    exact ⟨rfl, by simp, fun _ => rfl, fun hsigner name h =>
      absurd h (signedBytes_ne_zeroTimestamp hsigner name)⟩

/-- A write of the new year that travels twice, and the same write without a timestamp. -/
theorem dbRequest_paths_agree :
    Firmware.ownerSigner.IgnoresTime ∧
      (∃ bytes, dbRequest.atOnce newYear Firmware.ownerSigner = .ok bytes ∧
        dbRequest.inTwoPhases newYear 2 Firmware.ownerSigner = .ok bytes) ∧
      dbRequest.inTwoPhases .zero 2 Firmware.ownerSigner = .error (.zeroTimestamp "db") ∧
      ∀ name, dbRequest.atOnce newYear Firmware.ownerSigner ≠ .error (.zeroTimestamp name) := by
  have hsigner : Firmware.ownerSigner.IgnoresTime := fun _ _ h => by cases h
  obtain ⟨hsame, -, hsigned, hblame⟩ := paths_agree dbRequest newYear 2 Firmware.ownerSigner
  obtain ⟨hzero, hrefused, -, -⟩ := paths_agree dbRequest .zero 2 Firmware.ownerSigner
  obtain ⟨bytes, hbytes⟩ : ∃ bytes,
      dbRequest.signedBytes newYear Firmware.ownerSigner = .ok bytes := ⟨_, rfl⟩
  have hatOnce : dbRequest.atOnce newYear Firmware.ownerSigner = .ok bytes := by
    rw [hsigned (by decide), hbytes]
  refine ⟨hsigner, ⟨bytes, hatOnce, hsame.trans hatOnce⟩,
    hzero.trans (hrefused (by decide)), fun name h => ?_⟩
  obtain ⟨htime, -⟩ := hblame hsigner name h
  exact absurd htime (by decide)

end SigningRequest

end SecureBoot
