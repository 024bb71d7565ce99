import Mathlib.Data.List.Induction
import SecureBoot.Proofs.Authorization
import SecureBoot.Proofs.SigningBundles

/-!
# Runs of detached signing

A write on its way to a signature takes its operations in any order, and a refused one leaves it
where it is.  A pending signature keeps the message apart from the fields that the message was
made of, and an envelope is made of the fields.

* `SigningState.perform_cases` — the three ways one operation can go;
* `SigningState.after_of_faithful` — in a pending signature the message stays the one of its
  fields;
* `SigningState.run_signs` — so on every run an envelope has the timestamp and the payload of
  the message that was signed.
-/

namespace SecureBoot

/-! ## Operations -/

/-- An operation on a write on its way to a signature. -/
inductive SigningAction where
  | prepare (timestamp : Timestamp)
  | exportBundle
  | importBundle (bundle : SigningBundle)
  | attach (signature : Bytes) (signer : Option Bytes)
  | sign (signer : Signer)
  | takeEnvelope

/-- An operation makes certificate data for a message: a signer at hand signs the message, or
a signature made elsewhere is accepted over it.  If a certificate comes with that signature,
it is the only one that is trusted. -/
def SigningAction.Signs (scheme : SignatureScheme) (message certificateData : Bytes) :
    SigningAction → Prop
  | sign signer => signer.sign message = .ok certificateData
  | attach signature signer =>
    scheme.verify signature message signer.toList = .ok () ∧
      scheme.encoded signature = .ok certificateData
  | _ => False

/-- A pending signature with a timestamp whose message is the one of its request. -/
structure PendingSignature.Faithful (p : PendingSignature) : Prop where
  timestamp_ne : p.timestamp.isZero = false
  message_eq : p.message = p.request.message p.timestamp

namespace SigningState

open Firmware (plainScheme)

variable {scheme : SignatureScheme} {s s' : SigningState} {a : SigningAction} {e : Envelope}

theorem faithful_pending {r : SigningRequest} {t : Timestamp} (ht : t.isZero = false) :
    (pending r t).Faithful := ⟨ht, rfl⟩

/-- The state after an operation.  To export a bundle and to take the envelope leave it. -/
def perform (scheme : SignatureScheme) (s : SigningState) :
    SigningAction → Except AuthError SigningState
  | .prepare timestamp => s.prepare timestamp
  | .exportBundle => s.toBundle.map fun _ => s
  | .importBundle bundle => ofBundle bundle
  | .attach signature signer => s.attach scheme signature signer
  | .sign signer => s.signWith signer
  | .takeEnvelope => s.takeEnvelope.map fun _ => s

/-- The state after an operation that may be refused. -/
def after (scheme : SignatureScheme) (s : SigningState) (a : SigningAction) : SigningState :=
  (s.perform scheme a).toOption.getD s

/-- The state after operations in order. -/
def run (scheme : SignatureScheme) (s : SigningState) (actions : List SigningAction) :
    SigningState :=
  actions.foldl (after scheme) s

theorem run_concat (scheme : SignatureScheme) (s : SigningState) (actions : List SigningAction)
    (a : SigningAction) :
    s.run scheme (actions ++ [a]) = (s.run scheme actions).after scheme a := by
  rw [run, List.foldl_append]
  rfl

theorem takeEnvelope_eq_ok : s.takeEnvelope = .ok e ↔ s = signed e := by
  cases s with
  | signed e' => simp [takeEnvelope]
  | unsigned r => simp [takeEnvelope, refuse]
  | awaitingSignature p => simp [takeEnvelope, refuse]

/-! ## One operation -/

theorem prepare_faithful {t : Timestamp} (h : s.prepare t = .ok s') :
    ∃ p, s' = awaitingSignature p ∧ p.Faithful := by
  cases s with
  | unsigned r =>
    obtain ⟨ht, rfl⟩ := prepare_eq_ok.1 h
    exact ⟨_, rfl, faithful_pending ht⟩
  | awaitingSignature p => cases h
  | signed e => cases h

theorem ofBundle_faithful {b : SigningBundle} (h : ofBundle b = .ok s') :
    ∃ p, s' = awaitingSignature p ∧ p.Faithful := by
  obtain ⟨-, ht, payload, -, -, -, rfl⟩ := ofBundle_eq_ok.1 h
  exact ⟨_, rfl, faithful_pending ht⟩

/-- A signature is attached where one is awaited, and if it is accepted over the message. -/
theorem attach_signs {signature : Bytes} {signer : Option Bytes}
    (h : s.attach scheme signature signer = .ok s') :
    ∃ p d, s = awaitingSignature p ∧
      (SigningAction.attach signature signer).Signs scheme p.message d ∧
      s' = signed ⟨p.timestamp, d, p.request.payload⟩ := by
  cases s with
  | awaitingSignature p =>
    obtain ⟨hverify, h⟩ := seq_eq_ok.1 h
    obtain ⟨d, hencoded, h⟩ := bind_eq_ok.1 h
    exact ⟨p, d, rfl, ⟨hverify, hencoded⟩, (pure_eq_ok.1 h).symm⟩
  | unsigned r => cases h
  | signed e => cases h

theorem signWith_signs {signer : Signer} (h : s.signWith signer = .ok s') :
    ∃ p d, s = awaitingSignature p ∧ (SigningAction.sign signer).Signs scheme p.message d ∧
      s' = signed ⟨p.timestamp, d, p.request.payload⟩ := by
  cases s with
  | awaitingSignature p =>
    obtain ⟨d, hsign, h⟩ := bind_eq_ok.1 h
    exact ⟨p, d, rfl, hsign, (pure_eq_ok.1 h).symm⟩
  | unsigned r => cases h
  | signed e => cases h

/-- **The ways one operation can go**: it leaves the state, it makes a pending signature with
the message of its fields, or it takes one to an envelope by signing its message. -/
theorem perform_cases (h : s.perform scheme a = .ok s') :
    s' = s ∨ (∃ p, s' = awaitingSignature p ∧ p.Faithful) ∨
      ∃ p d, s = awaitingSignature p ∧ a.Signs scheme p.message d ∧
        s' = signed ⟨p.timestamp, d, p.request.payload⟩ := by
  cases a with
  | prepare t => exact .inr (.inl (prepare_faithful h))
  | exportBundle =>
    obtain ⟨b, -, rfl⟩ := exceptMap_eq_ok.1 h
    exact .inl rfl
  | importBundle b => exact .inr (.inl (ofBundle_faithful h))
  | attach signature signer => exact .inr (.inr (attach_signs h))
  | sign signer => exact .inr (.inr (signWith_signs h))
  | takeEnvelope =>
    obtain ⟨e, -, rfl⟩ := exceptMap_eq_ok.1 h
    exact .inl rfl

/-- An operation that is refused leaves the state as well. -/
theorem after_cases (scheme : SignatureScheme) (s : SigningState) (a : SigningAction) :
    s.after scheme a = s ∨ (∃ p, s.after scheme a = awaitingSignature p ∧ p.Faithful) ∨
      ∃ p d, s = awaitingSignature p ∧ a.Signs scheme p.message d ∧
        s.after scheme a = signed ⟨p.timestamp, d, p.request.payload⟩ := by
  rw [after]
  cases h : s.perform scheme a with
  | error e => exact .inl rfl
  | ok s' => exact perform_cases h

/-- Every pending signature of a state has the message of its fields. -/
def Faithful (s : SigningState) : Prop := ∀ p, s = awaitingSignature p → p.Faithful

/-- **One operation keeps the message and the fields in step.** -/
theorem after_of_faithful (hs : s.Faithful) : (s.after scheme a).Faithful := by
  intro p hp
  rcases after_cases scheme s a with hsame | ⟨q, hq, hfaithful⟩ | ⟨q, d, -, -, hsigned⟩
  · rw [hsame] at hp
    exact hs p hp
  · rw [hq] at hp
    cases hp
    exact hfaithful
  · rw [hsigned] at hp
    cases hp

/-- **An envelope comes about by signing** the message that was pending. -/
theorem signs_of_after (h : s.after scheme a = signed e) :
    s = signed e ∨ ∃ p, s = awaitingSignature p ∧ a.Signs scheme p.message e.certificateData ∧
      e.timestamp = p.timestamp ∧ e.payload = p.request.payload := by
  rcases after_cases scheme s a with hsame | ⟨p, hp, -⟩ | ⟨p, d, hp, hsigns, hsigned⟩
  · exact .inl (hsame.symm.trans h)
  · cases hp.symm.trans h
  · cases hsigned.symm.trans h
    exact .inr ⟨p, hp, hsigns, rfl, rfl⟩

/-! ## Runs -/

theorem run_faithful (hs : s.Faithful) (actions : List SigningAction) :
    (s.run scheme actions).Faithful := by
  induction actions using List.reverseRecOn with
  | nil => exact hs
  | append_singleton actions a ih =>
    rw [run_concat]
    exact after_of_faithful ih

/-- The last operation that made the envelope of a run. -/
theorem exists_signs_of_run (hs : ∀ e, s ≠ signed e) {actions : List SigningAction}
    (h : s.run scheme actions = signed e) :
    ∃ before a rest p, actions = before ++ a :: rest ∧
      s.run scheme before = awaitingSignature p ∧ s.run scheme (before ++ [a]) = signed e ∧
      a.Signs scheme p.message e.certificateData ∧ e.timestamp = p.timestamp ∧
      e.payload = p.request.payload := by
  -- from the end: the last operation made the envelope, or it was there before it
  induction actions using List.reverseRecOn with
  | nil => exact absurd h (hs e)
  | append_singleton actions a ih =>
    have hafter := h
    rw [run_concat] at hafter
    rcases signs_of_after hafter with hsame | ⟨p, hp, hsigns, htimestamp, hpayload⟩
    · obtain ⟨before, b, rest, p, rfl, hrun⟩ := ih hsame
      refine ⟨before, b, rest ++ [a], p, ?_, hrun⟩
      rw [List.append_assoc, List.cons_append]
    · exact ⟨actions, a, [], p, rfl, hp, h, hsigns, htimestamp, hpayload⟩

/-- **No run yields an envelope other than the one that was signed.**  Start with any request
and take any operations.  While a signature is awaited, the timestamp is not zero and the
message is the one of the fields.  The next operation leads to an envelope that was not there
only from such a state and by signing its message, and the envelope has its timestamp and its
payload.  So whatever envelope is taken in the end, some operation of the run signed the message
of its timestamp and its payload. -/
theorem run_signs (scheme : SignatureScheme) (name : String) (guid : Guid)
    (attributes : Attributes) (payload : Bytes) (actions : List SigningAction) :
    (∀ p, (start name guid attributes payload).run scheme actions = awaitingSignature p →
      p.timestamp.isZero = false ∧
        p.message = signedMessage p.request.name p.request.guid p.request.attributes
          p.timestamp p.request.payload) ∧
      (∀ a e, (start name guid attributes payload).run scheme actions ≠ signed e →
        (start name guid attributes payload).run scheme (actions ++ [a]) = signed e →
          ∃ p, (start name guid attributes payload).run scheme actions = awaitingSignature p ∧
            a.Signs scheme p.message e.certificateData ∧
            e.timestamp = p.timestamp ∧ e.payload = p.request.payload) ∧
      ∀ e, ((start name guid attributes payload).run scheme actions).takeEnvelope = .ok e →
        ∃ before a rest r, actions = before ++ a :: rest ∧
          (start name guid attributes payload).run scheme before =
            awaitingSignature (pending r e.timestamp) ∧
          (start name guid attributes payload).run scheme (before ++ [a]) = signed e ∧
          a.Signs scheme (signedMessage r.name r.guid r.attributes e.timestamp e.payload)
            e.certificateData := by
  have hstart : (start name guid attributes payload).Faithful := by
    rintro p ⟨⟩
  refine ⟨fun p hp => ?_, fun a e hother hsigned => ?_, fun e htake => ?_⟩
  · obtain ⟨htimestamp, hmessage⟩ := run_faithful hstart actions p hp
    exact ⟨htimestamp, hmessage⟩
  · rw [run_concat] at hsigned
    rcases signs_of_after hsigned with hsame | hsigns
    · exact absurd hsame hother
    · exact hsigns
  · obtain ⟨before, a, rest, p, hactions, hp, hsigned, hsigns, htimestamp, hpayload⟩ :=
      exists_signs_of_run (by rintro e ⟨⟩) (takeEnvelope_eq_ok.1 htake)
    obtain ⟨r, t, message⟩ := p
    obtain ⟨-, rfl : message = r.message t⟩ := run_faithful hstart before _ hp
    obtain rfl : e.timestamp = t := htimestamp
    have hpayload : e.payload = r.payload := hpayload
    refine ⟨before, a, rest, r, hactions, hp, hsigned, ?_⟩
    rw [hpayload]
    exact hsigns

/-- The signature of `plainScheme` over the message of `dbRequest` at `newYear`. -/
def dbSignature : Bytes := [0x30, 1] ++ dbRequest.message newYear

/-- A signature that is attached too early, one that is not accepted, and one that is. -/
def dbActions : List SigningAction :=
  [.attach dbSignature none, .prepare newYear, .exportBundle, .importBundle dbBundle,
    .attach [] (some [0x30, 1]), .attach dbSignature (some [0x30, 1]), .takeEnvelope]

theorem dbActions_sign :
    ∃ before a rest r, dbActions = before ++ a :: rest ∧
      (start "db" .imageSecurityDatabase .authenticatedDatabase dbRequest.payload).run plainScheme
        before = awaitingSignature (pending r newYear) ∧
      a.Signs plainScheme (signedMessage r.name r.guid r.attributes newYear dbRequest.payload)
        dbSignature := by
  have htake : ((start "db" .imageSecurityDatabase .authenticatedDatabase
      dbRequest.payload).run plainScheme dbActions).takeEnvelope =
        .ok ⟨newYear, dbSignature, dbRequest.payload⟩ := by
    decide +kernel
  obtain ⟨-, -, hsigned⟩ := run_signs plainScheme "db" .imageSecurityDatabase
    .authenticatedDatabase dbRequest.payload dbActions
  obtain ⟨before, a, rest, r, hactions, hrun, -, hsigns⟩ := hsigned _ htake
  exact ⟨before, a, rest, r, hactions, hrun, hsigns⟩

end SigningState

end SecureBoot
