import SecureBoot.Envelope
import SecureBoot.Proofs.Utf16
import SecureBoot.Variable

/-!
# What a signed message pins down

The message of a write is its name, owner, attributes, timestamp and payload back to
back, without a mark between them.  Only the name and the payload have no fixed
size, so the message gives its fields back as soon as the number of units of the
name is known (`signedMessage_inj`).  Without it a field can give bytes to the next.

The names of the registered variables have different sizes, and "dbx" begins with
"db".  Still no name and owner begin another name and owner, so that a message for a
registered variable gives everything back (`signedMessage_registered_inj`).
-/

namespace SecureBoot

/-! ## Fields -/

theorem Guid.toBytes_inj {g g' : Guid} : g.toBytes = g'.toBytes ↔ g = g' := by
  refine ⟨fun h => ?_, congrArg _⟩
  have hread := congrArg (fun bs => ofBytes (bs ++ [])) h
  simpa only [ofBytes_toBytes] using hread

theorem Attributes.toBytes_inj {a a' : Attributes} : a.toBytes = a'.toBytes ↔ a = a' := by
  refine ⟨fun h => ?_, congrArg _⟩
  have hread := congrArg (fun bs => Bytes.wordAt32 (bs ++ []) 0) h
  simp only [toBytes, Bytes.wordAt32_ofUInt32] at hread
  exact congrArg mk hread

theorem Timestamp.toBytes_inj {t t' : Timestamp} : t.toBytes = t'.toBytes ↔ t = t' := by
  refine ⟨fun h => ?_, congrArg _⟩
  have hread := congrArg (fun bs => ofBytes (bs ++ [])) h
  simpa only [ofBytes_toBytes] using hread

namespace Text.Utf16

theorem toBytes_inj {units units' : List UInt16} :
    toBytes units = toBytes units' ↔ units = units' := by
  refine ⟨fun h => ?_, congrArg _⟩
  rw [← ofBytes_toBytes units, h, ofBytes_toBytes]

theorem encode_inj {s s' : String} : encode s = encode s' ↔ s = s' := by
  refine ⟨fun h => ?_, congrArg _⟩
  rw [← decode_encode s, h, decode_encode]

end Text.Utf16

/-! ## Messages -/

open Text.Utf16 in
/-- **A message gives its fields back**, if the names are known to have the same number
of units. -/
theorem signedMessage_inj {name name' : String} {g g' : Guid} {a a' : Attributes}
    {t t' : Timestamp} {p p' : Bytes} (hunits : (encode name).length = (encode name').length) :
    signedMessage name g a t p = signedMessage name' g' a' t' p' ↔
      name = name' ∧ g = g' ∧ a = a' ∧ t = t' ∧ p = p' := by
  constructor
  · intro h
    simp only [signedMessage, List.append_assoc] at h
    obtain ⟨hname, h⟩ := List.append_inj h (by rw [length_toBytes, length_toBytes, hunits])
    obtain ⟨hguid, h⟩ := List.append_inj h (by rw [Guid.length_toBytes, Guid.length_toBytes])
    obtain ⟨hattributes, h⟩ := List.append_inj h
      (by rw [Attributes.length_toBytes, Attributes.length_toBytes])
    obtain ⟨htimestamp, hpayload⟩ := List.append_inj h
      (by rw [Timestamp.length_toBytes, Timestamp.length_toBytes])
    exact ⟨encode_inj.1 (toBytes_inj.1 hname), Guid.toBytes_inj.1 hguid,
      Attributes.toBytes_inj.1 hattributes, Timestamp.toBytes_inj.1 htimestamp, hpayload⟩
  · rintro ⟨rfl, rfl, rfl, rfl, rfl⟩
    rfl

/-! ## Messages for registered variables -/

namespace SecureVariable

/-- What every message for a variable begins with: its name and its owner. -/
def messageHead (v : SecureVariable) : Bytes :=
  Text.Utf16.toBytes (Text.Utf16.encode v.name) ++ v.guid.toBytes

theorem le_length_messageHead (v : SecureVariable) : 6 ≤ v.messageHead.length := by
  rw [messageHead, List.length_append, Guid.length_toBytes]
  omega

/-- Six bytes tell the variables apart.  After the four bytes that "db" and "dbx" share,
the one goes on with its owner and the other with its last letter. -/
theorem take_messageHead_inj {v w : SecureVariable} :
    v.messageHead.take 6 = w.messageHead.take 6 ↔ v = w := by
  constructor
  · cases v <;> cases w <;> decide +kernel
  · rintro rfl
    rfl

/-- No head of a message begins another, whatever follows them. -/
theorem messageHead_append_inj {v w : SecureVariable} {bs bs' : Bytes} :
    v.messageHead ++ bs = w.messageHead ++ bs' ↔ v = w ∧ bs = bs' := by
  constructor
  · intro h
    have hfirst := congrArg (List.take 6) h
    rw [List.take_append_of_le_length v.le_length_messageHead,
      List.take_append_of_le_length w.le_length_messageHead] at hfirst
    obtain rfl := take_messageHead_inj.1 hfirst
    exact ⟨rfl, List.append_cancel_left h⟩
  · rintro ⟨rfl, rfl⟩
    rfl

/-- A message for a variable is its head and the fields of the write. -/
theorem signedMessage_eq (v : SecureVariable) (a : Attributes) (t : Timestamp) (p : Bytes) :
    signedMessage v.name v.guid a t p =
      v.messageHead ++ (a.toBytes ++ (t.toBytes ++ p)) := by
  simp only [signedMessage, messageHead, List.append_assoc]

end SecureVariable

/-- **A message for a registered variable gives the whole write back**: the variable, the
attributes with or without the flag of an append, the timestamp and the payload.  A
signature made for one write is good for no other. -/
theorem signedMessage_registered_inj {v w : SecureVariable} {a b : Attributes}
    {s t : Timestamp} {p q : Bytes} :
    signedMessage v.name v.guid a s p = signedMessage w.name w.guid b t q ↔
      v = w ∧ a = b ∧ s = t ∧ p = q := by
  constructor
  · intro h
    have hheads := h
    rw [v.signedMessage_eq, w.signedMessage_eq] at hheads
    obtain ⟨rfl, -⟩ := SecureVariable.messageHead_append_inj.1 hheads
    -- with one name left, the fields are cut at the same places
    obtain ⟨-, -, hfields⟩ := (signedMessage_inj rfl).1 h
    exact ⟨rfl, hfields⟩
  · rintro ⟨rfl, rfl, rfl, rfl⟩
    rfl

end SecureBoot
