import SecureBoot.Proofs.Except
import SecureBoot.Proofs.WireForm
import SecureBoot.Signer

/-!
# Envelopes

`Envelope.parse_eq_ok` says which byte strings are read as an envelope and how
they are cut, `Envelope.parse_of_encode` that an envelope that was written is read
back, and `Envelope.encode_of_parse` that one that was read is written again, but for
the padding of its timestamp.  `Envelope.wire_form` puts both directions together.
`Envelope.build_eq_ok` says which envelopes are built for a write.
-/

namespace SecureBoot

open Bytes

namespace Envelope

/-! ## The wire form -/

/-- The end of the certificate data that the length field of an envelope declares. -/
def declaredEnd (bs : Bytes) : Nat := Timestamp.size + (bs.wordAt32 16).toNat

/-- A byte string is read as an envelope when it has the fixed part with its marks
and the declared certificate data; the payload is the rest. -/
theorem parse_eq_ok {bs : Bytes} {e : Envelope} :
    parse bs = .ok e ↔
      (fixedSize ≤ bs.length ∧ bs.wordAt16 20 = revision ∧ bs.wordAt16 22 = certificateKind ∧
        Guid.ofBytes (bs.drop 24) = SignatureType.pkcs7.guid ∧
        certificateHeaderSize ≤ (bs.wordAt32 16).toNat ∧ declaredEnd bs ≤ bs.length) ∧
      e = ⟨Timestamp.ofBytes bs, bs.slice fixedSize (declaredEnd bs - fixedSize),
        bs.drop (declaredEnd bs)⟩ := by
  simp only [parse, guard_eq_ok, pure_eq_ok, declaredEnd, Nat.not_lt, ne_eq, Decidable.not_not,
    and_assoc, eq_comm (a := e)]

theorem declaredLength_eq_ok {e : Envelope} {length : UInt32} :
    e.declaredLength = .ok length ↔
      certificateHeaderSize + e.certificateData.length < UInt32.size ∧
        length = UInt32.ofNat (certificateHeaderSize + e.certificateData.length) := by
  rw [declaredLength]
  split
  · rename_i h
    rw [Except.ok.injEq, and_iff_right h]
    exact eq_comm
  · rename_i h
    exact iff_of_false (by simp) (fun hc => h hc.1)

/-- **An envelope that was written is read back.** -/
theorem parse_of_encode {e : Envelope} {bs : Bytes} (h : e.encode = .ok bs) :
    parse bs = .ok e := by
  simp only [encode, bind_eq_ok, pure_eq_ok, declaredLength_eq_ok] at h
  obtain ⟨length, ⟨hlt, rfl⟩, rfl⟩ := h
  obtain ⟨timestamp, certificateData, payload⟩ := e
  simp only [certificateHeader, List.append_assoc] at hlt ⊢
  generalize hbs : timestamp.toBytes ++ _ = bs
  have hlength : bs.wordAt32 16 =
      UInt32.ofNat (certificateHeaderSize + certificateData.length) := by
    rw [← hbs, wordAt32_append_right (by simp)]
    simp
  have hend : declaredEnd bs = fixedSize + certificateData.length := by
    rw [declaredEnd, hlength, UInt32.toNat_ofNat_of_lt' hlt, fixedSize]
    omega
  have hcut : bs.drop fixedSize = certificateData ++ payload := by
    rw [← hbs]
    iterate 5 rw [drop_append_right (by simp [fixedSize, Timestamp.size, certificateHeaderSize])]
    simp [fixedSize, Timestamp.size, certificateHeaderSize]
  have hsize : bs.length = fixedSize + certificateData.length + payload.length := by
    simp [← hbs, fixedSize, Timestamp.size, certificateHeaderSize]
    omega
  refine parse_eq_ok.2 ⟨⟨by omega, ?_, ?_, ?_, ?_, by omega⟩, ?_⟩
  · rw [← hbs, wordAt16_append_right (by simp), wordAt16_append_right (by simp)]
    simp
  · rw [← hbs, wordAt16_append_right (by simp), wordAt16_append_right (by simp),
      wordAt16_append_right (by simp)]
    simp
  · rw [← hbs]
    iterate 4 rw [drop_append_right (by simp)]
    simp
  · rw [hlength, UInt32.toNat_ofNat_of_lt' hlt]
    exact Nat.le_add_right ..
  · rw [mk.injEq, hend, Nat.add_sub_cancel_left, slice, ← List.drop_drop, hcut, List.take_left,
      List.drop_left, ← hbs, Timestamp.ofBytes_toBytes]
    exact ⟨rfl, rfl, rfl⟩

/-- The certificate header that is read is the one that is written. -/
theorem certificateHeader_wordAt32 {bs : Bytes} (h : fixedSize ≤ bs.length)
    (hrevision : bs.wordAt16 20 = revision) (hkind : bs.wordAt16 22 = certificateKind)
    (htype : Guid.ofBytes (bs.drop 24) = SignatureType.pkcs7.guid) :
    certificateHeader (bs.wordAt32 16) = bs.slice 16 24 := by
  have hlen : 40 ≤ bs.length := h
  have htypeBytes : SignatureType.pkcs7.guid.toBytes = bs.slice 24 16 := by
    rw [← htype, Guid.toBytes_ofBytes (by rw [List.length_drop]; omega), slice]
  rw [certificateHeader, htypeBytes, ← hrevision, ← hkind, ofUInt32_wordAt32 (by omega),
    ofUInt16_wordAt16 (by omega), ofUInt16_wordAt16 (by omega), slice_add, slice_add, slice_add]

/-- The certificate data and the payload of an envelope stand behind its fixed part. -/
theorem drop_of_parse {bs : Bytes} {e : Envelope} (h : parse bs = .ok e) :
    bs.drop fixedSize = e.certificateData ++ e.payload := by
  obtain ⟨⟨-, -, -, -, hlow, -⟩, rfl⟩ := parse_eq_ok.1 h
  have hfixed : fixedSize ≤ declaredEnd bs := Nat.add_le_add_left hlow _
  show bs.drop fixedSize = bs.slice fixedSize _ ++ bs.drop (declaredEnd bs)
  rw [slice, ← Nat.add_sub_cancel' hfixed, ← List.drop_drop, Nat.add_sub_cancel_left,
    List.take_append_drop]

/-- The length field of an envelope covers its certificate header and certificate data. -/
theorem length_of_parse {bs : Bytes} {e : Envelope} (h : parse bs = .ok e) :
    certificateHeaderSize + e.certificateData.length = (bs.wordAt32 16).toNat := by
  obtain ⟨⟨-, -, -, -, hlow, hhigh⟩, rfl⟩ := parse_eq_ok.1 h
  show certificateHeaderSize + (bs.slice fixedSize _).length = _
  rw [length_slice, Nat.min_eq_left (Nat.sub_le_sub_right hhigh _)]
  unfold declaredEnd fixedSize
  omega

/-- **An envelope that was read is written again**, but for the padding of its timestamp. -/
theorem encode_of_parse {bs : Bytes} {e : Envelope} (h : parse bs = .ok e) :
    e.encode = .ok (Timestamp.clearPadding bs) := by
  have hsize := length_of_parse h
  have hdrop := drop_of_parse h
  obtain ⟨⟨hlen, hrevision, hkind, htype, -, -⟩, he⟩ := parse_eq_ok.1 h
  have htime : e.timestamp = Timestamp.ofBytes bs := by rw [he]
  have hlength : e.declaredLength = .ok (bs.wordAt32 16) := by
    refine declaredLength_eq_ok.2 ⟨?_, ?_⟩
    · rw [hsize]
      exact (bs.wordAt32 16).toNat_lt
    · rw [hsize, UInt32.ofNat_toNat]
  have hbytes : certificateHeader (bs.wordAt32 16) ++ (e.certificateData ++ e.payload) =
      bs.drop 16 := by
    rw [certificateHeader_wordAt32 hlen hrevision hkind htype, ← hdrop]
    exact slice_append_drop bs 16 24
  have h16 : 16 ≤ bs.length := Nat.le_trans (by decide) hlen
  rw [encode, hlength, ← Timestamp.toBytes_ofBytes h16, ← hbytes, htime]
  simp only [ok_bind, pure, Except.pure, List.append_assoc]

/-! ## Both directions -/

/-- **Reading and writing envelopes.**  Bytes are read as an envelope exactly when the fixed
part is there with its marks and the length field stays between the certificate header and the
end.  What was read is written again with only the padding of the timestamp cleared, which are
the bytes 7 and 15.  An envelope is written exactly when its certificate data fit the length
field, and then it is read back.  Reader and writer agree on where the certificate data and the
payload stand, however long they are. -/
theorem wire_form :
    (∀ bs : Bytes, (∃ e, parse bs = .ok e) ↔
      40 ≤ bs.length ∧ bs.wordAt16 20 = 0x0200 ∧ bs.wordAt16 22 = 0x0ef1 ∧
        Guid.ofBytes (bs.drop 24) = SignatureType.pkcs7.guid ∧
        24 ≤ (bs.wordAt32 16).toNat ∧ (bs.wordAt32 16).toNat ≤ bs.length - 16) ∧
    (∀ (bs : Bytes) (e : Envelope), parse bs = .ok e →
      e.encode = .ok ((bs.set 7 0).set 15 0) ∧
        e.headerSize + e.payload.length = bs.length) ∧
    (∀ e : Envelope, (∃ bs, e.encode = .ok bs) ↔ 24 + e.certificateData.length < UInt32.size) ∧
    (∀ (e : Envelope) (bs : Bytes), e.encode = .ok bs → parse bs = .ok e) ∧
    ∀ (e : Envelope) (bs : Bytes), parse bs = .ok e ∨ e.encode = .ok bs →
      (bs.drop 40).take e.certificateData.length = e.certificateData ∧
        bs.drop (40 + e.certificateData.length) = e.payload := by
  refine ⟨fun bs => ?_, fun bs e h => ⟨encode_of_parse h, ?_⟩, fun e => ?_,
    fun e bs => parse_of_encode, ?_⟩
  · have hend : declaredEnd bs = 16 + (bs.wordAt32 16).toNat := rfl
    constructor
    · rintro ⟨e, h⟩
      obtain ⟨⟨hlen, hrevision, hkind, htype, hlow, hhigh⟩, -⟩ := parse_eq_ok.1 h
      exact ⟨hlen, hrevision, hkind, htype, hlow, by omega⟩
    · rintro ⟨hlen, hrevision, hkind, htype, hlow, hhigh⟩
      exact ⟨_, parse_eq_ok.2 ⟨⟨hlen, hrevision, hkind, htype, hlow, by omega⟩, rfl⟩⟩
  · have hdrop := congrArg List.length (drop_of_parse h)
    have hlen : fixedSize ≤ bs.length := (parse_eq_ok.1 h).1.1
    rw [List.length_drop, List.length_append] at hdrop
    unfold headerSize
    omega
  · constructor
    · rintro ⟨bs, h⟩
      obtain ⟨length, hlength, -⟩ := bind_eq_ok.1 h
      exact (declaredLength_eq_ok.1 hlength).1
    · intro hfits
      exact ⟨_, bind_eq_ok.2 ⟨_, declaredLength_eq_ok.2 ⟨hfits, rfl⟩, rfl⟩⟩
  · intro e bs h
    have hparse : parse bs = .ok e := h.elim id parse_of_encode
    have hdrop : bs.drop 40 = e.certificateData ++ e.payload := drop_of_parse hparse
    rw [← List.drop_drop, hdrop, List.take_left, List.drop_left]
    exact ⟨rfl, rfl⟩

/-- An envelope with certificate data and a payload whose timestamp has its padding set. -/
def paddedEnvelope : Bytes :=
  [0xe9, 0x07, 1, 2, 3, 4, 5, 0xaa, 0, 0, 0, 0, 0, 0, 0, 0xbb] ++
    certificateHeader 26 ++ [0x30, 0x00] ++ [1, 2, 3]

theorem paddedEnvelope_wire_form :
    ∃ e cleared, parse paddedEnvelope = .ok e ∧ e.encode = .ok cleared ∧
      cleared = (paddedEnvelope.set 7 0).set 15 0 ∧ cleared ≠ paddedEnvelope ∧
      e.headerSize + e.payload.length = 45 ∧ parse cleared = .ok e ∧
      e.certificateData = [0x30, 0x00] ∧ e.payload = [1, 2, 3] := by
  obtain ⟨hreads, hwrites, -, hback, -⟩ := wire_form
  obtain ⟨e, hparse⟩ := (hreads paddedEnvelope).2 (by decide)
  obtain ⟨hencode, hsize⟩ := hwrites _ _ hparse
  refine ⟨e, _, hparse, hencode, rfl, by decide, hsize, hback _ _ hencode, ?_⟩
  obtain ⟨-, rfl⟩ := parse_eq_ok.1 hparse
  decide

end Envelope

/-! ## Building envelopes -/

/-- Whether a mode gives these certificate data to a message with this timestamp. -/
def EnvelopeMode.Authenticates (timestamp : Timestamp) (message certificateData : Bytes) :
    EnvelopeMode → Prop
  | .unsigned => certificateData = []
  | .signed signer => timestamp.isZero = false ∧ signer.sign message = .ok certificateData

/-- An envelope is built around its timestamp and payload, with certificate data that
the mode gives to the message of the write and that fit the length field. -/
theorem Envelope.build_eq_ok {name : String} {guid : Guid} {a : Attributes} {payload : Bytes}
    {mode : EnvelopeMode} {t : Timestamp} {e : Envelope} :
    build name guid a payload mode t = .ok e ↔
      mode.Authenticates t (signedMessage name guid a t payload) e.certificateData ∧
        certificateHeaderSize + e.certificateData.length < UInt32.size ∧
        e = ⟨t, e.certificateData, payload⟩ := by
  have fits (certificateData : Bytes) :
      (do
        let _ ← declaredLength ⟨t, certificateData, payload⟩
        return ⟨t, certificateData, payload⟩ : Except AuthError Envelope) = .ok e ↔
      certificateHeaderSize + certificateData.length < UInt32.size ∧
        e = ⟨t, certificateData, payload⟩ := by
    simp only [bind_eq_ok, declaredLength_eq_ok, pure_eq_ok, eq_comm (a := e)]
    constructor
    · rintro ⟨-, ⟨hfits, -⟩, rfl⟩
      exact ⟨hfits, rfl⟩
    · rintro ⟨hfits, rfl⟩
      exact ⟨_, ⟨hfits, rfl⟩, rfl⟩
  unfold build
  cases mode with
  | unsigned =>
    simp only [ok_bind, fits]
    constructor
    · rintro ⟨hfits, rfl⟩
      exact ⟨rfl, hfits, rfl⟩
    · rintro ⟨hnil, hfits, he⟩
      rw [EnvelopeMode.Authenticates] at hnil
      rw [hnil] at hfits he
      exact ⟨hfits, he⟩
  | signed signer =>
    cases hzero : t.isZero with
    | true =>
      refine iff_of_false ?_ ?_
      · simp only [if_true, bind_eq_ok]
        rintro ⟨certificateData, ⟨⟩, -⟩
      · rintro ⟨⟨hnonzero, -⟩, -⟩
        rw [hzero] at hnonzero
        cases hnonzero
    | false =>
      simp only [Bool.false_eq_true, if_false, bind_eq_ok, fits]
      constructor
      · rintro ⟨certificateData, hsigned, hfits, rfl⟩
        exact ⟨⟨hzero, hsigned⟩, hfits, rfl⟩
      · rintro ⟨⟨-, hsigned⟩, hfits, he⟩
        exact ⟨e.certificateData, hsigned, hfits, he⟩

end SecureBoot
