import SecureBoot.Proofs.InPlaceWrites
import SecureBoot.Proofs.MirroredWrites

/-!
# Timestamps in a flash image

Firmware compares the timestamp of a replacement with the stored one, and refuses what is not
later.  A flash store applies writes without that comparison.

* `FlashStore.set_timestamps` — what is stored after a write with an envelope: an append keeps the
  later timestamp, and a replacement takes its own, older or not, whenever there is room for it;
* `FlashStore.not_set_keeps_order` — so that an older envelope rolls dbx back.
-/

namespace SecureBoot

namespace FlashStore

open FlashRecord

variable {s s' : FlashStore} {rs : List FlashRecord} {tail : Bytes} {id : VariableId}
  {a : Attributes} {data payload : Bytes} {t : Timestamp}

/-- Payload and timestamp of a write with an envelope are those of the envelope. -/
theorem splitWrite_eq_ok (htime : a.isTimeBased = true) :
    splitWrite id a data = .ok (payload, t) ↔
      ∃ e, Envelope.parse data = .ok e ∧ e.payload = payload ∧ e.timestamp = t := by
  rw [splitWrite, if_pos htime]
  cases Envelope.parse data with
  | error e => simp
  | ok e => simp

/-- A stored variable has a current record, under a name without a zero character. -/
theorem Holds.exists_current (h : s.Holds rs tail) {x : StoredVariable}
    (hstored : s.stored id = .ok (some x)) :
    (current? rs id).map FlashRecord.stored = some x ∧ '\x00' ∉ id.name.toList := by
  rw [h.stored_eq, Except.ok.injEq] at hstored
  obtain ⟨r, hcurrent, -⟩ := Option.map_eq_some_iff.1 hstored
  obtain ⟨hmem, rfl⟩ := mem_of_current?_eq_some hcurrent
  exact ⟨hstored, h.zero_not_mem_name r hmem⟩

/-- The timestamp goes back exactly if an older one replaces it. -/
theorem isAfter_writtenTimestamp {before : StoredVariable} :
    before.timestamp.isAfter (writtenTimestamp (some before) a t) = true ↔
      a.isAppend = false ∧ before.timestamp.isAfter t = true := by
  show before.timestamp.isAfter (if a.isAppend then before.timestamp.later t else t) = true ↔ _
  by_cases happend : a.isAppend = true
  · rw [if_pos happend, Timestamp.isAfter_eq_true, Timestamp.instant_later]
    refine iff_of_false (Nat.not_lt.2 (Nat.le_max_left ..)) fun hreplaces => ?_
    rw [happend] at hreplaces
    cases hreplaces.1
  · rw [if_neg happend, and_iff_right (Bool.eq_false_iff.2 happend)]

/-- A variable that is stored is replaced or deleted whenever there is room, whatever its
timestamp. -/
theorem Holds.replaces_iff (h : s.Holds rs tail)
    (hsplit : splitWrite id a data = .ok (payload, t)) (hreplaces : a.isAppend = false)
    {before : StoredVariable} (hbefore : s.stored id = .ok (some before)) :
    (∃ s', store.set s id a data = .ok s') ↔
      payload = [] ∨ recordSize id payload ≤ tail.length := by
  obtain ⟨hcurrent, -⟩ := h.exists_current hbefore
  rw [h.set_eq hsplit]
  by_cases hnothing : payload = []
  · have hthere : copies rs id ≠ [] := by
      intro hmissing
      rw [current?_of_copies_eq_nil hmissing] at hcurrent
      cases hcurrent
    rw [if_pos ⟨hreplaces, hnothing⟩, if_neg hthere]
    exact iff_of_true ⟨_, rfl⟩ (.inl hnothing)
  · have hdata : Firmware.mergedData ((current? rs id).map FlashRecord.stored) a payload =
        payload := by
      rw [Firmware.mergedData_eq, hreplaces, if_neg Bool.false_ne_true]
    rw [if_neg fun hdelete => hnothing hdelete.2, or_iff_right hnothing, hdata, recordSize]
    constructor
    · rintro ⟨s', hwrite⟩
      obtain ⟨hroom, -⟩ := h.write_eq_ok.1 (mapError_eq_ok.1 hwrite)
      rwa [length_encode] at hroom
    · intro hroom
      rw [← length_encode id (a.difference .appendWrite)
        (writtenTimestamp ((current? rs id).map FlashRecord.stored) a t)] at hroom
      exact ⟨_, mapError_eq_ok.2 (h.write_eq_ok.2 ⟨hroom, rfl⟩)⟩

/-- **What becomes of a stored timestamp.**  In a clean store, let a variable that is stored be
written with an envelope.  After an append that succeeds, the later timestamp is stored, and after
a replacement that of the envelope.  So the timestamp goes back exactly if the write replaces and
its envelope is older than what was stored.  Such a write succeeds like any other replacement,
namely if it deletes or there is room for its record. -/
theorem set_timestamps (hclean : s.IsClean) (htime : a.isTimeBased = true)
    {before : StoredVariable} (hbefore : s.stored id = .ok (some before)) :
    (∀ s', store.set s id a data = .ok s' → ∃ e, Envelope.parse data = .ok e ∧
      ∀ after, s'.stored id = .ok (some after) →
        after.timestamp = (if a.isAppend then before.timestamp.later e.timestamp
          else e.timestamp) ∧
        (before.timestamp.isAfter after.timestamp = true ↔
          a.isAppend = false ∧ before.timestamp.isAfter e.timestamp = true)) ∧
    ∀ e, Envelope.parse data = .ok e → a.isAppend = false →
      ∃ free, s.freeSpace = .ok free ∧
        ((∃ s', store.set s id a data = .ok s') ↔
          e.payload = [] ∨ recordSize id e.payload ≤ free) := by
  obtain ⟨rs, tail, h, herased⟩ := isClean_iff.1 hclean
  obtain ⟨hcurrent, hname⟩ := h.exists_current hbefore
  constructor
  · intro s' hset
    obtain ⟨payload, t, hsplit⟩ := splitWrite_of_set hset
    obtain ⟨e, hparse, rfl, rfl⟩ := (splitWrite_eq_ok htime).1 hsplit
    obtain ⟨rs', tail', h', -, hself, -⟩ := h.stored_set herased hname hsplit hset
    refine ⟨e, hparse, fun after hafter => ?_⟩
    obtain ⟨hcurrent', -⟩ := h'.exists_current hafter
    rw [hself, hcurrent] at hcurrent'
    obtain ⟨-, hwritten⟩ := of_writeResult_eq_some hcurrent'
    rw [hwritten]
    exact ⟨rfl, isAfter_writtenTimestamp⟩
  · intro e hparse hreplaces
    have hsplit : splitWrite id a data = .ok (e.payload, e.timestamp) :=
      (splitWrite_eq_ok htime).2 ⟨e, hparse, rfl, rfl⟩
    exact ⟨tail.length, h.freeSpace_eq, h.replaces_iff hsplit hreplaces hbefore⟩

/-! ## An older dbx -/

/-- The list that revokes some digests. -/
def revocations (digests : List Bytes) : Bytes :=
  (SignatureList.ofOwner .sha256 .globalVariable digests).toBytes 32

/-- What dbx holds when it was written on a day of January 2025. -/
def dbxOf (day : UInt8) (digests : List Bytes) : StoredVariable :=
  ⟨⟨.authenticatedDatabase, revocations digests⟩, Firmware.january day⟩

/-- The data of the write that leaves it, without a signature. -/
def dbxData (day : UInt8) (digests : List Bytes) : Bytes :=
  (Firmware.Call.unsigned SecureVariable.dbx.id .authenticatedDatabase (Firmware.january day)
    (revocations digests)).data

/-- Two digests, the first of which was revoked before the second. -/
def digests : List Bytes := [List.replicate 32 1, List.replicate 32 2]

/-- A flash image with the later dbx takes the older one back. -/
theorem exists_rolledBack :
    ∃ s s' : FlashStore, s.Reachable ∧ s.IsClean ∧
      s.stored SecureVariable.dbx.id = .ok (some (dbxOf 3 digests)) ∧
      store.set s SecureVariable.dbx.id .authenticatedDatabase (dbxData 2 (digests.take 1)) =
        .ok s' ∧
      s'.stored SecureVariable.dbx.id = .ok (some (dbxOf 2 (digests.take 1))) := by
  have hrun : ((blank 512).toOption.bind fun s₀ =>
      (store.set s₀ SecureVariable.dbx.id .authenticatedDatabase
        (dbxData 3 digests)).toOption.bind fun s =>
          (store.set s SecureVariable.dbx.id .authenticatedDatabase
            (dbxData 2 (digests.take 1))).toOption.bind fun s' =>
              (s.stored SecureVariable.dbx.id).toOption.bind fun before =>
                (s'.stored SecureVariable.dbx.id).toOption.map fun after => (before, after)) =
                  some (some (dbxOf 3 digests), some (dbxOf 2 (digests.take 1))) := by
    decide +kernel
  obtain ⟨s₀, hblank, hrun⟩ := Option.bind_eq_some_iff.1 hrun
  obtain ⟨s, hfirst, hrun⟩ := Option.bind_eq_some_iff.1 hrun
  obtain ⟨s', hsecond, hrun⟩ := Option.bind_eq_some_iff.1 hrun
  obtain ⟨before, hbefore, hrun⟩ := Option.bind_eq_some_iff.1 hrun
  obtain ⟨after, hafter, hresult⟩ := Option.map_eq_some_iff.1 hrun
  obtain ⟨rfl, rfl⟩ := Prod.mk.inj hresult
  have hblank := toOption_eq_some.1 hblank
  have hfirst := toOption_eq_some.1 hfirst
  have hreachable : s.Reachable := by
    have hleft := Reachable.set SecureVariable.dbx.id .authenticatedDatabase (dbxData 3 digests)
      (.blank hblank)
    have hset : FlashStore.set s₀ SecureVariable.dbx.id .authenticatedDatabase
        (dbxData 3 digests) = .ok s := hfirst
    rwa [InPlace.set_eq, InPlace.run_atomic, hset] at hleft
  exact ⟨s, s', hreachable,
    (isClean_of_blank hblank).set (SecureVariable.zero_not_mem_name .dbx) hfirst,
    toOption_eq_some.1 hbefore, toOption_eq_some.1 hsecond, toOption_eq_some.1 hafter⟩

theorem rolledBack_timestamps :
    ∃ s s' : FlashStore, s.IsClean ∧ Attributes.isTimeBased .authenticatedDatabase = true ∧
      s.stored SecureVariable.dbx.id = .ok (some (dbxOf 3 digests)) ∧
      store.set s SecureVariable.dbx.id .authenticatedDatabase (dbxData 2 (digests.take 1)) =
        .ok s' ∧
      s'.stored SecureVariable.dbx.id = .ok (some (dbxOf 2 (digests.take 1))) ∧
      (dbxOf 3 digests).timestamp.isAfter (dbxOf 2 (digests.take 1)).timestamp = true := by
  obtain ⟨s, s', -, hclean, hbefore, hset, hafter⟩ := exists_rolledBack
  have htime : Attributes.isTimeBased .authenticatedDatabase = true := by decide
  obtain ⟨e, hparse, hstored⟩ := (set_timestamps hclean htime hbefore).1 s' hset
  cases hparse.symm.trans (Firmware.Call.parse_unsigned ..)
  obtain ⟨-, hback⟩ := hstored _ hafter
  exact ⟨s, s', hclean, htime, hbefore, hset, hafter, hback.2 ⟨by decide, by decide⟩⟩

theorem not_set_keeps_order :
    ¬∀ s : FlashStore, s.Reachable → s.IsClean → ∀ id a data s', a.isTimeBased = true →
      store.set s id a data = .ok s' → ∀ before after, s.stored id = .ok (some before) →
      s'.stored id = .ok (some after) →
      before.timestamp.isAfter after.timestamp = false ∧
        (a.isAppend = false → ∀ e, Envelope.parse data = .ok e →
          e.timestamp.isAfter before.timestamp = true) := by
  intro h
  obtain ⟨s, s', hreachable, hclean, hbefore, hset, hafter⟩ := exists_rolledBack
  obtain ⟨hkept, -⟩ := h s hreachable hclean _ _ _ s' (by decide) hset _ _ hbefore hafter
  revert hkept
  decide

end FlashStore

end SecureBoot
