import SecureBoot.Proofs.FlashWalk
import SecureBoot.Proofs.InPlaceRuns
import SecureBoot.Proofs.StoreContents

/-!
# Writes in place

A flash store is changed where it lies.  An error does not take back what was changed before it,
and flash can only be programmed by clearing bits.  This file follows the calls of a store step
by step through one image.

* `InPlace.write`, `InPlace.delete`, `InPlace.set` — the calls as they check and change the image
  in turn;
* `InPlace.write_eq`, `InPlace.delete_eq`, `InPlace.set_eq` — no error comes after a change, so
  that a call changes the store as a whole or not at all, and `InPlace.store` is a store in place;
* `FlashStore.revised` — all that a call can do to an image;
* `FlashStore.Programs` — the discipline of flash, kept by `Revises.programs`;
* `FlashStore.Reachable.opens` — whatever was called, the image opens as the store that it is;
* `FlashStore.calls_program_flash` — all of this for every store and call.
-/

namespace SecureBoot

open FlashRecord InPlace

namespace FlashStore

variable {s s' : FlashStore} {rs : List FlashRecord} {id : VariableId} {a : Attributes}
  {t : Timestamp} {data : Bytes}

/-! ## Calls, step by step -/

/-- A computation that changes a store where it lies: what is changed before an error stays
changed. -/
abbrev InPlace (ε α : Type) := EStateM ε FlashStore α

namespace InPlace

variable {ε : Type}

/-- Marks the valid records of a variable deleted, one after the other, and counts them. -/
def deleteCopies (records : List FlashRecord) (id : VariableId) : InPlace ε Nat :=
  (copies records id).foldlM (fun count r => do
    modify (·.deleteRecords [r])
    return count + 1) 0

/-- Removes a variable, and tells whether it was there. -/
def delete (id : VariableId) : InPlace FlashError Bool := do
  let records ← reading records
  return 0 < (← deleteCopies records id)

/-- The header of a new record. -/
def newHeader (id : VariableId) (a : Attributes) (t : Timestamp) (nameSize dataSize : Nat) :
    Bytes :=
  Bytes.ofUInt16 marker ++ [added, 0] ++ a.toBytes ++ List.replicate 8 0 ++ t.toBytes ++
    List.replicate 4 0 ++ Bytes.ofNatLE 4 nameSize ++ Bytes.ofNatLE 4 dataSize ++ id.guid.toBytes

/-- Writes a variable exactly as given: the header of its record, the name and the data, and then
the states of the records before it. -/
def write (id : VariableId) (a : Attributes) (t : Timestamp) (data : Bytes) :
    InPlace FlashError Unit := do
  let name := storedName id
  let needed := FlashRecord.headerSize + name.length + data.length
  let layout ← reading walk
  let full := FlashError.storeFull needed layout.free
  if layout.free < needed then throw full
  if UInt32.size ≤ name.length then throw full
  if UInt32.size ≤ data.length then throw full
  let free := (← getThe FlashStore).finish - layout.free
  modify (·.patch free (newHeader id a t name.length data.length))
  modify (·.patch (free + FlashRecord.headerSize) name)
  modify (·.patch (free + FlashRecord.headerSize + name.length) data)
  let _ ← deleteCopies layout.records id

/-- Applies a write as firmware does, but for signatures. -/
def set (id : VariableId) (a : Attributes) (data : Bytes) : InPlace StoreError Unit := do
  let (payload, timestamp) ← reading fun _ => ofFlashError (splitWrite id a data)
  if !a.isAppend && payload.isEmpty then
    let existed ← (delete id).adaptExcept .flash
    if !existed then throw (.notFound id)
    return
  let (value, timestamp) := match ← reading fun s => ofFlashError (s.find? id) with
    | some r =>
      if a.isAppend then (r.data ++ payload, r.timestamp.later timestamp)
      else (payload, timestamp)
    | none => (payload, timestamp)
  (write id (a.difference .appendWrite) timestamp value).adaptExcept .flash

/-! ## No error comes after a change -/

/-- Records are deleted one after the other as they are deleted at once. -/
theorem run_foldlM_deleteRecords (rs : List FlashRecord) (count : Nat) :
    (rs.foldlM (fun count r => do
      modify (·.deleteRecords [r])
      return count + 1) count : InPlace ε Nat).run s =
        .ok (count + rs.length) (s.deleteRecords rs) := by
  induction rs generalizing count s with
  | nil => rfl
  | cons r rs ih =>
    have hfirst : (modify (·.deleteRecords [r]) >>= fun _ => pure (count + 1) :
        InPlace ε Nat).run s = .ok (count + 1) (s.deleteRecords [r]) := rfl
    rw [List.foldlM_cons, run_bind_of_ok hfirst, ih, List.length_cons, Nat.add_right_comm,
      Nat.add_assoc]
    rfl

theorem run_deleteCopies (records : List FlashRecord) (id : VariableId) :
    (deleteCopies records id : InPlace ε Nat).run s =
      .ok (copies records id).length (s.deleteRecords (copies records id)) := by
  rw [deleteCopies, run_foldlM_deleteRecords, Nat.zero_add]

/-- **A variable is deleted as a whole.** -/
theorem delete_eq (id : VariableId) : delete id = atomic (·.delete id) := by
  refine ext_run fun s => ?_
  rw [delete, run_reading_bind, run_atomic, FlashStore.delete]
  cases s.records with
  | error e => rfl
  | ok records =>
    simp only [ok_bind]
    rw [run_bind_of_ok (run_deleteCopies ..)]
    cases copies records id <;> rfl

/-! ### A record in three pieces -/

theorem encode_eq (id : VariableId) (a : Attributes) (t : Timestamp) (data : Bytes) :
    encode id a t data =
      newHeader id a t (storedName id).length data.length ++ storedName id ++ data := rfl

theorem length_newHeader (id : VariableId) (a : Attributes) (t : Timestamp)
    (nameSize dataSize : Nat) :
    (newHeader id a t nameSize dataSize).length = FlashRecord.headerSize := by
  simp [newHeader, FlashRecord.headerSize]

end InPlace

/-- Two pieces that are put one behind the other are put as one. -/
theorem overwrite_overwrite {image first second : Bytes} {offset : Nat}
    (h : offset + first.length + second.length ≤ image.length) :
    overwrite (overwrite image offset first) (offset + first.length) second =
      overwrite image offset (first ++ second) := by
  obtain ⟨front, back, rfl, rfl⟩ : ∃ front back, image = front ++ back ∧ front.length = offset :=
    ⟨image.take offset, image.drop offset, (List.take_append_drop ..).symm,
      List.length_take_of_le (by omega)⟩
  rw [List.length_append] at h
  have hfirst : first.length ≤ back.length := by omega
  have hsecond : second.length ≤ (back.drop first.length).length := by
    rw [List.length_drop]
    omega
  have hboth : (first ++ second).length ≤ back.length := by
    rw [List.length_append]
    omega
  rw [overwrite_append hfirst, overwrite_append hboth, ← List.append_assoc,
    ← List.length_append, overwrite_append hsecond]
  simp only [List.append_assoc, List.drop_drop, List.length_append]

theorem patch_patch {first second : Bytes} {offset : Nat}
    (h : offset + first.length + second.length ≤ s.image.length) :
    (s.patch offset first).patch (offset + first.length) second =
      s.patch offset (first ++ second) := by
  unfold patch
  simp only [overwrite_overwrite h]

/-- The free space that a walk finds is behind the header of the store. -/
theorem start_add_free_le {layout : FlashLayout} (h : s.walk = .ok layout) :
    s.start + layout.free ≤ s.finish := by
  have hfree := (laysOut_of_walk h).free_le
  have hheader : s.start ≤ s.finish := Nat.add_le_add_left s.header_le _
  omega

/-- To remove a variable that is not there changes nothing. -/
theorem eq_of_delete_eq_false (h : s.delete id = .ok (false, s')) : s' = s := by
  rw [delete, bind_eq_ok] at h
  obtain ⟨records, -, h⟩ := h
  rw [pure_eq_ok, Prod.mk.injEq, Bool.not_eq_false', List.isEmpty_iff] at h
  obtain ⟨hnone, rfl⟩ := h
  rw [hnone]
  rfl

namespace InPlace

/-- A record that is put piece by piece is put as a whole. -/
theorem patch_pieces {offset : Nat} (id : VariableId) (a : Attributes) (t : Timestamp)
    (data : Bytes) (h : offset + (encode id a t data).length ≤ s.image.length) :
    ((s.patch offset (newHeader id a t (storedName id).length data.length)).patch
        (offset + FlashRecord.headerSize) (storedName id)).patch
          (offset + FlashRecord.headerSize + (storedName id).length) data =
      s.patch offset (encode id a t data) := by
  have hheader := length_newHeader id a t (storedName id).length data.length
  rw [encode_eq]
  generalize newHeader id a t (storedName id).length data.length = header at *
  rw [length_encode, ← hheader] at h
  have hfront : (s.patch offset header).patch (offset + header.length) (storedName id) =
      s.patch offset (header ++ storedName id) := patch_patch (by omega)
  have hwhole : (header ++ storedName id).length = header.length + (storedName id).length :=
    List.length_append
  rw [← hheader, hfront, Nat.add_assoc, ← hwhole]
  exact patch_patch (by omega)

/-- **A variable is written as a whole.** -/
theorem write_eq (id : VariableId) (a : Attributes) (t : Timestamp) (data : Bytes) :
    write id a t data = atomic fun s => (s.write id a t data).map ((), ·) := by
  refine ext_run fun s => ?_
  rw [write, run_reading_bind, run_atomic, FlashStore.write]
  cases hwalk : s.walk with
  | error e => rfl
  | ok layout =>
    simp only [ok_bind, length_encode]
    by_cases hfull : layout.free < FlashRecord.headerSize + (storedName id).length + data.length
    · rw [if_pos hfull, if_pos hfull]
      rfl
    · have hfree := start_add_free_le hwalk
      have hsize := s.size_lt
      have hfinish : s.finish ≤ s.image.length := s.finish_le
      have hwithin : s.finish = s.offset + s.size := rfl
      have hstart : s.start = s.offset + headerSize := rfl
      -- what fits into the free space of a store has a size of its own
      have hname : ¬UInt32.size ≤ (storedName id).length := by omega
      have hdata : ¬UInt32.size ≤ data.length := by omega
      have hget : (getThe FlashStore : InPlace FlashError FlashStore).run s = .ok s s := rfl
      have hrecord : s.finish - layout.free + (encode id a t data).length ≤ s.image.length := by
        rw [length_encode]
        omega
      rw [if_neg hfull, if_neg hfull, if_neg hname, if_neg hdata, run_bind_of_ok hget,
        run_modify_bind, run_modify_bind, run_modify_bind, patch_pieces id a t data hrecord,
        run_bind_of_ok (run_deleteCopies ..)]
      rfl

/-- **A write is applied as a whole.** -/
theorem set_eq (id : VariableId) (a : Attributes) (data : Bytes) :
    set id a data = atomic fun s => (FlashStore.set s id a data).map ((), ·) := by
  refine ext_run fun s => ?_
  rw [set, run_reading_bind, run_atomic, FlashStore.set]
  cases ofFlashError (splitWrite id a data) with
  | error e => rfl
  | ok split =>
    obtain ⟨payload, timestamp⟩ := split
    simp only [ok_bind, delete_eq, write_eq, adaptExcept_atomic]
    by_cases hdelete : (!a.isAppend && payload.isEmpty) = true
    · rw [if_pos hdelete, if_pos hdelete]
      cases hfound : s.delete id with
      | error e =>
        have hrun : (atomic fun s => (s.delete id).mapError StoreError.flash).run s =
            .error (.flash e) s := by
          rw [run_atomic, hfound]
          rfl
        rw [run_bind_of_error hrun]
        rfl
      | ok found =>
        obtain ⟨existed, s'⟩ := found
        have hrun : (atomic fun s => (s.delete id).mapError StoreError.flash).run s =
            .ok existed s' := by
          rw [run_atomic, hfound]
          rfl
        rw [run_bind_of_ok hrun]
        cases existed with
        | true => rfl
        | false =>
          -- the error comes after a change that changed nothing
          rw [eq_of_delete_eq_false hfound]
          rfl
    · rw [if_neg hdelete, if_neg hdelete, run_reading_bind]
      cases ofFlashError (s.find? id) with
      | error e => rfl
      | ok current =>
        exact congrArg (fun written => (atomic fun _ => written).run s)
          (mapError_map ((), ·) StoreError.flash (FlashStore.write s _ _ _ _))

/-- The store of a flash image, with its writes in place. -/
def store : InPlaceStore FlashStore where
  toVariableStore := FlashStore.store
  setInPlace := set
  setInPlace_eq := set_eq

end InPlace

/-! ## What a call does to the image -/

section Bytes

variable {image new : Bytes} {offset i : Nat}

/-- Bytes that are not overwritten are as before. -/
theorem getElem?_overwrite (h : i < offset ∨ offset + new.length ≤ i) :
    (overwrite image offset new)[i]? = image[i]? := by
  have hlength := length_overwrite image offset new
  by_cases hi : i < image.length
  · rw [overwrite, List.append_assoc]
    rcases h with hbefore | hbehind
    · have hfront : i < (image.take offset).length := by
        rw [List.length_take]
        omega
      rw [List.getElem?_append_left hfront, List.getElem?_take_of_lt hbefore]
    · have hfront : (image.take offset).length = offset := List.length_take_of_le (by omega)
      have hmiddle : (new.take (image.length - offset)).length = new.length := by
        rw [List.length_take]
        omega
      rw [List.getElem?_append_right (by omega), List.getElem?_append_right (by omega), hfront,
        hmiddle, List.getElem?_drop]
      congr 1
      omega
  · rw [List.getElem?_eq_none (by omega), List.getElem?_eq_none (by omega)]

/-- Only the states of the records are cleared. -/
theorem getElem?_clearStates (rs : List FlashRecord) :
    (clearStates image rs)[i]? = image[i]?.map fun b =>
      if ∃ r ∈ rs, r.offset + stateOffset = i then b &&& deleted else b := by
  induction rs generalizing image with
  | nil => simp [clearStates]
  | cons r rs ih =>
    have hcons : clearStates image (r :: rs) =
        clearStates (image.modify (r.offset + stateOffset) (· &&& deleted)) rs := rfl
    rw [hcons, ih, List.getElem?_modify]
    cases image[i]? with
    | none => rfl
    | some b =>
      by_cases hr : r.offset + stateOffset = i
      · by_cases hrs : ∃ r ∈ rs, r.offset + stateOffset = i
        · simp [hr, hrs, UInt8.and_assoc]
        · simp [hr, hrs]
      · simp [hr]

end Bytes

/-- Bytes in front of the free space and the records of a variable marked deleted: all that a
call can do to a store. -/
def revised (s : FlashStore) (layout : FlashLayout) (id : VariableId) (new : Bytes) : FlashStore :=
  (s.patch (s.finish - layout.free) new).deleteRecords (copies layout.records id)

/-- What a call for a variable leaves of a store where it succeeds. -/
def Revises (s : FlashStore) (id : VariableId) (s' : FlashStore) : Prop :=
  ∃ layout new, s.walk = .ok layout ∧ new.length ≤ layout.free ∧ s' = s.revised layout id new

theorem revises_of_write (h : s.write id a t data = .ok s') : s.Revises id s' := by
  rw [write, bind_eq_ok] at h
  obtain ⟨layout, hwalk, h⟩ := h
  rw [guard_eq_ok, pure_eq_ok] at h
  obtain ⟨hroom, rfl⟩ := h
  exact ⟨layout, _, hwalk, Nat.not_lt.1 hroom, rfl⟩

theorem patch_nil (offset : Nat) : s.patch offset [] = s := by
  unfold patch
  simp [overwrite]

theorem revises_of_delete {existed : Bool} (h : s.delete id = .ok (existed, s')) :
    s.Revises id s' := by
  rw [delete, bind_eq_ok] at h
  obtain ⟨records, hrecords, h⟩ := h
  rw [pure_eq_ok, Prod.mk.injEq] at h
  obtain ⟨-, rfl⟩ := h
  obtain ⟨layout, hwalk, rfl⟩ := map_eq_ok.1 hrecords
  refine ⟨layout, [], hwalk, Nat.zero_le _, ?_⟩
  rw [revised, patch_nil]

theorem revises_of_set (h : FlashStore.set s id a data = .ok s') : s.Revises id s' := by
  rw [set, bind_eq_ok] at h
  obtain ⟨⟨payload, timestamp⟩, -, h⟩ := h
  dsimp only at h
  by_cases hdelete : (!a.isAppend && payload.isEmpty) = true
  · rw [if_pos hdelete, bind_eq_ok] at h
    obtain ⟨⟨existed, deleted⟩, hdeleted, h⟩ := h
    rw [guard_eq_ok, pure_eq_ok] at h
    obtain ⟨-, rfl⟩ := h
    exact revises_of_delete (mapError_eq_ok.1 hdeleted)
  · rw [if_neg hdelete, bind_eq_ok] at h
    obtain ⟨current, -, h⟩ := h
    exact revises_of_write (mapError_eq_ok.1 h)

/-! ## The discipline of flash -/

/-- What flash allows a call for a variable to do to an image: to clear the deleted bit in the
states of its valid records, and to program what was erased behind the records. -/
structure Programs (s s' : FlashStore) (layout : FlashLayout) (id : VariableId) : Prop where
  length : s'.image.length = s.image.length
  offset : s'.offset = s.offset
  size : s'.size = s.size
  changed : ∀ (i : Nat) (old new : UInt8),
    s.image[i]? = some old → s'.image[i]? = some new → new ≠ old →
    (∃ r ∈ layout.records, r.isValid = true ∧ r.id = id ∧ i = r.offset + 2 ∧
      new = old &&& 0xfd) ∨
    s.finish - layout.free ≤ i ∧ i < s.finish
  clears : s.IsClean → ∀ (i : Nat) (old new : UInt8),
    s.image[i]? = some old → s'.image[i]? = some new → new &&& old = new
  opens : ofImage s'.image = .ok s'

/-- A byte after a call: in the former free space, the state of a deleted record, or as it was. -/
theorem byte_cases {layout : FlashLayout} {new : Bytes} (hroom : new.length ≤ layout.free)
    (hfree : layout.free ≤ s.finish) {i : Nat} {before after : UInt8}
    (hbefore : s.image[i]? = some before)
    (hafter : (s.revised layout id new).image[i]? = some after) :
    (s.finish - layout.free ≤ i ∧ i < s.finish) ∨
      (∃ r ∈ layout.records, r.isValid = true ∧ r.id = id ∧ i = r.offset + 2 ∧
        after = before &&& 0xfd) ∨ after = before := by
  by_cases hinside : s.finish - layout.free ≤ i ∧ i < s.finish
  · exact .inl hinside
  · right
    have houtside : (overwrite s.image (s.finish - layout.free) new)[i]? = some before := by
      rw [getElem?_overwrite (by omega), hbefore]
    have hcleared : (clearStates (overwrite s.image (s.finish - layout.free) new)
        (copies layout.records id))[i]? = some after := hafter
    rw [getElem?_clearStates, houtside, Option.map_some, Option.some.injEq] at hcleared
    by_cases hstate : ∃ r ∈ copies layout.records id, r.offset + stateOffset = i
    · rw [if_pos hstate] at hcleared
      obtain ⟨r, hr, rfl⟩ := hstate
      obtain ⟨hmem, hcopy⟩ := List.mem_filter.1 hr
      rw [Bool.and_eq_true, decide_eq_true_eq] at hcopy
      exact .inl ⟨r, hmem, hcopy.1, hcopy.2, rfl, hcleared.symm⟩
    · rw [if_neg hstate] at hcleared
      exact .inr hcleared.symm

/-- The free space of a clean store is erased. -/
theorem IsClean.getElem?_eq (hclean : s.IsClean) {layout : FlashLayout}
    (hwalk : s.walk = .ok layout) {i : Nat} (hi : s.finish - layout.free ≤ i ∧ i < s.finish) :
    s.image[i]? = some erased := by
  obtain ⟨found, hfound, herased⟩ := hclean
  cases hwalk.symm.trans hfound
  have hfinish : s.finish ≤ s.image.length := s.finish_le
  have hmem : s.image[i] ∈ s.image.slice (s.finish - layout.free) layout.free := by
    refine List.mem_iff_getElem?.2 ⟨i - (s.finish - layout.free), ?_⟩
    rw [Bytes.slice, List.getElem?_take_of_lt (by omega), List.getElem?_drop,
      Nat.add_sub_cancel' hi.1, List.getElem?_eq_getElem]
  rw [List.getElem?_eq_getElem (by omega), herased _ hmem]

theorem length_revised (s : FlashStore) (layout : FlashLayout) (id : VariableId) (new : Bytes) :
    (s.revised layout id new).image.length = s.image.length :=
  (length_clearStates _ _).trans (length_overwrite _ _ _)

/-- Nothing is changed in front of the records. -/
theorem take_revised {layout : FlashLayout} {new : Bytes} (hwalk : s.walk = .ok layout)
    (hroom : new.length ≤ layout.free) :
    (s.revised layout id new).image.take s.start = s.image.take s.start := by
  have hfree := start_add_free_le hwalk
  have hfinish : s.finish ≤ s.image.length := s.finish_le
  have hlength := s.length_revised layout id new
  have hlaid := laysOut_of_walk hwalk
  refine List.ext_getElem? fun i => ?_
  by_cases hi : i < s.start
  · rw [List.getElem?_take_of_lt hi, List.getElem?_take_of_lt hi]
    have hbefore := List.getElem?_eq_getElem (l := s.image) (i := i) (by omega)
    have hafter := List.getElem?_eq_getElem (l := (s.revised layout id new).image) (i := i)
      (by omega)
    rcases byte_cases hroom (by omega) hbefore hafter with
      hinside | ⟨r, hr, -, -, hat, -⟩ | hsame
    · omega
    · have hstart := (hlaid.within r hr).1
      omega
    · rw [hafter, hbefore, hsame]
  · have hnone (bs : Bytes) : (bs.take s.start)[i]? = none :=
      List.getElem?_take_eq_none (Nat.not_lt.1 hi)
    rw [hnone, hnone]

/-- **Every call keeps the discipline of flash**, in a store that opens from its own image. -/
theorem Revises.programs (h : s.Revises id s') (hopen : ofImage s.image = .ok s) :
    ∃ layout, s.walk = .ok layout ∧ s.Programs s' layout id := by
  obtain ⟨layout, new, hwalk, hroom, rfl⟩ := h
  have hfree := start_add_free_le hwalk
  have hwithin : layout.free ≤ s.finish := by omega
  refine ⟨layout, hwalk, s.length_revised layout id new, rfl, rfl, ?_, ?_, ?_⟩
  · intro i before after hbefore hafter hne
    rcases byte_cases hroom hwithin hbefore hafter with hinside | hstate | hsame
    · exact .inr hinside
    · exact .inl hstate
    · exact absurd hsame hne
  · intro hclean i before after hbefore hafter
    rcases byte_cases hroom hwithin hbefore hafter with hinside | ⟨-, -, -, -, -, rfl⟩ | rfl
    · -- every value can be programmed where flash is erased
      have herased : before = erased :=
        Option.some.inj (hbefore.symm.trans (hclean.getElem?_eq hwalk hinside))
      rw [herased]
      exact UInt8.and_neg_one
    · rw [UInt8.and_assoc, UInt8.and_comm 0xfd, ← UInt8.and_assoc, UInt8.and_self]
    · exact UInt8.and_self
  · exact ofImage_of_take_eq hopen (s.length_revised layout id new) rfl rfl
      (take_revised hwalk hroom)

/-! ## Every store and every call -/

/-- A call made in place answers as the call that returns a new store.  Where that fails, the
store is left as it was; where it succeeds, the store is the new one, and nothing but what flash
allows was done to it. -/
def KeepsDiscipline {ε α : Type} (s : FlashStore) (id : VariableId) (x : InPlace ε α)
    (f : FlashStore → Except ε (α × FlashStore)) : Prop :=
  match f s with
  | .error e => x.run s = .error e s
  | .ok (b, s') => x.run s = .ok b s' ∧ ∃ layout, s.walk = .ok layout ∧ s.Programs s' layout id

section KeepsDiscipline

variable {ε α : Type} {x : InPlace ε α} {f : FlashStore → Except ε (α × FlashStore)}

theorem KeepsDiscipline.of_error (h : KeepsDiscipline s id x f) {e : ε} (hf : f s = .error e) :
    x.run s = .error e s := by
  unfold KeepsDiscipline at h
  rwa [hf] at h

theorem KeepsDiscipline.of_ok (h : KeepsDiscipline s id x f) {b : α} (hf : f s = .ok (b, s')) :
    x.run s = .ok b s' ∧ ∃ layout, s.walk = .ok layout ∧ s.Programs s' layout id := by
  unfold KeepsDiscipline at h
  rwa [hf] at h

theorem keepsDiscipline_atomic (hopen : ofImage s.image = .ok s)
    (h : ∀ b s', f s = .ok (b, s') → s.Revises id s') :
    KeepsDiscipline s id (InPlace.atomic f) f := by
  rw [KeepsDiscipline, InPlace.run_atomic]
  cases hf : f s with
  | error e => rfl
  | ok after => exact ⟨rfl, (h after.1 after.2 hf).programs hopen⟩

/-- What a call leaves opens from its own image. -/
theorem KeepsDiscipline.opens (h : KeepsDiscipline s id x f) (hopen : ofImage s.image = .ok s) :
    ofImage (left (x.run s)).image = .ok (left (x.run s)) := by
  cases hf : f s with
  | error e =>
    rw [h.of_error hf]
    exact hopen
  | ok after =>
    obtain ⟨hrun, _, _, hprograms⟩ := h.of_ok hf
    rw [hrun]
    exact hprograms.opens

end KeepsDiscipline

/-- The stores that there can be: what opens, what is blank, and what calls leave of them,
successful or not. -/
inductive Reachable : FlashStore → Prop
  | opened {image : Bytes} {s : FlashStore} : ofImage image = .ok s → Reachable s
  | blank {size : Nat} {s : FlashStore} : blank size = .ok s → Reachable s
  | set {s : FlashStore} (id : VariableId) (a : Attributes) (data : Bytes) :
      Reachable s → Reachable (left ((InPlace.set id a data).run s))
  | write {s : FlashStore} (id : VariableId) (a : Attributes) (t : Timestamp) (data : Bytes) :
      Reachable s → Reachable (left ((InPlace.write id a t data).run s))
  | delete {s : FlashStore} (id : VariableId) :
      Reachable s → Reachable (left ((InPlace.delete id).run s))

section Calls

variable (hopen : ofImage s.image = .ok s)

include hopen

theorem keepsDiscipline_set (id : VariableId) (a : Attributes) (data : Bytes) :
    KeepsDiscipline s id (InPlace.set id a data) fun s => (store.set s id a data).map ((), ·) := by
  rw [InPlace.set_eq]
  refine keepsDiscipline_atomic hopen fun b s' h => ?_
  obtain ⟨after, hset, heq⟩ := exceptMap_eq_ok.1 h
  cases heq
  exact revises_of_set hset

theorem keepsDiscipline_write (id : VariableId) (a : Attributes) (t : Timestamp) (data : Bytes) :
    KeepsDiscipline s id (InPlace.write id a t data)
      fun s => (s.write id a t data).map ((), ·) := by
  rw [InPlace.write_eq]
  refine keepsDiscipline_atomic hopen fun b s' h => ?_
  obtain ⟨after, hwrite, heq⟩ := exceptMap_eq_ok.1 h
  cases heq
  exact revises_of_write hwrite

theorem keepsDiscipline_delete (id : VariableId) :
    KeepsDiscipline s id (InPlace.delete id) (·.delete id) := by
  rw [InPlace.delete_eq]
  exact keepsDiscipline_atomic hopen fun b s' h => revises_of_delete h

end Calls

/-- **Every store opens from its own image**, whatever was called before. -/
theorem Reachable.opens (h : s.Reachable) : ofImage s.image = .ok s := by
  induction h with
  | opened hopen =>
    obtain ⟨rfl, -⟩ := ofImage_eq_ok.1 hopen
    exact hopen
  | blank hblank => exact ofImage_of_blank hblank
  | set id a data _ ih => exact (keepsDiscipline_set ih id a data).opens ih
  | write id a t data _ ih => exact (keepsDiscipline_write ih id a t data).opens ih
  | delete id _ ih => exact (keepsDiscipline_delete ih id).opens ih

/-- **Calls are atomic and keep the discipline of flash.**  Take any store that there can be, and
let a variable be set, written or deleted in place.  If the call fails, the store is as it was.
If it succeeds, the image keeps its length, and the store its place and size in it; a changed
byte is the state of a valid record of that variable with its deleted bit cleared, or in the
former free space; in a clean store every change clears bits only; and the image opens as the
store that it now is. -/
theorem calls_program_flash (h : s.Reachable) (id : VariableId) :
    (∀ a data, KeepsDiscipline s id (InPlace.set id a data)
      fun s => (store.set s id a data).map ((), ·)) ∧
    (∀ a t data, KeepsDiscipline s id (InPlace.write id a t data)
      fun s => (s.write id a t data).map ((), ·)) ∧
    KeepsDiscipline s id (InPlace.delete id) (·.delete id) :=
  ⟨keepsDiscipline_set h.opens id, keepsDiscipline_write h.opens id,
    keepsDiscipline_delete h.opens id⟩

/-- A store with a record takes a replacement in place, and refuses what does not fit. -/
theorem replacement_programs_flash :
    ∃ (s s' : FlashStore) (layout : FlashLayout), s.Reachable ∧ s.IsClean ∧
      s.walk = .ok layout ∧ (copies layout.records bootOrder).length = 1 ∧
      (InPlace.write bootOrder .bootNonVolatile .zero [2, 3]).run s = .ok () s' ∧
      s.Programs s' layout bootOrder ∧
      (InPlace.write bootOrder .bootNonVolatile .zero (List.replicate 100 4)).run s =
        .error (.storeFull 180 144) s := by
  have hrun : ((blank 256).toOption.bind fun s₀ =>
      (s₀.write bootOrder .bootNonVolatile .zero [1]).toOption.bind fun s =>
        s.walk.toOption.bind fun layout =>
          (s.write bootOrder .bootNonVolatile .zero [2, 3]).toOption.map fun _ =>
            ((copies layout.records bootOrder).length,
              failure? (s.write bootOrder .bootNonVolatile .zero (List.replicate 100 4)))) =
                some (1, some (.storeFull 180 144)) := by decide +kernel
  obtain ⟨s₀, hblank, hrun⟩ := Option.bind_eq_some_iff.1 hrun
  obtain ⟨s, hfirst, hrun⟩ := Option.bind_eq_some_iff.1 hrun
  obtain ⟨layout, hwalk, hrun⟩ := Option.bind_eq_some_iff.1 hrun
  obtain ⟨s', hsecond, hresult⟩ := Option.map_eq_some_iff.1 hrun
  have hblank := toOption_eq_some.1 hblank
  have hfirst := toOption_eq_some.1 hfirst
  have hwalk := toOption_eq_some.1 hwalk
  have hsecond := toOption_eq_some.1 hsecond
  rw [Prod.mk.injEq] at hresult
  have hreachable : s.Reachable := by
    have hleft := Reachable.write bootOrder .bootNonVolatile .zero [1] (.blank hblank)
    rwa [InPlace.write_eq, InPlace.run_atomic, hfirst] at hleft
  have hclean : s.IsClean := by
    obtain ⟨hroom, rfl⟩ := (holds_of_blank hblank).write_eq_ok.1 hfirst
    exact ((holds_of_blank hblank).wrote (by decide) (fun _ hb => List.eq_of_mem_replicate hb)
      hroom).isClean
  obtain ⟨-, hwrite, -⟩ := calls_program_flash hreachable bootOrder
  have hfull := failure?_eq_some.1 hresult.2
  obtain ⟨hdone, found, hfound, hprograms⟩ :=
    (hwrite .bootNonVolatile .zero [2, 3]).of_ok (by rw [hsecond]; rfl)
  cases hwalk.symm.trans hfound
  exact ⟨s, s', layout, hreachable, hclean, hwalk, hresult.1, hdone, hprograms,
    (hwrite .bootNonVolatile .zero (List.replicate 100 4)).of_error (by rw [hfull]; rfl)⟩

end FlashStore

end SecureBoot
