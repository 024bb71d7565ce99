import Mathlib.Data.List.Forall2
import SecureBoot.Proofs.FlashLog

/-!
# What a flash store does with a write

A store *holds* records and the free space behind them (`FlashStore.Holds`), and
is *clean* when that space is erased (`FlashStore.IsClean`).

* `FlashStore.Holds.write_eq_ok`, `Holds.written` — a write succeeds exactly when
  its record fits, and then retires the valid records of the variable and appends
  the new one;
* `FlashStore.Holds.delete_eq_ok`, `Holds.deleted` — to delete is to retire only;
* `FlashRecord.current?_append_ofWrite`, `current?_retire_self`,
  `current?_retire_of_ne` — what is then the current record of a variable;
* `FlashStore.write_retires_and_appends` — the whole effect of a write, as records,
  current records and free space read before and after it.
-/

namespace SecureBoot

open FlashRecord

/-! ## Current records -/

namespace FlashRecord

variable {id other : VariableId} {rs : List FlashRecord}

/-- Whether a record is a valid one of a variable. -/
def isCopy (id : VariableId) (r : FlashRecord) : Bool := r.isValid && r.id = id

/-- Deletes the valid records of a variable. -/
def retire (id : VariableId) (rs : List FlashRecord) : List FlashRecord :=
  rs.map (clearedIf (isCopy id))

/-- No record of a retired variable is valid. -/
theorem isValid_of_mem_retire {r : FlashRecord} (h : r ∈ retire id rs) (hid : r.id = id) :
    r.isValid = false := by
  obtain ⟨old, -, rfl⟩ := List.mem_map.1 h
  by_cases hcopy : isCopy id old = true
  · rw [clearedIf_of_pos hcopy]
    rw [isCopy, Bool.and_eq_true] at hcopy
    exact isValid_cleared hcopy.1
  · rw [clearedIf_of_neg hcopy] at hid ⊢
    rw [isCopy, Bool.and_eq_true, decide_eq_true_eq] at hcopy
    exact Bool.eq_false_iff.2 fun hvalid => hcopy ⟨hvalid, hid⟩

/-- The records of other variables are as before. -/
theorem filter_retire_of_ne (h : other ≠ id) :
    (retire id rs).filter (·.id = other) = rs.filter (·.id = other) := by
  unfold retire
  induction rs with
  | nil => rfl
  | cons r rs ih =>
    rw [List.map_cons, List.filter_cons, List.filter_cons, clearedIf_id, ih]
    by_cases hr : r.id = other
    · have hcopy : ¬ isCopy id r = true := by
        rw [isCopy, Bool.and_eq_true, decide_eq_true_eq, hr]
        exact fun hc => h hc.2
      rw [clearedIf_of_neg hcopy]
    · simp [hr]

/-- The current record of a variable is one of its records. -/
theorem mem_of_current?_eq_some {r : FlashRecord} (h : current? rs id = some r) :
    r ∈ rs ∧ r.id = id := by
  have hmem : r ∈ rs.reverse.filter (·.id = id) := by
    simp only [current?] at h
    cases hlive : (rs.reverse.filter (·.id = id)).find? isLive with
    | some live =>
      rw [hlive] at h
      cases h
      exact List.mem_of_find?_eq_some hlive
    | none =>
      rw [hlive] at h
      exact List.mem_of_find?_eq_some h
  obtain ⟨hreverse, hid⟩ := List.mem_filter.1 hmem
  exact ⟨List.mem_reverse.1 hreverse, of_decide_eq_true hid⟩

/-- A new record is the current one of its variable. -/
theorem current?_append_ofWrite (offset : Nat) (a : Attributes) (t : Timestamp) (data : Bytes) :
    current? (rs ++ [ofWrite offset id a t data]) id = some (ofWrite offset id a t data) := by
  have hid : (ofWrite offset id a t data).id = id := rfl
  simp [current?, hid, isLive_ofWrite]

/-- Records of one variable do not matter to another. -/
theorem current?_append_of_ne {r : FlashRecord} (h : r.id ≠ other) :
    current? (rs ++ [r]) other = current? rs other := by
  simp [current?, h]

/-- A retired variable has no current record. -/
theorem current?_retire_self : current? (retire id rs) id = none := by
  have hnone : ∀ r ∈ (retire id rs).reverse.filter (·.id = id), r.isValid = false := by
    intro r hr
    obtain ⟨hmem, hid⟩ := List.mem_filter.1 hr
    exact isValid_of_mem_retire (List.mem_reverse.1 hmem) (of_decide_eq_true hid)
  have hlive : ∀ r ∈ (retire id rs).reverse.filter (·.id = id), r.isLive = false := by
    intro r hr
    exact (Bool.or_eq_false_iff.1 (hnone r hr)).1
  have htransition : ∀ r ∈ (retire id rs).reverse.filter (·.id = id),
      r.isInDeletedTransition = false := by
    intro r hr
    exact (Bool.or_eq_false_iff.1 (hnone r hr)).2
  rw [current?, List.find?_eq_none.2 (by simpa using hlive),
    List.find?_eq_none.2 (by simpa using htransition)]
  rfl

theorem current?_retire_of_ne (h : other ≠ id) :
    current? (retire id rs) other = current? rs other := by
  unfold current?
  rw [List.filter_reverse, filter_retire_of_ne h, List.filter_reverse]

/-- What a write of a variable does to an earlier record: a valid one of the variable
gets a state in which it is invalid, and any other stays as it is. -/
def Retired (id : VariableId) (before after : FlashRecord) : Prop :=
  if before.isValid = true ∧ before.id = id then
    after.isValid = false ∧ after = { before with state := after.state }
  else after = before

theorem retired_clearedIf (id : VariableId) (r : FlashRecord) :
    Retired id r (clearedIf (isCopy id) r) := by
  have hcopy : isCopy id r = true ↔ r.isValid = true ∧ r.id = id := by
    rw [isCopy, Bool.and_eq_true, decide_eq_true_eq]
  unfold Retired
  by_cases h : isCopy id r = true
  · rw [if_pos (hcopy.1 h), clearedIf_of_pos h]
    exact ⟨isValid_cleared (hcopy.1 h).1, rfl⟩
  · rw [if_neg (fun hc => h (hcopy.2 hc)), clearedIf_of_neg h]

theorem retired_retire (id : VariableId) (rs : List FlashRecord) :
    List.Forall₂ (Retired id) rs (retire id rs) := by
  rw [retire, List.forall₂_map_right_iff, List.forall₂_same]
  intro r _
  exact retired_clearedIf id r

end FlashRecord

/-! ## Stores and their logs -/

namespace FlashStore

variable {s s' : FlashStore} {rs rs' : List FlashRecord} {tail : Bytes}

/-- Where the records of a store begin. -/
def start (s : FlashStore) : Nat := s.offset + headerSize

/-- The bytes of a store behind its header. -/
def region (s : FlashStore) : Bytes := s.image.slice s.start (s.size - headerSize)

/-- The store has these records and this free space. -/
def Holds (s : FlashStore) (rs : List FlashRecord) (tail : Bytes) : Prop :=
  FlashLog s.start s.region rs tail

/-- The walk of the store succeeds, and the space that it finds free is erased. -/
def IsClean (s : FlashStore) : Prop :=
  ∃ layout, s.walk = .ok layout ∧
    ∀ b ∈ s.image.slice (s.finish - layout.free) layout.free, b = erased

theorem length_region (s : FlashStore) : s.region.length = s.size - headerSize := by
  have hle := s.header_le
  have hfinish := s.finish_le
  rw [region, Bytes.length_slice, start]
  unfold headerSize
  omega

/-- The image of a store around its records. -/
theorem exists_image_eq (s : FlashStore) :
    ∃ before after, before.length = s.start ∧ s.image = before ++ s.region ++ after := by
  have hle := s.header_le
  have hfinish := s.finish_le
  refine ⟨s.image.take s.start, s.image.drop (s.start + (s.size - headerSize)), ?_, ?_⟩
  · rw [List.length_take, start]
    unfold headerSize
    omega
  · rw [region, Bytes.take_append_slice, List.take_append_drop]

/-- An image of the same layout has what stands between its outer parts as region. -/
theorem region_eq {before region after : Bytes} (himage : s.image = before ++ region ++ after)
    (hbefore : before.length = s.start) (hregion : region.length = s.size - headerSize) :
    s.region = region := by
  rw [FlashStore.region, himage, ← hbefore, ← hregion, List.append_assoc,
    Bytes.slice_append_right (Nat.le_refl _), Nat.sub_self, Bytes.slice_append_self]

theorem finish_eq (s : FlashStore) : s.finish = s.start + s.region.length := by
  have hle := s.header_le
  rw [length_region, finish, start]
  unfold headerSize
  omega

theorem walk_eq_ok {layout : FlashLayout} :
    s.walk = .ok layout ↔ ∃ tail, s.Holds layout.records tail ∧ tail.length = layout.free :=
  walkFrom_eq_ok

theorem Holds.walk_eq (h : s.Holds rs tail) : s.walk = .ok ⟨rs, tail.length⟩ :=
  walk_eq_ok.2 ⟨tail, h, rfl⟩

theorem Holds.length_tail_le (h : s.Holds rs tail) : tail.length ≤ s.size := by
  obtain ⟨used, hused, -⟩ := h.exists_used
  have hlen := s.length_region
  rw [hused, List.length_append] at hlen
  omega

/-- What fits into the free space has a size that fits its field. -/
theorem Holds.lt_size_of_le (h : s.Holds rs tail) {size : Nat} (hroom : size ≤ tail.length) :
    size < UInt32.size := by
  have hfree := h.length_tail_le
  have hsize := s.size_lt
  omega

/-- The image of a store around its free space. -/
theorem exists_image_eq_free {used : Bytes} (hused : s.region = used ++ tail) :
    ∃ before after, before.length = s.start ∧
      s.finish - tail.length = (before ++ used).length ∧
      s.image = (before ++ used) ++ (tail ++ after) := by
  obtain ⟨before, after, hbefore, himage⟩ := s.exists_image_eq
  refine ⟨before, after, hbefore, ?_, ?_⟩
  · rw [finish_eq, hused, List.length_append, List.length_append, hbefore]
    omega
  · rw [himage, hused]
    simp only [List.append_assoc]

/-- The bytes of the free space in the image. -/
theorem Holds.slice_free (h : s.Holds rs tail) :
    s.image.slice (s.finish - tail.length) tail.length = tail := by
  obtain ⟨used, hused, -⟩ := h.exists_used
  obtain ⟨before, after, -, hfront, himage⟩ := exists_image_eq_free hused
  rw [hfront, himage, Bytes.slice_append_right (Nat.le_refl _), Nat.sub_self,
    Bytes.slice_append_self]

/-- A clean store holds records and erased flash. -/
theorem isClean_iff :
    s.IsClean ↔ ∃ rs tail, s.Holds rs tail ∧ ∀ b ∈ tail, b = erased := by
  constructor
  · rintro ⟨⟨rs, free⟩, hwalk, herased⟩
    obtain ⟨tail, hholds, rfl⟩ := walk_eq_ok.1 hwalk
    rw [hholds.slice_free] at herased
    exact ⟨rs, tail, hholds, herased⟩
  · rintro ⟨rs, tail, hholds, herased⟩
    refine ⟨⟨rs, tail.length⟩, hholds.walk_eq, ?_⟩
    rw [hholds.slice_free]
    exact herased

/-- The free space of a clean store is erased. -/
theorem IsClean.erased_of_holds (hclean : s.IsClean) (h : s.Holds rs tail) :
    ∀ b ∈ tail, b = erased := by
  obtain ⟨layout, hwalk, herased⟩ := hclean
  rw [h.walk_eq] at hwalk
  cases hwalk
  rwa [h.slice_free] at herased

/-- A blank store has no records, and its space is erased. -/
theorem holds_of_blank {size : Nat} (h : blank size = .ok s) :
    s.Holds [] (List.replicate (size - headerSize) erased) := by
  unfold blank at h
  split at h
  · cases h
    rw [Holds, region_eq (List.append_nil _).symm (by simp [header, start, headerSize])
      List.length_replicate]
    exact .of_erased fun b hb => List.eq_of_mem_replicate hb
  · cases h

/-- A blank store is clean. -/
theorem isClean_of_blank {size : Nat} (h : blank size = .ok s) : s.IsClean :=
  isClean_iff.2 ⟨_, _, holds_of_blank h, fun _ hb => List.eq_of_mem_replicate hb⟩

theorem Holds.records_eq (h : s.Holds rs tail) : s.records = .ok rs := by
  rw [records, h.walk_eq]
  rfl

theorem Holds.freeSpace_eq (h : s.Holds rs tail) : s.freeSpace = .ok tail.length := by
  rw [freeSpace, h.walk_eq]
  rfl

theorem Holds.find?_eq (h : s.Holds rs tail) (id : VariableId) :
    s.find? id = .ok (current? rs id) := by
  rw [find?, h.records_eq]
  rfl

/-! ## Changes -/

/-- To delete records is to clear their states. -/
theorem Holds.deleteRecords (p : FlashRecord → Bool) (h : s.Holds (rs ++ rs') tail) :
    (s.deleteRecords (rs.filter p)).Holds
      (rs.map (clearedIf p) ++ rs') tail := by
  obtain ⟨before, after, hbefore, himage⟩ := s.exists_image_eq
  obtain ⟨region, hregion, hlog, hclear⟩ := FlashLog.exists_cleared p h
  have himage' : (s.deleteRecords (rs.filter p)).image = before ++ region ++ after := by
    show clearStates s.image _ = _
    rw [himage, hclear before after hbefore]
  rw [Holds, region_eq himage' hbefore (hregion.trans s.length_region)]
  exact hlog

/-- Bytes that fit behind the offset are put in place of as many. -/
theorem overwrite_append {front back new : Bytes} (h : new.length ≤ back.length) :
    overwrite (front ++ back) front.length new = front ++ (new ++ back.drop new.length) := by
  have hroom : new.length ≤ (front ++ back).length - front.length := by
    rw [List.length_append]
    omega
  rw [overwrite, List.take_left, List.take_of_length_le hroom, ← List.drop_drop, List.drop_left,
    List.append_assoc]

/-- The image with a part of the free space written over. -/
theorem exists_image_patch {used new : Bytes} (hused : s.region = used ++ tail)
    (hroom : new.length ≤ tail.length) :
    ∃ before after, before.length = s.start ∧
      s.finish - tail.length = (before ++ used).length ∧
      (s.patch (s.finish - tail.length) new).image =
        before ++ (used ++ (new ++ tail.drop new.length)) ++ after := by
  obtain ⟨before, after, hbefore, hfront, himage⟩ := exists_image_eq_free hused
  have hback : new.length ≤ (tail ++ after).length := by
    rw [List.length_append]
    omega
  refine ⟨before, after, hbefore, hfront, ?_⟩
  show overwrite s.image _ _ = _
  rw [hfront, himage, overwrite_append hback, List.drop_append_of_le_length hroom]
  simp only [List.append_assoc]

/-- The region is as long with a part of its free space written over. -/
theorem length_patched {used used' new : Bytes} (hused : s.region = used ++ tail)
    (hlength : used'.length = used.length) (hroom : new.length ≤ tail.length) :
    (used' ++ (new ++ tail.drop new.length)).length = s.size - headerSize := by
  rw [← length_region, hused]
  simp only [List.length_append, List.length_drop]
  omega

variable {id : VariableId} {a : Attributes} {t : Timestamp} {data : Bytes}

/-- To put a record in front of the free space is to append it. -/
theorem Holds.patch (h : s.Holds rs tail) (hname : '\x00' ∉ id.name.toList)
    (herased : ∀ b ∈ tail, b = erased) (hroom : (encode id a t data).length ≤ tail.length) :
    (s.patch (s.finish - tail.length) (encode id a t data)).Holds
      (rs ++ [ofWrite (s.finish - tail.length) id a t data])
      (tail.drop (align (encode id a t data).length)) := by
  have hfits := h.lt_size_of_le hroom
  obtain ⟨used, hused, hlog⟩ := FlashLog.append h hname hfits herased hroom
  obtain ⟨before, after, hbefore, hfront, himage⟩ := exists_image_patch hused hroom
  have hoffset : s.start + used.length = s.finish - tail.length := by
    rw [hfront, List.length_append, hbefore]
  have hregion := length_patched hused rfl hroom
  rw [Holds, region_eq himage hbefore hregion, ← hoffset]
  exact hlog

/-- What a write leaves: the record behind the others, which are retired. -/
def written (s : FlashStore) (rs : List FlashRecord) (tail : Bytes) (id : VariableId)
    (a : Attributes) (t : Timestamp) (data : Bytes) : FlashStore :=
  (s.patch (s.finish - tail.length) (encode id a t data)).deleteRecords (copies rs id)

/-- **A write succeeds exactly when its record fits.** -/
theorem Holds.write_eq_ok (h : s.Holds rs tail) :
    s.write id a t data = .ok s' ↔
      (encode id a t data).length ≤ tail.length ∧ s' = s.written rs tail id a t data := by
  rw [write, h.walk_eq]
  simp only [ok_bind, guard_eq_ok, pure_eq_ok, Nat.not_lt, written]
  exact and_congr_right fun _ => eq_comm

/-- **A write retires the variable and appends its record.** -/
theorem Holds.written (h : s.Holds rs tail) (hname : '\x00' ∉ id.name.toList)
    (herased : ∀ b ∈ tail, b = erased) (hroom : (encode id a t data).length ≤ tail.length) :
    (s.written rs tail id a t data).Holds
      (retire id rs ++ [ofWrite (s.finish - tail.length) id a t data])
      (tail.drop (align (encode id a t data).length)) :=
  (h.patch hname herased hroom).deleteRecords (isCopy id)

/-- **To delete a variable is to retire it.** -/
theorem Holds.delete_eq_ok (h : s.Holds rs tail) {existed : Bool} :
    s.delete id = .ok (existed, s') ↔
      existed = !(copies rs id).isEmpty ∧ s' = s.deleteRecords (copies rs id) := by
  rw [delete, records, h.walk_eq]
  simp only [Functor.map, Except.map, ok_bind, pure_eq_ok, Prod.mk.injEq]
  exact and_congr eq_comm eq_comm

theorem Holds.deleted (h : s.Holds rs tail) (id : VariableId) :
    (s.deleteRecords (copies rs id)).Holds (retire id rs) tail := by
  rw [← List.append_nil rs] at h
  have hlog := h.deleteRecords (isCopy id)
  rwa [List.append_nil] at hlog

/-! ## The effect of a write -/

/-- The bytes that a record takes for a variable with these data. -/
def recordSize (id : VariableId) (data : Bytes) : Nat :=
  FlashRecord.headerSize + (storedName id).length + data.length

/-- What a write leaves of a store: the earlier records, with the valid ones of the
variable retired, and behind them one live record with what was written. -/
structure Wrote (s s' : FlashStore) (id : VariableId) (a : Attributes) (t : Timestamp)
    (data : Bytes) : Prop where
  isClean : s'.IsClean
  records : ∃ old kept new, s.records = .ok old ∧ s'.records = .ok (kept ++ [new]) ∧
    List.Forall₂ (Retired id) old kept ∧ new.isLive = true ∧ new.id = id ∧ new.attributes = a ∧
    new.timestamp = t ∧ new.data = data ∧ s'.find? id = .ok (some new)
  others : ∀ other, other ≠ id → s'.find? other = s.find? other
  free : ∃ free, s.freeSpace = .ok free ∧
    s'.freeSpace = .ok (free - align (recordSize id data))

/-- What a write leaves of a store that holds records and erased flash. -/
theorem Holds.wrote (h : s.Holds rs tail) (hname : '\x00' ∉ id.name.toList)
    (herased : ∀ b ∈ tail, b = erased) (hroom : (encode id a t data).length ≤ tail.length) :
    Wrote s (s.written rs tail id a t data) id a t data := by
  have h' := h.written (a := a) (t := t) hname herased hroom
  refine ⟨isClean_iff.2 ⟨_, _, h', ?_⟩, ?_, ?_, ?_⟩
  · exact fun b hb => herased b (List.mem_of_mem_drop hb)
  · refine ⟨rs, retire id rs, ofWrite (s.finish - tail.length) id a t data, h.records_eq,
      h'.records_eq, retired_retire id rs, rfl, rfl, rfl, rfl, rfl, ?_⟩
    rw [h'.find?_eq, current?_append_ofWrite]
  · intro other hne
    rw [h'.find?_eq, h.find?_eq, current?_append_of_ne (Ne.symm hne), current?_retire_of_ne hne]
  · refine ⟨tail.length, h.freeSpace_eq, ?_⟩
    rw [h'.freeSpace_eq, List.length_drop, length_encode, recordSize]

/-- **A write retires its variable and appends its record.**  A blank store is clean.
In a clean store a write under a name without a zero character succeeds exactly when
the free space has room for its record.  It then retires the valid records of the
variable, appends the new one, leaves every other variable as it was and the store
clean. -/
theorem write_retires_and_appends :
    (∀ size s, blank size = .ok s → s.IsClean) ∧
      ∀ (s : FlashStore) (id : VariableId) (a : Attributes) (t : Timestamp) (data : Bytes),
        s.IsClean → '\x00' ∉ id.name.toList →
          (∃ free, s.freeSpace = .ok free ∧
            ((∃ s', s.write id a t data = .ok s') ↔ recordSize id data ≤ free)) ∧
          ∀ s', s.write id a t data = .ok s' → Wrote s s' id a t data := by
  refine ⟨fun _ _ => isClean_of_blank, ?_⟩
  intro s id a t data hclean hname
  obtain ⟨rs, tail, h, herased⟩ := isClean_iff.1 hclean
  constructor
  · refine ⟨tail.length, h.freeSpace_eq, ?_⟩
    rw [recordSize, ← length_encode id a t data]
    constructor
    · rintro ⟨s', hwrite⟩
      exact (h.write_eq_ok.1 hwrite).1
    · intro hroom
      exact ⟨_, h.write_eq_ok.2 ⟨hroom, rfl⟩⟩
  · intro s' hwrite
    obtain ⟨hroom, rfl⟩ := h.write_eq_ok.1 hwrite
    exact h.wrote hname herased hroom

/-- A variable of a flash image. -/
def bootOrder : VariableId := ⟨"BootOrder", .globalVariable⟩

theorem blank_takes_two_writes :
    ∃ s s' s'' : FlashStore, blank 256 = .ok s ∧ '\x00' ∉ bootOrder.name.toList ∧
      s.write bootOrder .bootNonVolatile .zero [1] = .ok s' ∧
      s'.write bootOrder .bootNonVolatile .zero [2, 3] = .ok s'' ∧
      Wrote s s' bootOrder .bootNonVolatile .zero [1] ∧
      Wrote s' s'' bootOrder .bootNonVolatile .zero [2, 3] := by
  have hrun : ((blank 256).toOption.bind fun s =>
      (s.write bootOrder .bootNonVolatile .zero [1]).toOption.bind fun s' =>
        (s'.write bootOrder .bootNonVolatile .zero [2, 3]).toOption.map fun _ => ()) =
          some () := by decide +kernel
  obtain ⟨s, hblank, hrun⟩ := Option.bind_eq_some_iff.1 hrun
  obtain ⟨s', hfirst, hrun⟩ := Option.bind_eq_some_iff.1 hrun
  obtain ⟨s'', hsecond, -⟩ := Option.map_eq_some_iff.1 hrun
  have hblank := toOption_eq_some.1 hblank
  have hfirst := toOption_eq_some.1 hfirst
  have hsecond := toOption_eq_some.1 hsecond
  have hname : '\x00' ∉ bootOrder.name.toList := by decide
  obtain ⟨hclean, hwrite⟩ := write_retires_and_appends
  have hwrote := (hwrite s _ _ _ _ (hclean _ _ hblank) hname).2 s' hfirst
  exact ⟨s, s', s'', hblank, hname, hfirst, hsecond, hwrote,
    (hwrite s' _ _ _ _ hwrote.isClean hname).2 s'' hsecond⟩

end FlashStore

end SecureBoot
