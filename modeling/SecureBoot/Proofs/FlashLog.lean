import SecureBoot.Proofs.FlashRecords

/-!
# The log of a flash store

A store is a log: records one after the other, and free space behind them.
`FlashLog` relates bytes to the records and the free space in them, and
`FlashStore.walkFrom_eq_ok` shows that the walk finds exactly that.  The changes
of a log are described without walking it again:

* `FlashLog.exists_used` — what stands behind the records can be replaced;
* `FlashLog.exists_cleared` — the states of records can be cleared in place;
* `FlashLog.append` — a record can be put in front of erased free space.
-/

namespace SecureBoot

open FlashRecord FlashStore

/-- The bytes that stand at an offset hold records, and behind them free space.  A
record takes its aligned size, and at the end of the store what is left of it. -/
inductive FlashLog : Nat → Bytes → List FlashRecord → Bytes → Prop
  | free {offset : Nat} {bs : Bytes} : isAtStart bs = false → FlashLog offset bs [] bs
  | record {offset : Nat} {block rest tail : Bytes} {r : FlashRecord} {rs : List FlashRecord} :
      isAtStart block = true → read offset block = .ok r →
      block.length = align r.size ∨ block.length < align r.size ∧ rest = [] →
      FlashLog (offset + align r.size) rest rs tail →
      FlashLog offset (block ++ rest) (r :: rs) tail

theorem FlashStore.le_align (n : Nat) : n ≤ align n := by
  unfold align
  omega

theorem FlashRecord.headerSize_le_size (r : FlashRecord) : FlashRecord.headerSize ≤ r.size := by
  unfold size
  omega

namespace FlashLog

variable {offset : Nat} {bs tail : Bytes} {rs : List FlashRecord}

/-- Where there are no bytes there are no records. -/
theorem eq_nil (h : FlashLog offset [] rs tail) : rs = [] ∧ tail = [] := by
  generalize hbs : ([] : Bytes) = bs at h
  cases h with
  | free => exact ⟨rfl, rfl⟩
  | record hstart =>
    obtain ⟨rfl, -⟩ := List.append_eq_nil_iff.1 hbs.symm
    cases hstart

/-- The bytes of a store without any records are free. -/
theorem eq_free (h : FlashLog offset bs [] tail) : isAtStart bs = false ∧ tail = bs := by
  cases h with
  | free hfree => exact ⟨hfree, rfl⟩

/-- The names of the records in a log have no zero character. -/
theorem zero_not_mem_name (h : FlashLog offset bs rs tail) :
    ∀ r ∈ rs, '\x00' ∉ r.id.name.toList := by
  induction h with
  | free => exact fun r hr => absurd hr List.not_mem_nil
  | record _ hread _ _ ih => exact List.forall_mem_cons.2 ⟨zero_not_mem_of_read hread, ih⟩

/-- The first record, and the log behind it. -/
theorem cons_iff {r : FlashRecord} :
    FlashLog offset bs (r :: rs) tail ↔ isAtStart bs = true ∧ read offset bs = .ok r ∧
      FlashLog (offset + align r.size) (bs.drop (align r.size)) rs tail := by
  constructor
  · intro h
    cases h with
    | @record _ block rest _ _ _ hstart hread hlength hlog =>
      have hlen : FlashRecord.headerSize ≤ block.length := (isAtStart_eq_true.1 hstart).1
      have hfits : extent block ≤ block.length := (read_eq_ok.1 hread).2.1
      have hrest : (block ++ rest).drop (align r.size) = rest := by
        rcases hlength with hlength | ⟨hshort, rfl⟩
        · rw [← hlength, List.drop_left]
        · rw [List.append_nil, List.drop_eq_nil_of_le (Nat.le_of_lt hshort)]
      rw [isAtStart_append hlen, read_append hlen hfits, hrest]
      exact ⟨hstart, hread, hlog⟩
  · rintro ⟨hstart, hread, hlog⟩
    have hsize : r.size = extent bs := size_of_read hread
    have hfits : extent bs ≤ bs.length := (read_eq_ok.1 hread).2.1
    have halign := le_align r.size
    have hheader := headerSize_le_size r
    have hblock : (bs.take (align r.size)).length = min (align r.size) bs.length :=
      List.length_take
    have hlen : FlashRecord.headerSize ≤ (bs.take (align r.size)).length := by omega
    have hcut : bs.take (align r.size) ++ bs.drop (align r.size) = bs := List.take_append_drop _ _
    have hextent : extent (bs.take (align r.size) ++ bs.drop (align r.size)) =
        extent (bs.take (align r.size)) := extent_append hlen
    rw [hcut] at hextent
    rw [← hcut] at hstart hread ⊢
    rw [isAtStart_append hlen] at hstart
    rw [read_append hlen (by omega)] at hread
    refine record hstart hread ?_ hlog
    by_cases hlt : bs.length < align r.size
    · exact .inr ⟨by omega, List.drop_eq_nil_of_le (Nat.le_of_lt hlt)⟩
    · exact .inl (by omega)

end FlashLog

/-! ## The walk -/

namespace FlashStore

variable {offset free : Nat} {bs : Bytes} {r : FlashRecord} {rs : List FlashRecord}

theorem walkFrom_nil_iff :
    walkFrom offset bs = .ok ⟨[], free⟩ ↔ isAtStart bs = false ∧ bs.length = free := by
  rw [walkFrom]
  by_cases hstart : isAtStart bs = true
  · rw [dif_pos hstart, hstart]
    cases read offset bs with
    | error e => simp
    | ok r => simp [exceptMap_eq_ok]
  · rw [dif_neg hstart, Bool.eq_false_iff.2 hstart]
    simp

theorem walkFrom_cons_iff :
    walkFrom offset bs = .ok ⟨r :: rs, free⟩ ↔ isAtStart bs = true ∧ read offset bs = .ok r ∧
      walkFrom (offset + align r.size) (bs.drop (align r.size)) = .ok ⟨rs, free⟩ := by
  rw [walkFrom]
  by_cases hstart : isAtStart bs = true
  · rw [dif_pos hstart, and_iff_right hstart]
    cases read offset bs with
    | error e => simp
    | ok r' =>
      simp only [exceptMap_eq_ok]
      constructor
      · rintro ⟨after, hrest, hafter⟩
        cases hafter
        exact ⟨rfl, hrest⟩
      · rintro ⟨hr, hrest⟩
        cases hr
        exact ⟨⟨rs, free⟩, hrest, rfl⟩
  · rw [dif_neg hstart, Bool.eq_false_iff.2 hstart]
    simp

/-- **The walk finds the records of the log and its free space.** -/
theorem walkFrom_eq_ok {layout : FlashLayout} :
    walkFrom offset bs = .ok layout ↔
      ∃ tail, FlashLog offset bs layout.records tail ∧ tail.length = layout.free := by
  obtain ⟨records, free⟩ := layout
  induction records generalizing offset bs with
  | nil =>
    rw [walkFrom_nil_iff]
    constructor
    · rintro ⟨hfree, hlen⟩
      exact ⟨bs, .free hfree, hlen⟩
    · rintro ⟨tail, hlog, hlen⟩
      obtain ⟨hfree, rfl⟩ := hlog.eq_free
      exact ⟨hfree, hlen⟩
  | cons r rs ih =>
    rw [walkFrom_cons_iff, ih]
    simp only [FlashLog.cons_iff]
    constructor
    · rintro ⟨hstart, hread, tail, hlog, hlen⟩
      exact ⟨tail, ⟨hstart, hread, hlog⟩, hlen⟩
    · rintro ⟨tail, ⟨hstart, hread, hlog⟩, hlen⟩
      exact ⟨hstart, hread, tail, hlog, hlen⟩

end FlashStore

/-! ## Changes of a log -/

namespace FlashLog

variable {offset : Nat} {bs tail : Bytes} {rs rs' : List FlashRecord}

/-- A record with anything behind it takes its aligned size. -/
theorem length_of_front {block rest : Bytes} {n : Nat}
    (h : block.length = align n ∨ block.length < align n ∧ rest = []) (hrest : rest ≠ []) :
    block.length = align n :=
  h.resolve_right fun hlast => hrest hlast.2

/-- The free space stands behind the records, and unless there is none, another log
can stand in its place. -/
theorem exists_used (h : FlashLog offset bs rs tail) :
    ∃ used, bs = used ++ tail ∧ (tail ≠ [] →
      ∀ {bs' rest : Bytes} {rs' : List FlashRecord}, FlashLog (offset + used.length) bs' rs' rest →
        FlashLog offset (used ++ bs') (rs ++ rs') rest) := by
  induction h with
  | free hfree =>
    refine ⟨[], rfl, fun _ _ _ _ hlog => ?_⟩
    exact hlog
  | @record offset block rest tail r rs hstart hread hlength hlog ih =>
    obtain ⟨used, rfl, hreplace⟩ := ih
    refine ⟨block ++ used, (List.append_assoc ..).symm, fun htail bs' rest rs' hlog' => ?_⟩
    have hlen : block.length = align r.size :=
      length_of_front hlength (List.append_ne_nil_of_right_ne_nil used htail)
    rw [List.length_append, hlen, ← Nat.add_assoc] at hlog'
    rw [List.append_assoc]
    exact record hstart hread (.inl hlen) (hreplace htail hlog')

theorem modify_between (before block after : Bytes) {i : Nat} (f : UInt8 → UInt8)
    (h : i < block.length) :
    (before ++ block ++ after).modify (before.length + i) f =
      before ++ block.modify i f ++ after := by
  induction before with
  | nil =>
    have hi : i ≤ block.length := Nat.le_of_lt h
    simp only [List.nil_append, List.length_nil, Nat.zero_add]
    rw [List.modify_eq_take_drop, List.modify_eq_take_drop, List.take_append_of_le_length hi,
      List.drop_append_of_le_length hi, List.drop_eq_getElem_cons h, List.append_assoc]
    rfl
  | cons b before ih =>
    rw [List.length_cons, Nat.add_right_comm, List.cons_append, List.cons_append,
      List.modify_succ_cons, ih]
    rfl

/-- The state of the first record can be cleared in its own bytes. -/
theorem exists_cleared_block {block : Bytes} {r : FlashRecord} (p : FlashRecord → Bool)
    (hstart : isAtStart block = true) (hread : read offset block = .ok r) :
    ∃ block', block'.length = block.length ∧ isAtStart block' = true ∧
      read offset block' = .ok (clearedIf p r) ∧
      ∀ (rs : List FlashRecord) (before after : Bytes), before.length = offset →
        clearStates (before ++ block ++ after) ((r :: rs).filter p) =
          clearStates (before ++ block' ++ after) (rs.filter p) := by
  by_cases hp : p r = true
  · have hlen := (isAtStart_eq_true.1 hstart).1
    refine ⟨block.modify stateOffset (· &&& deleted), List.length_modify .., ?_, ?_, ?_⟩
    · rw [isAtStart_modify, hstart]
    · rw [clearedIf_of_pos hp]
      exact read_modify _ hlen hread
    · intro rs before after hbefore
      have hstate : r.offset + stateOffset = before.length + stateOffset := by
        rw [offset_of_read hread, hbefore]
      rw [List.filter_cons_of_pos hp, ← modify_between before block after _
        (Nat.lt_of_lt_of_le (by decide) hlen), ← hstate]
      rfl
  · refine ⟨block, rfl, hstart, ?_, ?_⟩
    · rw [clearedIf_of_neg hp]
      exact hread
    · intro rs before after _
      rw [List.filter_cons_of_neg hp]

/-- **Clearing the states of records changes nothing else in a log.**  Here `rs` are
the records to choose from, and the log stands between other bytes of an image. -/
theorem exists_cleared (p : FlashRecord → Bool) (h : FlashLog offset bs (rs ++ rs') tail) :
    ∃ bs', bs'.length = bs.length ∧
      FlashLog offset bs' (rs.map (clearedIf p) ++ rs') tail ∧
      ∀ before after : Bytes, before.length = offset →
        clearStates (before ++ bs ++ after) (rs.filter p) = before ++ bs' ++ after := by
  induction rs generalizing offset bs with
  | nil => exact ⟨bs, rfl, h, fun _ _ _ => rfl⟩
  | cons r rs ih =>
    rw [List.cons_append] at h
    cases h with
    | @record _ block rest _ _ _ hstart hread hlength hlog =>
      obtain ⟨block', hlen', hstart', hread', hfirst⟩ := exists_cleared_block p hstart hread
      obtain ⟨rest', hrest', hlog', hothers⟩ := ih hlog
      refine ⟨block' ++ rest', by rw [List.length_append, List.length_append, hlen', hrest'],
        ?_, ?_⟩
      · rw [List.map_cons, List.cons_append]
        refine record hstart' hread' ?_ (by rw [clearedIf_size]; exact hlog')
        rw [clearedIf_size, hlen']
        rcases hlength with hlen | ⟨hshort, rfl⟩
        · exact .inl hlen
        · exact .inr ⟨hshort, List.length_eq_zero_iff.1 hrest'⟩
      · intro before after hbefore
        have hstep := hfirst rs before (rest ++ after) hbefore
        simp only [List.append_assoc] at hstep ⊢
        rw [hstep]
        rcases hlength with hlen | ⟨-, rfl⟩
        · have hblock' : (before ++ block').length = offset + align r.size := by
            rw [List.length_append, hbefore, hlen', hlen]
          have hrest := hothers (before ++ block') after hblock'
          simpa only [List.append_assoc] using hrest
        · -- a record that ends with the store is the last one
          obtain ⟨hnil, -⟩ := hlog.eq_nil
          obtain ⟨rfl, -⟩ := List.append_eq_nil_iff.1 hnil
          rw [List.length_eq_zero_iff.1 hrest']
          rfl

/-! ## New records -/

/-- Erased flash is free space. -/
theorem of_erased (h : ∀ b ∈ bs, b = erased) : FlashLog offset bs [] bs := by
  refine free (Bool.eq_false_iff.2 fun hstart => ?_)
  obtain ⟨hlen, hmarker⟩ := isAtStart_eq_true.1 hstart
  rcases bs with _ | ⟨a, _ | ⟨b, rest⟩⟩
  · cases hlen
  · exact absurd hlen (by simp [FlashRecord.headerSize])
  · have ha : a = erased := h a (by simp)
    have hb : b = erased := h b (by simp)
    rw [ha, hb] at hmarker
    exact absurd hmarker (by simp [Bytes.wordAt16, Bytes.slice, Bytes.toNatLE, erased, marker])

variable {id : VariableId} {a : Attributes} {t : Timestamp} {data : Bytes}

/-- A record in front of erased flash, which loses the bytes that align it. -/
theorem of_encode (hname : '\x00' ∉ id.name.toList)
    (hfits : (encode id a t data).length < UInt32.size) (herased : ∀ b ∈ tail, b = erased) :
    FlashLog offset (encode id a t data ++ tail) [ofWrite offset id a t data]
      (tail.drop (align (encode id a t data).length - (encode id a t data).length)) := by
  have hread := read_encode id a t data offset hname hfits
  have hstart := isAtStart_encode id a t data
  have hlen := (isAtStart_eq_true.1 hstart).1
  have hextent := (read_eq_ok.1 hread).2.1
  have hsize : (ofWrite offset id a t data).size = (encode id a t data).length :=
    (length_encode id a t data).symm
  refine cons_iff.2 ⟨?_, ?_, ?_⟩
  · rw [isAtStart_append hlen]
    exact hstart
  · exact (read_append hlen hextent).2 hread
  · rw [hsize, Bytes.drop_append_right (le_align _)]
    exact of_erased fun b hb => herased b (List.mem_of_mem_drop hb)

/-- **A record is appended in front of the free space.** -/
theorem append (h : FlashLog offset bs rs tail) (hname : '\x00' ∉ id.name.toList)
    (hfits : (encode id a t data).length < UInt32.size) (herased : ∀ b ∈ tail, b = erased)
    (hroom : (encode id a t data).length ≤ tail.length) :
    ∃ used, bs = used ++ tail ∧
      FlashLog offset (used ++ (encode id a t data ++ tail.drop (encode id a t data).length))
        (rs ++ [ofWrite (offset + used.length) id a t data])
        (tail.drop (align (encode id a t data).length)) := by
  obtain ⟨used, hused, hreplace⟩ := h.exists_used
  have htail : tail ≠ [] := by
    rintro rfl
    rw [length_encode] at hroom
    exact absurd hroom (by simp [FlashRecord.headerSize])
  refine ⟨used, hused, hreplace htail ?_⟩
  have hrest : ∀ b ∈ tail.drop (encode id a t data).length, b = erased :=
    fun b hb => herased b (List.mem_of_mem_drop hb)
  have hlog : FlashLog (offset + used.length) _ [ofWrite _ id a t data] _ :=
    of_encode hname hfits hrest
  rwa [List.drop_drop, Nat.add_sub_cancel' (le_align _)] at hlog

end FlashLog

end SecureBoot
