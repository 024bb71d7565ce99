import SecureBoot.Proofs.FlashWalk

/-!
# Names in flash

A write puts the units of a name into its record, and every walk reads them again.  A name is any
text, also with characters beyond the basic plane or with zero characters, and the bytes of the
free space that the record is written over may be anything.

* `FlashLog.exists_rewritten` — records in front of changed bytes, whose states are changed too;
* `FlashStore.Holds.walk_written` — the walk after a write comes to the new record, and goes on;
* `FlashStore.names_survive` — what becomes of a name as units, as bytes and as a record.
-/

namespace SecureBoot

open FlashRecord FlashStore

/-! ## Walks over changed bytes -/

namespace FlashStore

/-- Records in front of a layout. -/
def withRecords (rs : List FlashRecord) (layout : FlashLayout) : FlashLayout :=
  { layout with records := rs ++ layout.records }

theorem withRecords_withRecord (rs : List FlashRecord) (r : FlashRecord)
    (result : Except FlashError FlashLayout) :
    (result.map (withRecord r)).map (withRecords rs) = result.map (withRecords (rs ++ [r])) := by
  cases result with
  | error e => rfl
  | ok layout =>
    show Except.ok (withRecords rs (withRecord r layout)) = _
    rw [withRecords, withRecord, List.append_cons]
    rfl

/-- A walk reads a record in its own bytes, and goes on at the place behind it. -/
theorem walkFrom_block {offset : Nat} {block : Bytes} {r : FlashRecord}
    (hstart : isAtStart block = true) (hread : FlashRecord.read offset block = .ok r)
    (rest : Bytes) : walkFrom offset (block ++ rest) =
      (walkFrom (offset + align r.size) ((block ++ rest).drop (align r.size))).map
        (withRecord r) := by
  have hheader : FlashRecord.headerSize ≤ block.length := (isAtStart_eq_true.1 hstart).1
  have hextent : extent block ≤ block.length := (read_eq_ok.1 hread).2.1
  rw [walkFrom, dif_pos (by rw [isAtStart_append hheader, hstart]),
    (read_append hheader hextent).2 hread]
  rfl

end FlashStore

namespace FlashLog

variable {offset : Nat} {bs tail : Bytes} {rs : List FlashRecord}

/-- A walk over the records of a log goes on behind them, whatever is put there. -/
theorem exists_walked (h : FlashLog offset bs rs tail) : ∃ used, bs = used ++ tail ∧ (tail ≠ [] →
    ∀ bs' : Bytes, walkFrom offset (used ++ bs') =
      (walkFrom (offset + used.length) bs').map (withRecords rs)) := by
  induction h with
  | @free offset bs hfree =>
    refine ⟨[], rfl, fun _ bs' => ?_⟩
    show walkFrom offset bs' = (walkFrom offset bs').map (withRecords [])
    cases walkFrom offset bs' <;> rfl
  | @record offset block rest tail r rs hstart hread hlength hlog ih =>
    obtain ⟨used, rfl, hwalk⟩ := ih
    refine ⟨block ++ used, (List.append_assoc ..).symm, fun htail bs' => ?_⟩
    have hlen : block.length = align r.size :=
      length_of_front hlength (List.append_ne_nil_of_right_ne_nil used htail)
    have hdrop : (block ++ (used ++ bs')).drop (align r.size) = used ++ bs' := by
      rw [← hlen, List.drop_left]
    rw [List.append_assoc, walkFrom_block hstart hread, hdrop, hwalk htail, List.length_append,
      hlen, Nat.add_assoc]
    cases walkFrom (offset + (align r.size + used.length)) bs' <;> rfl

/-- **The states of records can be cleared, and other bytes put behind them**: a walk finds the
records with their states cleared, and goes on behind them. -/
theorem exists_rewritten (p : FlashRecord → Bool) (h : FlashLog offset bs rs tail)
    (htail : tail ≠ []) : ∃ used used', bs = used ++ tail ∧ used'.length = used.length ∧
      (∀ before after : Bytes, before.length = offset →
        clearStates (before ++ used ++ after) (rs.filter p) = before ++ used' ++ after) ∧
      ∀ bs' : Bytes, walkFrom offset (used' ++ bs') =
        (walkFrom (offset + used.length) bs').map (withRecords (rs.map (clearedIf p))) := by
  obtain ⟨used, rfl, hreplace⟩ := h.exists_used
  -- the records without anything behind them
  have halone : FlashLog offset used (rs ++ []) [] := by
    have hlog := hreplace htail (.free (by decide : isAtStart [] = false))
    rwa [List.append_nil] at hlog
  obtain ⟨used', hlength, -, hclear⟩ := exists_cleared p halone
  -- and with the free space behind them, over which the walk is known
  rw [← List.append_nil rs] at h
  obtain ⟨bs', -, hlog, hclear'⟩ := exists_cleared p h
  rw [List.append_nil] at hlog
  obtain ⟨used'', rfl, hwalk⟩ := hlog.exists_walked
  have hsame : used'' = used' := by
    have hbefore : (List.replicate offset (0 : UInt8)).length = offset := List.length_replicate
    have hfirst := hclear _ tail hbefore
    have hsecond := hclear' _ [] hbefore
    rw [List.append_nil, List.append_nil, ← List.append_assoc, hfirst, ← List.append_assoc]
      at hsecond
    exact (List.append_cancel_left (List.append_cancel_right hsecond)).symm
  subst hsame
  refine ⟨used, used'', rfl, hlength, hclear, fun bs' => ?_⟩
  rw [hwalk htail, hlength]

end FlashLog

/-! ## The walk after a write -/

namespace FlashStore

variable {s : FlashStore} {rs : List FlashRecord} {tail : Bytes} {id : VariableId}
  {a : Attributes} {t : Timestamp} {data : Bytes}

/-- A written record as a walk reads it: the name ends where there is a zero character. -/
def readRecord (offset : Nat) (id : VariableId) (a : Attributes) (t : Timestamp) (data : Bytes) :
    FlashRecord :=
  { ofWrite offset id a t data with id := storedId id }

/-- A walk reads a new record, and goes on behind it. -/
theorem walkFrom_encode (offset : Nat) (hfits : (encode id a t data).length < UInt32.size)
    (rest : Bytes) : walkFrom offset (encode id a t data ++ rest) =
      (walkFrom (offset + align (encode id a t data).length)
        ((encode id a t data ++ rest).drop (align (encode id a t data).length))).map
          (withRecord (readRecord offset id a t data)) := by
  have hread := read_encode_eq id a t data offset hfits
  have hsize : (readRecord offset id a t data).size = (encode id a t data).length :=
    (length_encode id a t data).symm
  rw [← hsize]
  exact walkFrom_block (isAtStart_encode id a t data) hread rest

/-- What a write puts where: the new record behind the others, whose states it may change. -/
theorem Holds.exists_written (h : s.Holds rs tail)
    (hroom : (encode id a t data).length ≤ tail.length) :
    ∃ front after, front.length = s.finish - tail.length ∧
      (s.written rs tail id a t data).image = front ++ (encode id a t data ++
        tail.drop (encode id a t data).length ++ after) ∧
      (s.written rs tail id a t data).walk = (walkFrom (s.finish - tail.length)
        (encode id a t data ++ tail.drop (encode id a t data).length)).map
          (withRecords (retire id rs)) := by
  have htail : tail ≠ [] := by
    rintro rfl
    rw [length_encode] at hroom
    exact absurd hroom (by simp [FlashRecord.headerSize])
  obtain ⟨used, used', hused, hlength, hclear, hwalk⟩ :=
    FlashLog.exists_rewritten (isCopy id) h htail
  obtain ⟨before, after, hbefore, hfront, hpatched⟩ := exists_image_patch hused hroom
  have himage : (s.written rs tail id a t data).image = before ++
      (used' ++ (encode id a t data ++ tail.drop (encode id a t data).length)) ++ after := by
    show clearStates (s.patch _ _).image (rs.filter (isCopy id)) = _
    have hcleared := hclear before
      (encode id a t data ++ tail.drop (encode id a t data).length ++ after) hbefore
    rw [hpatched]
    simpa only [List.append_assoc] using hcleared
  have hregion := length_patched hused hlength hroom
  refine ⟨before ++ used', after, ?_, ?_, ?_⟩
  · rw [hfront, List.length_append, List.length_append, hlength]
  · simpa only [List.append_assoc] using himage
  · have hplace : s.start + used.length = s.finish - tail.length := by
      rw [hfront, List.length_append, hbefore]
    show walkFrom s.start (s.written rs tail id a t data).region = _
    rw [region_eq himage hbefore hregion, hwalk, hplace]
    rfl

/-- The bytes of the store from some place in its free space on. -/
theorem Holds.rest_free (h : s.Holds rs tail) (n : Nat) :
    s.rest (s.finish - tail.length + n) = tail.drop n := by
  obtain ⟨used, hused, -⟩ := h.exists_used
  obtain ⟨before, after, -, hfront, himage⟩ := exists_image_eq_free hused
  have hfree := h.length_tail_le
  have hsize : s.finish - (s.finish - tail.length + n) = tail.length - n := by
    have hle : s.size ≤ s.finish := Nat.le_add_left ..
    omega
  rw [rest, hsize, hfront, himage, Bytes.slice_append_right (Nat.le_add_right ..),
    Nat.add_sub_cancel_left, Bytes.slice, ← List.drop_take, List.take_left]

/-- **The walk after a write** finds the earlier records, retired, and the new one with the name
that was written, and goes on behind it with what was there before. -/
theorem Holds.walk_written (h : s.Holds rs tail)
    (hroom : (encode id a t data).length ≤ tail.length) :
    (s.written rs tail id a t data).walk =
      (s.walkAt (s.finish - tail.length + align (encode id a t data).length)).map
        (withRecords (retire id rs ++ [readRecord (s.finish - tail.length) id a t data])) := by
  have hbehind : (encode id a t data ++ tail.drop (encode id a t data).length).drop
      (align (encode id a t data).length) = tail.drop (align (encode id a t data).length) := by
    rw [Bytes.drop_append_right (le_align _), List.drop_drop, Nat.add_sub_cancel' (le_align _)]
  obtain ⟨-, -, -, -, hwalk⟩ := h.exists_written (a := a) (t := t) hroom
  rw [hwalk, walkFrom_encode _ (h.lt_size_of_le hroom), withRecords_withRecord, hbehind, walkAt,
    h.rest_free]

/-- In a clean store there is nothing behind the records. -/
theorem Holds.walkAt_free (h : s.Holds rs tail) (hclean : s.IsClean) (n : Nat) :
    s.walkAt (s.finish - tail.length + n) = .ok ⟨[], tail.length - n⟩ := by
  have herased : ∀ b ∈ tail.drop n, b = erased := fun b hb =>
    hclean.erased_of_holds h b (List.mem_of_mem_drop hb)
  rw [walkAt, h.rest_free]
  exact walkFrom_eq_ok.2 ⟨_, .of_erased herased, List.length_drop⟩

/-- The name of a written record in the image. -/
theorem Holds.slice_name (h : s.Holds rs tail) (hroom : (encode id a t data).length ≤ tail.length) :
    (s.written rs tail id a t data).image.slice
      (s.finish - tail.length + FlashRecord.headerSize) (storedName id).length =
        storedName id := by
  obtain ⟨front, after, hfront, himage, -⟩ := h.exists_written (a := a) (t := t) hroom
  have hfits : FlashRecord.headerSize + (storedName id).length ≤ (encode id a t data).length := by
    rw [length_encode]
    exact Nat.le_add_right ..
  rw [himage, ← hfront, Bytes.slice_append_right (Nat.le_add_right ..), Nat.add_sub_cancel_left,
    List.append_assoc, Bytes.slice_append_left hfits, slice_encode_name]

/-! ## Names -/

/-- What a successful write does with the name of its variable, where the walk before it finds
records and free space. -/
structure KeepsName (s s' : FlashStore) (id : VariableId) (a : Attributes) (t : Timestamp)
    (data : Bytes) (old : List FlashRecord) (free : Nat) : Prop where
  /-- Behind the header of the new record stand the units of the name and a zero unit, each with
  its least significant byte first. -/
  bytes : s'.image.slice (s.finish - free + FlashRecord.headerSize) (storedName id).length =
    Text.Utf16.toBytes (Text.Utf16.terminated id.name)
  /-- Every walk that succeeds reads there a record with the name up to its first zero character,
  and with everything else as it was written. -/
  read : ∀ layout, s'.walk = .ok layout → ∃ r ∈ layout.records, r.offset = s.finish - free ∧
    r.isLive = true ∧ r.id.name = Text.Utf16.beforeZero id.name ∧ r.id.guid = id.guid ∧
    r.attributes = a ∧ r.timestamp = t ∧ r.data = data
  /-- The walk finds the earlier records and this one, and fails only by what stands behind it. -/
  walk : s'.walk = (s.walkAt (s.finish - free + align (recordSize id data))).map
    (withRecords (retire id old ++ [readRecord (s.finish - free) id a t data]))
  /-- So it succeeds where there was erased flash. -/
  clean : s.IsClean → s'.walk = .ok ⟨retire id old ++ [readRecord (s.finish - free) id a t data],
    free - align (recordSize id data)⟩

theorem Holds.keepsName (h : s.Holds rs tail)
    (hroom : (encode id a t data).length ≤ tail.length) :
    KeepsName s (s.written rs tail id a t data) id a t data rs tail.length := by
  have hsize : recordSize id data = (encode id a t data).length := (length_encode id a t data).symm
  have hwalk := h.walk_written hroom
  refine ⟨h.slice_name hroom, fun layout hlayout => ?_, by rw [hsize, hwalk], fun hclean => ?_⟩
  · rw [hwalk] at hlayout
    obtain ⟨behind, -, rfl⟩ := exceptMap_eq_ok.1 hlayout
    refine ⟨readRecord (s.finish - tail.length) id a t data, ?_, rfl, rfl, rfl, rfl, rfl, rfl, rfl⟩
    show _ ∈ retire id rs ++ [_] ++ behind.records
    simp
  · rw [hwalk, h.walkAt_free hclean, hsize]
    show Except.ok (withRecords _ _) = _
    rw [withRecords, List.append_nil]

/-- **A name is read as it was written, up to its first zero character.**  So it is as units, with
surrogates for what is beyond the basic plane, and so no two names have the same units.  And so it
is in every flash image: what a write stores of a name is read by every walk. -/
theorem names_survive :
    (∀ name : String,
      Text.Utf16.ofTerminated (Text.Utf16.terminated name) = Text.Utf16.beforeZero name ∧
        ('\x00' ∉ name.toList → Text.Utf16.beforeZero name = name)) ∧
    (∀ name name' : String,
      Text.Utf16.terminated name = Text.Utf16.terminated name' → name = name') ∧
    ∀ (s s' : FlashStore) (id : VariableId) (a : Attributes) (t : Timestamp) (data : Bytes),
      s.write id a t data = .ok s' →
        ∃ old free, s.walk = .ok ⟨old, free⟩ ∧ KeepsName s s' id a t data old free := by
  refine ⟨fun name => ⟨Text.Utf16.ofTerminated_terminated_eq name, Text.Utf16.beforeZero_eq_self⟩,
    fun _ _ => Text.Utf16.terminated_injective, ?_⟩
  intro s s' id a t data hwrite
  obtain ⟨⟨old, free⟩, hwalk, -⟩ := bind_eq_ok.1 hwrite
  obtain ⟨tail, h, rfl⟩ := walk_eq_ok.1 hwalk
  obtain ⟨hroom, rfl⟩ := h.write_eq_ok.1 hwrite
  exact ⟨old, tail.length, hwalk, h.keepsName hroom⟩

/-- A variable whose name starts beyond the basic plane, and has a zero character in it. -/
def keyThenZero : VariableId :=
  ⟨String.ofList [Char.ofNat 0x1f511, 'b', '\x00', 'c'], .globalVariable⟩

/-- The name is stored with all its units, and read up to the zero character. -/
theorem keyThenZero_survives :
    ∃ s s' : FlashStore, blank 256 = .ok s ∧
      s.write keyThenZero .bootNonVolatile .zero [1] = .ok s' ∧
      s'.image.slice 88 12 = [0x3d, 0xd8, 0x11, 0xdd, 0x62, 0, 0, 0, 0x63, 0, 0, 0] ∧
      ∃ layout, s'.walk = .ok layout ∧
        layout.records.map (·.id.name) = [String.ofList [Char.ofNat 0x1f511, 'b']] := by
  have hrun : ((blank 256).toOption.bind fun s =>
      (s.write keyThenZero .bootNonVolatile .zero [1]).toOption.map fun _ => ()) = some () := by
    decide +kernel
  obtain ⟨s, hblank, hrun⟩ := Option.bind_eq_some_iff.1 hrun
  obtain ⟨s', hwrite, -⟩ := Option.map_eq_some_iff.1 hrun
  have hblank := toOption_eq_some.1 hblank
  have hwrite := toOption_eq_some.1 hwrite
  obtain ⟨old, free, hwalk, hkeeps⟩ := names_survive.2.2 s s' _ _ _ _ hwrite
  rw [(holds_of_blank hblank).walk_eq] at hwalk
  cases hwalk
  have hfinish : (blank 256).toOption.map (·.finish) = some 256 := by decide +kernel
  rw [hblank] at hfinish
  have hfinish : s.finish = 256 := Option.some.inj hfinish
  have hbytes := hkeeps.bytes
  rw [List.length_replicate, hfinish] at hbytes
  refine ⟨s, s', hblank, hwrite, hbytes.trans (by decide), _,
    hkeeps.clean (isClean_of_blank hblank), ?_⟩
  show [Text.Utf16.beforeZero keyThenZero.name] = _
  decide

end FlashStore

end SecureBoot
