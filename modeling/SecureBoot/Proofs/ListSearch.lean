import SecureBoot.Proofs.SignatureLists

/-!
# The search for lists, list by list

A buffer is searched for one list after the other.  The search keeps the offset of the next list,
and whether there was none at it.  Whatever the bytes are, it ends, and what it did not read of
them is a fault of its own and no end.

* `ListView.read_eq_error` — the faults of bytes that do not start with a list;
* `ListSearch.Reached.next` — what one step finds;
* `ListSearch.exists_yields` — the search ends, with what `scan` finds;
* `ListSearch.search_found` — what it has found at any time.
-/

namespace SecureBoot

/-! ## Where no list starts -/

namespace ListView

/-- The size that a header at the start of bytes declares. -/
def declaredSize (bs : Bytes) : Nat := (ListHeader.ofBytes bs).listSize.toNat

/-- Why the bytes at an offset do not start with a list: there is no room for a header, or the
declared size has none, or it is more than there is. -/
inductive Fault (offset : Nat) (bs : Bytes) : ListError → Prop
  | short : bs.length < ListHeader.size → Fault offset bs (.truncatedHeader offset bs.length)
  | small : ListHeader.size ≤ bs.length → declaredSize bs < ListHeader.size →
      Fault offset bs (.listTooSmall offset (declaredSize bs))
  | long : ListHeader.size ≤ declaredSize bs → ListHeader.size ≤ bs.length →
      bs.length < declaredSize bs → Fault offset bs (.truncated offset (declaredSize bs) bs.length)

variable {offset : Nat} {bs : Bytes} {e : ListError}

/-- **Bytes are refused for a fault that they have.** -/
theorem fault_of_read (h : read offset bs = .error e) : Fault offset bs e := by
  have hheader : (bs.take ListHeader.size).length < ListHeader.size ↔
      bs.length < ListHeader.size := by
    rw [List.length_take]
    omega
  unfold read ListHeader.read at h
  by_cases hshort : bs.length < ListHeader.size
  · rw [if_pos (hheader.2 hshort)] at h
    cases h
    exact .short hshort
  · rw [if_neg (mt hheader.1 hshort), ok_bind] at h
    change (if declaredSize bs < ListHeader.size then _ else _) = _ at h
    by_cases hsmall : declaredSize bs < ListHeader.size
    · rw [if_pos hsmall] at h
      cases h
      exact .small (Nat.not_lt.1 hshort) hsmall
    · rw [if_neg hsmall] at h
      split at h
      · cases h
      · rename_i hlong
        cases h
        refine .long (Nat.not_lt.1 hsmall) (Nat.not_lt.1 hshort) (Nat.lt_of_not_le fun hle => ?_)
        exact hlong ⟨Nat.not_lt.1 hsmall, List.length_take_of_le hle⟩

end ListView

/-! ## Steps -/

/-- A search of a buffer for lists: where it is, and whether there was no list. -/
structure ListSearch where
  buffer : Bytes
  offset : Nat
  failed : Bool

namespace ListSearch

/-- The search that has not read anything. -/
def start (bs : Bytes) : ListSearch := ⟨bs, 0, false⟩

/-- The number of bytes that are not read. -/
def remaining (s : ListSearch) : Nat := s.buffer.length - s.offset

/-- The next list or fault, and the search behind it. -/
def next? (s : ListSearch) : Option (Except ListError ListView × ListSearch) :=
  if s.failed || s.buffer.length ≤ s.offset then none
  else
    match ListView.read s.offset (s.buffer.drop s.offset) with
    | .ok l => some (.ok l, { s with offset := s.offset + l.size })
    | .error e => some (.error e, { s with failed := true })

/-- What some steps of a search have given, and the search behind them. -/
inductive Yields (bs : Bytes) : List (Except ListError ListView) → ListSearch → Prop
  | start : Yields bs [] (start bs)
  | next {xs s x s'} : Yields bs xs s → s.next? = some (x, s') → Yields bs (xs ++ [x]) s'

/-- Lists, and behind them a fault if there is one. -/
def items (ls : List ListView) (fault : Option ListError) : List (Except ListError ListView) :=
  ls.map .ok ++ fault.toList.map .error

/-- The size of lists back to back. -/
def totalSize (ls : List ListView) : Nat := (ls.flatMap (·.bytes)).length

theorem totalSize_concat (ls : List ListView) (l : ListView) :
    totalSize (ls ++ [l]) = totalSize ls + l.size := by
  rw [totalSize, List.flatMap_append, List.length_append, List.flatMap_singleton]
  rfl

/-- Every list has a header. -/
theorem mul_length_le_totalSize (ls : List ListView) :
    ListHeader.size * ls.length ≤ totalSize ls := by
  induction ls with
  | nil => exact Nat.le_refl 0
  | cons l ls ih =>
    have hsize := l.size_le
    rw [totalSize, List.flatMap_cons, List.length_append, List.length_cons, Nat.mul_succ]
    rw [totalSize] at ih
    omega

variable {bs : Bytes} {s s' : ListSearch} {x : Except ListError ListView}
  {xs : List (Except ListError ListView)} {ls : List ListView} {fault : Option ListError}

/-! ## What a search has read -/

/-- A search has read lists from the start of a buffer, and stands behind them.  It has failed where
the rest has a fault. -/
structure Reached (bs : Bytes) (ls : List ListView) (fault : Option ListError) (s : ListSearch) :
    Prop where
  state : s = ⟨bs, totalSize ls, fault.isSome⟩
  consecutive : Consecutive 0 ls
  front : ∃ rest, bs = ls.flatMap (·.bytes) ++ rest
  stopped : ∀ e ∈ fault, totalSize ls < bs.length ∧
    ListView.Fault (totalSize ls) (bs.drop (totalSize ls)) e

theorem reached_start (bs : Bytes) : Reached bs [] none (start bs) :=
  ⟨rfl, trivial, ⟨bs, rfl⟩, fun _ he => absurd he (Option.not_mem_none _)⟩

namespace Reached

variable (h : Reached bs ls fault s)
include h

theorem totalSize_le : totalSize ls ≤ bs.length := by
  obtain ⟨rest, hrest⟩ := h.front
  rw [hrest, List.length_append, totalSize]
  exact Nat.le_add_right ..

/-- **What one step finds**: the list that starts where the others end, or the fault of the bytes
there.  There is no step behind a fault. -/
theorem next (hnext : s.next? = some (x, s')) : fault = none ∧
    ((∃ l, x = .ok l ∧ Reached bs (ls ++ [l]) none s') ∨
      ∃ e, x = .error e ∧ Reached bs ls (some e) s') := by
  obtain ⟨rfl, hconsecutive, ⟨rest, rfl⟩, -⟩ := h
  unfold next? at hnext
  split at hnext
  · cases hnext
  · rename_i hmore
    rw [Bool.or_eq_true, not_or, decide_eq_true_eq, Nat.not_le] at hmore
    have hnone : fault = none := Option.not_isSome_iff_eq_none.1 hmore.1
    subst hnone
    have hdrop : (ls.flatMap (·.bytes) ++ rest).drop (totalSize ls) = rest := List.drop_left
    refine ⟨rfl, ?_⟩
    simp only [hdrop] at hnext
    split at hnext
    · rename_i l hread
      cases hnext
      obtain ⟨hoffset, hsize, behind, rfl⟩ := ListView.read_eq_ok.1 hread
      refine .inl ⟨l, rfl, ?_, ?_, ⟨behind, ?_⟩, fun _ he => absurd he (Option.not_mem_none _)⟩
      · rw [totalSize_concat]
      · refine Consecutive.append.2 ⟨hconsecutive, ?_, hsize, trivial⟩
        rw [hoffset, Nat.zero_add, totalSize]
      · rw [List.flatMap_append, List.flatMap_singleton, List.append_assoc]
    · rename_i e hread
      cases hnext
      refine .inr ⟨e, rfl, rfl, hconsecutive, ⟨rest, rfl⟩, fun e' he => ?_⟩
      obtain rfl := Option.mem_some_iff.1 he
      rw [hdrop]
      exact ⟨hmore.2, ListView.fault_of_read hread⟩

/-- **There is no further step** exactly behind a fault and at the end of the buffer. -/
theorem next?_eq_none : s.next? = none ↔ fault.isSome = true ∨ totalSize ls = bs.length := by
  have hle := h.totalSize_le
  obtain ⟨rfl, -⟩ := h
  have hend : (fault.isSome || decide (bs.length ≤ totalSize ls)) = true ↔
      fault.isSome = true ∨ totalSize ls = bs.length := by
    rw [Bool.or_eq_true, decide_eq_true_eq]
    exact or_congr_right ⟨fun hge => Nat.le_antisymm hle hge, fun heq => Nat.le_of_eq heq.symm⟩
  rw [← hend, next?]
  show (if (fault.isSome || decide (bs.length ≤ totalSize ls)) = true then _ else _) = _ ↔ _
  split
  · exact iff_of_true rfl ‹_›
  · refine iff_of_false ?_ ‹_›
    split <;> exact Option.some_ne_none _

/-- Each list is the bytes at its offset. -/
theorem slice_of_mem {l : ListView} (hl : l ∈ ls) : l.bytes = bs.slice l.offset l.size := by
  obtain ⟨rest, hrest⟩ := h.front
  obtain ⟨before, after, rfl⟩ := List.append_of_mem hl
  have hoffset : l.offset = (before.flatMap (·.bytes)).length := by
    rw [h.consecutive.offset_eq, Nat.zero_add]
  rw [hrest, List.flatMap_append, List.flatMap_cons, List.append_assoc, List.append_assoc,
    Bytes.slice_append_right (Nat.le_of_eq hoffset.symm), hoffset, Nat.sub_self]
  exact (Bytes.slice_append_self l.bytes _).symm

end Reached

/-- What a search yields is the lists that it has read, and a fault if it has failed. -/
theorem Yields.reached (h : Yields bs xs s) : ∃ ls fault, xs = items ls fault ∧
    Reached bs ls fault s := by
  induction h with
  | start => exact ⟨[], none, rfl, reached_start bs⟩
  | next _ hnext ih =>
    obtain ⟨ls, fault, rfl, hreached⟩ := ih
    obtain ⟨rfl, ⟨l, rfl, hl⟩ | ⟨e, rfl, he⟩⟩ := hreached.next hnext
    · exact ⟨ls ++ [l], none, by simp [items], hl⟩
    · exact ⟨ls, some e, by simp [items], he⟩

/-! ## The end of a search -/

end ListSearch

/-- What was found, as it was found: the lists and then the fault. -/
def Scan.items (s : Scan) : List (Except ListError ListView) :=
  ListSearch.items s.lists s.stoppedBy

namespace ListSearch

variable {bs : Bytes} {xs : List (Except ListError ListView)} {s : ListSearch}

/-- In front of more bytes a search reads on. -/
theorem next?_of_ne {offset : Nat} {rest : Bytes} (hrest : bs.drop offset = rest)
    (hne : ¬rest.isEmpty = true) : (⟨bs, offset, false⟩ : ListSearch).next? =
      match ListView.read offset rest with
      | .ok l => some (.ok l, ⟨bs, offset + l.size, false⟩)
      | .error e => some (.error e, ⟨bs, offset, true⟩) := by
  have hmore : ¬(false || decide (bs.length ≤ offset)) = true := by
    simpa [← hrest] using hne
  rw [next?, if_neg hmore, hrest]

/-- A search that has not failed ends, with what `scanFrom` finds in the rest. -/
theorem exists_yields {offset : Nat} {rest : Bytes} (hrest : bs.drop offset = rest)
    (h : Yields bs xs ⟨bs, offset, false⟩) :
    ∃ s, Yields bs (xs ++ (scanFrom offset rest).items) s ∧ s.next? = none ∧
      s.remaining = (scanFrom offset rest).remaining := by
  induction offset, rest using scanFrom.induct generalizing xs with
  | case1 offset rest hempty =>
    rw [List.isEmpty_iff] at hempty
    subst hempty
    have hend : bs.length ≤ offset := List.drop_eq_nil_iff.1 hrest
    rw [scanFrom_nil]
    refine ⟨_, by simpa [Scan.items, items] using h, ?_, Nat.sub_eq_zero_of_le hend⟩
    exact if_pos (by simpa using hend)
  | case2 offset rest hne e hread =>
    have hnext := next?_of_ne hrest hne
    rw [hread] at hnext
    rw [scanFrom, dif_neg hne, hread]
    refine ⟨_, h.next hnext, rfl, ?_⟩
    show bs.length - offset = rest.length
    rw [← hrest, List.length_drop]
  | case3 offset rest hne l hread ih =>
    have hnext := next?_of_ne hrest hne
    rw [hread] at hnext
    obtain ⟨s, hs, hend, hremaining⟩ := ih (by rw [← hrest, List.drop_drop]) (h.next hnext)
    rw [scanFrom, dif_neg hne, hread]
    refine ⟨s, ?_, hend, hremaining⟩
    rw [List.append_assoc] at hs
    exact hs

/-- What a search has found at some time: lists that follow each other from the start of the buffer,
and a fault of the bytes behind them if it has failed. -/
structure Found (bs : Bytes) (ls : List ListView) (fault : Option ListError) (s : ListSearch) :
    Prop where
  /-- The first list starts at 0 and each other where the one before it ends, and all are as long as
  they declare. -/
  consecutive : Consecutive 0 ls
  /-- Each has a header, and its bytes are those of the buffer at its offset. -/
  slices : ∀ l ∈ ls, ListHeader.size ≤ l.size ∧ l.bytes = bs.slice l.offset l.size
  /-- What remains is what the lists leave of the buffer. -/
  remaining : s.remaining = bs.length - totalSize ls
  fits : totalSize ls ≤ bs.length
  /-- A fault is that of the bytes behind the lists, of which there are some, and it is the last
  that the search yields. -/
  stopped : ∀ e ∈ fault, totalSize ls < bs.length ∧
    ListView.Fault (totalSize ls) (bs.drop (totalSize ls)) e ∧ s.next? = none
  /-- At its end the search has read all bytes, or else has failed. -/
  ended : s.next? = none → (fault.isSome = true ↔ totalSize ls < bs.length)

theorem Reached.found {ls : List ListView} {fault : Option ListError}
    (h : Reached bs ls fault s) : Found bs ls fault s where
  consecutive := h.consecutive
  slices l hl := ⟨l.size_le, h.slice_of_mem hl⟩
  remaining := by rw [h.state]; rfl
  fits := h.totalSize_le
  stopped e he :=
    ⟨(h.stopped e he).1, (h.stopped e he).2, h.next?_eq_none.2 (.inl (Option.isSome_of_mem he))⟩
  ended hend := by
    have hle := h.totalSize_le
    refine ⟨fun hfault => ?_, fun hlt => ?_⟩
    · obtain ⟨e, he⟩ := Option.isSome_iff_exists.1 hfault
      exact (h.stopped e he).1
    · exact (h.next?_eq_none.1 hend).resolve_right (Nat.ne_of_lt hlt)

/-- **A search ends, and is sound at any time.**  In any bytes it yields consecutive lists from the
start on and at most one fault, behind them.  At the end there is a fault exactly where the lists
leave bytes.  What it yields in all is what `scan` finds. -/
theorem search_found (bs : Bytes) :
    (∃ s, Yields bs (scan bs).items s ∧ s.next? = none ∧ s.remaining = (scan bs).remaining) ∧
      ∀ xs s, Yields bs xs s → xs.length ≤ bs.length / ListHeader.size + 1 ∧
        ∃ ls fault, xs = items ls fault ∧ Found bs ls fault s := by
  refine ⟨?_, fun xs s hs => ?_⟩
  · have hstart : Yields bs [] ⟨bs, 0, false⟩ := .start
    obtain ⟨s, hs, hend⟩ := exists_yields List.drop_zero hstart
    rw [List.nil_append] at hs
    exact ⟨s, hs, hend⟩
  · obtain ⟨ls, fault, rfl, hreached⟩ := hs.reached
    refine ⟨?_, ls, fault, rfl, hreached.found⟩
    have hlists : ls.length ≤ bs.length / ListHeader.size :=
      (Nat.le_div_iff_mul_le (by decide)).2 (by
        rw [Nat.mul_comm]
        exact Nat.le_trans (mul_length_le_totalSize ls) hreached.totalSize_le)
    have hfault : fault.toList.length ≤ 1 := by cases fault <;> simp
    rw [items, List.length_append, List.length_map, List.length_map]
    omega

/-- Behind three lists of several kinds one more byte is a fault, and not the end. -/
theorem mixed_search : ∃ ls s, ls.map (·.bytes) = mixedBlocks ∧
    Yields (mixedBlocks.flatten ++ [0]) (items ls (some (.truncatedHeader 172 1))) s ∧
      s.next? = none ∧ s.remaining = 1 := by
  have hencode : mixedLists.mapM SignatureList.encode = .ok mixedBlocks := by rfl
  obtain ⟨views, hconsecutive, hbytes, -, -⟩ := exists_consecutive_of_mapM_encode 0 hencode
  have hflat : views.flatMap (·.bytes) = mixedBlocks.flatten := by
    rw [← hbytes, List.flatMap_def]
  have hlength : mixedBlocks.flatten.length = 172 := by decide +kernel
  have htail : scanFrom (0 + 172) [0] = ⟨[], some (.truncatedHeader 172 1), 1⟩ := by
    rw [scanFrom]
    rfl
  have hscan : scan (mixedBlocks.flatten ++ [0]) =
      ⟨views, some (.truncatedHeader 172 1), 1⟩ := by
    have hfound := scanFrom_flatMap [0] hconsecutive
    rwa [hflat, hlength, htail, List.append_nil] at hfound
  obtain ⟨s, hs, hend, hremaining⟩ := (search_found (mixedBlocks.flatten ++ [0])).1
  rw [hscan] at hs hremaining
  exact ⟨views, s, hbytes, hs, hend, hremaining⟩

end ListSearch

end SecureBoot
