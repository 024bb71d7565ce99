import SecureBoot.Proofs.Enrollments

/-!
# The entries of a database, one by one

Three walks go over a database: the list of all entries, the look-up of one entry and the
search for the first that a predicate holds of.  Each finds the lists on its own and cuts the
entries of a list on its own, and none reports what it leaves out.

* `ListView.Walk` — entries are cut one after the other until the bytes hold none, and
  `ListView.WellFormed.walk_iff` nothing is left of a list of sound geometry;
* `ListView.entryAt` — an entry as the bytes at its place;
* `SignatureDatabase.mem_entries_iff`, `SignatureDatabase.entry_eq_ok` — what the list of all
  entries and the look-up have at a location;
* `SignatureDatabase.find?_eq_some` — the search finds the first location;
* `SignatureDatabase.entries_enumerate` — all of this for every database.
-/

namespace SecureBoot

/-! ## Locations -/

namespace EntryLocation

variable {a b : EntryLocation}

/-- A location is before another: in an earlier list, or earlier in the same. -/
def Before (a b : EntryLocation) : Prop :=
  a.list < b.list ∨ a.list = b.list ∧ a.entry < b.entry

theorem Before.not_before (h : a.Before b) : ¬b.Before a := by
  unfold Before at *
  omega

end EntryLocation

/-! ## Cutting the entries of a list -/

namespace ListView

variable {l : ListView} {entrySize count i : Nat} {bs left : Bytes} {es : List SignatureEntry}

/-- The entry at the start of the bytes that are left, and the bytes behind it, if they hold
one. -/
def nextCut? (entrySize : Nat) (bs : Bytes) : Option (SignatureEntry × Bytes) :=
  if bs.length < entrySize then none
  else some (⟨Guid.ofBytes bs, (bs.take entrySize).drop SignatureEntry.ownerSize⟩,
    bs.drop entrySize)

theorem nextCut?_eq_none : nextCut? entrySize bs = none ↔ bs.length < entrySize := by
  rw [nextCut?, ite_eq_left_iff, Nat.not_lt]
  simp

theorem nextCut?_eq_some {e : SignatureEntry} {rest : Bytes} :
    nextCut? entrySize bs = some (e, rest) ↔ entrySize ≤ bs.length ∧
      e = ⟨Guid.ofBytes bs, (bs.take entrySize).drop SignatureEntry.ownerSize⟩ ∧
      rest = bs.drop entrySize := by
  unfold nextCut?
  by_cases hshort : bs.length < entrySize
  · rw [if_pos hshort]
    exact iff_of_false (by simp) fun h => Nat.not_lt.2 h.1 hshort
  · rw [if_neg hshort, Option.some.injEq, Prod.mk.injEq, and_iff_right (Nat.not_lt.1 hshort),
      eq_comm, eq_comm (b := rest)]

/-- One entry less is left behind an entry. -/
theorem length_drop_entry (h : bs.length = entrySize * (count + 1)) :
    (bs.drop entrySize).length = entrySize * count := by
  rw [List.length_drop, h, Nat.mul_succ, Nat.add_sub_cancel]

/-- Entries are cut one after the other, until the bytes that are left hold none. -/
inductive Walk (entrySize : Nat) : Bytes → List SignatureEntry → Bytes → Prop
  | ends {bs : Bytes} : nextCut? entrySize bs = none → Walk entrySize bs [] bs
  | cuts {bs rest left : Bytes} {e : SignatureEntry} {es : List SignatureEntry} :
    nextCut? entrySize bs = some (e, rest) → Walk entrySize rest es left →
      Walk entrySize bs (e :: es) left

theorem walk_of_length (hpos : 0 < entrySize) (h : bs.length = entrySize * count) :
    Walk entrySize bs (cutEntries entrySize count bs) [] := by
  induction count generalizing bs with
  | zero =>
    rw [List.eq_nil_of_length_eq_zero h]
    exact .ends (nextCut?_eq_none.2 hpos)
  | succ count ih =>
    have hlong : entrySize ≤ bs.length := by
      rw [h, Nat.mul_succ]
      exact Nat.le_add_left ..
    exact .cuts (nextCut?_eq_some.2 ⟨hlong, rfl, rfl⟩) (ih (length_drop_entry h))

theorem eq_of_walk (hpos : 0 < entrySize) (hwalk : Walk entrySize bs es left)
    (h : bs.length = entrySize * count) : es = cutEntries entrySize count bs ∧ left = [] := by
  induction hwalk generalizing count with
  | ends hnone =>
    have hshort := nextCut?_eq_none.1 hnone
    cases count with
    | zero => exact ⟨rfl, List.eq_nil_of_length_eq_zero h⟩
    | succ count =>
      rw [Nat.mul_succ] at h
      omega
  | cuts hnext _ ih =>
    obtain ⟨hlong, rfl, rfl⟩ := nextCut?_eq_some.1 hnext
    cases count with
    | zero =>
      rw [Nat.mul_zero] at h
      omega
    | succ count =>
      obtain ⟨rfl, rfl⟩ := ih (length_drop_entry h)
      exact ⟨rfl, rfl⟩

theorem WellFormed.entrySize_pos (h : l.WellFormed) : 0 < l.entrySize :=
  Nat.lt_of_lt_of_le (by decide) h.owner_le

/-- **The walk over a list of sound geometry cuts all its entries**, and nothing is left. -/
theorem WellFormed.walk_iff (h : l.WellFormed) :
    Walk l.entrySize l.entryRegion es left ↔ es = l.entryList ∧ left = [] := by
  constructor
  · intro hwalk
    exact eq_of_walk h.entrySize_pos hwalk h.mul_eq.symm
  · rintro ⟨rfl, rfl⟩
    exact walk_of_length h.entrySize_pos h.mul_eq.symm

/-- The bytes from the start of an entry on. -/
def fromEntry (l : ListView) (i : Nat) : Bytes :=
  l.bytes.drop (ListHeader.size + l.headerSize + i * l.entrySize)

/-- The entry that stands at an index: an owner, and data up to the next entry. -/
def entryAt (l : ListView) (i : Nat) : SignatureEntry :=
  ⟨Guid.ofBytes (l.fromEntry i),
    (l.fromEntry i).slice SignatureEntry.ownerSize (l.entrySize - SignatureEntry.ownerSize)⟩

theorem getElem?_cutEntries (h : i < count) :
    (cutEntries entrySize count bs)[i]? = some ⟨Guid.ofBytes (bs.drop (i * entrySize)),
      Bytes.slice (bs.drop (i * entrySize)) SignatureEntry.ownerSize
        (entrySize - SignatureEntry.ownerSize)⟩ := by
  induction count generalizing bs i with
  | zero => exact absurd h (Nat.not_lt_zero i)
  | succ count ih =>
    cases i with
    | zero =>
      rw [cutEntries, List.getElem?_cons_zero, Nat.zero_mul, List.drop_zero, List.drop_take]
      rfl
    | succ i =>
      rw [cutEntries, List.getElem?_cons_succ, ih (Nat.lt_of_succ_lt_succ h), List.drop_drop,
        Nat.succ_mul, Nat.add_comm entrySize]

/-- The entries of a list stand one behind the other. -/
theorem getElem?_entryList (h : i < l.entryList.length) :
    l.entryList[i]? = some (l.entryAt i) := by
  rw [entryList, length_cutEntries] at h
  rw [entryList, getElem?_cutEntries h, entryRegion, List.drop_drop]
  rfl

end ListView

/-! ## The three walks -/

namespace SignatureDatabase

variable {db : SignatureDatabase} {l : ListView} {place : EntryLocation} {index : Nat}
  {e : SignatureEntry} {x : LocatedEntry} {p : SignatureType → SignatureEntry → Bool}

theorem list_eq_ok : db.list index = .ok l ↔ db.lists[index]? = some l := by
  rw [list]
  cases db.lists[index]? <;> simp

/-- The lists fill a database: none is missed, and nothing stands behind the last one. -/
theorem bytes_eq_flatMap (db : SignatureDatabase) : db.bytes = db.lists.flatMap (·.bytes) :=
  (parseDatabase_eq_ok.1 db.parseDatabase_bytes).2.1

/-- A location of a database names one of its lists, and one of the entries that this list is
counted to have. -/
def IsLocation (db : SignatureDatabase) (place : EntryLocation) : Prop :=
  ∃ l n, db.lists[place.list]? = some l ∧ l.entryCount = .ok n ∧ place.entry < n

/-- What stands at a location: the list, and an entry that the list has. -/
def Holds (db : SignatureDatabase) (place : EntryLocation) (l : ListView) : Prop :=
  db.lists[place.list]? = some l ∧ place.entry < l.entryList.length

theorem wellFormed_of_getElem? (h : db.lists[index]? = some l) : l.WellFormed :=
  wellFormed_of_mem_lists (List.mem_of_getElem? h)

theorem isLocation_iff : db.IsLocation place ↔ ∃ l, db.Holds place l := by
  constructor
  · rintro ⟨l, n, hl, hn, hentry⟩
    rw [(wellFormed_of_getElem? hl).entryCount_eq] at hn
    cases hn
    exact ⟨l, hl, hentry⟩
  · rintro ⟨l, hl, hentry⟩
    exact ⟨l, _, hl, (wellFormed_of_getElem? hl).entryCount_eq, hentry⟩

/-- **The look-up finds what stands at a location**, and nothing elsewhere. -/
theorem entry_eq_ok :
    db.entry place = .ok e ↔ ∃ l, db.Holds place l ∧ e = l.entryAt place.entry := by
  unfold entry Holds
  simp only [bind_eq_ok, list_eq_ok]
  constructor
  · rintro ⟨l, hl, es, hes, hentry⟩
    obtain ⟨-, rfl⟩ := ListView.entries_eq_ok.1 (mapError_eq_ok.1 hes)
    by_cases hlt : place.entry < l.entryList.length
    · rw [ListView.getElem?_entryList hlt] at hentry
      exact ⟨l, ⟨hl, hlt⟩, (pure_eq_ok.1 hentry).symm⟩
    · rw [List.getElem?_eq_none (Nat.not_lt.1 hlt)] at hentry
      exact (throw_eq_ok.1 hentry).elim
  · rintro ⟨l, ⟨hl, hlt⟩, rfl⟩
    refine ⟨l, hl, l.entryList, ?_, ?_⟩
    · exact mapError_eq_ok.2 (ListView.entries_eq_ok.2 ⟨wellFormed_of_getElem? hl, rfl⟩)
    · rw [ListView.getElem?_entryList hlt]
      rfl

/-- The look-up fails exactly where there is no location. -/
theorem entry_eq_error : (∃ err, db.entry place = .error err) ↔ ¬db.IsLocation place := by
  rw [isLocation_iff]
  cases hentry : db.entry place with
  | ok e =>
    obtain ⟨l, hl, -⟩ := entry_eq_ok.1 hentry
    exact iff_of_false (by simp) fun h => h ⟨l, hl⟩
  | error err =>
    refine iff_of_true ⟨err, rfl⟩ ?_
    rintro ⟨l, hl⟩
    rw [entry_eq_ok.2 ⟨l, hl, rfl⟩] at hentry
    cases hentry

theorem locate_eq (h : l.WellFormed) (index : Nat) :
    locate index l = l.entryList.mapIdx fun i e => ⟨⟨index, i⟩, l.type, e⟩ := by
  rw [locate, ListView.entries_eq_ok.2 ⟨h, rfl⟩]

theorem mem_locate (h : l.WellFormed) : x ∈ locate index l ↔
    x.location.list = index ∧ x.location.entry < l.entryList.length ∧ x.type = l.type ∧
      x.entry = l.entryAt x.location.entry := by
  rw [locate_eq h, List.mem_mapIdx]
  constructor
  · rintro ⟨i, hi, rfl⟩
    refine ⟨rfl, hi, rfl, ?_⟩
    rw [← Option.some_inj, ← List.getElem?_eq_getElem hi]
    exact ListView.getElem?_entryList hi
  · obtain ⟨⟨list, entry⟩, type, e⟩ := x
    rintro ⟨rfl, hi, rfl, hentry⟩
    have hget : l.entryList[entry] = e := by
      rw [← Option.some_inj, ← List.getElem?_eq_getElem hi, ListView.getElem?_entryList hi]
      exact congrArg some hentry.symm
    exact ⟨entry, hi, by rw [hget]⟩

/-- **The list of all entries has what stands at every location**, and nothing else. -/
theorem mem_entries_iff : x ∈ db.entries ↔ ∃ l, db.Holds x.location l ∧ x.type = l.type ∧
    x.entry = l.entryAt x.location.entry := by
  rw [entries, List.mem_flatten]
  constructor
  · rintro ⟨located, hlocated, hx⟩
    obtain ⟨i, hi, rfl⟩ := List.mem_mapIdx.1 hlocated
    obtain ⟨rfl, hentry, htype, heq⟩ :=
      (mem_locate (wellFormed_of_mem_lists (List.getElem_mem hi))).1 hx
    exact ⟨_, ⟨List.getElem?_eq_getElem hi, hentry⟩, htype, heq⟩
  · rintro ⟨l, ⟨hl, hentry⟩, htype, heq⟩
    obtain ⟨hi, rfl⟩ := List.getElem?_eq_some_iff.1 hl
    refine ⟨locate x.location.list db.lists[x.location.list], List.mem_mapIdx.2 ⟨_, hi, rfl⟩, ?_⟩
    exact (mem_locate (wellFormed_of_mem_lists (List.getElem_mem hi))).2
      ⟨rfl, hentry, htype, heq⟩

/-- The entries of a list are located one behind the other. -/
theorem pairwise_locate (h : l.WellFormed) (index : Nat) :
    (locate index l).Pairwise fun x y => x.location.Before y.location := by
  rw [locate_eq h, List.pairwise_iff_getElem]
  intro i j hi hj hij
  rw [List.getElem_mapIdx, List.getElem_mapIdx]
  exact .inr ⟨rfl, hij⟩

/-- **Entries are listed in the order of their locations**, so that none is listed twice. -/
theorem pairwise_entries (db : SignatureDatabase) :
    db.entries.Pairwise fun x y => x.location.Before y.location := by
  rw [entries, List.pairwise_flatten]
  constructor
  · intro located hlocated
    obtain ⟨i, hi, rfl⟩ := List.mem_mapIdx.1 hlocated
    exact pairwise_locate (wellFormed_of_mem_lists (List.getElem_mem hi)) i
  · rw [List.pairwise_iff_getElem]
    intro i j hi hj hij x hx y hy
    rw [List.length_mapIdx] at hi hj
    rw [List.getElem_mapIdx] at hx hy
    obtain ⟨hxi, -⟩ := (mem_locate (wellFormed_of_mem_lists (List.getElem_mem hi))).1 hx
    obtain ⟨hyj, -⟩ := (mem_locate (wellFormed_of_mem_lists (List.getElem_mem hj))).1 hy
    exact .inl (by omega)

/-! ## The search -/

/-- A predicate holds of what the look-ups find at a location. -/
def Matches (db : SignatureDatabase) (p : SignatureType → SignatureEntry → Bool)
    (place : EntryLocation) : Prop :=
  ∃ l e, db.list place.list = .ok l ∧ db.entry place = .ok e ∧ p l.type e = true

theorem matches_iff :
    db.Matches p place ↔ ∃ x ∈ db.entries, x.location = place ∧ p x.type x.entry = true := by
  simp only [Matches, list_eq_ok, entry_eq_ok, mem_entries_iff]
  constructor
  · rintro ⟨l, e, hl, ⟨l', hl', rfl⟩, hp⟩
    obtain rfl : l = l' := Option.some.inj (hl.symm.trans hl'.1)
    exact ⟨⟨place, l.type, l.entryAt place.entry⟩, ⟨l, hl', rfl, rfl⟩, rfl, hp⟩
  · rintro ⟨x, ⟨l, hl, htype, hentry⟩, rfl, hp⟩
    rw [htype] at hp
    exact ⟨l, x.entry, hl.1, ⟨l, hl, hentry⟩, hp⟩

theorem find?_eq_none_iff : db.find? p = none ↔ ∀ place, ¬db.Matches p place := by
  simp only [matches_iff, find?, Option.map_eq_none_iff, List.find?_eq_none]
  constructor
  · rintro h place ⟨x, hx, -, hp⟩
    exact h x hx hp
  · intro h x hx hp
    exact h x.location ⟨x, hx, rfl, hp⟩

/-- What is found first in an ordered list is what is found and comes first. -/
theorem find?_eq_some_of_pairwise {α : Type} {r : α → α → Prop} {q : α → Bool} {xs : List α}
    {a : α} (hordered : xs.Pairwise r) (hasymm : ∀ a b, r a b → ¬r b a) :
    xs.find? q = some a ↔ a ∈ xs ∧ q a = true ∧ ∀ b ∈ xs, r b a → ¬q b = true := by
  rw [List.find?_eq_some_iff_append]
  constructor
  · rintro ⟨ha, before, after, rfl, hbefore⟩
    refine ⟨List.mem_append_right _ (List.mem_cons_self ..), ha, fun b hb hba => ?_⟩
    rw [List.mem_append, List.mem_cons] at hb
    obtain ⟨-, htail, -⟩ := List.pairwise_append.1 hordered
    rcases hb with hb | rfl | hb
    · simpa using hbefore b hb
    · exact absurd hba (hasymm _ _ hba)
    · exact absurd hba (hasymm _ _ ((List.pairwise_cons.1 htail).1 b hb))
  · rintro ⟨ha, hq, hfirst⟩
    obtain ⟨before, after, rfl⟩ := List.append_of_mem ha
    obtain ⟨-, -, hcross⟩ := List.pairwise_append.1 hordered
    refine ⟨hq, before, after, rfl, fun b hb => ?_⟩
    have hba := hcross b hb a (List.mem_cons_self ..)
    simpa using hfirst b (List.mem_append_left _ hb) hba

/-- **The search finds the first location** whose type and entry the predicate holds of. -/
theorem find?_eq_some : db.find? p = some place ↔
    db.Matches p place ∧ ∀ earlier, earlier.Before place → ¬db.Matches p earlier := by
  simp only [find?, Option.map_eq_some_iff, matches_iff,
    find?_eq_some_of_pairwise db.pairwise_entries fun _ _ h => h.not_before]
  constructor
  · rintro ⟨x, ⟨hx, hp, hfirst⟩, rfl⟩
    refine ⟨⟨x, hx, rfl, hp⟩, ?_⟩
    rintro - hbefore ⟨y, hy, rfl, hpy⟩
    exact hfirst y hy hbefore hpy
  · rintro ⟨⟨x, hx, rfl, hp⟩, hfirst⟩
    exact ⟨x, ⟨hx, hp, fun y hy hbefore hpy => hfirst _ hbefore ⟨y, hy, rfl, hpy⟩⟩, rfl⟩

theorem matches_iff_standsAt {t : SignatureType} {data : Bytes} :
    db.Matches (fun t' e => t' == t && e.data == data) place ↔ db.StandsAt place t data := by
  simp only [Matches, StandsAt, Bool.and_eq_true, beq_iff_eq]
  constructor
  · rintro ⟨l, e, hl, he, htype, hdata⟩
    exact ⟨l, e, hl, htype, he, hdata⟩
  · rintro ⟨l, e, hl, htype, he, hdata⟩
    exact ⟨l, e, hl, he, htype, hdata⟩

/-- The search for an entry finds the first place where it stands. -/
theorem findHash?_eq_some {t : SignatureType} {data : Bytes} : db.findHash? t data = some place ↔
    db.StandsAt place t data ∧
      ∀ earlier, earlier.Before place → ¬db.StandsAt earlier t data := by
  simp only [findHash?, find?_eq_some, matches_iff_standsAt]

/-- **An entry is found where it stands anywhere.** -/
theorem containsHash_iff {t : SignatureType} {data : Bytes} :
    db.containsHash t data = true ↔ ∃ place, db.StandsAt place t data := by
  simp only [← matches_iff_standsAt]
  rw [containsHash, findHash?, Option.isSome_iff_ne_none, ne_eq, find?_eq_none_iff, not_forall]
  simp only [not_not]

/-- The certificates of a database are those that stand anywhere in it. -/
theorem mem_certificates_iff {der : Bytes} :
    der ∈ db.certificates ↔ ∃ place, db.StandsAt place .x509 der := by
  rw [mem_certificates, ← containsCertificate_iff]
  exact containsHash_iff

/-- The authority check finds the certificate of a signer where it stands anywhere. -/
theorem checkAuthority_eq_ok {signer : Signer} {name : String} :
    signer.checkAuthority name db = .ok () ↔
      ∃ place, db.StandsAt place .x509 signer.certificate := by
  rw [← containsHash_iff, Signer.checkAuthority]
  show (if db.containsHash .x509 signer.certificate = true then _ else _) = _ ↔ _
  by_cases hfound : db.containsHash .x509 signer.certificate = true
  · rw [if_pos hfound]
    exact iff_of_true rfl hfound
  · rw [if_neg hfound]
    exact iff_of_false (by simp) hfound

/-! ## What the walks owe each other -/

/-- The list of all entries and the look-up of one agree. -/
structure ListsEntries (db : SignatureDatabase) : Prop where
  /-- The lists fill the database. -/
  filled : db.bytes = db.lists.flatMap (·.bytes)
  /-- A walk over a list ends behind its last entry, and so do the entries of the list. -/
  walked : ∀ l ∈ db.lists, ∀ es left,
    ListView.Walk l.entrySize l.entryRegion es left ↔ l.entries = .ok es ∧ left = []
  /-- The entries are listed in lexicographic order. -/
  ordered : db.entries.Pairwise fun x y => x.location.Before y.location
  /-- Every location of the database is listed, and no other. -/
  located : ∀ place, (∃ x ∈ db.entries, x.location = place) ↔ db.IsLocation place
  /-- An entry is listed with the type of its list, as it is looked up and as its bytes say. -/
  same : ∀ x ∈ db.entries, ∃ l, db.list x.location.list = .ok l ∧ x.type = l.type ∧
    db.entry x.location = .ok x.entry ∧ x.entry = l.entryAt x.location.entry
  /-- The look-up fails exactly where nothing is listed. -/
  fails : ∀ place, (∃ err, db.entry place = .error err) ↔ ¬db.IsLocation place

/-- The searches find the first of what the look-ups find, and miss nothing. -/
structure FindsFirst (db : SignatureDatabase) : Prop where
  first : ∀ p place, db.find? p = some place ↔
    db.Matches p place ∧ ∀ earlier, earlier.Before place → ¬db.Matches p earlier
  nothing : ∀ p, db.find? p = none ↔ ∀ place, ¬db.Matches p place
  hash : ∀ t data place, db.findHash? t data = some place ↔
    db.StandsAt place t data ∧ ∀ earlier, earlier.Before place → ¬db.StandsAt earlier t data
  found : ∀ t data, (db.findHash? t data).isSome = true ↔ ∃ place, db.StandsAt place t data
  certificate : ∀ der, (db.findCertificate? der).isSome = true ↔
    ∃ place, db.StandsAt place .x509 der
  certificates : ∀ der, der ∈ db.certificates ↔ ∃ place, db.StandsAt place .x509 der
  authority : ∀ (signer : Signer) name, signer.checkAuthority name db = .ok () ↔
    ∃ place, db.StandsAt place .x509 signer.certificate

theorem listsEntries (db : SignatureDatabase) : db.ListsEntries where
  filled := db.bytes_eq_flatMap
  walked l hl es left := by
    have hsound := wellFormed_of_mem_lists hl
    rw [hsound.walk_iff, ListView.entries_eq_ok, and_iff_right hsound]
  ordered := db.pairwise_entries
  located place := by
    rw [isLocation_iff]
    constructor
    · rintro ⟨x, hx, rfl⟩
      obtain ⟨l, hl, -⟩ := mem_entries_iff.1 hx
      exact ⟨l, hl⟩
    · rintro ⟨l, hl⟩
      exact ⟨⟨place, l.type, l.entryAt place.entry⟩, mem_entries_iff.2 ⟨l, hl, rfl, rfl⟩, rfl⟩
  same x hx := by
    obtain ⟨l, hl, htype, hentry⟩ := mem_entries_iff.1 hx
    exact ⟨l, list_eq_ok.2 hl.1, htype, entry_eq_ok.2 ⟨l, hl, hentry⟩, hentry⟩
  fails _ := entry_eq_error

theorem findsFirst (db : SignatureDatabase) : db.FindsFirst where
  first _ _ := find?_eq_some
  nothing _ := find?_eq_none_iff
  hash _ _ _ := findHash?_eq_some
  found _ _ := containsHash_iff
  certificate _ := containsHash_iff
  certificates _ := mem_certificates_iff
  authority _ _ := checkAuthority_eq_ok

/-- **The walks over a database agree**: every location is listed once and in order, is looked
up as it is listed, and is found unless an earlier one is. -/
theorem entries_enumerate (db : SignatureDatabase) : db.ListsEntries ∧ db.FindsFirst :=
  ⟨db.listsEntries, db.findsFirst⟩

/-- Three lists, of which the first has two entries and the second a match as well. -/
example : (ofBytes mixedBlocks.flatten).toOption.map (fun db =>
    (db.entries.map (·.location), db.find? fun _ e => e.owner == .shimLock)) =
      some ([⟨0, 0⟩, ⟨0, 1⟩, ⟨1, 0⟩, ⟨2, 0⟩], some ⟨0, 1⟩) := by decide +kernel

end SignatureDatabase

end SecureBoot
