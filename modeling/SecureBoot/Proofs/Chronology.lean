import SecureBoot.Proofs.VariableHistory

/-!
# The order of accepted writes

Timestamps are compared field by field, the year first, and zone and daylight flag do not
count.  A write that replaces PK, KEK, db, dbx or dbt is later than what it finds.  An append
may have any timestamp, and the later of the two stays.

* `Timestamp.isAfter_iff_orderedFields` — the comparison as the order of seven fields;
* `Firmware.Accepts.timestamp_cases` — what one call does to the timestamp of a variable;
* `Firmware.timestamps_increase` — over a run, for as long as the variable is there, its
  timestamp never goes back, and the accepted replacements have increasing timestamps.
-/

namespace SecureBoot

namespace Timestamp

/-! ## Seven fields -/

/-- The fields by which timestamps are compared, in this order. -/
def orderedFields (t : Timestamp) : List Nat :=
  [t.year.toNat, t.month.toNat, t.day.toNat, t.hour.toNat, t.minute.toNat, t.second.toNat,
    t.nanosecond.toNat]

/-- A last digit counts only between numbers that are equal without it. -/
theorem digit_lt_iff {base a b x y : Nat} (hx : x < base) (hy : y < base) :
    a * base + x < b * base + y ↔ a < b ∨ (a = b ∧ x < y) := by
  rcases Nat.lt_trichotomy a b with hlt | rfl | hgt
  · have hmul : (a + 1) * base ≤ b * base := Nat.mul_le_mul_right base hlt
    rw [Nat.add_mul, Nat.one_mul] at hmul
    exact iff_of_true (by omega) (.inl hlt)
  · simp
  · have hmul : (b + 1) * base ≤ a * base := Nat.mul_le_mul_right base hgt
    rw [Nat.add_mul, Nat.one_mul] at hmul
    exact iff_of_false (by omega) (by omega)

theorem digit_eq_iff {base a b x y : Nat} (hx : x < base) (hy : y < base) :
    a * base + x = b * base + y ↔ a = b ∧ x = y := by
  constructor
  · intro h
    have hlt := digit_lt_iff (a := a) (b := b) hx hy
    have hgt := digit_lt_iff (a := b) (b := a) hy hx
    omega
  · rintro ⟨rfl, rfl⟩
    rfl

/-- **Later is later in the first field that differs.** -/
theorem isAfter_iff_orderedFields {a b : Timestamp} :
    a.isAfter b = true ↔ b.orderedFields < a.orderedFields := by
  rw [isAfter_eq_true]
  have hbyte : ∀ n : UInt8, n.toNat < 256 := UInt8.toNat_lt
  have hword : ∀ n : UInt32, n.toNat < UInt32.size := UInt32.toNat_lt
  simp only [instant, digit_lt_iff (hword _) (hword _), digit_lt_iff (hbyte _) (hbyte _),
    digit_eq_iff (hbyte _) (hbyte _), orderedFields, List.cons_lt_cons_iff, List.not_lt_nil,
    and_false, or_false, and_or_left, and_assoc, or_assoc]

end Timestamp

namespace Firmware

variable {scheme : SignatureScheme} {f f' g : Firmware} {v : SecureVariable} {c : Call}
  {cs : List Call} {s s' : StoredVariable} {t : Timestamp}

/-! ## One call -/

/-- **What a call does to the timestamp of a variable** that is there before and after it.  A
call on another variable leaves it alone.  An append leaves the later of two timestamps, the
stored one on a tie, and a replacement is later than what it replaces. -/
theorem Accepts.timestamp_cases (h : Accepts scheme f c f') (hv : v ≠ .mokList)
    (hs : f.stored v.id = some s) (hs' : f'.stored v.id = some s') :
    (c.id ≠ v.id ∧ s' = s) ∨
      (c.id = v.id ∧ ∃ e, Envelope.parse c.data = .ok e ∧
        if c.attributes.isAppend then s'.timestamp = s.timestamp.later e.timestamp
        else s'.timestamp = e.timestamp ∧ e.timestamp.isAfter s.timestamp = true) := by
  rcases h.stored_cases v.id with
    ⟨hother, hsame⟩ | ⟨hid, -, e, hparse, haccepts, hresult⟩ | ⟨-, -, hplain, -⟩
  · left
    rw [hs', hs] at hsame
    exact ⟨hother, Option.some.inj hsame⟩
  · right
    refine ⟨hid, e, hparse, ?_⟩
    rw [hs'] at hresult
    obtain ⟨-, htimestamp⟩ := envelopeResult_eq_some hresult.symm
    rw [hs, mergedTimestamp] at htimestamp
    obtain ⟨-, hlater⟩ := checkReplacement_eq_ok.1 (haccepts.replaces s hs)
    cases happend : c.attributes.isAppend with
    | true => simpa using htimestamp
    | false =>
      have hafter := hlater happend
      rw [Timestamp.later, if_pos hafter] at htimestamp
      simpa using ⟨htimestamp, hafter⟩
  · exact absurd hplain.eq_mokList hv

/-- The timestamp of a variable never goes back while the variable is there. -/
theorem Accepts.instant_le (h : Accepts scheme f c f') (hv : v ≠ .mokList)
    (hs : f.stored v.id = some s) (hs' : f'.stored v.id = some s') :
    s.timestamp.instant ≤ s'.timestamp.instant := by
  rcases h.timestamp_cases hv hs hs' with ⟨-, rfl⟩ | ⟨-, e, -, hnew⟩
  · exact Nat.le_refl _
  · cases happend : c.attributes.isAppend with
    | true =>
      rw [happend, if_pos rfl] at hnew
      rw [hnew, Timestamp.instant_later]
      exact Nat.le_max_left ..
    | false =>
      rw [happend, if_neg Bool.false_ne_true] at hnew
      obtain ⟨hnew, hafter⟩ := hnew
      rw [hnew]
      exact Nat.le_of_lt (Timestamp.isAfter_eq_true.1 hafter)

/-! ## Replacements -/

/-- A call that replaces a variable, or deletes it, by an envelope with a timestamp. -/
def Call.ReplacesAt (c : Call) (id : VariableId) (t : Timestamp) : Prop :=
  c.id = id ∧ c.attributes.isAppend = false ∧
    ∃ e, Envelope.parse c.data = .ok e ∧ e.timestamp = t

/-- An accepted replacement is later than what it finds. -/
theorem Accepts.lt_of_replacesAt (h : Accepts scheme f c f') (hv : v ≠ .mokList)
    (hc : c.ReplacesAt v.id t) (hs : f.stored v.id = some s) :
    s.timestamp.instant < t.instant := by
  obtain ⟨hid, hreplaces, e, hparse, rfl⟩ := hc
  rcases h.stored_cases v.id with
    ⟨hother, -⟩ | ⟨-, -, e', hparse', haccepts, -⟩ | ⟨-, -, hplain, -⟩
  · exact absurd hid hother
  · cases hparse.symm.trans hparse'
    obtain ⟨-, hlater⟩ := checkReplacement_eq_ok.1 (haccepts.replaces s hs)
    exact Timestamp.isAfter_eq_true.1 (hlater hreplaces)
  · exact absurd hplain.eq_mokList hv

/-- What is stored after a replacement is not earlier than it. -/
theorem Accepts.le_of_replacesAt (h : Accepts scheme f c f') (hv : v ≠ .mokList)
    (hc : c.ReplacesAt v.id t) (hs' : f'.stored v.id = some s') :
    t.instant ≤ s'.timestamp.instant := by
  obtain ⟨hid, -, e, hparse, rfl⟩ := hc
  rcases h.stored_cases v.id with
    ⟨hother, -⟩ | ⟨-, -, e', hparse', -, hresult⟩ | ⟨-, -, hplain, -⟩
  · exact absurd hid hother
  · cases hparse.symm.trans hparse'
    rw [hs'] at hresult
    obtain ⟨-, htimestamp⟩ := envelopeResult_eq_some hresult.symm
    rw [htimestamp]
    exact le_instant_mergedTimestamp _ _
  · exact absurd hplain.eq_mokList hv

/-! ## Runs -/

/-- A run of accepted calls each of which finds a variable there. -/
inductive Period (scheme : SignatureScheme) (id : VariableId) :
    Firmware → List Call → Firmware → Prop where
  | start (f : Firmware) : Period scheme id f [] f
  | call {f g g' : Firmware} {cs : List Call} {c : Call} (before : Period scheme id f cs g)
      (present : g.stored id ≠ none) (accepts : Accepts scheme g c g') :
      Period scheme id f (cs ++ [c]) g'

/-- While a variable is there, what is stored is not earlier than any replacement so far. -/
theorem Period.le_stored (hv : v ≠ .mokList) (h : Accepts scheme f c f')
    (hrun : Period scheme v.id f' cs g) (hs : g.stored v.id = some s) {d : Call}
    (hd : d ∈ c :: cs) (hreplaces : d.ReplacesAt v.id t) : t.instant ≤ s.timestamp.instant := by
  induction hrun generalizing s with
  | start =>
    cases List.mem_singleton.1 hd
    exact h.le_of_replacesAt hv hreplaces hs
  | call before present accepts ih =>
    obtain ⟨s₀, hs₀⟩ := Option.ne_none_iff_exists'.1 present
    rw [← List.cons_append, List.mem_append, List.mem_singleton] at hd
    rcases hd with hd | rfl
    · exact Nat.le_trans (ih hs₀ hd) (accepts.instant_le hv hs₀ hs)
    · exact accepts.le_of_replacesAt hv hreplaces hs

/-- While a variable is there, each replacement is later than every one before it. -/
theorem Period.replacements_increase (hv : v ≠ .mokList) (h : Accepts scheme f c f')
    (hrun : Period scheme v.id f' cs g) :
    (c :: cs).Pairwise fun d d' => ∀ t t', d.ReplacesAt v.id t → d'.ReplacesAt v.id t' →
      t'.isAfter t = true := by
  induction hrun with
  | start => exact List.pairwise_singleton ..
  | call before present accepts ih =>
    obtain ⟨s, hs⟩ := Option.ne_none_iff_exists'.1 present
    rw [← List.cons_append, List.pairwise_append]
    refine ⟨ih, List.pairwise_singleton .., ?_⟩
    intro d hd d' hd' t t' hreplaces hreplaces'
    rw [List.mem_singleton] at hd'
    subst hd'
    -- what is stored in between is not earlier than `d` and earlier than `d'`
    have hle := before.le_stored hv h hs hd hreplaces
    have hlt := accepts.lt_of_replacesAt hv hreplaces' hs
    exact Timestamp.isAfter_eq_true.2 (Nat.lt_of_le_of_lt hle hlt)

/-- **Timestamps over a run.**  A call that leaves PK, KEK, db, dbx or dbt there does not take
its timestamp back: an append leaves the later of two timestamps, the stored one on a tie, and a
replacement leaves its own, which is strictly later.  So from the call that makes the variable to
the one that removes it, however appends come in between, each replacement is strictly later
than every replacement before it. -/
theorem timestamps_increase (scheme : SignatureScheme) (hv : v ≠ .mokList) :
    (∀ f c f' s s', Accepts scheme f c f' → f.stored v.id = some s → f'.stored v.id = some s' →
      s.timestamp.isAfter s'.timestamp = false ∧
        (c.id = v.id → ∃ e, Envelope.parse c.data = .ok e ∧
          if c.attributes.isAppend then
            s'.timestamp =
              if e.timestamp.isAfter s.timestamp then e.timestamp else s.timestamp
          else s'.timestamp = e.timestamp ∧ e.timestamp.isAfter s.timestamp = true)) ∧
      ∀ f c f' cs g, Accepts scheme f c f' → Period scheme v.id f' cs g →
        (c :: cs).Pairwise fun d d' => ∀ t t', d.ReplacesAt v.id t → d'.ReplacesAt v.id t' →
          t'.isAfter t = true := by
  constructor
  · intro f c f' s s' h hs hs'
    have hle := h.instant_le hv hs hs'
    refine ⟨?_, fun hid => ?_⟩
    · rw [← Bool.not_eq_true, Timestamp.isAfter_eq_true]
      omega
    · rcases h.timestamp_cases hv hs hs' with ⟨hother, -⟩ | ⟨-, hnew⟩
      · exact absurd hid hother
      · exact hnew
  · intro f c f' cs g h hrun
    exact Period.replacements_increase hv h hrun

/-- A replacement that is later than what is stored. -/
def lateReplacement : Call := dbCall .authenticatedDatabase 3 ownerList

theorem stocked_accepts_lateReplacement (scheme : SignatureScheme) (lists : Bytes) :
    ∃ g, Accepts scheme (stocked lists) lateReplacement g := by
  have hstored : (stocked lists).stored SecureVariable.db.id =
      some ⟨⟨.authenticatedDatabase, lists⟩, january 2⟩ := stored_update_self _ _ _
  refine ⟨_, accepts_dbCall rfl (by decide) ?_ ?_⟩
  · rw [hstored]
    rintro s ⟨⟩
    have hattributes : Attributes.authenticatedDatabase =
        Attributes.authenticatedDatabase.difference .appendWrite := by decide
    have hlater : (january 3).isAfter (january 2) = true := by decide
    exact checkReplacement_eq_ok.2 ⟨hattributes, fun _ => hlater⟩
  · have hreplaces : Attributes.authenticatedDatabase.isAppend = false := by decide
    rw [mergedData_eq, hreplaces, if_neg Bool.false_ne_true]
    decide +kernel

theorem stocked_timestamps_increase :
    ∃ g s, Accepts plainScheme fresh (dbCall .authenticatedDatabase 2 ownerList)
        (stocked ownerList) ∧
      Period plainScheme SecureVariable.db.id (stocked ownerList)
        [lateAppend, lateReplacement] g ∧
      (stocked (ownerList ++ ownerList)).stored SecureVariable.db.id = some s ∧
      s.timestamp = january 2 ∧ (january 3).isAfter (january 2) = true := by
  have hfirst := fresh_accepts_dbCall plainScheme
  have happend := stocked_accepts_lateAppend plainScheme
  obtain ⟨g, hlast⟩ := stocked_accepts_lateReplacement plainScheme (ownerList ++ ownerList)
  have hstored (lists : Bytes) : (stocked lists).stored SecureVariable.db.id =
      some ⟨⟨.authenticatedDatabase, lists⟩, january 2⟩ := stored_update_self _ _ _
  have hpresent (lists : Bytes) : (stocked lists).stored SecureVariable.db.id ≠ none := by
    rw [hstored]
    exact Option.some_ne_none _
  have hrun : Period plainScheme SecureVariable.db.id (stocked ownerList)
      [lateAppend, lateReplacement] g :=
    ((Period.start _).call (hpresent _) happend).call (hpresent _) hlast
  have hid (a : Attributes) (day : UInt8) : (dbCall a day ownerList).id = SecureVariable.db.id :=
    Call.id_unsigned (SecureVariable.zero_not_mem_name .db) _ _ _
  obtain ⟨hstep, hpairs⟩ := timestamps_increase (v := .db) plainScheme (by decide)
  obtain ⟨-, hnew⟩ := hstep _ _ _ _ _ happend (hstored _) (hstored _)
  obtain ⟨e, hparse, hnew⟩ := hnew (hid _ _)
  cases hparse.symm.trans (Call.parse_unsigned ..)
  have happends : lateAppend.attributes.isAppend = true := by decide
  have hearlier : ¬(january 1).isAfter (january 2) = true := by decide
  rw [happends, if_pos rfl, if_neg hearlier] at hnew
  refine ⟨g, _, hfirst, hrun, hstored _, hnew, ?_⟩
  have hpair := (List.pairwise_cons.1 (hpairs _ _ _ _ _ hfirst hrun)).1 lateReplacement (by simp)
  exact hpair (january 2) (january 3) ⟨hid _ _, by decide, _, Call.parse_unsigned .., rfl⟩
    ⟨hid _ _, by decide, _, Call.parse_unsigned .., rfl⟩

end Firmware

end SecureBoot
