import SecureBoot.Proofs.PlannedWrites
import SecureBoot.Proofs.VariableHistory

/-!
# What firmware has stored

Whatever calls firmware was given, what it has stored is in order (`Firmware.InOrder`).  PK, KEK,
db, dbx and dbt hold signature databases and are marked as authenticated, no variable is marked
as an append, and the names of the status variables are never taken by another variable.

* `Firmware.InOrder.accepts` — every accepted call keeps this;
* `Firmware.getVariable_status` — the status variables tell whether there is a platform key;
* `Firmware.reachable_inOrder` — both, for every state after any calls.
-/

namespace SecureBoot

namespace Attributes

/-! ## The flag of an append -/

/-- The flag of an append is taken off. -/
theorem isAppend_difference (a : Attributes) : (a.difference .appendWrite).isAppend = false := by
  have hnothing : ~~~appendWrite.bits &&& appendWrite.bits = 0 := by decide
  rw [isAppend, contains, difference, UInt32.and_assoc, hnothing, UInt32.and_zero]
  decide

/-- Every other flag stays. -/
theorem isTimeBased_difference (a : Attributes) :
    (a.difference .appendWrite).isTimeBased = a.isTimeBased := by
  have hkept : ~~~appendWrite.bits &&& timeBasedWriteAccess.bits = timeBasedWriteAccess.bits := by
    decide
  rw [isTimeBased, contains, difference, UInt32.and_assoc, hkept, isTimeBased, contains]

end Attributes

namespace Firmware

variable {scheme : SignatureScheme} {f f' : Firmware} {c : Call}

/-! ## The invariant -/

/-- What firmware has stored is in order. -/
structure InOrder (f : Firmware) : Prop where
  /-- PK, KEK, db, dbx and dbt hold signature databases. -/
  database : ∀ v : SecureVariable, v ≠ .mokList → ∀ s, f.stored v.id = some s →
    ∃ lists, parseDatabase s.data = .ok lists
  /-- They are marked as written with envelopes. -/
  timeBased : ∀ v : SecureVariable, v ≠ .mokList → ∀ s, f.stored v.id = some s →
    s.attributes.isTimeBased = true
  /-- No variable is marked as an append. -/
  noAppend : ∀ id s, f.stored id = some s → s.attributes.isAppend = false
  /-- Nothing is stored in place of a status variable. -/
  noStatus : ∀ w : StatusVariable, f.stored w.id = none

theorem inOrder_fresh : InOrder fresh where
  database := by
    rintro v hv s ⟨⟩
  timeBased := by
    rintro v hv s ⟨⟩
  noAppend := by
    rintro id s ⟨⟩
  noStatus := fun _ => rfl

/-- An accepted call spares the status variables. -/
theorem Accepts.ne_status (h : Accepts scheme f c f') (w : StatusVariable) : c.id ≠ w.id := by
  have hset : f.setVariable scheme c.id c.attributes c.data = .ok f' := h
  obtain ⟨hstatus, -⟩ := setVariable_eq_ok.1 hset
  intro hid
  rw [hid, StatusVariable.ofId?_id] at hstatus
  cases hstatus

/-- What a call without an envelope leaves has the attributes that are stored, or those of the
call without the flag of an append. -/
theorem plainResult_attributes {stored : Option StoredVariable} {a : Attributes} {data : Bytes}
    {s' : StoredVariable} (h : plainResult stored a data = some s') :
    s'.attributes = a.difference .appendWrite ∨
      ∃ s, stored = some s ∧ s'.attributes = s.attributes := by
  cases stored with
  | none =>
    left
    rw [plainResult] at h
    split at h
    · cases h
      rfl
    · split at h
      · cases h
      · cases h
        rfl
  | some s =>
    rw [plainResult] at h
    split at h
    · cases h
      exact .inr ⟨s, rfl, rfl⟩
    · split at h
      · cases h
      · cases h
        exact .inl rfl

/-- **An accepted call keeps what is stored in order.** -/
theorem InOrder.accepts (hf : InOrder f) (h : Accepts scheme f c f') : InOrder f' where
  database := by
    intro v hv s hs
    -- an append of nothing is not looked at, and leaves what was there
    have hbefore : ∃ lists, parseDatabase (storedData (f.stored v.id)) = .ok lists := by
      cases hstored : f.stored v.id with
      | none => exact ⟨[], parseDatabase_nil⟩
      | some before => exact hf.database v hv before hstored
    have hafter : ∃ lists, parseDatabase (storedData (f'.stored v.id)) = .ok lists := by
      rcases h.protected_cases hv with hsame | ⟨e, -, -, haccepts, hresult⟩
      · rw [hsame]
        exact hbefore
      · rw [hresult]
        exact haccepts.database hbefore
    rw [hs] at hafter
    exact hafter
  timeBased := by
    intro v hv s hs
    rcases h.stored_cases v.id with
      ⟨-, hsame⟩ | ⟨-, htime, e, -, -, hresult⟩ | ⟨-, -, hplain, -⟩
    · rw [hsame] at hs
      exact hf.timeBased v hv s hs
    · rw [hs] at hresult
      rw [(envelopeResult_eq_some hresult.symm).1, Attributes.isTimeBased_difference]
      exact htime
    · exact absurd hplain.eq_mokList hv
  noAppend := by
    intro id s hs
    rcases h.stored_cases id with ⟨-, hsame⟩ | ⟨-, -, e, -, -, hresult⟩ | ⟨-, -, -, hresult⟩
    · rw [hsame] at hs
      exact hf.noAppend id s hs
    · rw [hs] at hresult
      rw [(envelopeResult_eq_some hresult.symm).1]
      exact Attributes.isAppend_difference _
    · rw [hs] at hresult
      rcases plainResult_attributes hresult.symm with hown | ⟨before, hbefore, hkept⟩
      · rw [hown]
        exact Attributes.isAppend_difference _
      · rw [hkept]
        exact hf.noAppend id before hbefore
  noStatus := by
    intro w
    rcases h.stored_cases w.id with ⟨-, hsame⟩ | ⟨hid, -⟩ | ⟨hid, -⟩
    · rw [hsame]
      exact hf.noStatus w
    · exact absurd hid (h.ne_status w)
    · exact absurd hid (h.ne_status w)

/-! ## Reading the status -/

/-- A status variable is read in one byte, under every spelling of its name in units. -/
theorem getVariable_status (scheme : SignatureScheme) (f : Firmware) (w : StatusVariable)
    {name : List UInt16} {capacity : Nat} (hname : Text.Utf16.ofTerminated name = w.name)
    (hcapacity : 1 ≤ capacity) :
    (services scheme).getVariable f name .globalVariable capacity =
      .ok ⟨statusAttributes, [if f.status w then 1 else 0]⟩ := by
  show f.getVariable ⟨Text.Utf16.ofTerminated name, .globalVariable⟩ capacity = _
  have hid : (⟨Text.Utf16.ofTerminated name, .globalVariable⟩ : VariableId) = w.id := by
    rw [hname]
    rfl
  have hfits : ¬capacity < 1 := by omega
  rw [hid, getVariable, find?, StatusVariable.ofId?_id]
  exact if_neg hfits

/-- The platform is in setup mode exactly where PK is missing. -/
theorem isSetupMode_iff : f.isSetupMode = true ↔ f.stored SecureVariable.pk.id = none :=
  Option.isNone_iff_eq_none

/-- The status variables tell whether PK is missing. -/
theorem status_eq (f : Firmware) :
    f.status .setupMode = decide (f.stored SecureVariable.pk.id = none) ∧
      f.status .secureBoot = !decide (f.stored SecureVariable.pk.id = none) := by
  have hsetup : f.isSetupMode = decide (f.stored SecureVariable.pk.id = none) := by
    rw [Bool.eq_iff_iff, decide_eq_true_iff]
    exact isSetupMode_iff
  exact ⟨hsetup, congrArg (!·) hsetup⟩

/-! ## Every state -/

theorem inOrder_of_reachable (h : Reachable scheme f) : InOrder f := by
  induction h with
  | refl => exact inOrder_fresh
  | tail _ hstep ih =>
    obtain ⟨c, -, haccepts⟩ := hstep
    exact ih.accepts haccepts

/-- **Every state is in order, and tells what it is.**  After any calls what is stored is in
order.  SetupMode reads as one exactly where there is no PK, and SecureBoot as one exactly where
there is, by every call that reads them and by the store over them. -/
theorem reachable_inOrder (h : Reachable scheme f) :
    InOrder f ∧
      (∀ name capacity, Text.Utf16.ofTerminated name = "SetupMode" → 1 ≤ capacity →
        (services scheme).getVariable f name .globalVariable capacity =
          .ok ⟨statusAttributes, [if f.stored SecureVariable.pk.id = none then 1 else 0]⟩) ∧
      (∀ name capacity, Text.Utf16.ofTerminated name = "SecureBoot" → 1 ≤ capacity →
        (services scheme).getVariable f name .globalVariable capacity =
          .ok ⟨statusAttributes, [if f.stored SecureVariable.pk.id = none then 0 else 1]⟩) ∧
      (store scheme).get f StatusVariable.setupMode.id =
        .ok ⟨statusAttributes, [if f.stored SecureVariable.pk.id = none then 1 else 0]⟩ ∧
      (store scheme).get f StatusVariable.secureBoot.id =
        .ok ⟨statusAttributes, [if f.stored SecureVariable.pk.id = none then 0 else 1]⟩ := by
  obtain ⟨hsetup, hsecure⟩ := f.status_eq
  have hone : (if f.status .setupMode then 1 else 0 : UInt8) =
      if f.stored SecureVariable.pk.id = none then 1 else 0 := by
    rw [hsetup]
    simp only [decide_eq_true_eq]
  have hother : (if f.status .secureBoot then 1 else 0 : UInt8) =
      if f.stored SecureVariable.pk.id = none then 0 else 1 := by
    rw [hsecure]
    by_cases hpk : f.stored SecureVariable.pk.id = none <;> simp [hpk]
  refine ⟨inOrder_of_reachable h, ?_, ?_, ?_, ?_⟩
  · intro name capacity hname hcapacity
    rw [getVariable_status scheme f .setupMode hname hcapacity, hone]
  · intro name capacity hname hcapacity
    rw [getVariable_status scheme f .secureBoot hname hcapacity, hother]
  · rw [store_get_status, hone]
  · rw [store_get_status, hother]

/-- A platform with a PK has left setup mode. -/
theorem owned_inOrder : Reachable plainScheme owned ∧ InOrder owned ∧
    (services plainScheme).getVariable owned (Text.Utf16.terminated "SetupMode")
      .globalVariable 1 = .ok ⟨statusAttributes, [0]⟩ ∧
    (store plainScheme).get owned StatusVariable.secureBoot.id =
      .ok ⟨statusAttributes, [1]⟩ := by
  have hreachable : Reachable plainScheme owned :=
    .single ⟨ownerCall, trivial, fresh_accepts_ownerCall plainScheme⟩
  have hpk : owned.stored SecureVariable.pk.id ≠ none := by
    rw [owned, stored_update_self]
    exact Option.some_ne_none _
  obtain ⟨horder, hsetup, -, -, hsecure⟩ := reachable_inOrder hreachable
  rw [if_neg hpk] at hsecure
  have hread := hsetup (Text.Utf16.terminated "SetupMode") 1 (by decide) (Nat.le_refl 1)
  rw [if_neg hpk] at hread
  exact ⟨hreachable, horder, hread, hsecure⟩

end Firmware

end SecureBoot
