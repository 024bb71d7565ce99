import SecureBoot.Bytes

/-!
# When a computation succeeds

The readers, encoders and stores of this library answer in `Except`.  This file
reads the success of a composed computation as the success of its steps:
`bind_eq_ok`, `map_eq_ok`, `mapError_eq_ok` and, for a check in front of the
rest, `guard_eq_ok`, `check_eq_ok` and `seq_eq_ok`.  Facts on lists follow:
`mapM_cons_eq_ok`, `mapM_eq_ok_map` and `forM_eq_ok`.
-/

namespace SecureBoot

variable {ε ε' α β : Type}

theorem bind_eq_ok {x : Except ε α} {f : α → Except ε β} {b : β} :
    (x >>= f) = .ok b ↔ ∃ a, x = .ok a ∧ f a = .ok b := by
  cases x <;> simp [bind, Except.bind]

theorem exceptMap_eq_ok {x : Except ε α} {f : α → β} {b : β} :
    x.map f = .ok b ↔ ∃ a, x = .ok a ∧ f a = b := by
  cases x <;> simp [Except.map]

theorem map_eq_ok {x : Except ε α} {f : α → β} {b : β} :
    (f <$> x) = .ok b ↔ ∃ a, x = .ok a ∧ f a = b := exceptMap_eq_ok

theorem mapError_ok (f : ε → ε') (a : α) : (Except.ok a).mapError f = .ok a := rfl

theorem mapError_eq_ok {x : Except ε α} {f : ε → ε'} {a : α} :
    x.mapError f = .ok a ↔ x = .ok a := by
  cases x with
  | ok b => rw [mapError_ok, Except.ok.injEq, Except.ok.injEq]
  | error e =>
    have hfails : (Except.error e : Except ε α).mapError f ≠ .ok a := by
      intro h
      cases h
    exact iff_of_false hfails (by simp)

theorem mapError_map (f : α → β) (g : ε → ε') (x : Except ε α) :
    (x.map f).mapError g = (x.mapError g).map f := by
  cases x <;> rfl

theorem pure_eq_ok {a b : α} : (pure a : Except ε α) = .ok b ↔ a = b := by
  simp [pure, Except.pure]

theorem throw_eq_ok {e : ε} {a : α} : (throw e : Except ε α) = .ok a ↔ False := by
  simp [throw, throwThe, MonadExceptOf.throw]

theorem throw_bind {e : ε} {f : α → Except ε β} : (throw e >>= f) = throw e := rfl

theorem ok_bind {a : α} {f : α → Except ε β} : (Except.ok a >>= f) = f a := rfl

theorem error_bind {e : ε} {f : α → Except ε β} :
    (Except.error e >>= f) = Except.error e := rfl

/-- A check in front of a computation succeeds exactly when what it refuses does
not hold and the computation succeeds. -/
theorem guard_eq_ok {p : Prop} [Decidable p] {e : ε} {f : α → Except ε β} {x : Except ε β}
    {b : β} : (if p then throw e >>= f else x) = .ok b ↔ ¬p ∧ x = .ok b := by
  by_cases h : p <;> simp [h, throw_bind, throw_eq_ok]

theorem guard_last_eq_ok {p : Prop} [Decidable p] {e : ε} {x : Except ε β} {b : β} :
    (if p then throw e else x) = .ok b ↔ ¬p ∧ x = .ok b := by
  by_cases h : p <;> simp [h, throw_eq_ok]

/-- A check in front of a computation fails with another error where it fails, and goes on
like the computation where it does not. -/
theorem guard_eq_mapError {p : Prop} [Decidable p] {e : ε} {e' : ε'} {f : α → Except ε β}
    {f' : α → Except ε' β} {g : ε → ε'} {x : Except ε β} {x' : Except ε' β}
    (he : e' = g e) (hx : x' = x.mapError g) :
    (if p then throw e' >>= f' else x') = (if p then throw e >>= f else x).mapError g := by
  by_cases hp : p
  · rw [if_pos hp, if_pos hp, he]
    rfl
  · rw [if_neg hp, if_neg hp, hx]

/-- A check that is made on a condition only. -/
theorem check_eq_ok {p : Prop} [Decidable p] {x : Except ε Unit} {f : Unit → Except ε β} {b : β} :
    (if p then x >>= f else f ()) = .ok b ↔ (p → x = .ok ()) ∧ f () = .ok b := by
  by_cases h : p
  · simp only [if_pos h, bind_eq_ok]
    constructor
    · rintro ⟨⟨⟩, hx, hf⟩
      exact ⟨fun _ => hx, hf⟩
    · rintro ⟨hx, hf⟩
      exact ⟨(), hx h, hf⟩
  · simp [h]

/-- A check that comes before the rest. -/
theorem seq_eq_ok {x : Except ε Unit} {f : Unit → Except ε β} {b : β} :
    (x >>= f) = .ok b ↔ x = .ok () ∧ f () = .ok b := by
  rw [bind_eq_ok]
  constructor
  · rintro ⟨⟨⟩, hx, hf⟩
    exact ⟨hx, hf⟩
  · rintro ⟨hx, hf⟩
    exact ⟨(), hx, hf⟩

theorem ite_pure_eq_ok {p : Prop} [Decidable p] {a a' b : α} :
    (if p then pure a else pure a' : Except ε α) = .ok b ↔ (if p then a else a') = b := by
  by_cases h : p <;> simp only [h, if_true, if_false, pure_eq_ok]

theorem toOption_eq_some {x : Except ε α} {a : α} : x.toOption = some a ↔ x = .ok a := by
  cases x <;> simp [Except.toOption]

/-- The error of a computation that fails. -/
def failure? : Except ε α → Option ε
  | .ok _ => none
  | .error e => some e

theorem failure?_eq_some {x : Except ε α} {e : ε} : failure? x = some e ↔ x = .error e := by
  cases x <;> simp [failure?]

theorem mapM_nil_eq_ok {f : α → Except ε β} {bs : List β} :
    [].mapM f = .ok bs ↔ bs = [] := by
  rw [List.mapM_nil, pure_eq_ok]
  exact eq_comm

theorem mapM_cons_eq_ok {f : α → Except ε β} {a : α} {as : List α} {bs : List β} :
    (a :: as).mapM f = .ok bs ↔ ∃ b bs', f a = .ok b ∧ as.mapM f = .ok bs' ∧ bs = b :: bs' := by
  simp only [List.mapM_cons, bind_eq_ok, pure_eq_ok]
  constructor
  · rintro ⟨b, hb, bs', hbs, rfl⟩
    exact ⟨b, bs', hb, hbs, rfl⟩
  · rintro ⟨b, bs', hb, hbs, rfl⟩
    exact ⟨b, hb, bs', hbs, rfl⟩

theorem mapM_eq_ok_map {f : α → Except ε β} {g : α → β} {as : List α}
    (h : ∀ a ∈ as, f a = .ok (g a)) : as.mapM f = .ok (as.map g) := by
  induction as with
  | nil => rfl
  | cons a as ih =>
    rw [List.forall_mem_cons] at h
    exact mapM_cons_eq_ok.2 ⟨g a, as.map g, h.1, ih h.2, rfl⟩

/-- A check of every element succeeds exactly when each check does. -/
theorem forM_eq_ok {f : α → Except ε Unit} {as : List α} :
    as.forM f = .ok () ↔ ∀ a ∈ as, f a = .ok () := by
  induction as with
  | nil => exact iff_of_true rfl (by simp)
  | cons a as ih =>
    have step : (a :: as).forM f = (f a >>= fun _ => as.forM f) := rfl
    rw [step, List.forall_mem_cons, ← ih]
    cases h : f a with
    | error e => simp [bind, Except.bind]
    | ok u => simp [ok_bind]

end SecureBoot
