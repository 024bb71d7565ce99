import SecureBoot.CommandLine.Failure

/-!
# What a script writes

A script is a tree of requests, so what it asks to be written can be read off a run, whether a
write succeeds or not.

* `Script.writes` — the writes of a run, in order;
* `Script.writes_andThen` — those of two scripts in a row;
* `Script.writes_congr` — what was said before does not matter for them;
* `Script.ReadsOnly` — scripts that ask for none, whatever they are answered, and leave the
  files as they are;
* `CommandScript.writes_bind_cases` — a command that reads and then goes on: it stops without a
  write, or writes what follows what it read.
-/

namespace SecureBoot

namespace Script

variable {α β : Type}

/-! ## Writes -/

/-- The writes that a run asks for, in order. -/
def writes : Script α → Workspace → List (String × Bytes)
  | done _, _ => []
  | read path next, w => (next (w.files.read path)).writes w
  | write path contents _ next, w =>
    (path, contents) ::
      match w.files.write path contents with
      | .ok files => (next (.ok ())).writes { w with files }
      | .error e => (next (.error e)).writes w
  | probe path next, w => (next (w.files.contains path)).writes w
  | say line next, w => next.writes { w with said := w.said ++ [line] }

/-- A script that goes on with the result of another writes after it. -/
theorem writes_andThen (s : Script α) (f : α → Script β) (w : Workspace) :
    (s.andThen f).writes w = s.writes w ++ (f (s.run w).1).writes (s.run w).2 := by
  induction s generalizing w with
  | done a => rfl
  | read path next ih => exact ih _ w
  | write path contents access next ih =>
    simp only [andThen, writes, run]
    cases w.files.write path contents with
    | ok files => exact congrArg _ (ih _ _)
    | error e => exact congrArg _ (ih _ w)
  | probe path next ih => exact ih _ w
  | say line next ih => exact ih _

theorem writes_writeFile (path : String) (contents : Bytes) (w : Workspace) :
    (writeFile path contents).writes w = [(path, contents)] := by
  rw [writeFile, writes]
  cases w.files.write path contents <;> rfl

theorem run_readFile (path : String) (w : Workspace) :
    (readFile path).run w = (w.files.read path, w) := rfl

theorem run_writeFile (path : String) (contents : Bytes) (w : Workspace) :
    (writeFile path contents).run w =
      match w.files.write path contents with
      | .ok files => (.ok (), { w with files })
      | .error e => (.error e, w) := by
  rw [writeFile, run]
  cases w.files.write path contents <;> rfl

/-- What was said before does not change the writes. -/
theorem writes_congr (s : Script α) {w w' : Workspace} (h : w.files = w'.files) :
    s.writes w = s.writes w' := by
  induction s generalizing w w' with
  | done a => rfl
  | read path next ih =>
    rw [writes, writes, h]
    exact ih _ h
  | write path contents access next ih =>
    rw [writes, writes, h]
    cases w'.files.write path contents with
    | ok files => exact congrArg _ (ih _ rfl)
    | error e => exact congrArg _ (ih _ h)
  | probe path next ih =>
    rw [writes, writes, h]
    exact ih _ h
  | say line next ih => exact ih h

/-! ## Scripts that read -/

/-- A script that asks for no write, whatever it is answered. -/
def ReadsOnly : Script α → Prop
  | done _ => True
  | read _ next => ∀ answer, (next answer).ReadsOnly
  | write .. => False
  | probe _ next => ∀ answer, (next answer).ReadsOnly
  | say _ next => next.ReadsOnly

theorem ReadsOnly.andThen {s : Script α} {f : α → Script β} (hs : s.ReadsOnly)
    (hf : ∀ a, (f a).ReadsOnly) : (s.andThen f).ReadsOnly := by
  induction s with
  | done a => exact hf a
  | read path next ih => exact fun answer => ih answer (hs answer)
  | write path contents access next => exact hs.elim
  | probe path next ih => exact fun answer => ih answer (hs answer)
  | say line next ih => exact ih hs

theorem ReadsOnly.writes_eq {s : Script α} (hs : s.ReadsOnly) (w : Workspace) :
    s.writes w = [] := by
  induction s generalizing w with
  | done a => rfl
  | read path next ih => exact ih _ (hs _) w
  | write path contents access next => exact hs.elim
  | probe path next ih => exact ih _ (hs _) w
  | say line next ih => exact ih hs _

end Script

namespace CommandLine.CommandScript

variable {α β ε : Type} {x : CommandScript α} {f : α → CommandScript β} {w : Workspace}

/-! ## Commands -/

/-- A command goes on after a result, and stops at a failure. -/
theorem run_bind (x : CommandScript α) (f : α → CommandScript β) :
    (x >>= f).run = Script.andThen x.run fun
      | .ok a => (f a).run
      | .error e => .done (.error e) := by
  show Script.andThen x.run (ExceptT.bindCont f) = _
  congr 1
  funext result
  cases result <;> rfl

theorem run_lift (s : Script α) :
    (liftM s : CommandScript α).run = s.andThen fun a => .done (Except.ok a) := rfl

theorem run_lift_bind (s : Script α) (f : α → CommandScript β) (w : Workspace) :
    ((liftM s : CommandScript α) >>= f).run.run w = (f (s.run w).1).run.run (s.run w).2 := by
  rw [run_bind, run_lift, Script.run_andThen, Script.run_andThen]
  rfl

theorem map_eq_bind (g : α → β) (x : CommandScript α) : g <$> x = x >>= fun a => pure (g a) :=
  rfl

theorem readsOnly_bind (hx : x.run.ReadsOnly) (hf : ∀ a, (f a).run.ReadsOnly) :
    (x >>= f).run.ReadsOnly := by
  rw [run_bind]
  refine hx.andThen fun result => ?_
  cases result with
  | ok a => exact hf a
  | error e => trivial

theorem readsOnly_pure (a : α) : (pure a : CommandScript α).run.ReadsOnly := trivial

theorem readsOnly_lift {s : Script α} (hs : s.ReadsOnly) :
    (liftM s : CommandScript α).run.ReadsOnly :=
  hs.andThen fun _ => trivial

theorem readsOnly_ofExcept (wrap : ε → Failure) (r : Except ε α) :
    (ofExcept wrap r).run.ReadsOnly := by
  cases r <;> trivial

theorem readsOnly_check (wrap : ε → Error) (r : Except ε α) : (check wrap r).run.ReadsOnly :=
  readsOnly_ofExcept _ r

theorem readsOnly_readFile (path : String) : (readFile path).run.ReadsOnly :=
  readsOnly_bind (readsOnly_lift fun _ => trivial) fun _ => readsOnly_ofExcept _ _

/-- What follows a command writes after it, if the command has a result. -/
theorem writes_bind (x : CommandScript α) (f : α → CommandScript β) (w : Workspace) :
    (x >>= f).run.writes w = x.run.writes w ++
      match x.run.run w with
      | (.ok a, w') => (f a).run.writes w'
      | (.error _, _) => [] := by
  rw [run_bind, Script.writes_andThen]
  rcases x.run.run w with ⟨a | e, w'⟩ <;> rfl

/-- What follows a script in a command writes after it. -/
theorem writes_lift_bind (s : Script α) (f : α → CommandScript β) (w : Workspace) :
    ((liftM s : CommandScript α) >>= f).run.writes w =
      s.writes w ++ (f (s.run w).1).run.writes (s.run w).2 := by
  have hwrites : (liftM s : CommandScript α).run.writes w = s.writes w := by
    rw [run_lift, Script.writes_andThen]
    exact List.append_nil _
  have hrun : (liftM s : CommandScript α).run.run w = (.ok (s.run w).1, (s.run w).2) := by
    rw [run_lift, Script.run_andThen]
    rfl
  rw [writes_bind, hwrites, hrun]

/-- A command that ends with reading writes before that. -/
theorem writes_bind_of_readsOnly (hf : ∀ a, (f a).run.ReadsOnly) :
    (x >>= f).run.writes w = x.run.writes w := by
  rw [writes_bind]
  rcases x.run.run w with ⟨e | a, w'⟩
  · exact List.append_nil _
  · show x.run.writes w ++ (f a).run.writes w' = _
    rw [(hf a).writes_eq, List.append_nil]

/-- A command that starts with reading writes what follows the result. -/
theorem writes_bind_of_ok {a : α} {w' : Workspace} (hx : x.run.ReadsOnly)
    (h : x.run.run w = (.ok a, w')) : (x >>= f).run.writes w = (f a).run.writes w' := by
  rw [writes_bind, hx.writes_eq, h]
  rfl

/-- A command that starts with reading and fails there writes nothing. -/
theorem writes_bind_of_error {e : Failure} {w' : Workspace} (hx : x.run.ReadsOnly)
    (h : x.run.run w = (.error e, w')) : (x >>= f).run.writes w = [] := by
  rw [writes_bind, hx.writes_eq, h]
  rfl

theorem run_bind_eq_ok {b : β} {w' : Workspace} :
    (x >>= f).run.run w = (.ok b, w') ↔
      ∃ a w₁, x.run.run w = (.ok a, w₁) ∧ (f a).run.run w₁ = (.ok b, w') := by
  rw [run_bind, Script.run_andThen]
  rcases x.run.run w with ⟨e | a, w₁⟩
  · constructor
    · rintro ⟨⟩
    · rintro ⟨a, w₁, ⟨⟩, -⟩
  · constructor
    · exact fun h => ⟨a, w₁, rfl, h⟩
    · rintro ⟨a, w₁, ⟨⟩, h⟩
      exact h

/-- What follows a command that fails is not run. -/
theorem run_bind_of_error {e : Failure} {w' : Workspace} (h : x.run.run w = (.error e, w')) :
    (x >>= f).run.run w = (.error e, w') := by
  rw [run_bind, Script.run_andThen, h]
  rfl

/-- A step that leaves the workspace, in front of what follows its result. -/
theorem run_bind_of_reads {P : α → Prop} {b : β} {w' : Workspace}
    (hx : ∀ {a w₁}, x.run.run w = (.ok a, w₁) ↔ P a ∧ w₁ = w) :
    (x >>= f).run.run w = (.ok b, w') ↔ ∃ a, P a ∧ (f a).run.run w = (.ok b, w') := by
  rw [run_bind_eq_ok]
  constructor
  · rintro ⟨a, w₁, h, hrest⟩
    obtain ⟨ha, rfl⟩ := hx.1 h
    exact ⟨a, ha, hrest⟩
  · rintro ⟨a, ha, hrest⟩
    exact ⟨a, w, hx.2 ⟨ha, rfl⟩, hrest⟩

theorem run_ofExcept_eq_ok {wrap : ε → Failure} {r : Except ε α} {a : α} {w' : Workspace} :
    (ofExcept wrap r).run.run w = (.ok a, w') ↔ r = .ok a ∧ w' = w := by
  cases r with
  | ok a' =>
    show (Except.ok a', w) = (Except.ok a, w') ↔ _
    simp [eq_comm]
  | error e =>
    show (Except.error (wrap e), w) = (Except.ok a, w') ↔ _
    simp

theorem run_check_eq_ok {wrap : ε → Error} {r : Except ε α} {a : α} {w' : Workspace} :
    (check wrap r).run.run w = (.ok a, w') ↔ r = .ok a ∧ w' = w := run_ofExcept_eq_ok

theorem run_readFile_eq_ok {path : String} {contents : Bytes} {w' : Workspace} :
    (readFile path).run.run w = (.ok contents, w') ↔
      w.files.read path = .ok contents ∧ w' = w := by
  rw [readFile, run_lift_bind, Script.run_readFile]
  exact run_ofExcept_eq_ok

theorem run_writeFile (path : String) (contents : Bytes) (w : Workspace) :
    (writeFile path contents).run.run w =
      match w.files.write path contents with
      | .ok files => (.ok (), { w with files })
      | .error e => (.error (.file path e), w) := by
  rw [writeFile, run_lift_bind, Script.run_writeFile]
  cases w.files.write path contents <;> rfl

theorem run_writeFile_eq_ok {path : String} {contents : Bytes} {w' : Workspace} :
    (writeFile path contents).run.run w = (.ok (), w') ↔
      ∃ files, w.files.write path contents = .ok files ∧ w' = { w with files } := by
  rw [run_writeFile]
  cases w.files.write path contents with
  | ok files => simp [eq_comm]
  | error e => simp

/-- A command that writes a file goes on if the file takes the contents. -/
theorem writes_writeFile_bind (path : String) (contents : Bytes) (f : Unit → CommandScript β)
    (w : Workspace) :
    (writeFile path contents >>= f).run.writes w = (path, contents) ::
      match w.files.write path contents with
      | .ok files => (f ()).run.writes { w with files }
      | .error _ => [] := by
  have hwrites : (writeFile path contents).run.writes w = [(path, contents)] := by
    rw [writeFile, writes_lift_bind, Script.writes_writeFile, (readsOnly_ofExcept _ _).writes_eq]
    rfl
  rw [writes_bind, hwrites, run_writeFile]
  cases w.files.write path contents <;> rfl

end CommandLine.CommandScript

end SecureBoot
