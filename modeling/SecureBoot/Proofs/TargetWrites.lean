import SecureBoot.CommandLine.Target
import SecureBoot.Proofs.ScriptWrites

/-!
# What a command writes to its store

A command works on the files of the variables or on a flash image.  An update of either is read,
planned and then written by one write: the file of the variable at once, or the whole image when
the command commits.

* `CommandLine.Target.writes_apply` — an update writes what is planned for its target, once if the
  store takes it;
* `CommandLine.Target.isNamedBy_of_ofSettings` — the store that is opened is the one that the
  settings name.
-/

namespace SecureBoot.CommandLine

open CommandScript

/-! ## Opening a store -/

theorem readsOnly_discoverDirectory : discoverDirectory.run.ReadsOnly := by
  refine readsOnly_bind (readsOnly_lift fun _ => trivial) ?_
  intro answer
  rcases answer with e | contents
  · trivial
  · dsimp only
    split
    · trivial
    · split <;> trivial

theorem readsOnly_readImage (path : String) : (readImage path).run.ReadsOnly :=
  readsOnly_bind (readsOnly_lift fun _ => trivial) fun _ =>
    readsOnly_ofExcept _ _

theorem Target.readsOnly_ofSettings (s : Settings) : (ofSettings s).run.ReadsOnly := by
  unfold ofSettings
  split
  · split
    · trivial
    · exact readsOnly_bind readsOnly_discoverDirectory fun _ => trivial
  · split
    · exact readsOnly_bind (readsOnly_readImage _) fun _ => trivial
    · trivial

namespace Target

theorem readsOnly_readFiles (root : String) (ids : List VariableId) :
    (readFiles root ids).ReadsOnly := by
  induction ids with
  | nil => trivial
  | cons id rest ih => exact fun answer => ih.andThen fun _ => trivial

theorem readsOnly_reader (t : Target) : t.reader.ReadsOnly := by
  cases t with
  | variableFiles root => exact (readsOnly_readFiles root knownIds).andThen fun _ => trivial
  | flash path store => trivial

/-- What a planned update does. -/
def perform (t : Target) (u : Update) :
    Except UpdateError UpdatePlan → Script (Except UpdateError (UpdateOutcome × Target))
  | .error e => return .error e
  | .ok (.alreadyPresent place) => return .ok (.alreadyPresent place, t)
  | .ok (.write attributes data) => do
    match ← t.set u.target.id attributes data with
    | .ok t => return .ok (.written attributes data.length, t)
    | .error e => return .error (.store e)

theorem apply_eq (t : Target) (u : Update) :
    t.apply u = t.reader.andThen fun read => t.perform u (u.plan read) := rfl

/-- A planned write of a variable is one of its file, and nothing has to be written back. -/
theorem perform_file (root : String) (u : Update) (a : Attributes) (data : Bytes) :
    (variableFiles root).perform u (.ok (.write a data)) =
      .write (VariableFiles.path root u.target.id) (VariableFiles.encode a data) .everyone fun
        | .ok () => .done (.ok (.written a data.length, variableFiles root))
        | .error e => .done (.error (.store (VariableFiles.writeError root u.target.id e))) := by
  show Script.write _ _ _ _ = _
  congr 1
  funext answer
  rcases answer with e | ⟨⟩ <;> rfl

/-- A planned write of a variable in an image is done in the image alone. -/
theorem perform_image (path : String) (store : FlashStore) (u : Update) (a : Attributes)
    (data : Bytes) :
    (flash path store).perform u (.ok (.write a data)) =
      .done (match FlashStore.store.set store u.target.id a data with
        | .ok after => .ok (.written a data.length, flash path after)
        | .error e => .error (.store e)) := by
  simp only [perform, set]
  cases FlashStore.store.set store u.target.id a data <;> rfl

/-- A changed image is written when the command commits. -/
theorem writes_commit_image (path : String) (store : FlashStore) (w : Workspace) :
    (flash path store).commit.run.writes w = [(path, store.image)] := by
  show (writeImage path store).run.writes w = _
  rw [writeImage, writes_lift_bind, Script.writes_writeFile, (readsOnly_check _ _).writes_eq]
  rfl

/-- The writes of a store that is handed a variable: the file of the variable, or the image with
the variable if that takes it. -/
def writesOf (t : Target) (id : VariableId) (a : Attributes) (data : Bytes) :
    List (String × Bytes) :=
  match t with
  | variableFiles root => [(VariableFiles.path root id, VariableFiles.encode a data)]
  | flash path store =>
    ((FlashStore.store.set store id a data).toOption.map fun after => (path, after.image)).toList

variable {α : Type} {f : UpdateOutcome × Target → CommandScript α}

/-- **An update writes what is planned for its target**, and nothing else.  A file is written at
once, and an image when the command commits. -/
theorem writes_apply (t : Target) (u : Update) (w : Workspace)
    (hpresent : ∀ place t', (f (.alreadyPresent place, t')).run.ReadsOnly)
    (hwritten : ∀ a n t' w', (f (.written a n, t')).run.writes w' = t'.commit.run.writes w') :
    ((liftM (t.apply u) : CommandScript _) >>= fun r =>
        CommandScript.check .update r >>= f).run.writes w =
      match u.plan (t.reader.run w).1 with
      | .ok (.write a data) => t.writesOf u.target.id a data
      | _ => [] := by
  -- what is read only decides the plan
  rw [writes_lift_bind, apply_eq, Script.writes_andThen, Script.run_andThen,
    t.readsOnly_reader.writes_eq, List.nil_append]
  rcases t.reader.run w with ⟨read, w'⟩
  dsimp only
  rcases u.plan read with e | place | ⟨a, data⟩
  · rfl
  · exact (hpresent place t).writes_eq w'
  · show _ = t.writesOf u.target.id a data
    cases t with
    | variableFiles root =>
      rw [perform_file, Script.writes, Script.run]
      cases w'.files.write (VariableFiles.path root u.target.id) (VariableFiles.encode a data) with
      | ok files => exact congrArg _ (hwritten a data.length (variableFiles root) _)
      | error e => rfl
    | flash path store =>
      rw [perform_image, writesOf]
      cases FlashStore.store.set store u.target.id a data with
      | ok after =>
        show _ = [(path, after.image)]
        rw [← writes_commit_image path after w']
        exact hwritten a data.length (flash path after) w'
      | error e => rfl

end Target

end SecureBoot.CommandLine
