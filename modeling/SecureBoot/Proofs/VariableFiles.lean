import SecureBoot.Proofs.Directories
import SecureBoot.Proofs.StoreContents
import SecureBoot.Proofs.TextForm
import SecureBoot.Store.VariableFiles

/-!
# Variables kept in files of their own

A variable is kept in a file whose name is made of its name and its owner.  Names are arbitrary
texts, and may themselves end in a hyphen and the text of an owner.  Still no two variables share a
file, so each has what it was last written with, whatever was written to others.

* `VariableId.text_injective` — a variable is known by the name of its file;
* `VariableFiles.ofRead_encode` — what is written to a file is read as it was given;
* `VariableFiles.takes_iff` — which variables have a path at all;
* `VariableFiles.IsDirectory.get_eq`, `IsDirectory.set_eq` — a variable is read and written at the
  row of its file;
* `VariableFiles.IsDirectory.get_after_self`, `IsDirectory.get_after_of_ne` — one write;
* `VariableFiles.remembers_writes` — what any run of writes leaves of every variable.
-/

namespace SecureBoot

/-! ## File names -/

namespace Guid

theorem mem_hyphenate {ds : List Char} {c : Char} (h : c ∈ hyphenate ds) : c = '-' ∨ c ∈ ds := by
  have hgroup : ∀ m n, c ∈ (ds.drop m).take n → c ∈ ds := fun _ _ hc =>
    List.mem_of_mem_drop (List.mem_of_mem_take hc)
  simp only [hyphenate, List.mem_append, List.mem_cons] at h
  rcases h with (((h | h | h) | h | h) | h | h) | h | h
  · exact .inr (List.mem_of_mem_take h)
  · exact .inl h
  · exact .inr (hgroup _ _ h)
  · exact .inl h
  · exact .inr (hgroup _ _ h)
  · exact .inl h
  · exact .inr (hgroup _ _ h)
  · exact .inl h
  · exact .inr (List.mem_of_mem_drop h)

/-- The text of a GUID is digits and hyphens. -/
theorem hyphen_or_digit_of_mem_text {g : Guid} {c : Char} (h : c ∈ g.text.toList) :
    c = '-' ∨ (Bytes.hexValue? c).isSome = true := by
  rw [text, String.toList_ofList] at h
  refine (mem_hyphenate h).imp_right fun hc => ?_
  simp only [digits, List.mem_append] at hc
  rcases hc with ((hc | hc) | hc) | hc <;> exact Text.isSome_hexValue?_of_mem hc

theorem text_injective {g g' : Guid} (h : g.text = g'.text) : g = g' := by
  have hg := ofChars?_text g
  rw [h, ofChars?_text] at hg
  exact (Option.some.inj hg).symm

end Guid

namespace VariableId

variable {id id' : VariableId}

theorem toList_text (id : VariableId) :
    id.text.toList = id.name.toList ++ '-' :: id.guid.text.toList := by
  show (id.name ++ "-" ++ id.guid.text).toList = _
  rw [String.toList_append, String.toList_append, List.append_assoc]
  rfl

/-- **A variable is known by the name of its file**: the owner is what the last 36 characters say,
and the name is what stands in front of the hyphen before them. -/
theorem text_injective (h : id.text = id'.text) : id = id' := by
  have hchars := congrArg String.toList h
  rw [toList_text, toList_text] at hchars
  have hlength : ('-' :: id.guid.text.toList).length = ('-' :: id'.guid.text.toList).length := by
    rw [List.length_cons, List.length_cons, id.guid.length_text, id'.guid.length_text]
  obtain ⟨hname, howner⟩ := List.append_inj' hchars hlength
  obtain ⟨name, guid⟩ := id
  obtain ⟨name', guid'⟩ := id'
  have hname : name = name' := String.toList_inj.1 hname
  have hguid : guid = guid' := Guid.text_injective (String.toList_inj.1 (List.cons.inj howner).2)
  rw [hname, hguid]

/-- A name without a slash makes the name of a file. -/
theorem isFileName_text (h : '/' ∉ id.name.toList) : Path.IsFileName id.text := by
  have hlong : 37 ≤ id.text.toList.length := by
    rw [toList_text, List.length_append, List.length_cons, id.guid.length_text]
    exact Nat.le_add_left ..
  have hne : ∀ s : String, s.toList.length < 37 → id.text ≠ s := by
    rintro s hs rfl
    omega
  refine ⟨?_, hne _ (by decide), hne _ (by decide), hne _ (by decide)⟩
  rw [toList_text, List.mem_append, List.mem_cons]
  rintro (hname | hhyphen | howner)
  · exact h hname
  · exact absurd hhyphen (by decide)
  · have hchar := Guid.hyphen_or_digit_of_mem_text howner
    revert hchar
    decide

end VariableId

namespace VariableFiles

variable {root : String} {fs : FileSystem} {row : List String} {id other : VariableId}
  {a : Attributes} {data : Bytes} {w : StoreWrite} {ws : List StoreWrite}

/-! ## One file -/

/-- **What is written to a file is read as it was given**, empty data too. -/
theorem ofRead_encode (root : String) (id : VariableId) (a : Attributes) (data : Bytes) :
    ofRead root id (.ok (encode a data)) = .ok ⟨a, data⟩ := by
  have hlength : ¬(encode a data).length < attributesSize := by
    rw [encode, List.length_append, Attributes.toBytes, Bytes.length_ofUInt32, attributesSize]
    omega
  have hword : (encode a data).wordAt32 0 = a.bits := Bytes.wordAt32_ofUInt32 a.bits data
  have hdata : (encode a data).drop attributesSize = data :=
    List.drop_left' (Bytes.length_ofUInt32 a.bits)
  rw [ofRead, if_neg hlength, hword, hdata]

/-- The file system takes the path of a variable: it has no zero character, and is not too long. -/
def takes (root : String) (id : VariableId) : Bool :=
  (FileSystem.pathError? (path root id)).isNone

theorem takes_eq_true : takes root id = true ↔ FileSystem.pathError? (path root id) = none :=
  Option.isNone_iff_eq_none

section

variable (hname : '/' ∉ id.name.toList)
include hname

theorem components_path (root : String) :
    Path.components (path root id) = Path.components root ++ [id.text] :=
  Path.components_join (VariableId.isFileName_text hname)

theorem path_ne_empty (root : String) : path root id ≠ "" := by
  intro hempty
  have hcomponents := components_path hname root
  rw [hempty] at hcomponents
  exact List.append_ne_nil_of_right_ne_nil _ (List.cons_ne_nil _ _) hcomponents.symm

/-- **Which paths are taken**: those without zero characters whose names have up to 255 bytes each,
and which have fewer than 4096 themselves. -/
theorem takes_iff : takes root id = true ↔ '\x00' ∉ (path root id).toList ∧
    (∀ n ∈ Path.components root ++ [id.text], n.utf8ByteSize ≤ 255) ∧
      (path root id).utf8ByteSize < 4096 := by
  rw [takes_eq_true, FileSystem.pathError?_eq_none, components_path hname]
  exact and_congr_right fun _ => and_iff_right (path_ne_empty hname root)

/-- The error of a path that is not taken is another than that of a missing file. -/
theorem exists_pathError (h : takes root id = false) :
    ∃ e, FileSystem.pathError? (path root id) = some e ∧ e ≠ .notFound := by
  have hnone : FileSystem.pathError? (path root id) ≠ none := fun hnone =>
    Bool.false_ne_true (h.symm.trans (takes_eq_true.2 hnone))
  obtain ⟨e, he⟩ := Option.ne_none_iff_exists'.1 hnone
  refine ⟨e, he, ?_⟩
  rintro rfl
  have hempty : ¬(path root id == "") = true := by simpa using path_ne_empty hname root
  rw [FileSystem.pathError?, if_neg hempty] at he
  split at he
  · cases he
  · split at he <;> cases he

/-- **A variable whose path is not taken is never read and never written**, whatever the files are,
and is never reported to be missing. -/
theorem error_of_not_takes (h : takes root id = false) : ∃ e e' : StoreError,
    (∀ fs, (store root).get fs id = .error e) ∧ e ≠ .notFound id ∧
      ∀ fs a data, (store root).set fs id a data = .error e' := by
  obtain ⟨e, he, hfound⟩ := exists_pathError hname h
  have hread (fs : FileSystem) : (store root).get fs id = .error (.file (path root id) e) := by
    show ofRead root id (fs.read (path root id)) = _
    rw [FileSystem.read_of_pathError he]
    cases e with
    | notFound => exact absurd rfl hfound
    | _ => rfl
  refine ⟨_, writeError root id e, hread, by simp, fun fs a data => ?_⟩
  show (fs.write (path root id) (encode a data)).mapError _ = _
  rw [FileSystem.write_of_pathError he]
  rfl

end

/-! ## A directory of variables -/

/-- A directory of variables: the path of the store leads there along a row of names, and no
directory below it has a name that a variable could have. -/
structure IsDirectory (root : String) (fs : FileSystem) (row : List String) : Prop where
  leads : fs.LeadsTo root row
  flat : ∀ id : VariableId, '/' ∉ id.name.toList → fs.find? (row ++ [id.text]) ≠ some .directory

namespace IsDirectory

variable (h : IsDirectory root fs row)
include h

/-- **A variable is read at the row of its file.** -/
theorem get_eq (hname : '/' ∉ id.name.toList) (htakes : takes root id = true) :
    (store root).get fs id = match fs.find? (row ++ [id.text]) with
      | some (.file contents) => ofRead root id (.ok contents)
      | _ => .error (.notFound id) := by
  have hread := h.leads.read_join (VariableId.isFileName_text hname) (takes_eq_true.1 htakes)
  show ofRead root id (fs.read (path root id)) = _
  rw [path, hread]
  cases hnode : fs.find? (row ++ [id.text]) with
  | none => rfl
  | some node =>
    cases node with
    | file contents => rfl
    | directory => exact absurd hnode (h.flat id hname)

/-- **A variable is written at the row of its file.** -/
theorem set_eq (hname : '/' ∉ id.name.toList) (htakes : takes root id = true) :
    (store root).set fs id a data =
      .ok (fs.insert (row ++ [id.text]) (.file (encode a data))) := by
  show (fs.write (path root id) (encode a data)).mapError _ = _
  rw [path, h.leads.write_join (VariableId.isFileName_text hname) (takes_eq_true.1 htakes)
    (h.flat id hname)]
  rfl

end IsDirectory

/-! ## Runs of writes -/

/-- The files after a write, which are those before it if the write is refused. -/
def after (root : String) (fs : FileSystem) (w : StoreWrite) : FileSystem :=
  match (store root).set fs w.id w.attributes w.data with
  | .ok fs' => fs'
  | .error _ => fs

/-- The files after a run of writes. -/
def run (root : String) (fs : FileSystem) (ws : List StoreWrite) : FileSystem :=
  ws.foldl (after root) fs

/-- The writes to a variable among those of a run. -/
def writesTo (ws : List StoreWrite) (id : VariableId) : List StoreWrite :=
  ws.filter fun w => w.id = id

/-- The last write to a variable. -/
def lastTo? (ws : List StoreWrite) (id : VariableId) : Option StoreWrite :=
  (writesTo ws id).getLast?

theorem lastTo?_eq_none : lastTo? ws id = none ↔ ∀ w ∈ ws, w.id ≠ id := by
  rw [lastTo?, List.getLast?_eq_none_iff, writesTo, List.filter_eq_nil_iff]
  exact forall₂_congr fun _ _ => by rw [decide_eq_true_eq]

theorem lastTo?_cons (w : StoreWrite) (ws : List StoreWrite) (id : VariableId) :
    lastTo? (w :: ws) id = (lastTo? ws id).or (if w.id = id then some w else none) := by
  rw [lastTo?, lastTo?, writesTo, List.filter_cons]
  by_cases hid : w.id = id
  · rw [if_pos (decide_eq_true hid), if_pos hid, List.getLast?_cons]
    show some ((writesTo ws id).getLast?.getD w) = _
    cases (writesTo ws id).getLast? <;> rfl
  · rw [if_neg (by simpa using hid), if_neg hid, Option.or_none]
    rfl

/-- A refused write leaves the files. -/
theorem after_of_not_takes (hw : '/' ∉ w.id.name.toList) (htakes : takes root w.id = false) :
    after root fs w = fs := by
  obtain ⟨-, e, -, -, hset⟩ := error_of_not_takes hw htakes
  rw [after, hset]

/-- Different variables have different rows. -/
theorem row_ne (row : List String) (h : id ≠ other) : row ++ [id.text] ≠ row ++ [other.text] :=
  fun hrow => h (VariableId.text_injective (List.singleton_inj.1 (List.append_cancel_left hrow)))

namespace IsDirectory

section

variable (h : IsDirectory root fs row) (hw : '/' ∉ w.id.name.toList)
include h hw

theorem after_eq (htakes : takes root w.id = true) : after root fs w =
    fs.insert (row ++ [w.id.text]) (.file (encode w.attributes w.data)) := by
  rw [after, h.set_eq hw htakes]

/-- After a write to a directory of variables it is one still. -/
theorem stays : IsDirectory root (after root fs w) row := by
  cases htakes : takes root w.id with
  | false => rwa [after_of_not_takes hw htakes]
  | true =>
    rw [h.after_eq hw htakes]
    refine ⟨h.leads.insert (h.flat w.id hw), fun id hname => ?_⟩
    by_cases hid : id = w.id
    · subst hid
      have houter := FileSystem.not_isOuter_append row (VariableId.isFileName_text hname)
      rw [FileSystem.find?_insert_self houter]
      exact fun hfile => FileNode.noConfusion (Option.some.inj hfile)
    · rw [FileSystem.find?_insert_of_ne (row_ne row hid)]
      exact h.flat id hname

/-- **A variable has what it was written with.** -/
theorem get_after_self (htakes : takes root w.id = true) :
    (store root).get (after root fs w) w.id = .ok ⟨w.attributes, w.data⟩ := by
  have houter := FileSystem.not_isOuter_append row (VariableId.isFileName_text hw)
  rw [(h.stays hw).get_eq hw htakes, h.after_eq hw htakes, FileSystem.find?_insert_self houter]
  exact ofRead_encode root w.id w.attributes w.data

/-- **A write to one variable leaves every other.** -/
theorem get_after_of_ne (hname : '/' ∉ id.name.toList) (hid : id ≠ w.id) :
    (store root).get (after root fs w) id = (store root).get fs id := by
  cases hwtakes : takes root w.id with
  | false => rw [after_of_not_takes hw hwtakes]
  | true =>
    cases htakes : takes root id with
    | false =>
      obtain ⟨e, -, hget, -, -⟩ := error_of_not_takes hname htakes
      rw [hget, hget]
    | true =>
      rw [(h.stays hw).get_eq hname htakes, h.get_eq hname htakes, h.after_eq hw hwtakes,
        FileSystem.find?_insert_of_ne (row_ne row hid)]

end

section

variable (h : IsDirectory root fs row) (hws : ∀ w ∈ ws, '/' ∉ w.id.name.toList)
include h hws

theorem stays_run : IsDirectory root (run root fs ws) row := by
  induction ws generalizing fs with
  | nil => exact h
  | cons w ws ih =>
    rw [List.forall_mem_cons] at hws
    exact ih (h.stays hws.1) hws.2

/-- What is read after a run is the last write to the variable, or else what was there. -/
theorem get_run (hname : '/' ∉ id.name.toList) (htakes : takes root id = true) :
    (store root).get (run root fs ws) id = match lastTo? ws id with
      | some w => .ok ⟨w.attributes, w.data⟩
      | none => (store root).get fs id := by
  induction ws generalizing fs with
  | nil => rfl
  | cons w ws ih =>
    rw [List.forall_mem_cons] at hws
    show (store root).get (run root (after root fs w) ws) id = _
    rw [ih (h.stays hws.1) hws.2, lastTo?_cons]
    cases lastTo? ws id with
    | some last => rfl
    | none =>
      by_cases hid : w.id = id
      · subst hid
        rw [if_pos rfl]
        exact h.get_after_self hws.1 htakes
      · rw [if_neg hid]
        exact h.get_after_of_ne hws.1 hname (Ne.symm hid)

end

/-- A variable is missing where its row leads nowhere. -/
theorem get_eq_notFound (h : IsDirectory root fs row) (hname : '/' ∉ id.name.toList)
    (htakes : takes root id = true) :
    (store root).get fs id = .error (.notFound id) ↔ fs.find? (row ++ [id.text]) = none := by
  rw [h.get_eq hname htakes]
  cases hnode : fs.find? (row ++ [id.text]) with
  | none => simp
  | some node =>
    cases node with
    | directory => exact absurd hnode (h.flat id hname)
    | file contents =>
      show ofRead root id (.ok contents) = _ ↔ _
      rw [ofRead]
      split <;> simp

end IsDirectory

theorem lastTo?_writesTo (ws : List StoreWrite) (id : VariableId) :
    lastTo? (writesTo ws id) id = lastTo? ws id := by
  rw [lastTo?, lastTo?, writesTo, writesTo, List.filter_filter]
  simp only [Bool.and_self]

/-- What the files below a directory keep of a variable in a run of writes. -/
structure Remembers (root : String) (fs : FileSystem) (row : List String) (ws : List StoreWrite)
    (id : VariableId) : Prop where
  /-- The variable has what it was last written with, and else what it had before. -/
  last : (store root).get (run root fs ws) id = match lastTo? ws id with
    | some w => .ok ⟨w.attributes, w.data⟩
    | none => (store root).get fs id
  /-- It is missing exactly when it was never written and had no file before. -/
  missing : (store root).get (run root fs ws) id = .error (.notFound id) ↔
    (∀ w ∈ ws, w.id ≠ id) ∧ fs.find? (row ++ [id.text]) = none
  /-- It can be written again, with anything. -/
  writable : ∀ a data, ∃ fs', (store root).set (run root fs ws) id a data = .ok fs'
  /-- Writes to other variables do not matter to it. -/
  alone : (store root).get (run root fs ws) id = (store root).get (run root fs (writesTo ws id)) id

/-- **The files below a directory are a map of variables.**  Whatever is written under names without
slashes, a variable has the attributes and the data of the last write to it, and is missing where
there was none and no file before.  The names may have hyphens and texts of owners in them.  A
variable whose path is not taken, for its length or a zero character, is never written, and has an
error of its own. -/
theorem remembers_writes (h : IsDirectory root fs row) (hws : ∀ w ∈ ws, '/' ∉ w.id.name.toList)
    (hname : '/' ∉ id.name.toList) :
    (takes root id = true → Remembers root fs row ws id) ∧
      (takes root id = false → ∃ e e' : StoreError,
        (∀ fs, (store root).get fs id = .error e) ∧ e ≠ .notFound id ∧
          ∀ fs a data, (store root).set fs id a data = .error e') := by
  refine ⟨fun htakes => ?_, error_of_not_takes hname⟩
  have hlast := h.get_run hws hname htakes
  have hthese : ∀ w ∈ writesTo ws id, '/' ∉ w.id.name.toList := fun w hw =>
    hws w (List.mem_of_mem_filter hw)
  refine ⟨hlast, ?_, fun a data => ⟨_, (h.stays_run hws).set_eq hname htakes⟩, ?_⟩
  · rw [hlast, ← lastTo?_eq_none, ← h.get_eq_notFound hname htakes]
    cases lastTo? ws id <;> simp
  · rw [hlast, h.get_run hthese hname htakes, lastTo?_writesTo]

/-- A directory without variables. -/
def emptyDirectory : FileSystem := ⟨[(["efivars"], .directory)]⟩

/-- A variable whose name ends in the text of the owner of db. -/
def hyphenated : VariableId := ⟨"db-" ++ Guid.imageSecurityDatabase.text, .globalVariable⟩

/-- Writes to db and to the other variable, the last of them of no data. -/
def hyphenatedWrites : List StoreWrite :=
  [⟨SecureVariable.db.id, .authenticatedDatabase, [1, 2]⟩, ⟨hyphenated, .bootNonVolatile, [9]⟩,
    ⟨SecureVariable.db.id, .bootNonVolatile, []⟩]

theorem isFileName_efivars : Path.IsFileName "efivars" :=
  ⟨by decide, by decide, by decide, by decide⟩

theorem isDirectory_emptyDirectory : IsDirectory "efivars" emptyDirectory ["efivars"] := by
  refine ⟨⟨?_, rfl⟩, fun id _ hdirectory => ?_⟩
  · rw [isFileName_efivars.components_eq]
    rfl
  · cases hdirectory

/-- In this directory paths are taken up to the length of a name. -/
theorem takes_efivars (hname : '/' ∉ id.name.toList) (hzero : '\x00' ∉ id.text.toList)
    (hshort : id.text.utf8ByteSize ≤ 255) : takes "efivars" id = true := by
  have hfile := VariableId.isFileName_text hname
  have hslash : "efivars".endsWith "/" = false :=
    isFileName_efivars.wantsDirectory_eq_false String.empty_append.symm
  have hpath : path "efivars" id = "efivars" ++ "/" ++ id.text := by
    rw [path, Path.join, hfile.isAbsolute_eq_false, hslash, if_neg Bool.false_ne_true,
      if_neg (by decide), if_neg Bool.false_ne_true]
  refine (takes_iff hname).2 ⟨?_, ?_, ?_⟩
  · rw [hpath, String.toList_append, List.mem_append, not_or]
    exact ⟨by decide, hzero⟩
  · rw [isFileName_efivars.components_eq, List.singleton_append, List.forall_mem_cons,
      List.forall_mem_singleton]
    exact ⟨by decide, hshort⟩
  · have hfront : ("efivars" ++ "/").utf8ByteSize = 8 := by decide
    rw [hpath, String.utf8ByteSize_append, hfront]
    omega

/-- The data of db are empty after these writes and those of the other variable are not.  KEK is
missing. -/
theorem hyphenatedWrites_remembered :
    IsDirectory "efivars" emptyDirectory ["efivars"] ∧
    (∀ w ∈ hyphenatedWrites, '/' ∉ w.id.name.toList) ∧
    (store "efivars").get (run "efivars" emptyDirectory hyphenatedWrites) SecureVariable.db.id =
      .ok ⟨.bootNonVolatile, []⟩ ∧
    (store "efivars").get (run "efivars" emptyDirectory hyphenatedWrites) hyphenated =
      .ok ⟨.bootNonVolatile, [9]⟩ ∧
    (store "efivars").get (run "efivars" emptyDirectory hyphenatedWrites) SecureVariable.kek.id =
      .error (.notFound SecureVariable.kek.id) := by
  have hdirectory := isDirectory_emptyDirectory
  have hnames : ∀ w ∈ hyphenatedWrites, '/' ∉ w.id.name.toList := by decide
  have hids : ∀ id ∈ [SecureVariable.db.id, hyphenated, SecureVariable.kek.id],
      '/' ∉ id.name.toList ∧ '\x00' ∉ id.text.toList ∧ id.text.utf8ByteSize ≤ 255 := by decide
  have hremembers : ∀ id ∈ [SecureVariable.db.id, hyphenated, SecureVariable.kek.id],
      Remembers "efivars" emptyDirectory ["efivars"] hyphenatedWrites id := by
    intro id hid
    obtain ⟨hname, hzero, hshort⟩ := hids id hid
    exact (remembers_writes hdirectory hnames hname).1 (takes_efivars hname hzero hshort)
  refine ⟨hdirectory, hnames, ?_, ?_, ?_⟩
  · exact (hremembers SecureVariable.db.id (by simp)).last
  · exact (hremembers hyphenated (by simp)).last
  · exact (hremembers SecureVariable.kek.id (by simp)).missing.2 ⟨by decide, rfl⟩

end VariableFiles

end SecureBoot
