import SecureBoot.Files
import SecureBoot.Proofs.Except

/-!
# Directories as maps

A file system is given by the nodes at rows of names, and a path is followed through it name by
name.  Below a directory that a path leads to, a file name is one more name at the end of the row.
So the directory is a map from the names of its files to their contents, however its path goes
there.

* `Path.components_join` — a file name is the last name along its path;
* `FileSystem.find?_insert_self`, `FileSystem.find?_insert_of_ne` — a write changes one node;
* `FileSystem.LeadsTo.read_join`, `LeadsTo.write_join` — a file is read and written at its own row;
* `FileSystem.LeadsTo.insert` — and the path of the directory still leads there;
* `FileSystem.pathError?_eq_none` — which texts are paths.
-/

namespace SecureBoot

/-! ## Paths -/

namespace Path

variable {path directory name : String}

theorem isAbsolute_iff : isAbsolute path = true ↔ ['/'] <+: path.toList :=
  String.startsWith_string_iff

theorem endsWith_slash_iff : path.endsWith "/" = true ↔ ∃ front, path.toList = front ++ ['/'] := by
  have h : path.endsWith "/" = true ↔ ['/'] <:+ path.toList := by
    rw [String.endsWith_eq_endsWith_toSlice, String.Slice.endsWith_string_iff, String.copy_toSlice]
    rfl
  rw [h]
  exact exists_congr fun _ => eq_comm

/-- A name that a file of a directory can have. -/
structure IsFileName (name : String) : Prop where
  noSlash : '/' ∉ name.toList
  not_empty : name ≠ ""
  not_dot : name ≠ "."
  not_above : name ≠ above

namespace IsFileName

variable (h : IsFileName name)
include h

theorem isAbsolute_eq_false : isAbsolute name = false := by
  rw [Bool.eq_false_iff, ne_eq, isAbsolute_iff]
  exact fun hslash => h.noSlash (hslash.subset List.mem_cons_self)

/-- A file name does not name the root. -/
theorem not_root : name ≠ root := by
  rintro rfl
  exact h.noSlash (by decide)

/-- Behind a file name a path stays as it is, but for this name. -/
theorem split_append (front : List Char) :
    (front ++ '/' :: name.toList).splitOn '/' = front.splitOn '/' ++ [name.toList] := by
  rw [List.splitOn_append_cons_self, List.splitOn_eq_singleton h.noSlash]

theorem components_eq : components name = [name] := by
  have hnames : [name.toList].map String.ofList = [name] := by
    rw [List.map_singleton, String.ofList_toList]
  rw [components, h.isAbsolute_eq_false, List.splitOn_eq_singleton h.noSlash, hnames]
  simp [h.not_empty, h.not_dot]

/-- The path of a file name does not end with a slash. -/
theorem wantsDirectory_eq_false {front : String} (hpath : path = front ++ name) :
    FileSystem.wantsDirectory path = false := by
  rw [FileSystem.wantsDirectory, Bool.eq_false_iff, ne_eq, endsWith_slash_iff, hpath]
  rintro ⟨before, hbefore⟩
  have hne : name.toList ≠ [] := fun hnil => h.not_empty (String.toList_eq_nil_iff.1 hnil)
  have hlast := congrArg List.getLast? hbefore
  rw [String.toList_append, List.getLast?_append, List.getLast?_concat,
    List.getLast?_eq_some_getLast hne] at hlast
  exact h.noSlash (Option.some.inj hlast ▸ List.getLast_mem hne)

end IsFileName

/-- In the current directory a file name is its own path. -/
theorem join_empty (h : IsFileName name) : join "" name = name := by
  rw [join, h.isAbsolute_eq_false, if_neg Bool.false_ne_true, if_pos (by decide)]

/-- Elsewhere a slash stands between the directory and the name, where the directory has none at
its end. -/
theorem exists_join_eq (h : IsFileName name) (hdirectory : directory ≠ "") :
    ∃ front, (join directory name).toList = front ++ '/' :: name.toList ∧
      (directory.toList = front ∧ front ≠ [] ∨ directory.toList = front ++ ['/']) := by
  rw [join, h.isAbsolute_eq_false, if_neg Bool.false_ne_true, if_neg (by simpa using hdirectory)]
  by_cases hslash : directory.endsWith "/" = true
  · obtain ⟨front, hfront⟩ := endsWith_slash_iff.1 hslash
    refine ⟨front, ?_, .inr hfront⟩
    rw [if_pos hslash, String.toList_append, hfront, List.append_assoc, List.singleton_append]
  · have hne : directory.toList ≠ [] := fun hnil => hdirectory (String.toList_eq_nil_iff.1 hnil)
    refine ⟨directory.toList, ?_, .inl ⟨rfl, hne⟩⟩
    rw [if_neg hslash, String.toList_append, String.toList_append, List.append_assoc]
    rfl

/-- A path is absolute where the path of its directory is. -/
theorem isAbsolute_join (h : IsFileName name) :
    isAbsolute (join directory name) = isAbsolute directory := by
  by_cases hdirectory : directory = ""
  · rw [hdirectory, join_empty h, h.isAbsolute_eq_false]
    rfl
  · obtain ⟨front, hjoin, hfront⟩ := exists_join_eq h hdirectory
    rw [Bool.eq_iff_iff, isAbsolute_iff, isAbsolute_iff, hjoin]
    rcases hfront with ⟨hfront, hne⟩ | hfront
    · obtain ⟨c, cs, rfl⟩ := List.exists_cons_of_ne_nil hne
      rw [hfront, List.cons_append, List.cons_prefix_cons, List.cons_prefix_cons]
      simp
    · cases front <;> simp [hfront]

/-- **A file name is the last name along its path.** -/
theorem components_join (h : IsFileName name) :
    components (join directory name) = components directory ++ [name] := by
  by_cases hdirectory : directory = ""
  · rw [hdirectory, join_empty h, h.components_eq]
    rfl
  · obtain ⟨front, hjoin, hfront⟩ := exists_join_eq h hdirectory
    -- a slash at the end of the directory adds no more than an empty name
    have hnames : (directory.toList.splitOn '/' = front.splitOn '/') ∨
        directory.toList.splitOn '/' = front.splitOn '/' ++ [[]] := by
      rcases hfront with ⟨hfront, -⟩ | hfront
      · exact .inl (hfront ▸ rfl)
      · exact .inr (by rw [hfront, List.splitOn_append_cons_self, List.splitOn_nil])
    have hlast : [name.toList].map String.ofList = [name] := by
      rw [List.map_singleton, String.ofList_toList]
    rw [components, components, isAbsolute_join h, hjoin, h.split_append, List.map_append, hlast,
      List.filter_append, ← List.append_assoc]
    rcases hnames with hnames | hnames
    · simp [hnames, h.not_empty, h.not_dot]
    · simp [hnames, h.not_empty, h.not_dot]

/-- The path of a file name does not lead to a directory only. -/
theorem wantsDirectory_join (directory : String) (h : IsFileName name) :
    FileSystem.wantsDirectory (join directory name) = false := by
  by_cases hdirectory : directory = ""
  · rw [hdirectory, join_empty h]
    exact h.wantsDirectory_eq_false String.empty_append.symm
  · obtain ⟨front, hjoin, -⟩ := exists_join_eq h hdirectory
    have hpath : join directory name = String.ofList front ++ "/" ++ name := by
      apply String.toList_inj.1
      rw [hjoin, String.toList_append, String.toList_append, String.toList_ofList,
        List.append_assoc]
      rfl
    exact h.wantsDirectory_eq_false hpath

end Path

/-! ## Rows of names -/

namespace FileSystem

variable {fs : FileSystem} {path name : String} {row names names' : List String}
  {node : FileNode} {contents : Bytes}

/-- The row of the current directory, and the row of the root, are those of no node. -/
def IsOuter (names : List String) : Prop := names = [] ∨ names = [Path.root]

theorem find?_eq_lookup (h : ¬IsOuter names) : fs.find? names = fs.nodes.lookup names := by
  rw [find?, if_neg]
  simpa [IsOuter] using h

theorem lookup_filter_ne (nodes : List (List String × FileNode)) (h : names' ≠ names) :
    (nodes.filter (·.1 != names)).lookup names' = nodes.lookup names' := by
  induction nodes with
  | nil => rfl
  | cons node nodes ih =>
    obtain ⟨at', contents⟩ := node
    by_cases hat : at' = names
    · subst hat
      rw [List.filter_cons_of_neg (by simp), ih, List.lookup_cons, beq_eq_false_iff_ne.2 h]
    · rw [List.filter_cons_of_pos (by simpa using hat), List.lookup_cons, List.lookup_cons, ih]

/-- **A write changes the node at its own row.** -/
theorem find?_insert_self (h : ¬IsOuter names) :
    (fs.insert names node).find? names = some node := by
  rw [find?_eq_lookup h]
  exact List.lookup_cons_self

/-- A write leaves the nodes at other rows. -/
theorem find?_insert_of_ne (h : names' ≠ names) :
    (fs.insert names node).find? names' = fs.find? names' := by
  rw [find?, find?]
  refine congrArg (ite _ _) ?_
  show ((names, node) :: fs.nodes.filter (·.1 != names)).lookup names' = _
  rw [List.lookup_cons, beq_eq_false_iff_ne.2 h, lookup_filter_ne _ h]

theorem not_isOuter_append (row : List String) (h : Path.IsFileName name) :
    ¬IsOuter (row ++ [name]) := by
  rintro (hnil | hroot)
  · exact List.append_ne_nil_of_right_ne_nil row (List.cons_ne_nil name []) hnil
  · have hlast := congrArg List.getLast? hroot
    rw [List.getLast?_concat] at hlast
    exact h.not_root (Option.some.inj hlast)

/-! ## Directories -/

/-- A path leads to a directory, along a row of names. -/
structure LeadsTo (fs : FileSystem) (path : String) (row : List String) : Prop where
  entered : (Path.components path).foldlM fs.enter [] = .ok row
  directory : fs.find? row = some .directory

/-- Names are entered below directories. -/
theorem find?_of_enter (h : fs.enter row name = .ok names) : fs.find? row = some .directory := by
  unfold enter at h
  split at h
  · cases h
  · cases h
  · assumption

/-- What is entered below a directory depends on the names only. -/
theorem enter_congr {fs' : FileSystem} (h : fs.find? row = some .directory)
    (h' : fs'.find? row = some .directory) (name : String) :
    fs'.enter row name = fs.enter row name := by
  rw [enter, enter, h, h']

theorem enter_fileName (h : fs.find? row = some .directory) (hname : Path.IsFileName name) :
    fs.enter row name = .ok (row ++ [name]) := by
  rw [enter, h]
  exact if_pos (bne_iff_ne.2 hname.not_above)

/-- A path leads where it led as long as the directories on its way stay. -/
theorem foldlM_enter_of_stay {fs' : FileSystem} {comps : List String}
    (hstay : ∀ r, fs.find? r = some .directory → fs'.find? r = some .directory)
    (h : comps.foldlM fs.enter names = .ok row) : comps.foldlM fs'.enter names = .ok row := by
  induction comps generalizing names with
  | nil => exact h
  | cons name comps ih =>
    rw [List.foldlM_cons, bind_eq_ok] at h
    obtain ⟨next, henter, hrest⟩ := h
    have hdirectory := find?_of_enter henter
    rw [List.foldlM_cons, enter_congr hdirectory (hstay _ hdirectory), henter]
    exact ih hrest

namespace LeadsTo

variable (h : fs.LeadsTo path row) (hname : Path.IsFileName name)
include h

/-- Writing a file keeps the way to the directory. -/
theorem insert (hfile : fs.find? names ≠ some .directory) :
    (fs.insert names (.file contents)).LeadsTo path row := by
  have hstay : ∀ r, fs.find? r = some .directory →
      (fs.insert names (.file contents)).find? r = some .directory := by
    intro r hr
    have hne : r ≠ names := by
      rintro rfl
      exact hfile hr
    rw [find?_insert_of_ne hne, hr]
  exact ⟨foldlM_enter_of_stay hstay h.entered, hstay row h.directory⟩

include hname

/-- The path of a file leads one name further than its directory, if it is a path. -/
theorem resolve_join (htaken : pathError? (Path.join path name) = none) :
    fs.resolve (Path.join path name) = .ok (row ++ [name]) := by
  rw [resolve, htaken]
  show (Path.components (Path.join path name)).foldlM fs.enter [] = _
  rw [Path.components_join hname, List.foldlM_append, h.entered, ok_bind, List.foldlM_cons,
    enter_fileName h.directory hname]
  rfl

/-- **A file of a directory is read at its own row.** -/
theorem read_join (htaken : pathError? (Path.join path name) = none) :
    fs.read (Path.join path name) = match fs.find? (row ++ [name]) with
      | none => .error .notFound
      | some .directory => .error .isDirectory
      | some (.file contents) => .ok contents := by
  rw [read, h.resolve_join hname htaken, ok_bind, Path.wantsDirectory_join path hname]
  rfl

/-- **A file of a directory is written at its own row.** -/
theorem write_join (htaken : pathError? (Path.join path name) = none)
    (hfile : fs.find? (row ++ [name]) ≠ some .directory) :
    fs.write (Path.join path name) contents =
      .ok (fs.insert (row ++ [name]) (.file contents)) := by
  rw [write, h.resolve_join hname htaken, ok_bind, Path.wantsDirectory_join path hname]
  rw [if_neg (by simpa using hfile)]
  rfl

end LeadsTo

/-- **Which texts are paths**: those without zero characters whose names have up to 255 bytes each,
and which have some bytes themselves, but not as many as 4096. -/
theorem pathError?_eq_none : pathError? path = none ↔ '\x00' ∉ path.toList ∧ path ≠ "" ∧
    (∀ n ∈ Path.components path, n.utf8ByteSize ≤ 255) ∧ path.utf8ByteSize < 4096 := by
  have hsizes : ((Path.components path).any (255 < ·.utf8ByteSize) ||
      4096 ≤ path.utf8ByteSize) = false ↔
        (∀ n ∈ Path.components path, n.utf8ByteSize ≤ 255) ∧ path.utf8ByteSize < 4096 := by
    simp
  rw [← hsizes, pathError?, String.contains_char_eq]
  by_cases hzero : '\x00' ∈ path.toList
  · simp [hzero]
  · by_cases hempty : path = ""
    · simp [hempty]
    · rw [if_neg (by simpa using hzero), if_neg (by simpa using hempty)]
      cases (Path.components path).any (255 < ·.utf8ByteSize) || 4096 ≤ path.utf8ByteSize <;>
        simp [hzero, hempty]

/-- A path that is none is neither read nor written. -/
theorem read_of_pathError {e : FileError} (h : pathError? path = some e) :
    fs.read path = .error e := by
  rw [read, resolve, h]
  rfl

theorem write_of_pathError {e : FileError} (h : pathError? path = some e) :
    fs.write path contents = .error e := by
  rw [write, resolve, h]
  rfl

end FileSystem

end SecureBoot
