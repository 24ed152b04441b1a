import Axo.Data.DataStore
import Axo.Lib.FileTree

/-!
# The file system backend

`core/storage/filesystem.py`, over a file tree without links.

* a path is joined to the root and normalised as `os.path.realpath` does it: empty components and
  `.` are dropped, and `..` takes the component before it away;
* a path that leaves the root is refused;
* a backend carries the proof that its root is a directory;
* `realpath_chunkKey` is what becomes of the path of a chunk.
-/

namespace Axo

/-! ### Paths -/

/-- One more component of a path. -/
def joinComponent (real : List String) (component : String) : List String :=
  if component = "" ∨ component = "." then real
  else if component = ".." then real.dropLast
  else real ++ [component]

/-- The components of a path. -/
def splitPath (path : String) : List String := (path.toList.splitOn '/').map String.ofList

/-- `os.path.realpath(os.path.join(root, path))`: an absolute path does not start at the root. -/
def realpath (root : List String) (path : String) : List String :=
  (splitPath path).foldl joinComponent (if path.toList.head? = some '/' then [] else root)

/-- The text of an absolute path. -/
def pathText (p : List String) : String := "/" ++ String.intercalate "/" p

theorem splitPath_append (a b : String) :
    splitPath (a ++ "/" ++ b) = splitPath a ++ splitPath b := by
  have htext : (a ++ "/" ++ b).toList = a.toList ++ '/' :: b.toList := by simp
  unfold splitPath
  rw [htext, List.splitOn_eq_splitOnP, List.splitOnP_append_cons _ _ (by decide), List.map_append,
    List.splitOn_eq_splitOnP, List.splitOn_eq_splitOnP]

theorem splitPath_of_notMem {a : String} (h : '/' ∉ a.toList) : splitPath a = [a] := by
  unfold splitPath
  rw [List.splitOn_eq_splitOnP, List.splitOnP_eq_singleton]
  · rw [List.map_singleton, String.ofList_toList]
  · intro c hc
    simpa using fun heq : c = '/' => h (heq ▸ hc)

/-- A component that is no special one. -/
theorem joinComponent_of_ne {component : String} (real : List String) (hempty : component ≠ "")
    (hdot : component ≠ ".") (hdots : component ≠ "..") :
    joinComponent real component = real ++ [component] := by
  unfold joinComponent
  rw [if_neg (not_or.2 ⟨hempty, hdot⟩), if_neg hdots]

/-- The directory of the chunks of a dataset. -/
def chunkDir (root : List String) (key : RecordKey) : List String :=
  realpath root (key.id ++ "/") ++ [key.version.repr]

/-- The name of the file of a chunk. -/
def chunkFile (index : ℤ) : String := "chunk_" ++ padded index

/-- What becomes of the path of a chunk: version and file name are components of their own,
whatever becomes of the name of the dataset. -/
theorem realpath_chunkKey (root : List String) (kind : String) (key : RecordKey) (i : ℕ) :
    realpath root (chunkKey kind key i).path = chunkDir root key ++ [chunkFile i] := by
  have hfile : '/' ∉ (chunkFile i).toList := by
    rw [chunkFile, String.toList_append]
    exact slash_notMem_file i
  have hpath : (chunkKey kind key i).path =
      key.id ++ "/" ++ key.version.repr ++ "/" ++ chunkFile i := by
    rw [← String.toList_inj]
    simp [chunkKey, chunkFile]
  have hsplit : splitPath (chunkKey kind key i).path =
      splitPath key.id ++ [key.version.repr] ++ [chunkFile i] := by
    rw [hpath, splitPath_append, splitPath_append, splitPath_of_notMem (slash_notMem_repr _),
      splitPath_of_notMem hfile]
  have hhead : (chunkKey kind key i).path.toList.head? = (key.id ++ "/").toList.head? := by
    rw [hpath]
    rcases hid : key.id.toList with _ | ⟨c, cs⟩ <;> simp [hid]
  have hdir : realpath root (key.id ++ "/") = (splitPath key.id).foldl joinComponent
      (if (key.id ++ "/").toList.head? = some '/' then [] else root) := by
    have hslash : splitPath (key.id ++ "/") = splitPath key.id ++ [""] := by
      rw [← splitPath_of_notMem (a := "") (by simp), ← splitPath_append, String.append_empty]
    unfold realpath
    rw [hslash, List.foldl_append, List.foldl_cons, List.foldl_nil, joinComponent,
      if_pos (.inl rfl)]
  have hversion (real : List String) :
      joinComponent real key.version.repr = real ++ [key.version.repr] := by
    have hread : intOfStr key.version.repr.toList ≠ none := by
      rw [intOfStr_repr]
      exact Option.some_ne_none _
    refine joinComponent_of_ne real ?_ ?_ ?_ <;> intro heq <;> rw [heq] at hread <;>
      exact hread (by decide)
  have hname (real : List String) :
      joinComponent real (chunkFile i) = real ++ [chunkFile i] := by
    have hchars : (chunkFile i).toList = 'c' :: ("hunk_" ++ padded i).toList := by simp [chunkFile]
    refine joinComponent_of_ne real ?_ ?_ ?_ <;> intro heq <;> rw [heq] at hchars <;>
      cases hchars
  unfold chunkDir
  rw [hdir, realpath, hsplit, hhead, List.foldl_append, List.foldl_append, List.foldl_cons,
    List.foldl_nil, List.foldl_cons, List.foldl_nil, hversion, hname]

example : realpath ["srv"] "a/./b/..//c" = ["srv", "a", "c"] := by decide

/-! ### Errors -/

/-- `StoragePathTraversalError`. -/
def pathTraversalError (path : String) : AxoError :=
  { code := 8001
    name := "STORAGE_PATH_TRAVERSAL"
    message := "path " ++ reprStr path ++ " escapes the storage root"
    context := [("path", .str path)] }

/-- The text of an `OSError`. -/
def osErrorText : FileTree.Failure String → String
  | .isDirectory p => "[Errno 21] Is a directory: " ++ reprStr (pathText p)
  | .notDirectory p => "[Errno 20] Not a directory: " ++ reprStr (pathText p)
  | .fileExists p => "[Errno 17] File exists: " ++ reprStr (pathText p)

/-- `StorageBackendIOError`. -/
def backendIOError (message path : String) : AxoError :=
  { code := 8002
    name := "STORAGE_BACKEND_IO_ERROR"
    message := message
    context := [("path", .str path)] }

/-! ### The backend -/

/-- `FilesystemStorageBackend`. -/
structure FilesystemStorageBackend where
  /-- the components of the root, a real path -/
  root : List String
  tree : FileTree String (List UInt8)
  /-- the temporary file that `mkstemp` makes in a directory -/
  mkstemp : String → String
  rootDir : tree.node root = some .dir

namespace FilesystemStorageBackend

/-- The backend of a new root. -/
def empty (root : List String) (mkstemp : String → String) : FilesystemStorageBackend where
  root := root
  tree := .ofDirs root
  mkstemp := mkstemp
  rootDir := if_pos (List.prefix_refl root)

variable (s : FilesystemStorageBackend)

/-- `_resolve`; no path of the system has a null byte. -/
def resolve (path : String) : Except DataFailure (List String) :=
  if Char.ofNat 0 ∈ path.toList then .error (.raised "ValueError: embedded null byte")
  else if s.root <+: realpath s.root path then .ok (realpath s.root path)
  else .error (.err (pathTraversalError path))

/-- The text of the error of a `put`: `os.replace` names the temporary file too. -/
def putErrorText (p : List String) : FileTree.Failure String → String
  | .isDirectory q => "[Errno 21] Is a directory: " ++
      reprStr (s.mkstemp (pathText p.dropLast)) ++ " -> " ++ reprStr (pathText q)
  | e => osErrorText e

/-- A write leaves the root a directory. -/
theorem rootDir_write {p : List String} {value : List UInt8}
    {tree : FileTree String (List UInt8)} (hwithin : s.root <+: p)
    (h : s.tree.write p value = .ok tree) : tree.node s.root = some .dir := by
  obtain ⟨hnode, -, hdir⟩ := FileTree.write_ok h
  have hne : s.root ≠ p := fun heq => hdir (heq ▸ s.rootDir)
  rw [hnode s.root, if_neg hne, if_pos hwithin]

/-- `put`. -/
def put (path : String) (value : List UInt8) : Except DataFailure FilesystemStorageBackend :=
  if Char.ofNat 0 ∈ path.toList then .error (.raised "ValueError: embedded null byte")
  else if hwithin : s.root <+: realpath s.root path then
    match h : s.tree.write (realpath s.root path) value with
    | .error e =>
      .error (.err (backendIOError (s.putErrorText (realpath s.root path) e) path))
    | .ok tree => .ok { s with tree := tree, rootDir := s.rootDir_write hwithin h }
  else .error (.err (pathTraversalError path))

/-- `get`. -/
def get (path : String) : Except DataFailure (Option (List UInt8)) :=
  match s.resolve path with
  | .error e => .error e
  | .ok p =>
    match s.tree.read p with
    | .error e => .error (.err (backendIOError (osErrorText e) path))
    | .ok value => .ok value

/-- `exists`. -/
def existsAt (path : String) : Except DataFailure Bool :=
  match s.resolve path with
  | .error e => .error e
  | .ok p => .ok (s.tree.isFile p)

/-- `delete`; what the only caller does not look at is left out: the errors of `os.remove`, which
changes nothing then. -/
def delete (path : String) : Except DataFailure FilesystemStorageBackend :=
  match s.resolve path with
  | .error e => .error e
  | .ok p =>
    .ok { s with
      tree := s.tree.remove p
      rootDir := by
        have hnot : ¬ (s.root = p ∧ s.tree.isFile p = true) := by
          rintro ⟨rfl, hfile⟩
          rw [s.tree.isFile_of_dir s.rootDir] at hfile
          cases hfile
        exact (if_neg hnot).trans s.rootDir }

/-! ### What the operations change -/

variable {s} {t : FilesystemStorageBackend} {path path' : String} {p q : List String}
  {value : List UInt8}

theorem resolve_ok (h : s.resolve path = .ok p) :
    p = realpath s.root path ∧ s.root <+: p ∧ Char.ofNat 0 ∉ path.toList := by
  unfold resolve at h
  split_ifs at h with hnull hwithin
  cases h
  exact ⟨rfl, hwithin, hnull⟩

theorem put_ok (h : s.put path value = .ok t) :
    ∃ p, s.resolve path = .ok p ∧ s.tree.write p value = .ok t.tree ∧ t.root = s.root := by
  unfold put at h
  split_ifs at h with hnull hwithin
  split at h <;> cases h
  refine ⟨realpath s.root path, ?_, ‹_›, rfl⟩
  rw [resolve, if_neg hnull, if_pos hwithin]

theorem put_of_write {tree : FileTree String (List UInt8)} (hresolve : s.resolve path = .ok p)
    (hwrite : s.tree.write p value = .ok tree) :
    ∃ t, s.put path value = .ok t ∧ t.tree = tree ∧ t.root = s.root := by
  obtain ⟨rfl, hwithin, hnull⟩ := resolve_ok hresolve
  unfold put
  rw [if_neg hnull, dif_pos hwithin]
  split
  · rename_i e he
    rw [hwrite] at he
    cases he
  · rename_i tree' htree
    rw [hwrite] at htree
    cases htree
    exact ⟨_, rfl, rfl, rfl⟩

theorem delete_ok (h : s.delete path = .ok t) :
    ∃ p, s.resolve path = .ok p ∧ t.tree = s.tree.remove p ∧ t.root = s.root := by
  unfold delete at h
  rcases hresolve : s.resolve path with e | p <;> rw [hresolve] at h <;> cases h
  exact ⟨p, rfl, rfl, rfl⟩

theorem resolve_congr (hroot : t.root = s.root) : t.resolve path = s.resolve path := by
  unfold resolve
  rw [hroot]

/-- Two backends answer the same about a path. -/
structure SameAt (s t : FilesystemStorageBackend) (path : String) : Prop where
  get : t.get path = s.get path
  existsAt : t.existsAt path = s.existsAt path

theorem SameAt.refl (s : FilesystemStorageBackend) (path : String) : SameAt s s path := ⟨rfl, rfl⟩

theorem SameAt.trans {u : FilesystemStorageBackend} (h : SameAt s t path) (h' : SameAt t u path) :
    SameAt s u path := ⟨h'.get.trans h.get, h'.existsAt.trans h.existsAt⟩

/-- Backends of one root whose trees are the same where the path leads to. -/
theorem sameAt_of_tree (hroot : t.root = s.root)
    (htree : ∀ q, s.resolve path = .ok q → q ≠ s.root → FileTree.SameAt s.tree t.tree q) :
    SameAt s t path := by
  have hresolve : t.resolve path = s.resolve path := resolve_congr hroot
  rcases hpath : s.resolve path with e | q
  · constructor
    · rw [get, get, hresolve, hpath]
    · rw [existsAt, existsAt, hresolve, hpath]
  have hsame : FileTree.SameAt s.tree t.tree q := by
    by_cases hq : q = s.root
    · -- the root stays a directory
      have hdir := hroot ▸ t.rootDir
      subst hq
      constructor
      · rw [FileTree.read, FileTree.read, hdir, s.rootDir]
      · rw [FileTree.isFile_of_dir _ hdir, FileTree.isFile_of_dir _ s.rootDir]
    · exact htree q hpath hq
  constructor
  · rw [get, get, hresolve, hpath]
    dsimp only
    rw [hsame.read]
  · rw [existsAt, existsAt, hresolve, hpath]
    dsimp only
    rw [hsame.isFile]

/-- Neither path lies above the other, and they are not the same, if both lead below the root. -/
def Apart (s : FilesystemStorageBackend) (path path' : String) : Prop :=
  ∀ p q, s.resolve path = .ok p → p ≠ s.root → s.resolve path' = .ok q → q ≠ s.root →
    ¬ q <+: p ∧ ¬ p <+: q

theorem sameAt_put (h : s.put path value = .ok t) (hapart : s.Apart path path') :
    SameAt s t path' := by
  obtain ⟨p, hp, hwrite, hroot⟩ := put_ok h
  refine sameAt_of_tree hroot fun q hq hne => ?_
  have hpne : p ≠ s.root := fun heq => (FileTree.write_ok hwrite).2.2 (heq ▸ s.rootDir)
  obtain ⟨habove, hbelow⟩ := hapart p q hp hpne hq hne
  exact FileTree.sameAt_write hwrite habove hbelow

theorem sameAt_delete (h : s.delete path = .ok t) (hapart : s.Apart path path') :
    SameAt s t path' := by
  obtain ⟨p, hp, hremove, hroot⟩ := delete_ok h
  refine sameAt_of_tree hroot fun q hq hne => ?_
  rw [hremove]
  by_cases hpne : p = s.root
  · have hsame : s.tree.remove p = s.tree := by
      rw [hpne]
      exact FileTree.remove_of_dir s.rootDir
    rw [hsame]
    exact FileTree.SameAt.refl _ _
  · exact FileTree.sameAt_remove (hapart p q hp hpne hq hne).2

end FilesystemStorageBackend

end Axo
