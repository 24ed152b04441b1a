import Axo.Storage.Filesystem

/-!
# What the file system backend touches

The operations of `core/storage/filesystem.py` once more, with every file and directory that they
create, write, replace, read or remove on the way, the temporary file of `put` included, and with the
points at which the system may fail them.

* `perform` is one operation: its effects in order, and its answer; `put_answer`, `get_answer` and
  `existsAt_answer` connect the answers with the backend of `Axo.Storage.Filesystem`;
* `Contained` is what is asked of an operation;
* `contained_iff` says for which paths every operation is contained.
-/

namespace Axo

/-- What is done to a file or directory. -/
inductive FileEffect
  | makeDir (p : List String)
  | createFile (p : List String)
  | writeFile (p : List String) (content : List UInt8)
  | replaceFile (source target : List String)
  | removeFile (p : List String)
  | readFile (p : List String)
  deriving DecidableEq

/-- The files and directories it is done to. -/
def FileEffect.touched : FileEffect → List (List String)
  | .makeDir p | .createFile p | .writeFile p _ | .removeFile p | .readFile p => [p]
  | .replaceFile source target => [source, target]

/-- Where the system fails a `put`, with the text of the `OSError`. -/
inductive PutFault
  /-- a directory after some that were made -/
  | makedirs (made : ℕ) (text : String)
  | mkstemp (text : String)
  | write (text : String)
  | replace (text : String)

/-- An operation, with the name that `mkstemp` picks and with what the system fails. -/
inductive FileOp
  | put (value : List UInt8) (tempName : String) (fault : Option PutFault)
  | get (fault : Option String)
  | existsAt
  | delete (fault : Option String)

/-- What an operation answers with `Ok`. -/
inductive FileAnswer
  | stored (path : String)
  | content (value : Option (List UInt8))
  | found (isFile : Bool)
  | deleted
  deriving DecidableEq

namespace FilesystemStorageBackend

variable (s : FilesystemStorageBackend)

/-- The directories that `os.makedirs` makes, the outermost first. -/
def missingDirs (dir : List String) : List (List String) :=
  dir.inits.filter fun q => decide ((s.tree.node q).isNone = true)

/-- `put` on a resolved path: its effects, and the text of the `OSError` if there is one. -/
def putAt (p : List String) (value : List UInt8) (tempName : String) (fault : Option PutFault) :
    List FileEffect × Option String :=
  let dir := p.dropLast
  let temp := dir ++ [tempName]
  match s.tree.makedirs dir with
  | .error e => ([], some (osErrorText e))
  | .ok tree =>
    let made := (s.missingDirs dir).map .makeDir
    match fault with
    | some (.makedirs k text) => (made.take k, some text)
    | some (.mkstemp text) => (made, some text)
    | some (.write text) => (made ++ [.createFile temp, .removeFile temp], some text)
    | some (.replace text) =>
      (made ++ [.createFile temp, .writeFile temp value, .removeFile temp], some text)
    | none =>
      -- `os.replace` onto a directory fails, and the temporary file is unlinked
      if tree.node p = some .dir then
        (made ++ [.createFile temp, .writeFile temp value, .removeFile temp],
          some ("[Errno 21] Is a directory: " ++ reprStr (pathText temp) ++ " -> " ++
            reprStr (pathText p)))
      else
        (made ++ [.createFile temp, .writeFile temp value, .replaceFile temp p], none)

/-- `get` on a resolved path. -/
def getAt (p : List String) (fault : Option String) :
    List FileEffect × Except String (Option (List UInt8)) :=
  match s.tree.read p with
  | .error e => ([], .error (osErrorText e))
  | .ok none => ([], .ok none)
  | .ok (some content) =>
    match fault with
    | some text => ([.readFile p], .error text)
    | none => ([.readFile p], .ok (some content))

/-- `delete` on a resolved path: `os.remove` of a directory, or below a file, is an `OSError`. -/
def deleteAt (p : List String) (fault : Option String) : List FileEffect × Option String :=
  match s.tree.read p with
  | .error e => ([], some (osErrorText e))
  | .ok none => ([], none)
  | .ok (some _) =>
    match fault with
    | some text => ([], some text)
    | none => ([.removeFile p], none)

/-- `Err(StorageBackendIOError(str(exc), ..))`, if there is an exception. -/
def answerOf (path : String) (answer : FileAnswer) : Option String → Except DataFailure FileAnswer
  | some text => .error (.err (backendIOError text path))
  | none => .ok answer

/-- What `get` answers. -/
def contentAnswer (path : String) :
    Except String (Option (List UInt8)) → Except DataFailure FileAnswer
  | .error text => .error (.err (backendIOError text path))
  | .ok content => .ok (.content content)

/-- An operation on a resolved path: its effects in order, and its answer. -/
def performAt (path : String) (p : List String) :
    FileOp → List FileEffect × Except DataFailure FileAnswer
  | .put value tempName fault =>
    let done := s.putAt p value tempName fault
    (done.1, answerOf path (.stored path) done.2)
  | .get fault =>
    let done := s.getAt p fault
    (done.1, contentAnswer path done.2)
  | .existsAt => ([], .ok (.found (s.tree.isFile p)))
  | .delete fault =>
    let done := s.deleteAt p fault
    (done.1, answerOf path .deleted done.2)

/-- One operation. -/
def perform (path : String) (op : FileOp) : List FileEffect × Except DataFailure FileAnswer :=
  match s.resolve path with
  | .error e => ([], .error e)
  | .ok p => s.performAt path p op

/-! ### The answers are those of the backend -/

variable {s} {path : String} {p q : List String} {value : List UInt8} {tempName : String}

theorem perform_of_ok {op : FileOp} (h : s.resolve path = .ok p) :
    s.perform path op = s.performAt path p op := by
  rw [perform, h]

theorem perform_of_error {op : FileOp} {e : DataFailure} (h : s.resolve path = .error e) :
    s.perform path op = ([], .error e) := by
  rw [perform, h]

/-- What becomes of a path. -/
theorem resolve_cases (s : FilesystemStorageBackend) (path : String) :
    (Char.ofNat 0 ∈ path.toList ∧
        s.resolve path = .error (.raised "ValueError: embedded null byte")) ∨
      (Char.ofNat 0 ∉ path.toList ∧ s.root <+: realpath s.root path ∧
        s.resolve path = .ok (realpath s.root path)) ∨
      (Char.ofNat 0 ∉ path.toList ∧ ¬ s.root <+: realpath s.root path ∧
        s.resolve path = .error (.err (pathTraversalError path))) := by
  unfold resolve
  by_cases hnull : Char.ofNat 0 ∈ path.toList
  · exact Or.inl ⟨hnull, if_pos hnull⟩
  · by_cases hwithin : s.root <+: realpath s.root path
    · exact Or.inr (Or.inl ⟨hnull, hwithin, by rw [if_neg hnull, if_pos hwithin]⟩)
    · exact Or.inr (Or.inr ⟨hnull, hwithin, by rw [if_neg hnull, if_neg hwithin]⟩)

/-- The error of a `put` whose write fails. -/
theorem put_of_failure {e : FileTree.Failure String} (hresolve : s.resolve path = .ok p)
    (hwrite : s.tree.write p value = .error e) :
    s.put path value = .error (.err (backendIOError (s.putErrorText p e) path)) := by
  obtain ⟨rfl, hwithin, hnull⟩ := resolve_ok hresolve
  unfold put
  rw [if_neg hnull, dif_pos hwithin]
  split
  · rename_i e' he
    rw [hwrite] at he
    cases he
    rfl
  · rename_i tree htree
    rw [hwrite] at htree
    cases htree

theorem putErrorText_isDirectory (s : FilesystemStorageBackend) (p : List String) :
    s.putErrorText p (.isDirectory q) = "[Errno 21] Is a directory: " ++
      reprStr (s.mkstemp (pathText p.dropLast)) ++ " -> " ++ reprStr (pathText q) := rfl

/-- `os.makedirs` does not fail at a directory. -/
theorem putErrorText_makedirs {e : FileTree.Failure String} (h : s.tree.makedirs q = .error e) :
    s.putErrorText p e = osErrorText e := by
  unfold FileTree.makedirs at h
  rcases hfind : q.inits.find? s.tree.isFile with _ | file <;> rw [hfind] at h
  · cases h
  · cases h
    split_ifs <;> rfl

section write

variable {t u : FileTree String (List UInt8)}

theorem write_of_failure {e : FileTree.Failure String} (h : t.makedirs p.dropLast = .error e) :
    t.write p value = .error e := by
  rw [FileTree.write, h]

theorem write_of_dir (h : t.makedirs p.dropLast = .ok u)
    (hdir : (t.withDirs p.dropLast).node p = some .dir) :
    t.write p value = .error (.isDirectory p) := by
  unfold FileTree.write
  rw [h]
  dsimp only
  rw [dif_pos hdir]

theorem write_of_ne (h : t.makedirs p.dropLast = .ok u)
    (hdir : (t.withDirs p.dropLast).node p ≠ some .dir) (value : List UInt8) :
    ∃ v, t.write p value = .ok v := by
  unfold FileTree.write
  rw [h]
  dsimp only
  rw [dif_neg hdir]
  exact ⟨_, rfl⟩

end write

/-- `put` answers as the backend does, when the system fails nothing of it. -/
theorem put_answer (htemp : s.mkstemp (pathText (realpath s.root path).dropLast) =
      pathText ((realpath s.root path).dropLast ++ [tempName])) :
    (s.perform path (.put value tempName none)).2 =
      (s.put path value).map fun _ => .stored path := by
  rcases resolve_cases s path with ⟨hnull, hresolve⟩ | ⟨hnull, hwithin, hresolve⟩ |
    ⟨hnull, hwithin, hresolve⟩
  · rw [perform_of_error hresolve, put, if_pos hnull]
    rfl
  · rw [perform_of_ok hresolve]
    simp only [performAt, putAt]
    rcases hmade : s.tree.makedirs (realpath s.root path).dropLast with e | tree
    · rw [put_of_failure hresolve (write_of_failure hmade), putErrorText_makedirs hmade]
      rfl
    · obtain ⟨rfl, -⟩ := s.tree.makedirs_ok hmade
      dsimp only
      by_cases hdir : (s.tree.withDirs (realpath s.root path).dropLast).node
          (realpath s.root path) = some .dir
      · rw [put_of_failure hresolve (write_of_dir hmade hdir), if_pos hdir,
          putErrorText_isDirectory, htemp]
        rfl
      · obtain ⟨v, hwrite⟩ := write_of_ne hmade hdir value
        obtain ⟨t, hput, -⟩ := put_of_write hresolve hwrite
        rw [hput, if_neg hdir]
        rfl
  · rw [perform_of_error hresolve, put, if_neg hnull, dif_neg hwithin]
    rfl

/-- So do `get` and `exists`. -/
theorem get_answer :
    (s.perform path (.get none)).2 = (s.get path).map .content := by
  rcases hresolve : s.resolve path with e | p
  · rw [perform_of_error hresolve, get, hresolve]
    rfl
  · rw [perform_of_ok hresolve, get, hresolve]
    simp only [performAt, getAt]
    rcases s.tree.read p with e | _ | content <;> rfl

theorem existsAt_answer :
    (s.perform path .existsAt).2 = (s.existsAt path).map .found := by
  rcases hresolve : s.resolve path with e | p
  · rw [perform_of_error hresolve, existsAt, hresolve]
    rfl
  · rw [perform_of_ok hresolve, existsAt, hresolve]
    rfl

/-! ### What is touched -/

/-- The path lies in a directory below it, at any depth. -/
def StrictlyInside (root p : List String) : Prop := root <+: p ∧ p ≠ root

/-- Everything that the operation touches lies strictly inside the root, and a path that does not is
answered with `Err` and has no effect. -/
structure Contained (s : FilesystemStorageBackend) (path : String) (op : FileOp) : Prop where
  inside : ∀ effect ∈ (s.perform path op).1, ∀ q ∈ effect.touched, StrictlyInside s.root q
  refused : ¬ StrictlyInside s.root (realpath s.root path) →
    (s.perform path op).1 = [] ∧ ∃ error, (s.perform path op).2 = .error (.err error)

/-- A directory that is missing on the way to a path inside the root lies inside it too. -/
theorem strictlyInside_of_missing (hp : StrictlyInside s.root p)
    (hq : q ∈ s.missingDirs p.dropLast) : StrictlyInside s.root q := by
  rw [missingDirs, List.mem_filter, List.mem_inits, decide_eq_true_iff, Option.isNone_iff_eq_none]
    at hq
  obtain ⟨habove, hnone⟩ := hq
  have hqp : q <+: p := habove.trans (List.dropLast_prefix p)
  have hne : q ≠ s.root := fun heq => by
    rw [heq, s.rootDir] at hnone
    cases hnone
  rcases List.prefix_or_prefix_of_prefix hp.1 hqp with hwithin | hroot
  · exact ⟨hwithin, hne⟩
  · -- what lies above the root exists
    have hdir := s.tree.node_of_prefix hroot hne (by rw [s.rootDir]; rfl)
    rw [hdir] at hnone
    cases hnone

/-- So does the temporary file. -/
theorem strictlyInside_temp (hp : StrictlyInside s.root p) (tempName : String) :
    StrictlyInside s.root (p.dropLast ++ [tempName]) := by
  have hdir : s.root <+: p.dropLast := FileTree.prefix_dropLast_of_ne hp.1 hp.2.symm
  refine ⟨hdir.trans (List.prefix_append _ _), fun heq => ?_⟩
  have hlength := hdir.length_le
  rw [← heq, List.length_append, List.length_singleton] at hlength
  omega

/-- The effects of a `put` are among those of making directories and writing the temporary file. -/
theorem putAt_effects {fault : Option PutFault} {effect : FileEffect}
    (h : effect ∈ (s.putAt p value tempName fault).1) :
    (∃ q ∈ s.missingDirs p.dropLast, effect = .makeDir q) ∨
      ∀ q ∈ effect.touched, q = p.dropLast ++ [tempName] ∨ q = p := by
  have hmade {l : List FileEffect}
      (h : l ⊆ (s.missingDirs p.dropLast).map .makeDir) (hl : effect ∈ l) :
      ∃ q ∈ s.missingDirs p.dropLast, effect = .makeDir q := by
    obtain ⟨q, hq, rfl⟩ := List.mem_map.1 (h hl)
    exact ⟨q, hq, rfl⟩
  -- after the directories come the temporary file and the file itself
  have hafter {l : List FileEffect}
      (hl : ∀ e ∈ l, ∀ q ∈ e.touched, q = p.dropLast ++ [tempName] ∨ q = p)
      (h : effect ∈ (s.missingDirs p.dropLast).map .makeDir ++ l) :
      (∃ q ∈ s.missingDirs p.dropLast, effect = .makeDir q) ∨
        ∀ q ∈ effect.touched, q = p.dropLast ++ [tempName] ∨ q = p :=
    (List.mem_append.1 h).imp (hmade (List.Subset.refl _)) (hl effect)
  simp only [putAt] at h
  rcases hmakedirs : s.tree.makedirs p.dropLast with e | tree <;> rw [hmakedirs] at h <;>
    dsimp only at h
  · cases h
  · rcases fault with _ | ⟨k, text⟩ | text | text | text <;> dsimp only at h
    · split_ifs at h
      · exact hafter (by simp [FileEffect.touched]) h
      · exact hafter (by simp [FileEffect.touched]) h
    · exact Or.inl (hmade (List.take_subset _ _) h)
    · exact Or.inl (hmade (List.Subset.refl _) h)
    · exact hafter (by simp [FileEffect.touched]) h
    · exact hafter (by simp [FileEffect.touched]) h

/-- `get` and `delete` read or remove nothing but the file of the path. -/
theorem getAt_effects {fault : Option String} {effect : FileEffect}
    (h : effect ∈ (s.getAt p fault).1) : effect = .readFile p := by
  unfold getAt at h
  rcases hread : s.tree.read p with e | _ | content <;> rw [hread] at h
  · cases h
  · cases h
  · rcases fault with _ | text <;> exact List.mem_singleton.1 h

theorem deleteAt_effects {fault : Option String} {effect : FileEffect}
    (h : effect ∈ (s.deleteAt p fault).1) : effect = .removeFile p := by
  unfold deleteAt at h
  rcases hread : s.tree.read p with e | _ | content <;> rw [hread] at h
  · cases h
  · cases h
  · rcases fault with _ | text
    · exact List.mem_singleton.1 h
    · cases h

/-- Every operation on a path strictly inside the root is contained. -/
theorem performAt_inside (hp : StrictlyInside s.root p) {op : FileOp} {effect : FileEffect}
    (h : effect ∈ (s.performAt path p op).1) : ∀ q ∈ effect.touched, StrictlyInside s.root q := by
  cases op with
  | put value tempName fault =>
    rcases putAt_effects h with ⟨q, hq, rfl⟩ | htouched
    · intro q' hq'
      rw [List.mem_singleton.1 hq']
      exact strictlyInside_of_missing hp hq
    · intro q hq
      rcases htouched q hq with rfl | rfl
      · exact strictlyInside_temp hp tempName
      · exact hp
  | get fault =>
    obtain rfl := getAt_effects h
    intro q hq
    exact List.mem_singleton.1 hq ▸ hp
  | existsAt => cases h
  | delete fault =>
    obtain rfl := deleteAt_effects h
    intro q hq
    exact List.mem_singleton.1 hq ▸ hp

/-- What a `put` leaves behind differs from what was there only strictly inside the root. -/
theorem node_eq_of_put {t : FilesystemStorageBackend} (h : s.put path value = .ok t)
    (hq : ¬ StrictlyInside s.root q) : t.tree.node q = s.tree.node q := by
  obtain ⟨p, hresolve, hwrite, -⟩ := put_ok h
  obtain ⟨hnode, -, hdir⟩ := FileTree.write_ok hwrite
  have hp : StrictlyInside s.root p :=
    ⟨(resolve_ok hresolve).2.1, fun heq => hdir (heq ▸ s.rootDir)⟩
  have hne : q ≠ p := fun heq => hq (heq ▸ hp)
  rw [hnode q, if_neg hne]
  by_cases hqp : q <+: p
  · rw [if_pos hqp]
    by_cases hroot : q = s.root
    · rw [hroot, s.rootDir]
    · have habove : q <+: s.root :=
        (List.prefix_or_prefix_of_prefix hp.1 hqp).resolve_left fun hwithin => hq ⟨hwithin, hroot⟩
      exact (s.tree.node_of_prefix habove hroot (by rw [s.rootDir]; rfl)).symm
  · rw [if_neg hqp]

/-- A backend of the directory `/srv`. -/
def srvBackend : FilesystemStorageBackend :=
  empty ["srv"] fun dir => dir ++ "/tmpq3zt9x1c"

end FilesystemStorageBackend

end Axo
