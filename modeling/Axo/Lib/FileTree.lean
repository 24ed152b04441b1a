import Mathlib.Data.List.Infix
import Mathlib.Logic.Function.Basic

/-!
# File trees

A tree of directories and files without links.  A path is the list of its components, the first one
below the root.

* `FileTree` carries the proof that whatever exists lies in a directory;
* `write` makes the directories that are missing, and `read` and `remove` work on files only;
* `SameAt` says that two trees read the same at a path; `sameAt_write` and `sameAt_remove` are the
  paths at which an operation changes nothing.
-/

/-- What a path leads to. -/
inductive FileNode (β : Type*)
  | dir
  | file (content : β)

/-- Whether there is a directory. -/
instance {β : Type*} (n : Option (FileNode β)) : Decidable (n = some .dir) :=
  match n with
  | none => isFalse nofun
  | some .dir => isTrue rfl
  | some (.file _) => isFalse nofun

/-- A tree of directories and files. -/
structure FileTree (α β : Type*) where
  node : List α → Option (FileNode β)
  root_dir : node [] = some .dir
  closed : ∀ p a, (node (p ++ [a])).isSome → node p = some .dir

namespace FileTree

variable {α β : Type*}

/-- How an operation fails. -/
inductive Failure (α : Type*)
  | isDirectory (p : List α)
  | notDirectory (p : List α)
  | fileExists (p : List α)
  deriving DecidableEq

section Read

variable (t : FileTree α β)

/-- The path leads to a file. -/
def isFile (p : List α) : Bool :=
  match t.node p with
  | some (.file _) => true
  | _ => false

/-- The content of a file, or nothing if there is none. -/
def read (p : List α) : Except (Failure α) (Option β) :=
  match t.node p with
  | some (.file content) => .ok (some content)
  | some .dir => .error (.isDirectory p)
  | none => if p.inits.any t.isFile then .error (.notDirectory p) else .ok none

theorem isFile_of_dir {p : List α} (h : t.node p = some .dir) : t.isFile p = false := by
  rw [isFile, h]

theorem any_isFile_iff {p : List α} :
    p.inits.any t.isFile = true ↔ ∃ q, q <+: p ∧ t.isFile q = true := by
  simp [List.any_eq_true, List.mem_inits]

/-- What lies above something that exists is a directory. -/
theorem node_of_prefix {p q : List α} (hpre : p <+: q) (hne : p ≠ q) (hq : (t.node q).isSome) :
    t.node p = some .dir := by
  obtain ⟨r, rfl⟩ := hpre
  induction r using List.reverseRecOn with
  | nil => exact absurd (List.append_nil p).symm hne
  | append_singleton r a ih =>
    rw [← List.append_assoc] at hq
    have hdir := t.closed (p ++ r) a hq
    by_cases hr : r = []
    · rw [hr, List.append_nil] at hdir
      exact hdir
    · refine ih ?_ (by rw [hdir]; rfl)
      simpa using hr

/-- Below a file there is nothing. -/
theorem read_below {p q : List α} (hfile : t.isFile p = true) (hpre : p <+: q) (hne : p ≠ q) :
    t.read q = .error (.notDirectory q) := by
  unfold read
  rcases hnode : t.node q with _ | n
  · dsimp only
    rw [if_pos (t.any_isFile_iff.2 ⟨p, hpre, hfile⟩)]
  · have hdir := t.node_of_prefix hpre hne (by rw [hnode]; rfl)
    rw [t.isFile_of_dir hdir] at hfile
    cases hfile

end Read

/-- Two trees read the same at a path. -/
structure SameAt (t u : FileTree α β) (q : List α) : Prop where
  read : u.read q = t.read q
  isFile : u.isFile q = t.isFile q

/-- Trees with the same node at a path, and the same files above it, read the same there. -/
theorem sameAt_of_node {t u : FileTree α β} {q : List α} (hnode : u.node q = t.node q)
    (habove : ∀ r, r <+: q → u.isFile r = t.isFile r) : SameAt t u q := by
  have hany : q.inits.any u.isFile = q.inits.any t.isFile := by
    rw [Bool.eq_iff_iff, any_isFile_iff, any_isFile_iff]
    refine exists_congr fun r => and_congr_right fun hr => ?_
    rw [habove r hr]
  constructor
  · unfold FileTree.read
    rw [hnode, hany]
  · exact habove q (List.prefix_refl q)

theorem SameAt.refl (t : FileTree α β) (q : List α) : SameAt t t q := ⟨rfl, rfl⟩

theorem prefix_dropLast_of_ne {p q : List α} (hpre : q <+: p) (hne : q ≠ p) :
    q <+: p.dropLast := by
  rcases List.eq_nil_or_concat' p with rfl | ⟨p, a, rfl⟩
  · exact absurd (List.prefix_nil.1 hpre) hne
  · rw [List.dropLast_concat]
    exact (List.prefix_concat_iff.1 hpre).resolve_left hne

variable [DecidableEq α]

/-- The tree of a path of directories. -/
def ofDirs (p : List α) : FileTree α β where
  node := fun q => if q <+: p then some .dir else none
  root_dir := if_pos List.nil_prefix
  closed := fun q a h => by
    split_ifs at h with hq
    · exact if_pos ((List.prefix_append q [a]).trans hq)
    · cases h

variable (t : FileTree α β)

/-! ### Directories -/

/-- The tree with the path and everything above it directories. -/
def withDirs (p : List α) : FileTree α β where
  node := fun q => if q <+: p then some .dir else t.node q
  root_dir := if_pos List.nil_prefix
  closed := fun q a hq => by
    by_cases hpre : q <+: p
    · exact if_pos hpre
    · have hnot : ¬ q ++ [a] <+: p := fun hqa => hpre ((List.prefix_append q [a]).trans hqa)
      rw [if_neg hnot] at hq
      rw [if_neg hpre]
      exact t.closed q a hq

/-- `makedirs` of a path that may exist: it fails at the first file on the way. -/
def makedirs (p : List α) : Except (Failure α) (FileTree α β) :=
  match p.inits.find? t.isFile with
  | none => .ok (t.withDirs p)
  | some q => .error (if q = p then .fileExists p else .notDirectory (p.take (q.length + 1)))

theorem makedirs_ok {p : List α} {u : FileTree α β} (h : t.makedirs p = .ok u) :
    u = t.withDirs p ∧ ∀ q, q <+: p → t.isFile q = false := by
  unfold makedirs at h
  rcases hfile : p.inits.find? t.isFile with _ | q <;> rw [hfile] at h <;> cases h
  refine ⟨rfl, fun q hq => ?_⟩
  have hnone := List.find?_eq_none.1 hfile q ((List.mem_inits _ _).2 hq)
  simpa using hnone

/-! ### Files -/

/-- The tree with a file at a path that is no directory and lies in one. -/
def setFile (p : List α) (content : β) (hdir : t.node p ≠ some .dir)
    (hparent : t.node p.dropLast = some .dir) : FileTree α β where
  node := fun q => if q = p then some (.file content) else t.node q
  root_dir := by
    by_cases hp : p = []
    · rw [hp] at hdir
      exact absurd t.root_dir hdir
    · rw [if_neg fun h => hp h.symm]
      exact t.root_dir
  closed := fun q a hq => by
    by_cases hqp : q = p
    · -- nothing lies below what is no directory
      subst hqp
      have hne : q ++ [a] ≠ q := by simp
      rw [if_neg hne] at hq
      exact absurd (t.closed q a hq) hdir
    · rw [if_neg hqp]
      by_cases hqa : q ++ [a] = p
      · rw [← hqa, List.dropLast_concat] at hparent
        exact hparent
      · rw [if_neg hqa] at hq
        exact t.closed q a hq

theorem node_withDirs_self (p : List α) : (t.withDirs p).node p = some .dir :=
  if_pos (List.prefix_refl p)

/-- Write a file, and make the directories above it. -/
def write (p : List α) (content : β) : Except (Failure α) (FileTree α β) :=
  match t.makedirs p.dropLast with
  | .error e => .error e
  | .ok _ =>
    if h : (t.withDirs p.dropLast).node p = some .dir then .error (.isDirectory p)
    else .ok ((t.withDirs p.dropLast).setFile p content h (t.node_withDirs_self p.dropLast))

/-- Remove a file, if the path leads to one. -/
def remove (p : List α) : FileTree α β where
  node := fun q => if q = p ∧ t.isFile p = true then none else t.node q
  root_dir := by
    by_cases h : [] = p ∧ t.isFile p = true
    · obtain ⟨rfl, hfile⟩ := h
      rw [t.isFile_of_dir t.root_dir] at hfile
      cases hfile
    · rw [if_neg h]
      exact t.root_dir
  closed := fun q a hq => by
    by_cases hqa : q ++ [a] = p ∧ t.isFile p = true
    · rw [if_pos hqa] at hq
      cases hq
    · rw [if_neg hqa] at hq
      have hdir := t.closed q a hq
      have hnot : ¬ (q = p ∧ t.isFile p = true) := by
        rintro ⟨rfl, hfile⟩
        rw [t.isFile_of_dir hdir] at hfile
        cases hfile
      rw [if_neg hnot]
      exact hdir

/-! ### What the operations change -/

variable {t} {u : FileTree α β} {p q : List α} {content : β}

/-- After a write there is a file at the path, and directories above it, where no files were. -/
theorem write_ok (h : t.write p content = .ok u) :
    (∀ q, u.node q = if q = p then some (.file content)
      else if q <+: p then some .dir else t.node q) ∧
      (∀ q, q <+: p → q ≠ p → t.isFile q = false) ∧ t.node p ≠ some .dir := by
  unfold write at h
  rcases hmade : t.makedirs p.dropLast with e | v <;> rw [hmade] at h <;> dsimp only at h
  · cases h
  obtain ⟨rfl, habove⟩ := t.makedirs_ok hmade
  split_ifs at h with hdir
  cases h
  refine ⟨fun q => ?_, fun q hq hne => habove q (prefix_dropLast_of_ne hq hne), fun hp => ?_⟩
  · unfold setFile withDirs
    dsimp only
    by_cases hqp : q = p
    · rw [if_pos hqp, if_pos hqp]
    · rw [if_neg hqp, if_neg hqp]
      by_cases hq : q <+: p
      · rw [if_pos hq, if_pos (prefix_dropLast_of_ne hq hqp)]
      · rw [if_neg hq, if_neg fun hq' => hq (hq'.trans (List.dropLast_prefix p))]
  · refine hdir ?_
    unfold withDirs
    dsimp only
    split_ifs
    · rfl
    · exact hp

theorem read_write_self (h : t.write p content = .ok u) : u.read p = .ok (some content) := by
  unfold read
  rw [(write_ok h).1 p, if_pos rfl]

theorem isFile_write_self (h : t.write p content = .ok u) : u.isFile p = true := by
  unfold isFile
  rw [(write_ok h).1 p, if_pos rfl]

/-- A write changes nothing at a path that is neither above nor below, nor the same. -/
theorem sameAt_write (h : t.write p content = .ok u) (habove : ¬ q <+: p) (hbelow : ¬ p <+: q) :
    SameAt t u q := by
  obtain ⟨hnode, hfree, -⟩ := write_ok h
  have hother (r : List α) (hr : r <+: q) : u.isFile r = t.isFile r := by
    have hrp : r ≠ p := fun heq => hbelow (heq ▸ hr)
    unfold isFile
    rw [hnode r, if_neg hrp]
    by_cases hpre : r <+: p
    · -- a directory that was there, or that was missing
      have hfile := hfree r hpre hrp
      rw [if_pos hpre]
      exact hfile.symm
    · rw [if_neg hpre]
  have hqp : q ≠ p := fun heq => hbelow (heq ▸ List.prefix_refl q)
  refine sameAt_of_node ?_ hother
  rw [hnode q, if_neg hqp, if_neg habove]

/-- A removal changes nothing at a path that is not below, nor the same. -/
theorem sameAt_remove (hbelow : ¬ p <+: q) : SameAt t (t.remove p) q := by
  have hnode (r : List α) (hr : r <+: q) : (t.remove p).node r = t.node r := by
    have hrp : r ≠ p := fun heq => hbelow (heq ▸ hr)
    exact if_neg fun h => hrp h.1
  refine sameAt_of_node (hnode q (List.prefix_refl q)) fun r hr => ?_
  unfold isFile
  rw [hnode r hr]

/-- There is no file to remove. -/
theorem remove_of_dir (h : t.node p = some .dir) : t.remove p = t := by
  have hnode : (t.remove p).node = t.node := by
    funext q
    refine if_neg fun hq => ?_
    rw [t.isFile_of_dir h] at hq
    cases hq.2
  cases t
  unfold remove at hnode ⊢
  simpa using hnode

/-- A write to a path that is no directory, and has no file above it, succeeds. -/
theorem exists_write (hfree : ∀ q, q <+: p → q ≠ p → t.isFile q = false)
    (hdir : t.node p ≠ some .dir) (hp : p ≠ []) (content : β) : ∃ u, t.write p content = .ok u := by
  have hlong : ¬ p <+: p.dropLast := fun h => by
    have hle := h.length_le
    have hpos := List.length_pos_iff.2 hp
    rw [List.length_dropLast] at hle
    omega
  have hmade : t.makedirs p.dropLast = .ok (t.withDirs p.dropLast) := by
    unfold makedirs
    rw [List.find?_eq_none.2]
    intro q hq
    have hpre := (List.mem_inits _ _).1 hq
    rw [hfree q (hpre.trans (List.dropLast_prefix p)) fun heq => hlong (heq ▸ hpre)]
    exact Bool.false_ne_true
  have hnot : (t.withDirs p.dropLast).node p ≠ some .dir := by
    unfold withDirs
    dsimp only
    rw [if_neg hlong]
    exact hdir
  unfold write
  rw [hmade]
  dsimp only
  rw [dif_neg hnot]
  exact ⟨_, rfl⟩

end FileTree
