import Axo.Lib.Transition
import Axo.Storage.InMemory

/-!
# The in-memory backend and a list of keys

What `InMemoryStorageBackend` answers, against the list of the keys that are stored, in the order in
which they were put.

* `PutList` is the list, and `Agrees` what the lookups of a backend should give;
* each of the two indexes names the latest key that matches (`Indexes`), as long as nobody deletes a
  key while another one matches the same entry (`SoleMatch`);
* `agrees_throughout_iff` is the result for whole runs.
-/

namespace Axo

open Transition

variable {ν : Type*}

/-- What is stored, the latest put last. -/
abbrev PutList (ν : Type*) := List (StorageKey × ν)

namespace PutList

/-- `put`; a key that is stored already is put anew. -/
def put (l : PutList ν) (key : StorageKey) (value : ν) : PutList ν :=
  l.filter (fun e => e.1 ≠ key) ++ [(key, value)]

/-- `delete`. -/
def delete (l : PutList ν) (key : StorageKey) : PutList ν := l.filter fun e => e.1 ≠ key

/-- The latest put of a key that is still stored and matches. -/
def latest (l : PutList ν) (p : StorageKey → Prop) [DecidablePred p] : Option (StorageKey × ν) :=
  (l.filter fun e => p e.1).getLast?

variable {l : PutList ν} {key k : StorageKey} {value v : ν}

@[simp] theorem mem_put : (k, v) ∈ l.put key value ↔ k = key ∧ v = value ∨ k ≠ key ∧ (k, v) ∈ l := by
  simp only [put, List.mem_append, List.mem_filter, List.mem_singleton, Prod.mk.injEq,
    decide_eq_true_eq]
  tauto

@[simp] theorem mem_delete : (k, v) ∈ l.delete key ↔ k ≠ key ∧ (k, v) ∈ l := by
  simp only [delete, List.mem_filter, decide_eq_true_eq]
  exact and_comm

section Latest

variable {p : StorageKey → Prop} [DecidablePred p]

theorem latest_eq_none : l.latest p = none ↔ ∀ e ∈ l, ¬ p e.1 := by
  rw [latest, List.getLast?_eq_none_iff, List.filter_eq_nil_iff]
  simp

theorem mem_of_latest {e : StorageKey × ν} (h : l.latest p = some e) : e ∈ l ∧ p e.1 := by
  have hmem := List.mem_filter.1 (List.mem_of_getLast? h)
  exact ⟨hmem.1, of_decide_eq_true hmem.2⟩

theorem latest_congr {q : StorageKey → Prop} [DecidablePred q] (h : ∀ k, p k ↔ q k) :
    l.latest p = l.latest q := by
  rw [latest, latest]
  simp only [h]

theorem latest_put_of_pos (h : p key) : (l.put key value).latest p = some (key, value) := by
  rw [latest, put, List.filter_append, List.filter_cons_of_pos (by simpa using h),
    List.filter_nil, List.getLast?_concat]

theorem latest_delete_of_neg (h : ¬ p key) : (l.delete key).latest p = l.latest p := by
  have hfilter : (l.delete key).filter (fun e => p e.1) = l.filter fun e => p e.1 := by
    rw [delete, List.filter_filter]
    refine List.filter_congr fun e _ => ?_
    by_cases he : e.1 = key
    · simp [he, h]
    · simp [he]
  rw [latest, hfilter, latest]

theorem latest_put_of_neg (h : ¬ p key) : (l.put key value).latest p = l.latest p := by
  have hput : (l.put key value).latest p = (l.delete key).latest p := by
    rw [latest, put, List.filter_append, List.filter_cons_of_neg (by simpa using h),
      List.filter_nil, List.append_nil]
    rfl
  rw [hput, latest_delete_of_neg h]

end Latest

end PutList

/-! ### What the lookups should give -/

/-- A stored key has what a lookup asks for: the version, where there is one, and the alias, or the
id where no alias is asked for. -/
def StorageKey.Answers (key k : StorageKey) : Prop :=
  (key.version = none ∨ k.version = key.version) ∧
    if key.keyAlias = none then k.id = key.id else k.keyAlias = key.keyAlias

instance (key : StorageKey) : DecidablePred key.Answers := fun k =>
  inferInstanceAs (Decidable (_ ∧ ite (key.keyAlias = none) (k.id = key.id) _))

/-- The lookups of a backend are those of the list. -/
structure Agrees (backend : InMemoryStorageBackend ν) (l : PutList ν) : Prop where
  /-- by alias or id, and version -/
  versioned : ∀ i version a, backend.get ⟨i, some version, a⟩ =
    (l.latest (StorageKey.Answers ⟨i, some version, a⟩)).map Prod.snd
  /-- by alias or id alone -/
  newest : ∀ i a value, backend.get ⟨i, none, a⟩ = some value →
    ∃ k, (k, value) ∈ l ∧ StorageKey.Answers ⟨i, none, a⟩ k ∧
      ∀ e ∈ l, StorageKey.Answers ⟨i, none, a⟩ e.1 → e.1.versionOrZero ≤ k.versionOrZero
  newest_none : ∀ i a, backend.get ⟨i, none, a⟩ = none ↔
    ∀ e ∈ l, ¬ StorageKey.Answers ⟨i, none, a⟩ e.1
  /-- what an index names is stored -/
  stored : ∀ key k, backend.resolve key = some k → k ∈ backend.storage

/-! ### The indexes -/

/-- What the index by alias is by. -/
def StorageKey.aliasText (key : StorageKey) : Option String := key.keyAlias

/-- What the index by id is by. -/
def StorageKey.idText (key : StorageKey) : Option String := some key.id

section Index

variable (text : StorageKey → Option String) (index : Dict (String × ℤ) StorageKey)
  (l : PutList ν)

/-- An index names the latest key. -/
def Indexes : Prop :=
  ∀ i version, index.lookup (i, version) =
    (l.latest fun k => text k = some i ∧ k.version = some version).map Prod.fst

/-- No other key that is stored has the entry of the key. -/
def SoleMatch (key : StorageKey) : Prop :=
  ∀ e ∈ l, ∀ i version, text key = some i → key.version = some version → text e.1 = some i →
    e.1.version = some version → e.1 = key

variable {text index l} {key : StorageKey} {value : ν}

theorem lookup_indexed_eq (index : Dict (String × ℤ) StorageKey) (key : StorageKey)
    (name : Option String) (version : Option ℤ) (i : String) (v : ℤ) :
    (InMemoryStorageBackend.indexed index key name version).lookup (i, v) =
      if name = some i ∧ version = some v then some key else index.lookup (i, v) := by
  cases name with
  | none => rfl
  | some name =>
    cases version with
    | none => simp [InMemoryStorageBackend.indexed]
    | some version =>
      by_cases hkey : (i, v) = (name, version)
      · obtain ⟨rfl, rfl⟩ := Prod.mk.inj hkey
        rw [if_pos ⟨rfl, rfl⟩, InMemoryStorageBackend.indexed, AList.lookup_insert]
      · rw [if_neg fun h => hkey (by rw [Option.some.inj h.1, Option.some.inj h.2]),
          InMemoryStorageBackend.indexed, AList.lookup_insert_ne hkey]

theorem lookup_unindexed_eq (index : Dict (String × ℤ) StorageKey) (name : Option String)
    (version : Option ℤ) (i : String) (v : ℤ) :
    (InMemoryStorageBackend.unindexed index name version).lookup (i, v) =
      if name = some i ∧ version = some v then none else index.lookup (i, v) := by
  cases name with
  | none => rfl
  | some name =>
    cases version with
    | none => simp [InMemoryStorageBackend.unindexed]
    | some version =>
      by_cases hkey : (i, v) = (name, version)
      · obtain ⟨rfl, rfl⟩ := Prod.mk.inj hkey
        rw [if_pos ⟨rfl, rfl⟩, InMemoryStorageBackend.unindexed, AList.lookup_erase]
      · rw [if_neg fun h => hkey (by rw [Option.some.inj h.1, Option.some.inj h.2]),
          InMemoryStorageBackend.unindexed, AList.lookup_erase_ne hkey]

theorem Indexes.put (h : Indexes text index l) (key : StorageKey) (value : ν) :
    Indexes text (InMemoryStorageBackend.indexed index key (text key) key.version)
      (l.put key value) := by
  intro i version
  rw [lookup_indexed_eq]
  split_ifs with hentry
  · rw [PutList.latest_put_of_pos hentry, Option.map_some]
  · rw [PutList.latest_put_of_neg hentry, h i version]

theorem Indexes.delete (h : Indexes text index l) (hsole : SoleMatch text l key) :
    Indexes text (InMemoryStorageBackend.unindexed index (text key) key.version)
      (l.delete key) := by
  intro i version
  rw [lookup_unindexed_eq]
  split_ifs with hentry
  · have hnone : (l.delete key).latest (fun k => text k = some i ∧ k.version = some version) =
        none := by
      refine PutList.latest_eq_none.2 fun e he hmatch => ?_
      obtain ⟨hne, hmem⟩ := PutList.mem_delete.1 he
      exact hne (hsole e hmem i version hentry.1 hentry.2 hmatch.1 hmatch.2)
    rw [hnone, Option.map_none]
  · rw [PutList.latest_delete_of_neg hentry, h i version]

end Index

/-! ### The backend over a run -/

inductive StorageAct (ν : Type*)
  | put (key : StorageKey) (value : ν)
  | delete (key : StorageKey)

/-- A backend, with the list of what is stored in it. -/
structure StorageRun (ν : Type*) where
  backend : InMemoryStorageBackend ν := .empty
  stored : PutList ν := []

namespace StorageRun

/-- One call. -/
def perform (s : StorageRun ν) : StorageAct ν → StorageRun ν
  | .put key value => ⟨s.backend.put key value, s.stored.put key value⟩
  | .delete key => ⟨s.backend.delete key, s.stored.delete key⟩

def step (s : StorageRun ν) (act : StorageAct ν) : Option (StorageRun ν) := some (s.perform act)

/-- A key is deleted while no other one has its id and version, or its alias and version. -/
def DeletesSole (s : StorageRun ν) : StorageAct ν → Prop
  | .put _ _ => True
  | .delete key =>
    SoleMatch StorageKey.idText s.stored key ∧ SoleMatch StorageKey.aliasText s.stored key

/-- The invariant. -/
structure Sound (s : StorageRun ν) : Prop where
  storage : ∀ k v, s.backend.storage.lookup k = some v ↔ (k, v) ∈ s.stored
  byId : Indexes StorageKey.idText s.backend.byIdVersion s.stored
  byAlias : Indexes StorageKey.aliasText s.backend.byAliasVersion s.stored

variable {s t : StorageRun ν} {act : StorageAct ν}

theorem sound_initial : Sound ({} : StorageRun ν) where
  storage k v := iff_of_false (fun h => by cases h) List.not_mem_nil
  byId _ _ := rfl
  byAlias _ _ := rfl

theorem lookup_store {storage : Dict StorageKey ν} {key k : StorageKey} {value : ν} :
    (InMemoryStorageBackend.store storage key value).lookup k =
      if k = key then some value else storage.lookup k := by
  unfold InMemoryStorageBackend.store
  split_ifs with hmem hkey hkey
  · rw [Dict.lookup_replace hmem, if_pos hkey]
  · rw [Dict.lookup_replace hmem, if_neg hkey]
  · rw [hkey, AList.lookup_insert]
  · rw [AList.lookup_insert_ne hkey]

/-- One call keeps the invariant, unless it deletes one of several keys of an entry. -/
theorem Sound.perform (h : Sound s) (hact : s.DeletesSole act) : Sound (s.perform act) := by
  cases act with
  | put key value =>
    refine ⟨fun k v => ?_, h.byId.put key value, h.byAlias.put key value⟩
    simp only [StorageRun.perform, InMemoryStorageBackend.put, lookup_store, PutList.mem_put]
    split_ifs with hkey
    · simp [hkey, eq_comm]
    · simp [hkey, h.storage]
  | delete key =>
    refine ⟨fun k v => ?_, h.byId.delete hact.1, h.byAlias.delete hact.2⟩
    simp only [StorageRun.perform, InMemoryStorageBackend.delete, PutList.mem_delete]
    by_cases hkey : k = key
    · subst hkey
      simp
    · rw [AList.lookup_erase_ne hkey, h.storage]
      exact (and_iff_right hkey).symm

/-! ### From the invariant to the lookups, and back -/

/-- An index that names the latest key leads to its value. -/
theorem Sound.lookup_latest (h : Sound s) (p : StorageKey → Prop) [DecidablePred p] :
    ((s.stored.latest p).map Prod.fst).bind s.backend.storage.lookup =
      (s.stored.latest p).map Prod.snd := by
  cases hlatest : s.stored.latest p with
  | none => rfl
  | some e =>
    obtain ⟨k, v⟩ := e
    exact (h.storage k v).2 (PutList.mem_of_latest hlatest).1

/-- `max` finds a key of the highest version. -/
theorem le_of_newest {keys : List StorageKey} {key k : StorageKey}
    (h : InMemoryStorageBackend.newest keys = some key) (hk : k ∈ keys) :
    k.versionOrZero ≤ key.versionOrZero :=
  List.le_of_mem_argmax hk h

theorem newest_eq_none {keys : List StorageKey} :
    InMemoryStorageBackend.newest keys = none ↔ keys = [] :=
  List.argmax_eq_none

/-- The keys that a lookup without a version chooses from. -/
theorem resolve_newest (backend : InMemoryStorageBackend ν) (i : String) (a : Option String) :
    backend.resolve ⟨i, none, a⟩ = InMemoryStorageBackend.newest
      (backend.storage.keys.reverse.filter fun k => StorageKey.Answers ⟨i, none, a⟩ k) := by
  cases a with
  | none =>
    refine congrArg InMemoryStorageBackend.newest (List.filter_congr fun k _ => ?_)
    simp [StorageKey.Answers]
  | some a =>
    refine congrArg InMemoryStorageBackend.newest (List.filter_congr fun k _ => ?_)
    simp [StorageKey.Answers]

theorem Sound.mem_storage (h : Sound s) {k : StorageKey} :
    k ∈ s.backend.storage ↔ ∃ v, (k, v) ∈ s.stored := by
  rw [Dict.mem_iff_lookup]
  exact exists_congr fun v => h.storage k v

/-- The indexes and the storage give the lookups of the list. -/
theorem Sound.agrees (h : Sound s) : Agrees s.backend s.stored where
  versioned i version a := by
    cases a with
    | none =>
      show (s.backend.byIdVersion.lookup (i, version)).bind s.backend.storage.lookup = _
      rw [h.byId, h.lookup_latest]
      refine congrArg _ (PutList.latest_congr (q := StorageKey.Answers ⟨i, some version, none⟩) ?_)
      intro k
      simp [StorageKey.Answers, StorageKey.idText, and_comm]
    | some a =>
      show (s.backend.byAliasVersion.lookup (a, version)).bind s.backend.storage.lookup = _
      rw [h.byAlias, h.lookup_latest]
      refine congrArg _ (PutList.latest_congr (q := StorageKey.Answers ⟨i, some version, some a⟩) ?_)
      intro k
      simp [StorageKey.Answers, StorageKey.aliasText, and_comm]
  newest i a value hget := by
    obtain ⟨k, hk, hvalue⟩ := Option.bind_eq_some_iff.1 hget
    rw [resolve_newest] at hk
    have hanswers := of_decide_eq_true (List.mem_filter.1 (InMemoryStorageBackend.mem_of_newest hk)).2
    refine ⟨k, (h.storage k value).1 hvalue, hanswers, fun e he hmatch => le_of_newest hk ?_⟩
    have hmem : e.1 ∈ s.backend.storage := h.mem_storage.2 ⟨e.2, he⟩
    exact List.mem_filter.2 ⟨List.mem_reverse.2 (AList.mem_keys.1 hmem), decide_eq_true hmatch⟩
  newest_none i a := by
    rw [← Option.isNone_iff_eq_none, ← Option.not_isSome, InMemoryStorageBackend.get_isSome,
      Option.not_isSome, Option.isNone_iff_eq_none, resolve_newest, newest_eq_none,
      List.filter_eq_nil_iff]
    simp only [List.mem_reverse, decide_eq_true_eq]
    constructor
    · intro hnone e he
      exact hnone e.1 (AList.mem_keys.1 (h.mem_storage.2 ⟨e.2, he⟩))
    · intro hnone k hk
      obtain ⟨v, hv⟩ := h.mem_storage.1 (AList.mem_keys.2 hk)
      exact hnone (k, v) hv
  stored key k hk := (InMemoryStorageBackend.resolve_stored hk).1

/-- A key was deleted, and no other one had its entry in the index. -/
theorem soleMatch_of_latest {text : StorageKey → Option String} {l : PutList ν} {key : StorageKey}
    (h : ∀ i version, text key = some i → key.version = some version →
      (l.delete key).latest (fun k => text k = some i ∧ k.version = some version) = none) :
    SoleMatch text l key := by
  intro e he i version htext hversion hetext heversion
  by_contra hne
  have hmem : e ∈ l.delete key := List.mem_filter.2 ⟨he, decide_eq_true hne⟩
  exact PutList.latest_eq_none.1 (h i version htext hversion) e hmem ⟨hetext, heversion⟩

/-- If the lookups are right after a key was deleted, no other one had its entries. -/
theorem deletesSole_of_agrees (h : Agrees (s.perform act).backend (s.perform act).stored) :
    s.DeletesSole act := by
  cases act with
  | put => trivial
  | delete key =>
    constructor
    · refine soleMatch_of_latest fun i version htext hversion => ?_
      have hget := h.versioned i version none
      have hgone : (InMemoryStorageBackend.unindexed s.backend.byIdVersion (some key.id)
          key.version).lookup (i, version) = none := by
        rw [lookup_unindexed_eq, if_pos ⟨htext, hversion⟩]
      simp only [StorageRun.perform, InMemoryStorageBackend.get, InMemoryStorageBackend.resolve,
        InMemoryStorageBackend.delete, hgone, Option.bind_none] at hget
      rw [← PutList.latest_congr (p := StorageKey.Answers ⟨i, some version, none⟩)]
      · exact Option.map_eq_none_iff.1 hget.symm
      · intro k
        simp [StorageKey.Answers, StorageKey.idText, and_comm]
    · refine soleMatch_of_latest fun a version htext hversion => ?_
      have hget := h.versioned key.id version (some a)
      have hgone : (InMemoryStorageBackend.unindexed s.backend.byAliasVersion key.keyAlias
          key.version).lookup (a, version) = none := by
        rw [lookup_unindexed_eq, if_pos ⟨htext, hversion⟩]
      simp only [StorageRun.perform, InMemoryStorageBackend.get, InMemoryStorageBackend.resolve,
        InMemoryStorageBackend.delete, hgone, Option.bind_none] at hget
      rw [← PutList.latest_congr (p := StorageKey.Answers ⟨key.id, some version, some a⟩)]
      · exact Option.map_eq_none_iff.1 hget.symm
      · intro k
        simp [StorageKey.Answers, StorageKey.aliasText, and_comm]

/-! ### Whole runs -/

/-- Over a whole run the lookups are those of the list exactly when no key is deleted while another
one has its id and version, or its alias and version. -/
theorem agrees_throughout_iff (acts : List (StorageAct ν)) :
    Throughout step (fun s : StorageRun ν => Agrees s.backend s.stored) {} acts ↔
      EachStep step DeletesSole ({} : StorageRun ν) acts := by
  obtain ⟨t, hrun, -⟩ : ∃ t, run step ({} : StorageRun ν) acts = some t ∧ True :=
    exists_run (fun s act _ => ⟨s.perform act, rfl, trivial⟩) trivial acts
  refine throughout_iff_eachStep (I := Sound) (fun s h => h.agrees) ?_ ?_ sound_initial hrun
  · rintro s act t h hact ⟨⟩
    exact h.perform hact
  · rintro s act t - ⟨⟩ h
    exact deletesSole_of_agrees h

/-- Two keys of one id and version, the second of which is deleted. -/
theorem not_agrees_sharedVersion :
    ¬ Throughout step (fun s : StorageRun ℕ => Agrees s.backend s.stored) {}
      [.put ⟨"a", some 1, some "x"⟩ 10, .put ⟨"a", some 1, some "y"⟩ 11,
        .delete ⟨"a", some 1, some "y"⟩] := by
  intro h
  have hlast := (((h.2 _ rfl).2 _ rfl).2 _ rfl).versioned "a" 1 none
  revert hlast
  decide +kernel

end StorageRun

end Axo
