import Axo.Lib.Dict
import Mathlib.Data.List.MinMax
import Mathlib.Algebra.Order.Ring.Int

/-!
# The in-memory storage backend

`StorageKey` of `core/storage/backend.py` and `core/storage/in_memory.py`.

* A backend is a dictionary of values with two indexes into its keys, by id and version and by
  alias and version; that an index only ever names keys that are stored is part of its type.
* `storage` lists the newest key first, so `max`, which Python lets decide for the oldest of the
  keys with the highest version, reads it backwards.
-/

namespace Axo

/-- `StorageKey`; `keyAlias` is its `alias`. -/
structure StorageKey where
  id : String
  version : Option ℤ := none
  keyAlias : Option String := none
  deriving DecidableEq

/-- `k.version or 0`. -/
def StorageKey.versionOrZero (key : StorageKey) : ℤ := key.version.getD 0

/-- `InMemoryStorageBackend`. -/
structure InMemoryStorageBackend (ν : Type*) where
  storage : Dict StorageKey ν := ∅
  byIdVersion : Dict (String × ℤ) StorageKey := ∅
  byAliasVersion : Dict (String × ℤ) StorageKey := ∅
  idStored : ∀ i v key, byIdVersion.lookup (i, v) = some key →
    key ∈ storage ∧ key.id = i ∧ key.version = some v
  aliasStored : ∀ a v key, byAliasVersion.lookup (a, v) = some key →
    key ∈ storage ∧ key.keyAlias = some a ∧ key.version = some v

namespace InMemoryStorageBackend

variable {ν : Type*}

/-- The backend of a new process. -/
def empty : InMemoryStorageBackend ν where
  idStored := fun _ _ _ h => by simp at h
  aliasStored := fun _ _ _ h => by simp at h

/-- `self._storage[key] = value`: a key that is stored keeps its place. -/
def store (storage : Dict StorageKey ν) (key : StorageKey) (value : ν) : Dict StorageKey ν :=
  if key ∈ storage then storage.replace key value else storage.insert key value

theorem mem_store {storage : Dict StorageKey ν} {key k : StorageKey} {value : ν} :
    k ∈ store storage key value ↔ k = key ∨ k ∈ storage := by
  unfold store
  split_ifs with h
  · rw [AList.mem_replace]
    constructor
    · exact Or.inr
    · rintro (rfl | hk)
      · exact h
      · exact hk
  · exact AList.mem_insert _

/-- The entry that `put` makes in an index, when the key has what the index is by. -/
def indexed (index : Dict (String × ℤ) StorageKey) (key : StorageKey) :
    Option String → Option ℤ → Dict (String × ℤ) StorageKey
  | some text, some version => index.insert (text, version) key
  | _, _ => index

/-- The entry that `delete` drops from an index. -/
def unindexed (index : Dict (String × ℤ) StorageKey) :
    Option String → Option ℤ → Dict (String × ℤ) StorageKey
  | some text, some version => index.erase (text, version)
  | _, _ => index

theorem lookup_indexed {index : Dict (String × ℤ) StorageKey} {key k : StorageKey}
    {text : Option String} {version : Option ℤ} {i : String} {v : ℤ}
    (h : (indexed index key text version).lookup (i, v) = some k) :
    (k = key ∧ text = some i ∧ version = some v) ∨ index.lookup (i, v) = some k := by
  rcases text with _ | text
  · exact .inr h
  rcases version with _ | version
  · exact .inr h
  · by_cases hkey : (i, v) = (text, version)
    · obtain ⟨rfl, rfl⟩ := Prod.mk.inj hkey
      rw [indexed, AList.lookup_insert] at h
      exact .inl ⟨(Option.some.inj h).symm, rfl, rfl⟩
    · rw [indexed, AList.lookup_insert_ne hkey] at h
      exact .inr h

theorem lookup_unindexed {index : Dict (String × ℤ) StorageKey} {k : StorageKey}
    {text : Option String} {version : Option ℤ} {i : String} {v : ℤ}
    (h : (unindexed index text version).lookup (i, v) = some k) :
    index.lookup (i, v) = some k ∧ ¬ (text = some i ∧ version = some v) := by
  rcases text with _ | text
  · exact ⟨h, fun hne => nomatch hne.1⟩
  rcases version with _ | version
  · exact ⟨h, fun hne => nomatch hne.2⟩
  · by_cases hkey : (i, v) = (text, version)
    · rw [unindexed, hkey, AList.lookup_erase] at h
      cases h
    · rw [unindexed, AList.lookup_erase_ne hkey] at h
      refine ⟨h, fun hne => hkey ?_⟩
      rw [Option.some.inj hne.1, Option.some.inj hne.2]

/-- `put`. -/
def put (backend : InMemoryStorageBackend ν) (key : StorageKey) (value : ν) :
    InMemoryStorageBackend ν where
  storage := store backend.storage key value
  byIdVersion := indexed backend.byIdVersion key (some key.id) key.version
  byAliasVersion := indexed backend.byAliasVersion key key.keyAlias key.version
  idStored := fun i v k h => by
    rcases lookup_indexed h with ⟨rfl, hid, hversion⟩ | h
    · exact ⟨mem_store.2 (.inl rfl), Option.some.inj hid, hversion⟩
    · obtain ⟨hk, hrest⟩ := backend.idStored i v k h
      exact ⟨mem_store.2 (.inr hk), hrest⟩
  aliasStored := fun a v k h => by
    rcases lookup_indexed h with ⟨rfl, halias, hversion⟩ | h
    · exact ⟨mem_store.2 (.inl rfl), halias, hversion⟩
    · obtain ⟨hk, hrest⟩ := backend.aliasStored a v k h
      exact ⟨mem_store.2 (.inr hk), hrest⟩

/-- `delete`. -/
def delete (backend : InMemoryStorageBackend ν) (key : StorageKey) :
    InMemoryStorageBackend ν where
  storage := backend.storage.erase key
  byIdVersion := unindexed backend.byIdVersion (some key.id) key.version
  byAliasVersion := unindexed backend.byAliasVersion key.keyAlias key.version
  idStored := fun i v k h => by
    obtain ⟨h, hother⟩ := lookup_unindexed h
    obtain ⟨hk, rfl, hversion⟩ := backend.idStored i v k h
    -- the key that is deleted is the one whose entry is dropped
    refine ⟨AList.mem_erase.2 ⟨?_, hk⟩, rfl, hversion⟩
    rintro rfl
    exact hother ⟨rfl, hversion⟩
  aliasStored := fun a v k h => by
    obtain ⟨h, hother⟩ := lookup_unindexed h
    obtain ⟨hk, halias, hversion⟩ := backend.aliasStored a v k h
    refine ⟨AList.mem_erase.2 ⟨?_, hk⟩, halias, hversion⟩
    rintro rfl
    exact hother ⟨halias, hversion⟩

@[simp] theorem mem_put {backend : InMemoryStorageBackend ν} {key k : StorageKey} {value : ν} :
    k ∈ (backend.put key value).storage ↔ k = key ∨ k ∈ backend.storage := mem_store

@[simp] theorem mem_delete {backend : InMemoryStorageBackend ν} {key k : StorageKey} :
    k ∈ (backend.delete key).storage ↔ k ≠ key ∧ k ∈ backend.storage := AList.mem_erase

/-- `list_versions`. -/
def listVersions (backend : InMemoryStorageBackend ν) (id : String) : List StorageKey :=
  backend.storage.keys.reverse.filter fun key => key.id = id

theorem mem_listVersions {backend : InMemoryStorageBackend ν} {id : String} {key : StorageKey} :
    key ∈ backend.listVersions id ↔ key ∈ backend.storage ∧ key.id = id := by
  simp [listVersions, AList.mem_keys]

/-- `max(keys, key=lambda k: k.version or 0)`, the first key of the highest version. -/
def newest (keys : List StorageKey) : Option StorageKey :=
  @List.argmax StorageKey ℤ Int.instLinearOrder.toPreorder (fun m n => Int.decLt m n)
    StorageKey.versionOrZero keys

theorem mem_of_newest {keys : List StorageKey} {key : StorageKey} (h : newest keys = some key) :
    key ∈ keys := List.argmax_mem h

/-- The key that `get` finds: by alias and version, by id and version, or the newest that has the
alias or the id. -/
def resolve (backend : InMemoryStorageBackend ν) (key : StorageKey) : Option StorageKey :=
  match key.keyAlias, key.version with
  | some a, some version => backend.byAliasVersion.lookup (a, version)
  | none, some version => backend.byIdVersion.lookup (key.id, version)
  | some a, none =>
    newest (backend.storage.keys.reverse.filter fun k => k.keyAlias = some a)
  | none, none => newest (backend.listVersions key.id)

/-- `get`. -/
def get (backend : InMemoryStorageBackend ν) (key : StorageKey) : Option ν :=
  (backend.resolve key).bind backend.storage.lookup

/-- What `get` finds is stored, and has the version that was asked for: `get` never raises
`KeyError`. -/
theorem resolve_stored {backend : InMemoryStorageBackend ν} {key k : StorageKey}
    (h : backend.resolve key = some k) :
    k ∈ backend.storage ∧ ∀ version, key.version = some version → k.version = some version := by
  unfold resolve at h
  rcases hversion : key.version with _ | version <;> rcases halias : key.keyAlias with _ | a <;>
    simp only [hversion, halias] at h
  · refine ⟨(mem_listVersions.1 (mem_of_newest h)).1, fun _ hv => nomatch hv⟩
  · have hk := (List.mem_filter.1 (mem_of_newest h)).1
    exact ⟨AList.mem_keys.2 (List.mem_reverse.1 hk), fun _ hv => nomatch hv⟩
  · obtain ⟨hk, -, hv⟩ := backend.idStored _ _ _ h
    exact ⟨hk, fun _ hv' => hv.trans hv'⟩
  · obtain ⟨hk, -, hv⟩ := backend.aliasStored _ _ _ h
    exact ⟨hk, fun _ hv' => hv.trans hv'⟩

/-- `get` finds a value exactly when it finds a key. -/
theorem get_isSome {backend : InMemoryStorageBackend ν} {key : StorageKey} :
    (backend.get key).isSome = (backend.resolve key).isSome := by
  unfold get
  rcases h : backend.resolve key with _ | k
  · rfl
  · obtain ⟨value, hvalue⟩ := Dict.mem_iff_lookup.1 (resolve_stored h).1
    rw [Option.bind_some, hvalue]
    rfl

end InMemoryStorageBackend

end Axo
