import Axo.Lib.Overlay
import Axo.Lib.Rounds
import Axo.Wire.RawRecords

/-!
# Diffs that come in

The three loops of `apply_incoming` of `registry_sync.py`, `data_sync.py` and `bucket_sync.py`, over
stores of records with any values: each entry is read and then written, and the first that cannot
be read ends the loop with an exception.

* `absorb` is a round of the loops over functions and buckets, `absorbData` of the one over
  datasets, where a tombstone goes through `DataRegistry.delete`;
* `RawStores.applyIncoming` is the three loops one after the other;
* `RawStores.Takes` is the exact condition under which no exception ends them, and `said` is what
  an entry says, as a diff of the store that is written (`applyIncoming_spec`).

The event bus catches what its subscribers raise, so that the events of the loops are left out.
-/

namespace Axo

open Rounds

namespace Dict

variable {κ ν : Type*} [DecidableEq κ]

/-- A key gets a value, or goes. -/
def assign (m : Dict κ ν) (k : κ) : Option ν → Dict κ ν
  | some v => m.insert k v
  | none => m.erase k

/-- `m.update(entries)`. -/
def update (m : Dict κ ν) (entries : List (κ × ν)) : Dict κ ν :=
  entries.foldl (fun m entry => m.insert entry.1 entry.2) m

theorem lookup_assign (m : Dict κ ν) (k : κ) (v : Option ν) :
    (assign m k v).lookup = (Diff.single k v).apply m.lookup := by
  rw [Diff.apply_single]
  funext k'
  by_cases hk : k' = k
  · subst hk
    rw [Function.update_self]
    cases v with
    | none => exact AList.lookup_erase k' m
    | some v => exact AList.lookup_insert m
  · rw [Function.update_of_ne hk]
    cases v with
    | none => exact AList.lookup_erase_ne hk
    | some v => exact AList.lookup_insert_ne hk

theorem lookup_update (m : Dict κ ν) (entries : List (κ × ν)) :
    (update m entries).lookup =
      (Diff.joined (entries.map fun entry => Diff.single entry.1 (some entry.2))).apply
        m.lookup := by
  induction entries generalizing m with
  | nil => rfl
  | cons entry entries ih =>
    rw [update, List.foldl_cons, List.map_cons, Diff.joined_cons, Diff.apply_andThen,
      ← lookup_assign m entry.1 (some entry.2)]
    exact ih (m.insert entry.1 entry.2)

end Dict

/-! ### Stores of records -/

/-- What an entry says, where it can be read. -/
def said {κ ν : Type*} [DecidableEq κ]
    (read : String × Frame → Except PyException (κ × Option ν)) (entry : String × Frame) :
    Diff κ (Option ν) :=
  match read entry with
  | .ok (k, v) => .single k v
  | .error _ => .empty

section Absorb

variable {κ ν : Type} [DecidableEq κ] (read : String × Frame → Except PyException (κ × Option ν))

/-- A round of `apply_incoming` of the functions and of the buckets. -/
def absorb (m : Dict κ ν) (entry : String × Frame) : Dict κ ν × Option PyException :=
  match read entry with
  | .ok (k, v) => (Dict.assign m k v, none)
  | .error e => (m, some e)

/-- The loop ends without an exception exactly when all entries can be read. -/
theorem runEach_absorb (m : Dict κ ν) (entries : List (String × Frame)) :
    ((runEach (absorb read) m entries).2 = none ↔ ∀ entry ∈ entries, Returns (read entry)) ∧
      ((∀ entry ∈ entries, Returns (read entry)) →
        (runEach (absorb read) m entries).1.lookup =
          (Diff.joined (entries.map (said read))).apply m.lookup) := by
  refine runEach_iff (absorb read) m
    (fun done t => t.lookup = (Diff.joined (done.map (said read))).apply m.lookup)
    (fun entry => Returns (read entry)) [] entries rfl ?_
  intro before entry after t _ ht
  cases hread : read entry with
  | error e =>
    unfold absorb
    rw [hread]
    exact ⟨iff_of_false (fun h => by cases h) (not_returns_error e),
      fun h => absurd h (not_returns_error e)⟩
  | ok r =>
    obtain ⟨k, v⟩ := r
    unfold absorb
    rw [hread]
    refine ⟨iff_of_true rfl (returns_ok _), fun _ => ?_⟩
    have hsaid : said read entry = Diff.single k v := by rw [said, hread]
    rw [List.map_append, Diff.joined_append, Diff.apply_andThen, List.map_singleton,
      Diff.joined_cons, Diff.joined_nil, Diff.andThen_empty, hsaid, ← ht]
    exact Dict.lookup_assign t k v

end Absorb

/-! ### The catalog of datasets -/

/-- What a `DataRegistry` holds, with records of any values. -/
structure RawDataStore where
  catalog : Dict RecordKey RawData := ∅
  blobs : Dict BlobKey (List UInt8) := ∅
  completedUploads : Finset RecordKey := ∅
  hashCache : Dict RecordKey (String × Bool) := ∅
  deriving DecidableEq

/-- `self._blob_backends.get(kind)`, by the kind of the backend. -/
def DataBackends.find (B : DataBackends) : Value → Except PyException (Option String)
  | .str kind => .ok (if kind ∈ B.kinds then some kind else none)
  | v => if v.hashable = true then .ok none else .error .typeError

section Data

variable (json : JsonLib) (B : DataBackends)

/-- The blobs without the chunks of a record. -/
def RawDataStore.dropChunks (s : RawDataStore) (key : RecordKey) (record : RawData) :
    Except PyException (Dict BlobKey (List UInt8)) := do
  match ← B.find record.kind with
  | none => return s.blobs
  | some kind =>
    let totalChunks ← record.totalChunks.toRange
    -- `realpath` refuses the path of the first chunk
    if 0 < totalChunks ∧ Char.ofNat 0 ∈ key.id.toList then .error .valueError
    else return Dict.eraseAll s.blobs ((List.range totalChunks).map fun i : ℕ => chunkKey kind key i)

/-- `DataRegistry.delete`, whose `Err` is not looked at. -/
def RawDataStore.delete (s : RawDataStore) (key : RecordKey) : Except PyException RawDataStore :=
  match s.catalog.lookup key with
  | none => .ok s
  | some record => do
    let blobs ← s.dropChunks B key record
    return {
      catalog := s.catalog.erase key
      blobs := blobs
      completedUploads := s.completedUploads.erase key
      hashCache := s.hashCache.erase key }

/-- A round of `apply_incoming` of the datasets. -/
def absorbData (s : RawDataStore) (entry : String × Frame) : RawDataStore × Option PyException :=
  match readData json entry with
  | .error e => (s, some e)
  | .ok (key, some record) => ({ s with catalog := s.catalog.insert key record }, none)
  | .ok (key, none) =>
    match s.delete B key with
    | .error e => (s, some e)
    | .ok t => (t, none)

/-- The chunks of a record can be gone through: there are none, or their paths are paths. -/
def RawData.Removable (key : RecordKey) (record : RawData) : Prop :=
  ∃ kind, B.find record.kind = .ok kind ∧ (kind ≠ none →
    ∃ n, record.totalChunks.toRange = .ok n ∧ ¬ (0 < n ∧ Char.ofNat 0 ∈ key.id.toList))

/-- An entry can be read, and what it deletes after the entries before it can be deleted. -/
def TakesData (s : RawDataStore) (before : List (String × Frame)) (entry : String × Frame) : Prop :=
  Returns (readData json entry) ∧
    ∀ key, readData json entry = .ok (key, none) →
      ∀ record, (Diff.joined (before.map (said (readData json)))).apply s.catalog.lookup key =
        some record → record.Removable B key

variable {json B} {s : RawDataStore}

theorem returns_dropChunks (key : RecordKey) (record : RawData) :
    Returns (s.dropChunks B key record) ↔ record.Removable B key := by
  unfold RawDataStore.dropChunks RawData.Removable
  rw [returns_bind]
  refine exists_congr fun kind => and_congr_right fun _ => ?_
  cases kind with
  | none => exact iff_of_true (returns_ok _) fun h => absurd rfl h
  | some kind =>
    dsimp only
    rw [returns_bind]
    constructor
    · rintro ⟨n, hn, hreturns⟩ -
      refine ⟨n, hn, fun hname => ?_⟩
      rw [if_pos hname] at hreturns
      exact not_returns_error _ hreturns
    · intro h
      obtain ⟨n, hn, hname⟩ := h (Option.some_ne_none kind)
      refine ⟨n, hn, ?_⟩
      rw [if_neg hname]
      exact returns_ok _

theorem returns_delete (key : RecordKey) :
    Returns (s.delete B key) ↔
      ∀ record, s.catalog.lookup key = some record → record.Removable B key := by
  unfold RawDataStore.delete
  cases hlookup : s.catalog.lookup key with
  | none => exact iff_of_true (returns_ok s) fun record h => by cases h
  | some record =>
    dsimp only
    rw [returns_bind]
    constructor
    · rintro ⟨blobs, hblobs, -⟩ other hother
      obtain rfl := Option.some.inj hother
      exact (returns_dropChunks key record).1 ⟨blobs, hblobs⟩
    · intro h
      obtain ⟨blobs, hblobs⟩ := (returns_dropChunks (s := s) key record).2 (h record rfl)
      exact ⟨blobs, hblobs, returns_ok _⟩

theorem catalog_delete {key : RecordKey} {t : RawDataStore} (h : s.delete B key = .ok t) :
    t.catalog.lookup = (Diff.single key none).apply s.catalog.lookup := by
  rw [← Dict.lookup_assign s.catalog key none]
  unfold RawDataStore.delete at h
  cases hlookup : s.catalog.lookup key with
  | none =>
    rw [hlookup] at h
    obtain rfl := Except.ok.inj h
    funext k
    by_cases hk : k = key
    · subst hk
      rw [hlookup]
      exact (AList.lookup_erase k s.catalog).symm
    · exact (AList.lookup_erase_ne hk).symm
  | some record =>
    rw [hlookup] at h
    dsimp only at h
    cases hblobs : s.dropChunks B key record with
    | error e =>
      rw [hblobs] at h
      cases h
    | ok blobs =>
      rw [hblobs] at h
      obtain rfl := Except.ok.inj h
      rfl

variable (json B) in
/-- The loop over the datasets. -/
theorem runEach_absorbData (s : RawDataStore) (entries : List (String × Frame)) :
    ((runEach (absorbData json B) s entries).2 = none ↔
        ∀ before entry after, entries = before ++ entry :: after →
          TakesData json B s before entry) ∧
      ((∀ before entry after, entries = before ++ entry :: after →
          TakesData json B s before entry) →
        (runEach (absorbData json B) s entries).1.catalog.lookup =
          (Diff.joined (entries.map (said (readData json)))).apply s.catalog.lookup) := by
  refine runEach_iff_at (absorbData json B) s
    (fun done t => t.catalog.lookup =
      (Diff.joined (done.map (said (readData json)))).apply s.catalog.lookup)
    (TakesData json B s) [] entries rfl ?_
  intro before entry after t _ ht
  have hnext {k : RecordKey} {v : Option RawData} (hread : readData json entry = .ok (k, v)) :
      (Diff.joined ((before ++ [entry]).map (said (readData json)))).apply s.catalog.lookup =
        (Diff.single k v).apply t.catalog.lookup := by
    have hsaid : said (readData json) entry = Diff.single k v := by rw [said, hread]
    rw [List.map_append, Diff.joined_append, Diff.apply_andThen, List.map_singleton,
      Diff.joined_cons, Diff.joined_nil, Diff.andThen_empty, hsaid, ← ht]
  unfold absorbData TakesData
  cases hread : readData json entry with
  | error e =>
    exact ⟨iff_of_false (fun h => by cases h) fun h => not_returns_error e h.1,
      fun h => absurd h.1 (not_returns_error e)⟩
  | ok r =>
    obtain ⟨k, v⟩ := r
    cases v with
    | some record =>
      refine ⟨iff_of_true rfl ⟨returns_ok _, fun key hkey => ?_⟩, fun _ => ?_⟩
      · cases hkey
      · rw [hnext hread, ← Dict.lookup_assign]
        rfl
    | none =>
      have hdelete : Returns (t.delete B k) ↔ ∀ record,
          (Diff.joined (before.map (said (readData json)))).apply s.catalog.lookup k =
            some record → record.Removable B k := by
        rw [← congrFun ht k]
        exact returns_delete k
      dsimp only
      cases hdeleted : t.delete B k with
      | error e =>
        rw [hdeleted] at hdelete
        have hnot : ¬ (Returns (.ok (k, none) : Except PyException (RecordKey × Option RawData)) ∧
            ∀ key, (.ok (k, none) : Except PyException (RecordKey × Option RawData)) =
              .ok (key, none) → ∀ record,
                (Diff.joined (before.map (said (readData json)))).apply s.catalog.lookup key =
                  some record → record.Removable B key) := fun h =>
          not_returns_error e (hdelete.2 (h.2 k rfl))
        exact ⟨iff_of_false (fun h => by cases h) hnot, fun h => absurd h hnot⟩
      | ok u =>
        rw [hdeleted] at hdelete
        refine ⟨iff_of_true rfl ⟨returns_ok _, fun key hkey => ?_⟩, fun _ => ?_⟩
        · obtain ⟨rfl, -⟩ := Prod.mk.inj (Except.ok.inj hkey)
          exact hdelete.1 (returns_ok u)
        · rw [hnext hread]
          exact catalog_delete hdeleted

end Data

/-! ### The three loops -/

/-- The stores that the bridges write to. -/
structure RawStores where
  functions : Dict RecordKey RawFunction := ∅
  data : RawDataStore := {}
  buckets : Dict String RawBucket := ∅
  deriving DecidableEq

namespace RawStores

variable (json : JsonLib) (floats : PyFloats) (B : DataBackends) (s : RawStores)

/-- `RegistrySyncBridge.apply_incoming`. -/
def applyFunctions (changes : BlobMap) : RawStores × Option PyException :=
  let (functions, raised) := runEach (absorb (readFunction json floats)) s.functions changes
  ({ s with functions := functions }, raised)

/-- `DataRegistrySyncBridge.apply_incoming`. -/
def applyData (changes : BlobMap) : RawStores × Option PyException :=
  let (data, raised) := runEach (absorbData json B) s.data changes
  ({ s with data := data }, raised)

/-- `BucketRegistrySyncBridge.apply_incoming`. -/
def applyBuckets (changes : BlobMap) : RawStores × Option PyException :=
  let (buckets, raised) := runEach (absorb (readBucket json)) s.buckets changes
  ({ s with buckets := buckets }, raised)

/-- The three calls of `apply_incoming`. -/
def applyIncoming (changes : StateChanges) : RawStores × Option PyException :=
  match s.applyFunctions json floats changes.functions with
  | (s, some e) => (s, some e)
  | (s, none) =>
    match s.applyData json B changes.data with
    | (s, some e) => (s, some e)
    | (s, none) => s.applyBuckets json changes.buckets

/-- Every entry says something. -/
structure Readable (changes : StateChanges) : Prop where
  functions : ∀ entry ∈ changes.functions, Returns (readFunction json floats entry)
  data : ∀ entry ∈ changes.data, Returns (readData json entry)
  buckets : ∀ entry ∈ changes.buckets, Returns (readBucket json entry)

/-- Every entry can be applied. -/
structure Takes (changes : StateChanges) : Prop where
  functions : ∀ entry ∈ changes.functions, Returns (readFunction json floats entry)
  data : ∀ before entry after, changes.data = before ++ entry :: after →
    TakesData json B s.data before entry
  buckets : ∀ entry ∈ changes.buckets, Returns (readBucket json entry)

/-- The stores `t` are `s` with all that the entries say. -/
structure Absorbed (changes : StateChanges) (t : RawStores) : Prop where
  functions : t.functions.lookup =
    (Diff.joined (changes.functions.map (said (readFunction json floats)))).apply
      s.functions.lookup
  data : t.data.catalog.lookup =
    (Diff.joined (changes.data.map (said (readData json)))).apply s.data.catalog.lookup
  buckets : t.buckets.lookup =
    (Diff.joined (changes.buckets.map (said (readBucket json)))).apply s.buckets.lookup

variable {json floats B s} in
theorem Takes.readable {changes : StateChanges} (h : s.Takes json floats B changes) :
    Readable json floats changes where
  functions := h.functions
  data entry hentry := by
    obtain ⟨before, after, heq⟩ := List.append_of_mem hentry
    exact (h.data before entry after heq).1
  buckets := h.buckets

/-- No exception ends the loops exactly when every entry can be applied, and then they apply all of
them. -/
theorem applyIncoming_spec (changes : StateChanges) :
    ((s.applyIncoming json floats B changes).2 = none ↔ s.Takes json floats B changes) ∧
      (s.Takes json floats B changes →
        s.Absorbed json floats changes (s.applyIncoming json floats B changes).1) := by
  obtain ⟨hfunctions, habsorbed⟩ :=
    runEach_absorb (readFunction json floats) s.functions changes.functions
  obtain ⟨hdata, hcatalog⟩ := runEach_absorbData json B s.data changes.data
  obtain ⟨hbuckets, hkept⟩ := runEach_absorb (readBucket json) s.buckets changes.buckets
  unfold applyIncoming applyFunctions applyData applyBuckets
  cases hf : runEach (absorb (readFunction json floats)) s.functions changes.functions with
  | mk functions raised =>
    rw [hf] at hfunctions habsorbed
    cases raised with
    | some e =>
      have hnot : ¬ s.Takes json floats B changes := fun h => by cases hfunctions.2 h.functions
      exact ⟨iff_of_false (fun h => by cases h) hnot, fun h => absurd h hnot⟩
    | none =>
      dsimp only
      cases hd : runEach (absorbData json B) s.data changes.data with
      | mk data raised =>
        rw [hd] at hdata hcatalog
        cases raised with
        | some e =>
          have hnot : ¬ s.Takes json floats B changes := fun h => by cases hdata.2 h.data
          exact ⟨iff_of_false (fun h => by cases h) hnot, fun h => absurd h hnot⟩
        | none =>
          dsimp only
          refine ⟨⟨fun h => ⟨hfunctions.1 rfl, hdata.1 rfl, hbuckets.1 h⟩, fun h =>
            hbuckets.2 h.buckets⟩, fun h => ⟨habsorbed h.functions, hcatalog h.data,
              hkept h.buckets⟩⟩

end RawStores

end Axo
