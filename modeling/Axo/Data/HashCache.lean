import Axo.Data.FileBlobs

/-!
# The cached hashes

`_hash_cache` of `core/data/registry.py`: `status` computes the hash of a complete dataset once, and
`delete` alone drops what was computed.

* `contents` is what a hash is computed of and compared with;
* `CacheSound` is the invariant that every cached hash is that of the contents; it is kept by each
  call that leaves the contents of a dataset with a cached hash as they are (`cacheSound_perform`);
* `FileStore.hashesRight_of_reach` is the result for whole runs over a file system, in which the
  datasets share no files.
-/

namespace Axo

open Transition

/-! ### The contents of a dataset -/

/-- What a hash is computed of and compared with. -/
structure HashedContents where
  contentHashAlgo : String
  declaredHash : Option String
  data : List UInt8
  deriving DecidableEq

/-- What `status` computes and keeps, where it knows the algorithm. -/
def HashedContents.hash? (B : DataBackends) (c : HashedContents) : Option (String × Bool) :=
  (B.newHash c.contentHashAlgo).map fun hash =>
    (hash c.data, decide (c.declaredHash = some (hash c.data)))

/-- The contents of a record with these chunks. -/
def DataRecord.contents (record : DataRecord) (chunks : String → Chunks) : HashedContents where
  contentHashAlgo := record.contentHashAlgo
  declaredHash := record.declaredHash
  data := joinedChunks (chunks record.kind) record.totalChunks

/-- The contents of a dataset that has a record. -/
def Dataset.contents (d : Dataset) : Option HashedContents :=
  d.record.map fun record => record.contents d.chunks

namespace DataStore

variable {B : DataBackends} {s t : DataStore} {key k : RecordKey} {record : DataRecord} {now : ℚ}

/-- A complete dataset can be read, whatever its kind is. -/
theorem readWhole_of_complete (hrecord : s.catalog.lookup key = some record)
    (hcomplete : ((s.present B key record).length : ℤ) = record.totalChunks) :
    s.readWhole B key =
      .ok (joinedChunks (fun i : ℕ => s.chunk record.kind key i) record.totalChunks) := by
  by_cases hkind : record.kind ∈ B.kinds
  · exact readWhole_of_present hrecord hkind fun i hi =>
      ⟨rfl, ((complete_iff hkind).1 hcomplete).2 i hi⟩
  · -- nothing is present, so there are no chunks
    rw [present, if_neg hkind] at hcomplete
    have htotal : record.totalChunks = 0 := hcomplete.symm
    unfold readWhole
    rw [hrecord]
    dsimp only
    rw [htotal]
    rfl

/-- What `_compute_hash` computes is the hash of the contents. -/
theorem computeHash_eq_ok {computed : String} (hkey : record.key = key)
    (h : s.computeHash B record = .ok computed) :
    (record.contents fun kind (i : ℕ) => s.chunk kind key i).hash? B =
      some (computed, decide (record.declaredHash = some computed)) := by
  unfold computeHash at h
  cases hnew : B.newHash record.contentHashAlgo with
  | none =>
    rw [hnew] at h
    cases h
  | some hash =>
    rw [hnew] at h
    dsimp only at h
    split_ifs at h with hkind
    cases h
    subst hkey
    simp only [HashedContents.hash?, DataRecord.contents, hnew, joinedChunks, Option.map_some]
    rfl

section HashCache

@[simp] theorem hashCache_completeUpload :
    (s.completeUpload key now).1.hashCache = s.hashCache := by
  unfold completeUpload
  split_ifs <;> rfl

@[simp] theorem hashCache_completeIf (full : Bool) :
    (s.completeIf full key now).1.hashCache = s.hashCache := by
  cases full <;> simp [completeIf]

/-- A hash that is kept after `status` was kept before, or has been computed. -/
theorem hashCache_status {st : DataStatus} (h : s.status B key = .ok (t, st)) :
    t.hashCache = s.hashCache ∨ ∃ record computed, s.catalog.lookup key = some record ∧
      s.computeHash B record = .ok computed ∧
      t.hashCache =
        s.hashCache.insert key (computed, decide (record.declaredHash = some computed)) := by
  unfold status at h
  cases hrecord : s.catalog.lookup key with
  | none =>
    rw [hrecord] at h
    cases h
    exact Or.inl rfl
  | some record =>
    rw [hrecord] at h
    dsimp only at h
    split_ifs at h with hcomplete
    · unfold verifyHash at h
      cases hcache : s.hashCache.lookup key with
      | some e =>
        rw [hcache] at h
        cases h
        exact Or.inl rfl
      | none =>
        rw [hcache] at h
        cases hcompute : s.computeHash B record with
        | error e =>
          rw [hcompute] at h
          cases h
        | ok computed =>
          rw [hcompute] at h
          cases h
          exact Or.inr ⟨record, computed, rfl, hcompute, rfl⟩
    · cases h
      exact Or.inl rfl

end HashCache

end DataStore

namespace DataHistory

variable (B : DataBackends) {h t : DataHistory} {call : DataCall} {key : RecordKey}

/-! ### The invariant -/

/-- Every cached hash is that of the contents, and was compared with the declared hash. -/
def CacheSound (h : DataHistory) : Prop :=
  ∀ key e, h.store.hashCache.lookup key = some e →
    (h.dataset key).contents.bind (HashedContents.hash? B) = some e

/-- A call is made while no hash is cached for its dataset, or leaves the bytes of the dataset, its
declared hash and its algorithm as they are; `delete` drops the hash that is cached. -/
def HashGuard (h : DataHistory) : DataCall → Prop
  | .delete _ _ => True
  | call => h.store.hashCache.lookup call.key = none ∨
      ((h.dataset call.key).apply B call).contents = (h.dataset call.key).contents

instance (h : DataHistory) (call : DataCall) : Decidable (h.HashGuard B call) :=
  match call with
  | .delete _ _ => isTrue trivial
  | .register .. | .storeChunk .. | .status _ | .openStream .. | .appendChunk .. |
    .finalizeStream .. => inferInstanceAs (Decidable (_ ∨ _))

variable {B}

/-- The calls that do not look at the hashes. -/
theorem hashCache_perform (hdelete : ∀ key now, call ≠ .delete key now)
    (hstatus : ∀ key, call ≠ .status key) :
    (h.perform B call).store.hashCache = h.store.hashCache := by
  cases call with
  | delete key now => exact absurd rfl (hdelete key now)
  | status key => exact absurd rfl (hstatus key)
  | openStream => rfl
  | register key format kind totalSize chunkBytes now contentHash contentHashAlgo =>
    simp only [perform, DataStore.register]
    split_ifs <;> simp [DataStore.putRecord]
  | storeChunk key index data now =>
    cases hrecord : h.store.catalog.lookup key with
    | none => simp only [perform, DataStore.storeChunk, hrecord]
    | some record =>
      simp only [perform, DataStore.storeChunk, hrecord]
      split_ifs <;> simp [DataStore.putChunk]
  | appendChunk key data =>
    cases hstream : h.store.openStreams.lookup key with
    | none => simp only [perform, DataStore.appendChunk, hstream]
    | some stream =>
      simp only [perform, DataStore.appendChunk, hstream]
      split_ifs <;> rfl
  | finalizeStream key now =>
    cases hstream : h.store.openStreams.lookup key with
    | none => simp only [perform, DataStore.finalizeStream, hstream]
    | some stream => simp [perform, DataStore.finalizeStream, hstream]

/-- A deletion drops the hash of its own dataset alone. -/
theorem hashCache_delete {now : ℚ} {e : String × Bool} {k : RecordKey}
    (he : (h.perform B (.delete key now)).store.hashCache.lookup k = some e) :
    h.store.hashCache.lookup k = some e ∧ (k = key → h.store.catalog.lookup key = none) := by
  cases hrecord : h.store.catalog.lookup key with
  | none =>
    simp only [perform, DataStore.delete, hrecord] at he
    exact ⟨he, fun _ => rfl⟩
  | some record =>
    simp only [perform, DataStore.delete, hrecord] at he
    by_cases hk : k = key
    · rw [hk, AList.lookup_erase] at he
      cases he
    · rw [AList.lookup_erase_ne hk] at he
      exact ⟨he, fun hkey => absurd hkey hk⟩

/-- One call that meets the guard keeps the hashes right. -/
theorem cacheSound_perform (hkeyed : h.store.WellKeyed) (hsound : h.CacheSound B)
    (hguard : h.HashGuard B call) : (h.perform B call).CacheSound B := by
  intro k e he
  rw [dataset_perform hkeyed]
  cases call with
  | delete key now =>
    obtain ⟨hold, hnone⟩ := hashCache_delete he
    split_ifs with hk
    · -- a deletion that fails, since one that does not has dropped the hash
      have hrecord : (h.dataset k).record = none := by
        rw [hk]
        exact hnone hk
      simp only [Dataset.apply, hrecord]
      exact hsound k e hold
    · exact hsound k e hold
  | status key =>
    simp only [Dataset.apply, ite_self]
    cases hstatus : h.store.status B key with
    | error error =>
      simp only [perform, hstatus] at he
      exact hsound k e he
    | ok r =>
      obtain ⟨t, st⟩ := r
      simp only [perform, hstatus] at he
      rcases DataStore.hashCache_status hstatus with hsame | ⟨record, computed, hrecord, hcompute,
        hnew⟩
      · rw [hsame] at he
        exact hsound k e he
      · rw [hnew] at he
        by_cases hk : k = key
        · subst hk
          rw [AList.lookup_insert] at he
          obtain rfl := Option.some.inj he
          have hcontents := DataStore.computeHash_eq_ok (hkeyed k record hrecord) hcompute
          show ((h.store.catalog.lookup k).map _).bind _ = _
          rw [hrecord]
          exact hcontents
        · rw [AList.lookup_insert_ne hk] at he
          exact hsound k e he
  | register | storeChunk | openStream | appendChunk | finalizeStream =>
    rw [hashCache_perform (fun _ _ heq => by cases heq) (fun _ heq => by cases heq)] at he
    split_ifs with hk
    · subst hk
      rcases hguard with hnone | hsame
      · exact absurd (hnone.symm.trans he) (by simp)
      · exact (congrArg (·.bind (HashedContents.hash? B)) hsame).trans (hsound _ e he)
    · exact hsound k e he

/-! ### Runs -/

/-- Whenever `status` says that a dataset is complete, its hash is that of what `read_whole` gives,
and is verified exactly when it is the declared one. -/
def HashesRight (B : DataBackends) (h : DataHistory) : Prop :=
  ∀ key store st, h.store.status B key = .ok (store, st) → st.complete = true →
    ∃ record hash data, h.store.catalog.lookup key = some record ∧
      B.newHash record.contentHashAlgo = some hash ∧ h.store.readWhole B key = .ok data ∧
      st.computedHash = some (hash data) ∧
      st.hashVerified = some (decide (record.declaredHash = some (hash data)))

/-- `verify_hash` gives the hash of the contents. -/
theorem verifyHash_eq_ok (hkeyed : h.store.WellKeyed) (hsound : h.CacheSound B)
    {record : DataRecord} {store : DataStore} {computed : String} {verified : Bool}
    (hrecord : h.store.catalog.lookup key = some record)
    (hverify : h.store.verifyHash B key record = .ok (store, computed, verified)) :
    (record.contents fun kind (i : ℕ) => h.store.chunk kind key i).hash? B =
      some (computed, verified) := by
  unfold DataStore.verifyHash at hverify
  cases hcache : h.store.hashCache.lookup key with
  | some e =>
    rw [hcache] at hverify
    cases hverify
    have hcontents := hsound key _ hcache
    have hdataset : (h.dataset key).contents =
        some (record.contents fun kind (i : ℕ) => h.store.chunk kind key i) := by
      show (h.store.catalog.lookup key).map _ = _
      rw [hrecord]
      rfl
    rwa [hdataset, Option.bind_some] at hcontents
  | none =>
    rw [hcache] at hverify
    cases hcompute : h.store.computeHash B record with
    | error e =>
      rw [hcompute] at hverify
      cases hverify
    | ok c =>
      rw [hcompute] at hverify
      cases hverify
      exact DataStore.computeHash_eq_ok (hkeyed key record hrecord) hcompute

theorem CacheSound.hashesRight (hkeyed : h.store.WellKeyed) (hsound : h.CacheSound B) :
    HashesRight B h := by
  intro key store st hstatus hst
  unfold DataStore.status at hstatus
  cases hrecord : h.store.catalog.lookup key with
  | none =>
    rw [hrecord] at hstatus
    cases hstatus
    cases hst
  | some record =>
    rw [hrecord] at hstatus
    dsimp only at hstatus
    split_ifs at hstatus with hcomplete
    · cases hverify : h.store.verifyHash B key record with
      | error e =>
        rw [hverify] at hstatus
        cases hstatus
      | ok r =>
        obtain ⟨t, computed, verified⟩ := r
        rw [hverify] at hstatus
        cases hstatus
        obtain ⟨hash, hnew, heq⟩ := Option.map_eq_some_iff.1
          (verifyHash_eq_ok hkeyed hsound hrecord hverify)
        obtain ⟨rfl, rfl⟩ := Prod.mk.inj heq
        exact ⟨record, hash, _, rfl, hnew,
          DataStore.readWhole_of_complete hrecord (of_decide_eq_true hcomplete), rfl, rfl⟩
    · cases hstatus
      exact absurd hst hcomplete

/-- In every run whose calls meet the guard the cached hashes are those of the contents. -/
theorem cacheSound_of_reach (hreach : Reach (step B) (HashGuard B) {} h) :
    h.store.WellKeyed ∧ h.CacheSound B := by
  refine Reach.invariant (I := fun h => h.store.WellKeyed ∧ h.CacheSound B)
    ⟨wellKeyed_init, fun key e he => by cases he⟩ ?_ hreach
  rintro h call t ⟨hkeyed, hsound⟩ hguard ⟨⟩
  exact ⟨wellKeyed_perform hkeyed, cacheSound_perform hkeyed hsound hguard⟩

end DataHistory

/-! ### Over a file system -/

namespace FileStore

variable (B : DataBackends) (K : StorageKeys)

/-- Whenever `status` says that a dataset is complete, its hash is that of what `read_whole` gives,
and is verified exactly when it is the declared one. -/
def HashesRight (f : FileStore) : Prop :=
  ∀ key t st, f.status B key = .ok (t, st) → st.complete = true →
    ∃ record hash data, f.registry.catalog.lookup key = some record ∧
      B.newHash record.contentHashAlgo = some hash ∧ f.readWhole B key = .ok data ∧
      st.computedHash = some (hash data) ∧
      st.hashVerified = some (decide (record.declaredHash = some (hash data)))

/-- A call is about one of the datasets, and made while no hash is cached for it, or leaves the
bytes of its files, its declared hash and its algorithm as they are; `delete` drops the hash. -/
def HashGuard (f : FileStore) : DataCall → Prop
  | .status _ => True
  | .delete key _ => key ∈ K.keys
  | call => call.key ∈ K.keys ∧ (f.registry.hashCache.lookup call.key = none ∨
      ((f.perform B call).dataset call.key).contents = (f.dataset call.key).contents)

instance [DecidablePred (· ∈ K.keys)] (f : FileStore) (call : DataCall) :
    Decidable (f.HashGuard B K call) :=
  match call with
  | .status _ => isTrue trivial
  | .delete key _ => inferInstanceAs (Decidable (key ∈ K.keys))
  | .register .. | .storeChunk .. | .openStream .. | .appendChunk .. | .finalizeStream .. =>
    inferInstanceAs (Decidable (_ ∧ _))

variable {B K} {f : FileStore} {h : DataHistory} {call : DataCall} {key : RecordKey}

theorem Represents.contents (hrep : Represents K f h.store) (hkey : key ∈ K.keys) :
    (f.dataset key).contents = (h.dataset key).contents := by
  unfold Dataset.contents dataset DataHistory.dataset
  rw [hrep.chunks hkey, hrep.catalog]

/-- The guard over the files is that over the blobs. -/
theorem Represents.hashGuard (hrep : Represents K f h.store) (hguard : f.HashGuard B K call) :
    K.Covers call ∧ h.HashGuard B call := by
  have hkeyed : h.store.WellKeyed := fun key record hrecord => (hrep.within key record hrecord).2
  have hleaves (hcovers : K.Covers call) (hkey : call.key ∈ K.keys)
      (hsame : f.registry.hashCache.lookup call.key = none ∨
        ((f.perform B call).dataset call.key).contents = (f.dataset call.key).contents) :
      h.store.hashCache.lookup call.key = none ∨
        ((h.dataset call.key).apply B call).contents = (h.dataset call.key).contents := by
    refine hsame.imp (fun hnone => hrep.hashCache ▸ hnone) fun hsame => ?_
    rw [hrep.contents hkey, (hrep.perform hcovers).contents hkey,
      DataHistory.dataset_perform hkeyed, if_pos rfl] at hsame
    exact hsame
  cases call with
  | status key => exact ⟨trivial, Or.inr rfl⟩
  | delete key now => exact ⟨hguard, trivial⟩
  | register | storeChunk | openStream | appendChunk | finalizeStream =>
    exact ⟨hguard.1, hleaves hguard.1 hguard.1 hguard.2⟩

theorem Represents.hashesRight (hrep : Represents K f h.store)
    (hright : DataHistory.HashesRight B h) : f.HashesRight B := by
  intro key t st hstatus hcomplete
  obtain ⟨s, hstatus', -⟩ := (hrep.status key).exists_of_ok hstatus
  obtain ⟨record, hash, data, hrecord, hnew, hread, hresult⟩ :=
    hright key s st hstatus' hcomplete
  rw [hrep.catalog] at hrecord
  rw [← hrep.readWhole key] at hread
  exact ⟨record, hash, data, hrecord, hnew, hread, hresult⟩

/-- In every run whose calls meet the guard the hashes are right. -/
theorem hashesRight_of_reach (B : DataBackends) (K : StorageKeys) (mkstemp : String → String)
    (f : FileStore) (hreach : Reach (step B) (HashGuard B K) (init K.root mkstemp) f) :
    f.HashesRight B := by
  obtain ⟨h, hreach, hrep⟩ := Represents.exists_of_reach
    (fun _ _ _ hrep hguard => hrep.hashGuard hguard) hreach
  obtain ⟨hkeyed, hsound⟩ := DataHistory.cacheSound_of_reach hreach
  exact hrep.hashesRight (hsound.hashesRight hkeyed)

/-! ### Three runs -/

open DataHistory (plainBackends plainKey plainRegister)

/-- A store whose hash tells bytes of one length apart. -/
def sumBackends : DataBackends :=
  { plainBackends with sha256 := fun data => (data.map UInt8.toNat).sum.repr }

/-- `read_whole` gives these bytes, and `status` says that the dataset is complete, with this hash. -/
def shows (f : FileStore) (data : List UInt8) (computed : String) : Bool :=
  match f.readWhole sumBackends plainKey, f.status sumBackends plainKey with
  | .ok read, .ok (_, st) =>
    decide (read = data) && (st.complete && decide (st.computedHash = some computed))
  | _, _ => false

theorem shows_iff {data : List UInt8} {computed : String} :
    f.shows data computed = true ↔ f.readWhole sumBackends plainKey = .ok data ∧
      ∃ t st, f.status sumBackends plainKey = .ok (t, st) ∧
        st.complete = true ∧ st.computedHash = some computed := by
  unfold shows
  cases f.readWhole sumBackends plainKey with
  | error e => simp
  | ok read =>
    cases f.status sumBackends plainKey with
    | error e => simp
    | ok r =>
      obtain ⟨t, st⟩ := r
      simp

/-- A dataset of two bytes is uploaded and looked at, deleted and uploaded again. -/
theorem hashesRight_uploadedAgain : ∃ f, HashesRight sumBackends f ∧
    f.readWhole sumBackends plainKey = .ok [3, 4] ∧
      ∃ t st, f.status sumBackends plainKey = .ok (t, st) ∧
        st.complete = true ∧ st.computedHash = some "7" := by
  obtain ⟨f, hreach, hshows⟩ := exists_reach_of_guarded_run (step sumBackends)
    (HashGuard sumBackends (.plain ["srv"])) (init ["srv"] id) (fun f => f.shows [3, 4] "7")
    [plainRegister 2, .storeChunk plainKey 0 [1, 2] 0, .status plainKey, .delete plainKey 0,
      plainRegister 2, .storeChunk plainKey 0 [3, 4] 0, .status plainKey] (by decide +kernel)
  exact ⟨f, hashesRight_of_reach sumBackends (.plain ["srv"]) id f hreach, shows_iff.1 hshows⟩

/-- A dataset is looked at, and then its chunk is replaced. -/
theorem stale_replacedChunk :
    ¬ ∀ f, Reach (step sumBackends) Always (init ["srv"] id) f → HashesRight sumBackends f := by
  intro hall
  obtain ⟨f, hreach, hshows⟩ := exists_reach_of_run (step sumBackends) (init ["srv"] id)
    (fun f => f.shows [3, 4] "3") [plainRegister 2, .storeChunk plainKey 0 [1, 2] 0,
      .status plainKey, .storeChunk plainKey 0 [3, 4] 0] (by decide +kernel)
  obtain ⟨hread, t, st, hstatus, hcomplete, hcomputed⟩ := shows_iff.1 hshows
  obtain ⟨record, hash, data, -, hnew, hread', hright, -⟩ :=
    hall f hreach plainKey t st hstatus hcomplete
  obtain rfl := Except.ok.inj (hread.symm.trans hread')
  unfold DataBackends.newHash at hnew
  split_ifs at hnew
  · obtain rfl := Option.some.inj hnew
    exact absurd (hcomputed.symm.trans hright) (by decide +kernel)
  · cases hnew

end FileStore

end Axo
