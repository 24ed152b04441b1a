import Axo.Data.DataHandlers
import Axo.Data.TickProgress

/-!
# Hashes that nobody knows

A registration names any algorithm it likes, and `status` is the first to look for it, on the
thread of the replicator too; and so it is with a name that is no path.

* `Safe` is a record whose status can be asked for, and `CompletedAt` says that the file at a path
  is all that a record may lack;
* `AllSafe.undisturbed`: as long as all records are safe, no record changes what a tick pushes of
  the others, but for the budget;
* `undisturbed_throughout_iff` is the result for whole runs of the handlers.
-/

namespace Axo

open Transition Rounds

/-- A command to the handlers. -/
inductive UploadAct
  | register (bucketRegistry : Option BucketCatalog) (envelope : DataEnvelope) (now : ℚ)
  | chunkPut (envelope : DataEnvelope) (payload : List UInt8) (now : ℚ)

namespace FileStore

variable (B : DataBackends) (ownRpcUri : String)

/-- What `DataChunkPutHandler.handle` leaves; the chunk is stored already when the status raises. -/
def chunkPut (s : FileStore) (envelope : DataEnvelope) (payload : List UInt8) (now : ℚ) :
    FileStore :=
  match envelope.key, envelope.chunkIndex with
  | some key, some index =>
    match s.storeChunk B key index payload now with
    | .error _ => s
    | .ok (s, _, _) =>
      match s.status B key with
      | .error _ => s
      | .ok (s, _) => s
  | _, _ => s

/-- The registry after a command. -/
def upload (s : FileStore) : UploadAct → FileStore
  | .register bucketRegistry envelope now =>
    { s with registry :=
        (DataRegisterHandler.handle B ownRpcUri bucketRegistry s.registry envelope now).store }
  | .chunkPut envelope payload now => s.chunkPut B envelope payload now

def uploadStep (s : FileStore) (act : UploadAct) : Option FileStore := some (s.upload B ownRpcUri act)

open BlobReplicator

/-- `status` returns for every name and version. -/
def StatusReturns (s : FileStore) : Prop := ∀ key, ∃ r, s.status B key = .ok r

/-- The registry without one record. -/
def without (s : FileStore) (key : RecordKey) : FileStore :=
  { s with registry := { s.registry with catalog := s.registry.catalog.erase key } }

/-- A tick returns, and pushes of the other datasets what it would push without the record: the first
of that, as far as the budget goes, and all of it where there is no limit. -/
def TickUndisturbed (s : FileStore) : Prop :=
  ∀ (cfg : ReplicatorConfig) (input : TickInput)
    (peerStatus : Dict (RecordKey × EndpointId) PeerSyncInfo) (records : List DataRecord),
    records.Perm s.registry.catalog.values → input.members.Nodup →
    (∀ peer key metadata, input.answer peer key = some metadata →
      metadata.presentChunkIndices.isSome) →
      let r := runTick B cfg input true records { leader := s, peerStatus := peerStatus }
      r.2 = none ∧ ∀ key,
        let r' := runTick B cfg input true (records.filter fun record => record.key ≠ key)
          { leader := s.without key, peerStatus := peerStatus }
        let others := r.1.pushed.filter fun push => push.key ≠ key
        r'.2 = none ∧ others <+: r'.1.pushed ∧
          (cfg.rateLimitBytesPerSecond ≤ 0 → others = r'.1.pushed)

/-- The status of a record can be asked for. -/
def Safe (s : FileStore) (record : DataRecord) : Prop :=
  Addressable B record ∧ (s.CompleteHere B record → s.Hashed B record)

/-- No file of the record is missing but, it may be, the one at the path. -/
def CompletedAt (s : FileStore) (p : List String) (record : DataRecord) : Prop :=
  record.kind ∈ B.kinds ∧ 0 ≤ record.totalChunks ∧ ∀ i : ℕ, (i : ℤ) < record.totalChunks →
    s.hasChunk record i = true ∨ s.files.resolve (chunkPath record record.key i) = .ok p

/-- A registration that is accepted is of a record whose status can be asked for, and a chunk that
can be written completes no dataset that has no hash. -/
def Heeds (s : FileStore) : UploadAct → Prop
  | .register bucketRegistry envelope now => ∀ key totalSize chunkBytes,
    DataRegisterHandler.Accepts B bucketRegistry s.registry envelope key totalSize chunkBytes →
      s.Safe B (DataRegisterHandler.recordOf envelope key totalSize chunkBytes now)
  | .chunkPut envelope payload _ => ∀ key index record p tree, envelope.key = some key →
    envelope.chunkIndex = some index → s.registry.catalog.lookup key = some record →
      Dataset.Accepts B record index payload →
        s.files.resolve (chunkPath record key index) = .ok p →
          s.files.tree.write p payload = .ok tree →
            ∀ k other, s.registry.catalog.lookup k = some other →
              s.CompletedAt B p other → s.Hashed B other

/-- Every record of the catalog is safe, and stored under its own key. -/
structure AllSafe (s : FileStore) : Prop where
  keyed : s.registry.WellKeyed
  safe : ∀ key record, s.registry.catalog.lookup key = some record → s.Safe B record

variable {B ownRpcUri} {s t : FileStore} {key : RecordKey} {record : DataRecord}

/-! ### From records to ticks -/

/-- `status` returns when every record is safe, and only then. -/
theorem statusReturns_iff (hkeyed : s.registry.WellKeyed) :
    s.StatusReturns B ↔ ∀ key record, s.registry.catalog.lookup key = some record → s.Safe B record := by
  constructor
  · intro h key record hrecord
    have hkey := hkeyed key record hrecord
    subst hkey
    exact (status_isOk_iff hrecord).1 (h record.key)
  · intro h key
    cases hrecord : s.registry.catalog.lookup key with
    | none =>
      unfold status
      rw [hrecord]
      exact ⟨_, rfl⟩
    | some record =>
      have hkey := hkeyed key record hrecord
      subst hkey
      exact (status_isOk_iff hrecord).2 (h record.key record hrecord)

/-- Without one record, the others are as they were. -/
theorem lookup_without {k : RecordKey} :
    (s.without key).registry.catalog.lookup k = some record ↔
      k ≠ key ∧ s.registry.catalog.lookup k = some record := by
  by_cases hk : k = key
  · subst hk
    simp [without]
  · simp [without, AList.lookup_erase_ne hk, hk]

variable (key) in
theorem wellKeyed_without (hkeyed : s.registry.WellKeyed) : (s.without key).registry.WellKeyed :=
  fun k record hrecord => hkeyed k record (lookup_without.1 hrecord).2

variable (key) in
theorem values_without (hkeyed : s.registry.WellKeyed) {records : List DataRecord}
    (hrecords : records.Perm s.registry.catalog.values) :
    (records.filter fun record => record.key ≠ key).Perm (s.without key).registry.catalog.values := by
  obtain ⟨hlookup, hnodup⟩ :=
    records_spec (s := { leader := s, peerStatus := ∅ }) hkeyed hrecords
  obtain ⟨hlookup', hnodup'⟩ := records_spec
    (s := { leader := s.without key, peerStatus := ∅ }) (wellKeyed_without key hkeyed)
    (List.Perm.refl _)
  refine (List.perm_ext_iff_of_nodup (hnodup.of_map.filter _) hnodup'.of_map).2 fun record => ?_
  rw [List.mem_filter, decide_eq_true_eq, hlookup, hlookup', lookup_without]
  exact and_comm

variable (B key) in
/-- What is wanted of the other records. -/
theorem filter_wanted (cfg : ReplicatorConfig) (input : TickInput) (ts : TickState)
    {records : List DataRecord} (hlookup : ∀ record ∈ records,
      ts.leader.registry.catalog.lookup record.key = some record) :
    (records.flatMap (wanted B cfg input ts)).filter (fun push => push.key ≠ key) =
      (records.filter fun record => record.key ≠ key).flatMap (wanted B cfg input ts) := by
  induction records with
  | nil => rfl
  | cons record records ih =>
    have hrest := ih fun other hother => hlookup other (List.mem_cons_of_mem record hother)
    rw [List.flatMap_cons, List.filter_append, hrest]
    have hown (push : ChunkPush) (hpush : push ∈ wanted B cfg input ts record) :
        push.key = record.key :=
      ((mem_wanted (hlookup record List.mem_cons_self)).1 hpush).1
    by_cases hkey : record.key = key
    · rw [List.filter_cons_of_neg (by simpa using hkey), List.filter_eq_nil_iff.2 fun push hpush => ?_,
        List.nil_append]
      rw [hown push hpush]
      simpa using hkey
    · rw [List.filter_cons_of_pos (by simpa using hkey), List.flatMap_cons,
        List.filter_eq_self.2 fun push hpush => ?_]
      rw [hown push hpush]
      simpa using hkey

/-- When all records are safe, none of them disturbs the others. -/
theorem AllSafe.undisturbed (h : s.AllSafe B) : s.TickUndisturbed B := by
  intro cfg input peerStatus records hrecords hmembers hreadable
  by_cases hnonempty : input.members = []
  · have hnone (records : List DataRecord) (ts : TickState) :
        runTick B cfg input true records ts = (ts, none) := if_pos (Or.inr hnonempty)
    simp only [hnone]
    exact ⟨trivial, fun key => ⟨trivial, List.prefix_rfl, fun _ => rfl⟩⟩
  -- every record can be considered, with and without the one
  have hconsidered (leader : FileStore) (hsafe : ∀ key record,
      leader.registry.catalog.lookup key = some record → leader.Safe B record) (records : List DataRecord)
      (hlookup : ∀ record ∈ records, leader.registry.catalog.lookup record.key = some record) :
      ∀ record ∈ records, Considered B cfg input { leader := leader, peerStatus := peerStatus }
        record := fun record hrecord _ => by
    obtain ⟨haddress, hhashed⟩ := hsafe _ record (hlookup record hrecord)
    exact ⟨haddress, fun hcomplete => ⟨hhashed hcomplete, fun peer _ =>
      Or.inr fun metadata hanswer => hreadable peer record.key metadata hanswer⟩⟩
  obtain ⟨hlookup, -⟩ :=
    records_spec (s := { leader := s, peerStatus := peerStatus }) h.keyed hrecords
  have hall := hconsidered s h.safe records fun record hrecord => (hlookup record).1 hrecord
  have hspec := runTick_spec B cfg input
    (s := { leader := s, peerStatus := peerStatus }) h.keyed hrecords hmembers rfl rfl hnonempty
  refine ⟨hspec.1.2 hall, fun key => ?_⟩
  have hkeyed := wellKeyed_without key h.keyed
  have hrecords' := values_without key h.keyed hrecords
  obtain ⟨hlookup', -⟩ := records_spec
    (s := { leader := s.without key, peerStatus := peerStatus }) hkeyed hrecords'
  have hall' := hconsidered (s.without key)
    (fun k record hrecord => h.safe k record (lookup_without.1 hrecord).2) _
    fun record hrecord => (hlookup' record).1 hrecord
  have hspec' := runTick_spec B cfg input
    (s := { leader := s.without key, peerStatus := peerStatus }) hkeyed hrecords' hmembers rfl rfl
    hnonempty
  have hpaid := (hspec.2 hall).pushed
  have hpaid' := (hspec'.2 hall').pushed
  have hfilter := filter_wanted B key cfg input
    { leader := s, peerStatus := peerStatus } fun record hrecord =>
      (hlookup record).1 hrecord
  dsimp only
  refine ⟨hspec'.1.2 hall', ?_, fun hrate => ?_⟩
  · rw [hpaid, hpaid']
    refine (filter_spend_begins spent_mono _ le_rfl _).trans ?_
    rw [hfilter]
    exact List.prefix_rfl
  · have hfree (n : ℕ) : ¬ cfg.Spent input.elapsedSeconds n := fun hspent =>
      absurd hspent.1 (not_lt.2 hrate)
    rw [hpaid, hpaid', spend_eq_self hfree, spend_eq_self hfree, hfilter]
    rfl

/-! ### The commands -/

/-- What a dataset shows depends on its files and its own hash. -/
theorem safe_congr (hfiles : t.files = s.files)
    (hcache : t.registry.hashCache.lookup record.key = s.registry.hashCache.lookup record.key) :
    t.Safe B record ↔ s.Safe B record := by
  unfold Safe Hashed
  rw [completeHere_congr hfiles, hcache]

/-- A record that is put leaves the others as they are. -/
theorem allSafe_putRecord_iff (h : s.AllSafe B) {now : ℚ} (hkey : record.key = key)
    (ht : t = { s with registry := (s.registry.putRecord key record now).1 }) :
    t.AllSafe B ↔ s.Safe B record := by
  have hcatalog : t.registry.catalog = s.registry.catalog.insert key record := by
    rw [ht]
    simp [DataStore.putRecord]
  have hlookup : t.registry.catalog.lookup key = some record := by
    rw [hcatalog, AList.lookup_insert]
  have hsafe (other : DataRecord) : t.Safe B other ↔ s.Safe B other := by
    refine safe_congr ?_ ?_ <;> rw [ht]
    simp [DataStore.putRecord]
  constructor
  · exact fun hall => (hsafe record).1 (hall.safe key record hlookup)
  · intro hnew
    have hcases (k : RecordKey) (other : DataRecord)
        (hother : t.registry.catalog.lookup k = some other) :
        k = key ∧ other = record ∨ s.registry.catalog.lookup k = some other := by
      by_cases hk : k = key
      · subst hk
        exact Or.inl ⟨rfl, Option.some.inj (hother.symm.trans hlookup)⟩
      · rw [hcatalog, AList.lookup_insert_ne hk] at hother
        exact Or.inr hother
    refine ⟨fun k other hother => ?_, fun k other hother => (hsafe other).2 ?_⟩
    · rcases hcases k other hother with ⟨rfl, rfl⟩ | hold
      · exact hkey
      · exact h.keyed k other hold
    · rcases hcases k other hother with ⟨-, rfl⟩ | hold
      · exact hnew
      · exact h.safe k other hold

/-- After a write the file is there, and what was there before. -/
theorem hasChunk_of_put {path : String} {p : List String} {data : List UInt8} {i : ℕ}
    (hresolve : s.files.resolve path = .ok p) (hput : s.files.put path data = .ok t.files) :
    t.hasChunk record i = true ↔
      s.hasChunk record i = true ∨ s.files.resolve (chunkPath record record.key i) = .ok p := by
  obtain ⟨p', hresolve', hwrite, hroot⟩ := FilesystemStorageBackend.put_ok hput
  obtain rfl : p = p' := Except.ok.inj (hresolve.symm.trans hresolve')
  obtain ⟨hnode, habove, -⟩ := FileTree.write_ok hwrite
  have hfile (q : List String) :
      t.files.tree.isFile q = true ↔ s.files.tree.isFile q = true ∨ q = p := by
    unfold FileTree.isFile
    rw [hnode q]
    by_cases hq : q = p
    · simp [hq]
    by_cases hpre : q <+: p
    · have hnone := habove q hpre hq
      unfold FileTree.isFile at hnone
      simp [hq, hpre, hnone]
    · simp [hq, hpre]
  unfold hasChunk FilesystemStorageBackend.existsAt
  rw [FilesystemStorageBackend.resolve_congr hroot]
  cases s.files.resolve (chunkPath record record.key i) with
  | error e => simp
  | ok q =>
    dsimp only
    rw [hfile q, Except.ok.injEq]

/-- After a write a record is complete whose last file this was. -/
theorem completeHere_of_put {path : String} {p : List String} {data : List UInt8}
    (hresolve : s.files.resolve path = .ok p) (hput : s.files.put path data = .ok t.files)
    (hkind : record.kind ∈ B.kinds) : t.CompleteHere B record ↔ s.CompletedAt B p record := by
  rw [completeHere_iff hkind, CompletedAt, and_iff_right hkind]
  refine and_congr_right fun _ => forall₂_congr fun i _ => ?_
  exact hasChunk_of_put hresolve hput

/-- A chunk is put. -/
theorem allSafe_put_iff (h : s.AllSafe B) {path : String} {p : List String} {data : List UInt8}
    (hresolve : s.files.resolve path = .ok p) (hput : s.files.put path data = .ok t.files)
    (hcatalog : t.registry.catalog = s.registry.catalog)
    (hcache : t.registry.hashCache = s.registry.hashCache) :
    t.AllSafe B ↔ ∀ k other, s.registry.catalog.lookup k = some other →
      s.CompletedAt B p other → s.Hashed B other := by
  have hhashed (other : DataRecord) : t.Hashed B other ↔ s.Hashed B other := by
    unfold Hashed
    rw [hcache]
  constructor
  · intro hall k other hother hcompleted
    rw [← hcatalog] at hother
    refine (hhashed other).1 ((hall.safe k other hother).2 ?_)
    exact (completeHere_of_put hresolve hput hcompleted.1).2 hcompleted
  · intro hheeds
    refine ⟨fun k other hother => h.keyed k other (hcatalog ▸ hother), fun k other hother => ?_⟩
    rw [hcatalog] at hother
    obtain ⟨haddress, hsafe⟩ := h.safe k other hother
    refine ⟨haddress, fun hcomplete => (hhashed other).2 ?_⟩
    by_cases hkind : other.kind ∈ B.kinds
    · exact hheeds k other hother ((completeHere_of_put hresolve hput hkind).1 hcomplete)
    · -- no file makes a record complete whose kind no backend has
      refine hsafe ?_
      unfold CompleteHere chunksHere at hcomplete ⊢
      rw [if_neg hkind] at hcomplete ⊢
      exact hcomplete

/-- A status that returns leaves every record as safe as it was. -/
theorem allSafe_status_iff {st : DataStatus} (h : s.status B key = .ok (t, st)) :
    t.AllSafe B ↔ s.AllSafe B := by
  obtain ⟨hcatalog, hfiles⟩ := status_ok h
  have hkeyed : t.registry.WellKeyed ↔ s.registry.WellKeyed := by
    unfold DataStore.WellKeyed
    rw [hcatalog]
  suffices hsafe : s.registry.WellKeyed → ∀ k record, s.registry.catalog.lookup k = some record →
      (t.Safe B record ↔ s.Safe B record) by
    constructor
    · intro ht
      have hs := hkeyed.1 ht.keyed
      exact ⟨hs, fun k record hrecord => (hsafe hs k record hrecord).1
        (ht.safe k record (hcatalog ▸ hrecord))⟩
    · intro hs
      refine ⟨hkeyed.2 hs.keyed, fun k record hrecord => ?_⟩
      rw [hcatalog] at hrecord
      exact (hsafe hs.keyed k record hrecord).2 (hs.safe k record hrecord)
  intro hs k record hrecord
  obtain rfl := hs k record hrecord
  by_cases hk : record.key = key
  · -- of the record that was asked for, the status has returned
    subst hk
    obtain ⟨-, -, -, -, -, hkept⟩ := status_result hrecord h
    have hsafe := (status_isOk_iff hrecord).1 ⟨_, h⟩
    refine iff_of_true ⟨hsafe.1, fun hcomplete => ?_⟩ hsafe
    exact (hsafe.2 ((completeHere_congr hfiles).1 hcomplete)).imp_left (hkept _)
  · refine safe_congr hfiles ?_
    cases hfound : s.registry.catalog.lookup key with
    | none =>
      unfold status at h
      rw [hfound] at h
      cases h
      rfl
    | some found =>
      obtain rfl := hs key found hfound
      exact (status_result hfound h).2.2.2.2.1 _ hk

/-- What is stored was accepted. -/
theorem accepts_of_storeChunk {index : ℤ} {data : List UInt8} {now : ℚ} {events : List DataEvent}
    (h : s.storeChunk B key index data now = .ok (t, events, record)) :
    s.registry.catalog.lookup key = some record ∧ Dataset.Accepts B record index data := by
  unfold storeChunk at h
  cases hrecord : s.registry.catalog.lookup key with
  | none =>
    rw [hrecord] at h
    cases h
  | some found =>
    rw [hrecord] at h
    dsimp only at h
    split_ifs at h with hrange hzero hlength hkind
    rcases hput : s.files.put (chunkPath found key index) data with e | files <;> rw [hput] at h <;>
      cases h
    exact ⟨rfl, by omega, by omega, hzero, not_not.1 hlength, hkind⟩

/-- A chunk is stored, and the status asked for; or the put is refused, and changes nothing. -/
theorem chunkPut_cases (s : FileStore) (envelope : DataEnvelope) (payload : List UInt8) (now : ℚ) :
    (∃ key index record u events, (envelope.key = some key ∧ envelope.chunkIndex = some index) ∧
        s.storeChunk B key index payload now = .ok (u, events, record) ∧
        ((s.chunkPut B envelope payload now).AllSafe B ↔ u.AllSafe B) ∧
        (s.chunkPut B envelope payload now).registry.catalog = u.registry.catalog) ∨
      s.chunkPut B envelope payload now = s ∧ ∀ key index, envelope.key = some key →
        envelope.chunkIndex = some index → ∃ e, s.storeChunk B key index payload now = .error e := by
  unfold chunkPut
  cases hkey : envelope.key with
  | none => exact Or.inr ⟨rfl, fun _ _ h => by cases h⟩
  | some key =>
    cases hindex : envelope.chunkIndex with
    | none => exact Or.inr ⟨rfl, fun _ _ _ h => by cases h⟩
    | some index =>
      dsimp only
      cases hstore : s.storeChunk B key index payload now with
      | error e =>
        refine Or.inr ⟨rfl, fun k i hk hi => ⟨e, ?_⟩⟩
        obtain rfl := Option.some.inj hk
        obtain rfl := Option.some.inj hi
        exact hstore
      | ok r =>
        obtain ⟨u, events, record⟩ := r
        refine Or.inl ⟨key, index, record, u, events, ⟨rfl, rfl⟩, hstore, ?_⟩
        dsimp only
        cases hstatus : u.status B key with
        | error e => exact ⟨Iff.rfl, rfl⟩
        | ok r =>
          obtain ⟨t, st⟩ := r
          exact ⟨allSafe_status_iff hstatus, (status_ok hstatus).1⟩

/-- One command keeps every record safe exactly when it heeds what it completes. -/
theorem allSafe_upload_iff (h : s.AllSafe B) (act : UploadAct) :
    (s.upload B ownRpcUri act).AllSafe B ↔ s.Heeds B act := by
  cases act with
  | register bucketRegistry envelope now =>
    by_cases haccepts : ∃ key totalSize chunkBytes,
        DataRegisterHandler.Accepts B bucketRegistry s.registry envelope key totalSize chunkBytes
    · obtain ⟨key, totalSize, chunkBytes, haccepts⟩ := haccepts
      have hone (k : RecordKey) (size bytes : ℤ) (hother :
          DataRegisterHandler.Accepts B bucketRegistry s.registry envelope k size bytes) :
          k = key ∧ size = totalSize ∧ bytes = chunkBytes :=
        ⟨Option.some.inj (hother.1.symm.trans haccepts.1),
          Option.some.inj (hother.2.1.symm.trans haccepts.2.1),
          Option.some.inj (hother.2.2.1.symm.trans haccepts.2.2.1)⟩
      have hupload : s.upload B ownRpcUri (.register bucketRegistry envelope now) =
          { s with registry := (s.registry.putRecord key
            (DataRegisterHandler.recordOf envelope key totalSize chunkBytes now) now).1 } := by
        rw [upload, DataRegisterHandler.handle_of_accepts haccepts]
      refine (allSafe_putRecord_iff h rfl hupload).trans ⟨fun hsafe k size bytes hother => ?_,
        fun hall => hall key totalSize chunkBytes haccepts⟩
      obtain ⟨rfl, rfl, rfl⟩ := hone k size bytes hother
      exact hsafe
    · have hrefused : s.upload B ownRpcUri (.register bucketRegistry envelope now) = s := by
        rw [upload, (DataRegisterHandler.handle_refused fun key size bytes hother =>
          haccepts ⟨key, size, bytes, hother⟩).1]
      rw [hrefused]
      exact iff_of_true h fun key size bytes hother => absurd ⟨key, size, bytes, hother⟩ haccepts
  | chunkPut envelope payload now =>
    show (s.chunkPut B envelope payload now).AllSafe B ↔ _
    rcases chunkPut_cases (B := B) s envelope payload now with
      ⟨key, index, record, u, events, ⟨hkey, hindex⟩, hstore, hsafe, -⟩ | ⟨hsame, hrefused⟩
    · obtain ⟨hrecord, haccepts⟩ := accepts_of_storeChunk hstore
      obtain ⟨-, hput, hcatalog, hcache⟩ := storeChunk_ok hstore
      obtain ⟨p, hresolve, hwrite, -⟩ := FilesystemStorageBackend.put_ok hput
      rw [hsafe, allSafe_put_iff h hresolve hput hcatalog hcache]
      constructor
      · intro hall k i other q tree hk hi hother _ hq _
        obtain rfl := Option.some.inj (hkey.symm.trans hk)
        obtain rfl := Option.some.inj (hindex.symm.trans hi)
        obtain rfl := Option.some.inj (hrecord.symm.trans hother)
        obtain rfl := Except.ok.inj (hresolve.symm.trans hq)
        exact hall
      · exact fun hheeds =>
          hheeds key index record p _ hkey hindex hrecord haccepts hresolve hwrite
    · rw [hsame]
      refine iff_of_true h fun key index record p tree hkey hindex hrecord haccepts hresolve
        hwrite => ?_
      obtain ⟨files, hput, -⟩ := FilesystemStorageBackend.put_of_write hresolve hwrite
      obtain ⟨t, events, hstore, -⟩ := storeChunk_of_put now hrecord haccepts hput
      obtain ⟨e, he⟩ := hrefused key index hkey hindex
      cases he.symm.trans hstore

/-! ### Whole runs -/

theorem wellKeyed_upload (hkeyed : s.registry.WellKeyed) (act : UploadAct) :
    (s.upload B ownRpcUri act).registry.WellKeyed := by
  cases act with
  | register bucketRegistry envelope now =>
    show (DataRegisterHandler.handle B ownRpcUri bucketRegistry s.registry envelope
      now).store.WellKeyed
    by_cases haccepts : ∃ key totalSize chunkBytes,
        DataRegisterHandler.Accepts B bucketRegistry s.registry envelope key totalSize chunkBytes
    · obtain ⟨key, totalSize, chunkBytes, haccepts⟩ := haccepts
      rw [DataRegisterHandler.handle_of_accepts haccepts]
      have hname : (DataRegisterHandler.recordOf envelope key totalSize chunkBytes now).key = key := rfl
      exact wellKeyed_insert hkeyed hname (by
        simp only [DataStore.putRecord, DataStore.catalog_completeIf])
    · rw [(DataRegisterHandler.handle_refused fun key size bytes hother =>
        haccepts ⟨key, size, bytes, hother⟩).1]
      exact hkeyed
  | chunkPut envelope payload now =>
    show (s.chunkPut B envelope payload now).registry.WellKeyed
    have hcatalog : (s.chunkPut B envelope payload now).registry.catalog = s.registry.catalog := by
      rcases chunkPut_cases (B := B) s envelope payload now with
        ⟨key, index, record, u, events, -, hstore, -, hcatalog⟩ | ⟨hsame, -⟩
      · exact hcatalog.trans (storeChunk_ok hstore).2.2.1
      · rw [hsame]
    intro k record hrecord
    exact hkeyed k record (hcatalog ▸ hrecord)

end FileStore

end Axo
