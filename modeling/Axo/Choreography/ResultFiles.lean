import Axo.Choreography.ResultsKept

/-!
# Results in files

The writes of results over the files of the endpoints. Where no two datasets share a chunk file they
are the writes over blobs.

* `register_represents` and `chunkPut_represents` are the two handlers, over both;
* `withStores` is the system with other registries, and `exists_step` one step of it;
* `kept_of_reach` is the result for whole runs over files.
-/

namespace Axo

open Transition

/-! ### The handlers -/

namespace FileStore

variable {B : DataBackends} {K : StorageKeys} {f : FileStore} {s : DataStore}
  (uri : String) (buckets : Option BucketCatalog) {envelope : DataEnvelope} (payload : List UInt8)
  (now : ℚ)

theorem register_withBlobs (B : DataBackends) (envelope : DataEnvelope) (s : DataStore)
    (blobs : Dict BlobKey (List UInt8)) :
    DataRegisterHandler.handle B uri buckets (s.withBlobs blobs) envelope now =
      { DataRegisterHandler.handle B uri buckets s envelope now with
        store := (DataRegisterHandler.handle B uri buckets s envelope now).store.withBlobs blobs } := by
  have hcatalog : (s.withBlobs blobs).catalog = s.catalog := rfl
  unfold DataRegisterHandler.handle
  rcases envelope.key with _ | key
  · rfl
  rcases envelope.totalSize with _ | totalSize
  · rfl
  generalize Option.filter _ envelope.chunkBytes = bytes
  rcases bytes with _ | chunkBytes
  · rfl
  dsimp only
  rw [hcatalog]
  rcases DataRegisterHandler.quotaError buckets s.catalog key.id totalSize with _ | err
  · unfold DataStore.register
    dsimp only
    rw [DataStore.putRecord_withBlobs]
    split_ifs <;> rfl
  · rfl

/-- What a registration leaves in the catalog. -/
theorem catalog_register {uri : String} {buckets : Option BucketCatalog} {now : ℚ} {k : RecordKey} {record : DataRecord}
    (h : (DataRegisterHandler.handle B uri buckets s envelope now).store.catalog.lookup k =
      some record) :
    s.catalog.lookup k = some record ∨ envelope.key = some k ∧ record.key = k := by
  by_cases haccepts : ∃ key totalSize chunkBytes,
      DataRegisterHandler.Accepts B buckets s envelope key totalSize chunkBytes
  · obtain ⟨key, totalSize, chunkBytes, haccepts⟩ := haccepts
    rw [DataRegisterHandler.handle_of_accepts haccepts] at h
    simp only [DataStore.putRecord, DataStore.catalog_completeIf] at h
    by_cases hk : k = key
    · subst hk
      rw [AList.lookup_insert] at h
      cases h
      exact .inr ⟨haccepts.1, rfl⟩
    · rw [AList.lookup_insert_ne hk] at h
      exact .inl h
  · push Not at haccepts
    rw [(DataRegisterHandler.handle_refused haccepts).1] at h
    exact .inl h

theorem register_represents (h : Represents K f s) (hkey : ∀ key ∈ envelope.key, key ∈ K.keys) :
    ((fileOps B).register uri buckets f envelope now).2 =
        ((blobOps B).register uri buckets s envelope now).2 ∧
      Represents K ((fileOps B).register uri buckets f envelope now).1
        ((blobOps B).register uri buckets s envelope now).1 := by
  have hsame := register_withBlobs uri buckets now B envelope f.registry s.blobs
  rw [h.registry] at hsame
  simp only [fileOps, blobOps, hsame, true_and]
  refine h.of_registry fun k record hrecord => ?_
  obtain hold | ⟨hnew, hname⟩ := catalog_register hrecord
  · exact h.within k record (h.catalog ▸ hold)
  · exact ⟨hkey k hnew, hname⟩

theorem chunkPut_represents (h : Represents K f s) (hkey : ∀ key ∈ envelope.key, key ∈ K.keys) :
    ((fileOps B).chunkPut f envelope payload now).2 =
        ((blobOps B).chunkPut s envelope payload now).2 ∧
      Represents K ((fileOps B).chunkPut f envelope payload now).1
        ((blobOps B).chunkPut s envelope payload now).1 := by
  simp only [fileOps, blobOps, handleChunkPut, DataChunkPutHandler.handle]
  cases hname : envelope.key with
  | none => exact ⟨rfl, h⟩
  | some key =>
    cases envelope.chunkIndex with
    | none => exact ⟨rfl, h⟩
    | some index =>
      dsimp only
      have hstored := h.storeChunk (B := B) (hkey key hname) index payload now
      generalize f.storeChunk B key index payload now = x at hstored ⊢
      generalize s.storeChunk B key index payload now = y at hstored ⊢
      cases hstored with
      | error e => cases e <;> exact ⟨rfl, h⟩
      | @ok f' s' h' a =>
        dsimp only
        have hstatus := h'.status (B := B) key
        generalize f'.status B key = x at hstatus ⊢
        generalize s'.status B key = y at hstatus ⊢
        cases hstatus with
        | error e => exact ⟨rfl, h'⟩
        | ok h'' st => exact ⟨rfl, h''⟩

end FileStore

/-! ### The system -/

namespace BucketCluster

variable {B : DataBackends} {json : JsonLib} {leader : String} {N : DatasetNames}

/-- Every registry is over files, with datasets that have chunk files of their own. -/
def OverFiles (N : DatasetNames) (stores : String → FileStore) (blobs : String → DataStore) : Prop :=
  ∀ endpointId, ∃ root, FileStore.Represents (N.at root) (stores endpointId) (blobs endpointId)

/-- The same system with other registries. -/
def withStores {σ τ : Type} (s : BucketCluster σ) (stores : String → τ) : BucketCluster τ where
  stores := stores
  writers := s.writers
  late := s.late
  log := s.log

/-- The commands are about such datasets. -/
structure Named (N : DatasetNames) {σ : Type} (s : BucketCluster σ) : Prop where
  writer : ∀ id writer, s.writers.lookup id = some writer → ∀ key ∈ writer.current?, key ∈ N.keys
  late : ∀ sent ∈ s.late, sent.key ∈ N.keys

/-- The dataset that is chosen has chunk files of its own. -/
def Chooses (N : DatasetNames) {σ : Type} (s : BucketCluster σ) : BucketAct → Prop
  | .look id items => ∀ writer ∈ s.writers.lookup id, ∀ bucket ∈ writer.nextBucket?,
    ∀ name ∈ bucket, writer.nextKey items name ∈ N.keys
  | _ => True

/-- Besides what `Lands` asks for, datasets share no chunk file. -/
def KeptGuard (B : DataBackends) (leader : String) (N : DatasetNames) (s : BucketCluster FileStore)
    (act : BucketAct) : Prop :=
  s.Chooses N act ∧ s.Lands (fileOps B) leader act

variable {s t : BucketCluster FileStore} {blobs : String → DataStore}

theorem OverFiles.update (h : OverFiles N s.stores blobs) {endpointId : String} {f : FileStore}
    {d : DataStore} (hnew : ∀ root,
      FileStore.Represents (N.at root) (s.stores endpointId) (blobs endpointId) →
        FileStore.Represents (N.at root) f d) :
    OverFiles N (Function.update s.stores endpointId f) (Function.update blobs endpointId d) := by
  intro other
  by_cases hother : other = endpointId
  · subst hother
    rw [Function.update_self, Function.update_self]
    obtain ⟨root, hroot⟩ := h other
    exact ⟨root, hnew root hroot⟩
  · rw [Function.update_of_ne hother, Function.update_of_ne hother]
    exact h other

/-! ### One step -/

section

variable {σ : Type} {R : RegistryOps σ} {c c' : BucketCluster σ} {id : WriterId}
  {writer : ResultWriter} {m : Meeting} {sent : SentWrite} {act : BucketAct}

theorem Named.setWriter (h : c.Named N) (hcurrent : ∀ key ∈ writer.current?, key ∈ N.keys) :
    (c.setWriter id writer).Named N where
  writer other old hold := by
    by_cases hother : other = id
    · subst hother
      rw [BucketCluster.setWriter, AList.lookup_insert] at hold
      exact Option.some.inj hold ▸ hcurrent
    · rw [BucketCluster.setWriter, AList.lookup_insert_ne hother] at hold
      exact h.writer other old hold
  late := h.late

theorem Named.lose (h : c.Named N) (hsent : sent.key ∈ N.keys) : (c.lose sent).Named N where
  writer := h.writer
  late other hother := by
    obtain hold | hnew := List.mem_append.1 hother
    · exact h.late other hold
    · rw [List.mem_singleton.1 hnew]
      exact hsent

/-- A command that is taken changes no write, and is forwarded at most. -/
theorem Named.taken (h : c.Named N) (hsent : sent.key ∈ N.keys) :
    (c.taken R leader m sent).1.Named N ∧ (c.taken R leader m sent).1.writers = c.writers := by
  have hregister (endpointId : String) (payload : List UInt8) :
      (c.registerAt R m endpointId sent.key payload).1.Named N ∧
        (c.registerAt R m endpointId sent.key payload).1.writers = c.writers :=
    ⟨⟨h.writer, h.late⟩, rfl⟩
  unfold BucketCluster.taken
  split_ifs
  · exact ⟨⟨h.writer, h.late⟩, rfl⟩
  · cases proxyRoute m sent.endpointId sent.forwarded with
    | here => exact hregister _ _
    | refused error => exact ⟨h, rfl⟩
    | forward leaderId uri =>
      dsimp only [BucketCluster.forward]
      cases m.forwardError with
      | some text =>
        have hlost : (c.lose { sent with endpointId := leaderId, forwarded := true }).Named N :=
          h.lose hsent
        exact ⟨hlost, rfl⟩
      | none =>
        cases proxyRoute m leaderId true with
        | here => exact hregister _ _
        | refused error => exact ⟨h, rfl⟩
        | forward other uri => exact ⟨h, rfl⟩

/-- A write works on a dataset that it has chosen. -/
theorem Named.step (h : c.Named N) (hchooses : c.Chooses N act)
    (hstep : c.step R json leader act = some c') : c'.Named N := by
  cases act with
  | begin id execution endpointIds routerBind =>
    simp only [BucketCluster.step] at hstep
    split at hstep
    · obtain rfl := Option.some.inj hstep
      exact h.setWriter fun key hkey => by cases hkey
    · cases hstep
  | look id items =>
    obtain ⟨writer, hlookup, hstep⟩ := Option.bind_eq_some_iff.1 hstep
    split at hstep
    · rename_i hstage _ _
      obtain rfl := Option.some.inj hstep
      exact h.setWriter fun key hkey => by cases hkey
    · rename_i bucket hstage _ hnext
      obtain rfl := Option.some.inj hstep
      refine h.setWriter fun key hkey => ?_
      obtain rfl := Option.some.inj hkey
      exact hchooses writer hlookup _ hnext bucket rfl
    · cases hstep
  | take id m =>
    obtain ⟨writer, hlookup, hstep⟩ := Option.bind_eq_some_iff.1 hstep
    obtain ⟨sent, hsent, hstep⟩ := Option.bind_eq_some_iff.1 hstep
    obtain rfl := Option.some.inj hstep
    obtain ⟨key, target, -, hcurrent, hcase⟩ := sent_cases hsent
    have hkey := h.writer id writer hlookup key hcurrent
    have hsame : sent.key = key := by obtain ⟨-, rfl⟩ | ⟨-, rfl⟩ := hcase <;> rfl
    refine (h.taken (hsame ▸ hkey)).1.setWriter fun other hother => ?_
    have hother : other = sent.key := by
      split_ifs at hother <;> exact (Option.some.inj hother).symm
    rw [hother, hsame]
    exact hkey
  | answer id =>
    obtain ⟨writer, hlookup, hstep⟩ := Option.bind_eq_some_iff.1 hstep
    split at hstep
    · rename_i key reply hstage
      have hkey := h.writer id writer hlookup key (by simp [ResultWriter.current?, hstage])
      split_ifs at hstep
      · obtain rfl := Option.some.inj hstep
        exact h.setWriter fun other hother => Option.some.inj hother ▸ hkey
      · obtain rfl := Option.some.inj hstep
        exact h.setWriter fun other hother => by cases hother
    · obtain rfl := Option.some.inj hstep
      exact h.setWriter fun other hother => by cases hother
    · cases hstep
  | timeOut id =>
    obtain ⟨writer, hlookup, hstep⟩ := Option.bind_eq_some_iff.1 hstep
    have hmoved (key : RecordKey) : ∀ other ∈ (writer.moveOn key).current?, other ∈ N.keys :=
      fun other hother => by cases hother
    split at hstep
    case h_5 => cases hstep
    case h_3 | h_4 =>
      obtain rfl := Option.some.inj hstep
      exact h.setWriter (hmoved _)
    all_goals
      obtain ⟨sent, hsent, hstep⟩ := Option.bind_eq_some_iff.1 hstep
      obtain rfl := Option.some.inj hstep
      obtain ⟨key, target, -, hcurrent, hcase⟩ := sent_cases hsent
      have hsame : sent.key = key := by obtain ⟨-, rfl⟩ | ⟨-, rfl⟩ := hcase <;> rfl
      exact (h.lose (hsame ▸ h.writer id writer hlookup key hcurrent)).setWriter (hmoved _)
  | complete id =>
    obtain ⟨writer, hlookup, hstep⟩ := Option.bind_eq_some_iff.1 hstep
    split at hstep
    · split_ifs at hstep
      obtain rfl := Option.some.inj hstep
      exact h.setWriter fun key hkey => by cases hkey
    · cases hstep
  | takeLate index m =>
    obtain ⟨sent, hsent, hstep⟩ := Option.bind_eq_some_iff.1 hstep
    obtain rfl := Option.some.inj hstep
    have hless : ({ c with late := c.late.eraseIdx index } : BucketCluster σ).Named N :=
      ⟨h.writer, fun other hother => h.late other (List.mem_of_mem_eraseIdx hother)⟩
    exact (hless.taken (h.late sent (List.mem_of_getElem? hsent))).1

end

theorem exists_registerAt (h : OverFiles N s.stores blobs) {key : RecordKey} (hkey : key ∈ N.keys)
    (m : Meeting) (endpointId : String) (payload : List UInt8) :
    ∃ blobs', OverFiles N (s.registerAt (fileOps B) m endpointId key payload).1.stores blobs' ∧
      (s.withStores blobs).registerAt (blobOps B) m endpointId key payload =
        ((s.registerAt (fileOps B) m endpointId key payload).1.withStores blobs',
          (s.registerAt (fileOps B) m endpointId key payload).2) := by
  have hnamed : ∀ k ∈ (resultEnvelope key payload).key, k = key := by
    intro k hk
    obtain ⟨hid, hversion⟩ := DataEnvelope.key_eq_some hk
    have hid := (Option.filter_eq_some_iff.1 hid).1
    cases k
    cases key
    cases Option.some.inj hid
    cases Option.some.inj hversion
    rfl
  have hsame (root : List String)
      (hroot : FileStore.Represents (N.at root) (s.stores endpointId) (blobs endpointId)) :=
    FileStore.register_represents (B := B) m.ownRpcUri (m.buckets endpointId) m.now hroot
      fun k hk => show k ∈ N.keys from hnamed k hk ▸ hkey
  obtain ⟨root, hroot⟩ := h endpointId
  refine ⟨_, h.update fun root hroot => (hsame root hroot).2, ?_⟩
  exact Prod.ext rfl (hsame root hroot).1.symm

theorem exists_putAt (h : OverFiles N s.stores blobs) {sent : SentWrite} (hkey : sent.key ∈ N.keys)
    (m : Meeting) :
    ∃ blobs', OverFiles N (s.putAt (fileOps B) leader m sent).1.stores blobs' ∧
      (s.withStores blobs).putAt (blobOps B) leader m sent =
        ((s.putAt (fileOps B) leader m sent).1.withStores blobs',
          (s.putAt (fileOps B) leader m sent).2) := by
  have hnamed : ∀ k ∈ (AxoEndpointClient.chunkEnvelope sent.key 0).key, k ∈ N.keys := by
    intro k hk
    have hkey' : k = sent.key := by
      obtain ⟨hid, hversion⟩ := DataEnvelope.key_eq_some hk
      have hid := (Option.filter_eq_some_iff.1 hid).1
      exact congrArg₂ RecordKey.mk (Option.some.inj hid).symm (Option.some.inj hversion).symm
    exact hkey' ▸ hkey
  have hsame (root : List String) (hroot : FileStore.Represents (N.at root)
      (s.stores sent.endpointId) (blobs sent.endpointId)) :=
    FileStore.chunkPut_represents (B := B) sent.payload m.now hroot hnamed
  obtain ⟨root, hroot⟩ := h sent.endpointId
  refine ⟨_, h.update fun root hroot => (hsame root hroot).2, ?_⟩
  have hreply : ((blobOps B).chunkPut (blobs sent.endpointId)
      (AxoEndpointClient.chunkEnvelope sent.key 0) sent.payload m.now).2 = _ :=
    (hsame root hroot).1.symm
  unfold putAt withStores
  dsimp only
  rw [hreply]

/-- A command is taken over blobs as it is over files. -/
theorem exists_taken (B : DataBackends) (leader : String) (h : OverFiles N s.stores blobs) {sent : SentWrite} (hkey : sent.key ∈ N.keys)
    (m : Meeting) :
    ∃ blobs', OverFiles N (s.taken (fileOps B) leader m sent).1.stores blobs' ∧
      (s.withStores blobs).taken (blobOps B) leader m sent =
        ((s.taken (fileOps B) leader m sent).1.withStores blobs',
          (s.taken (fileOps B) leader m sent).2) := by
  unfold taken
  split_ifs
  · exact exists_putAt h hkey m
  · cases proxyRoute m sent.endpointId sent.forwarded with
    | here => exact exists_registerAt h hkey m sent.endpointId sent.payload
    | refused error => exact ⟨blobs, h, rfl⟩
    | forward leaderId uri =>
      dsimp only [forward]
      cases m.forwardError with
      | some text => exact ⟨blobs, h, rfl⟩
      | none =>
        cases proxyRoute m leaderId true with
        | here =>
          obtain ⟨blobs', hblobs, hsame⟩ := exists_registerAt (B := B) h hkey m leaderId sent.payload
          refine ⟨blobs', hblobs, ?_⟩
          dsimp only
          rw [hsame]
        | refused error => exact ⟨blobs, h, rfl⟩
        | forward other uri => exact ⟨blobs, h, rfl⟩

/-- The action is one of the writers', and no registry is asked. -/
def IsOwn : BucketAct → Prop
  | .take .. | .takeLate .. => False
  | _ => True

/-- What the writers do by themselves is the same over any registries. -/
theorem step_withStores (B : DataBackends) (json : JsonLib) (leader : String) {act : BucketAct} (hown : IsOwn act) (s : BucketCluster FileStore)
    (blobs : String → DataStore) :
    (s.withStores blobs).step (blobOps B) json leader act =
        (s.step (fileOps B) json leader act).map (withStores · blobs) ∧
      ∀ t ∈ s.step (fileOps B) json leader act, t.stores = s.stores := by
  cases act with
  | take | takeLate => cases hown
  | begin id execution endpointIds routerBind =>
    simp only [step, withStores]
    cases s.writers.lookup id <;> cases execution.result? <;>
      exact ⟨rfl, fun t ht => by cases ht <;> rfl⟩
  | timeOut id =>
    simp only [step, withStores]
    rcases s.writers.lookup id with _ | writer
    · exact ⟨rfl, fun t ht => by cases ht⟩
    obtain ⟨execution, payload, target, handled, stage⟩ := writer
    cases stage <;> cases target <;> exact ⟨rfl, fun t ht => by cases ht <;> rfl⟩
  | look id items | answer id | complete id =>
    simp only [step, withStores]
    rcases s.writers.lookup id with _ | writer
    · exact ⟨rfl, fun t ht => by cases ht⟩
    simp only [Option.bind_eq_bind, Option.bind_some]
    split
    all_goals try split_ifs
    all_goals exact ⟨rfl, fun t ht => by cases ht <;> rfl⟩

/-- A step over files is one over blobs. -/
theorem exists_step (h : OverFiles N s.stores blobs) (hnamed : s.Named N) {act : BucketAct}
    (hstep : s.step (fileOps B) json leader act = some t) :
    ∃ blobs', OverFiles N t.stores blobs' ∧
      (s.withStores blobs).step (blobOps B) json leader act = some (t.withStores blobs') := by
  by_cases hown : IsOwn act
  · obtain ⟨hsame, hstores⟩ := step_withStores B json leader hown s blobs
    refine ⟨blobs, hstores t hstep ▸ h, ?_⟩
    rw [hsame, hstep]
    rfl
  cases act with
  | take id m =>
    obtain ⟨writer, hlookup, hstep⟩ := Option.bind_eq_some_iff.1 hstep
    obtain ⟨sent, hsent, hstep⟩ := Option.bind_eq_some_iff.1 hstep
    obtain rfl := Option.some.inj hstep
    obtain ⟨key, target, -, hcurrent, hcase⟩ := sent_cases hsent
    have hkey := hnamed.writer id writer hlookup key hcurrent
    have hsame : sent.key = key := by obtain ⟨-, rfl⟩ | ⟨-, rfl⟩ := hcase <;> rfl
    obtain ⟨blobs', hblobs, htaken⟩ :=
      exists_taken B leader h (hsame ▸ hkey) m
    refine ⟨blobs', hblobs, ?_⟩
    refine Option.bind_eq_some_iff.2 ⟨writer, hlookup, Option.bind_eq_some_iff.2 ⟨sent, hsent, ?_⟩⟩
    rw [htaken]
    rfl
  | takeLate index m =>
    obtain ⟨sent, hsent, hstep⟩ := Option.bind_eq_some_iff.1 hstep
    obtain rfl := Option.some.inj hstep
    obtain ⟨blobs', hblobs, htaken⟩ := exists_taken B leader
      (s := { s with late := s.late.eraseIdx index }) h
      (hnamed.late sent (List.mem_of_getElem? hsent)) m
    refine ⟨blobs', hblobs, Option.bind_eq_some_iff.2 ⟨sent, hsent, ?_⟩⟩
    exact congrArg (fun r => some r.1) htaken
  | _ => exact absurd trivial hown

/-! ### Runs -/

theorem lands_withStores (h : OverFiles N s.stores blobs) {act : BucketAct} :
    (s.withStores blobs).Lands (blobOps B) leader act ↔ s.Lands (fileOps B) leader act := by
  obtain ⟨root, hroot⟩ := h leader
  have hcatalog : (blobs leader).catalog = (s.stores leader).registry.catalog := hroot.catalog
  cases act with
  | take id m =>
    simp only [Lands, DataRegisterHandler.Accepts, fileOps, blobOps, withStores, id_eq, hcatalog]
  | _ => exact Iff.rfl

theorem kept_withStores (h : OverFiles N s.stores blobs)
    (hkept : (s.withStores blobs).Kept (blobOps B) json leader) :
    s.Kept (fileOps B) json leader := by
  obtain ⟨root, hroot⟩ := h leader
  intro id writer hlookup hstage
  obtain ⟨value, hvalue, hedges⟩ := hkept id writer hlookup hstage
  refine ⟨value, hvalue, hedges.imp fun bucket handled hedge => ?_⟩
  obtain ⟨name, key, hbucket, hhandled, hname, ⟨d, st, hstatus, hcomplete⟩, hread, hlog⟩ := hedge
  refine ⟨name, key, hbucket, hhandled, hname, ?_, ?_, hlog⟩
  · have hsame : FileStore.SameResult (N.at root) ((s.stores leader).status B key)
        ((blobs leader).status B key) := hroot.status key
    have hstatus : (blobs leader).status B key = .ok (d, st) := hstatus
    rw [hstatus] at hsame
    show ∃ store st, (s.stores leader).status B key = .ok (store, st) ∧ st.complete = true
    generalize (s.stores leader).status B key = x at hsame ⊢
    cases hsame with
    | ok h' => exact ⟨_, st, rfl, hcomplete⟩
  · exact (hroot.readWhole key).trans hread

/-- A run over files is one over blobs. -/
theorem exists_of_reach {stores : String → FileStore} (h : OverFiles N stores blobs)
    (hreach : Reach (step (fileOps B) json leader) (KeptGuard B leader N) (init stores) s) :
    ∃ blobs', OverFiles N s.stores blobs' ∧
      Reach (step (blobOps B) json leader) (Lands (blobOps B) leader) (init blobs)
        (s.withStores blobs') ∧ s.Named N := by
  induction hreach with
  | refl =>
    refine ⟨blobs, h, .refl, fun id writer hlookup => ?_, fun sent hsent => ?_⟩
    · rw [init, AList.lookup_empty] at hlookup
      cases hlookup
    · cases hsent
  | tail _ hguard hstep ih =>
    obtain ⟨blobs', hblobs, hreach, hnamed⟩ := ih
    obtain ⟨blobs'', hblobs', hstep'⟩ := exists_step hblobs hnamed hstep
    exact ⟨blobs'', hblobs', hreach.tail ((lands_withStores hblobs).2 hguard.2) hstep',
      hnamed.step hguard.1 hstep⟩

section Decidable

variable {σ : Type} {R : RegistryOps σ} (c : BucketCluster σ) (id : WriterId)

theorem free_iff {key : RecordKey} : c.Free id key ↔
    ∀ other ∈ c.writers.keys, ∀ writer ∈ c.writers.lookup other, key ∈ writer.keys → other = id :=
  ⟨fun h other _ writer hwriter => h other writer hwriter, fun h other writer hwriter =>
    h other (Dict.mem_of_lookup hwriter) writer hwriter⟩

instance (key : RecordKey) : Decidable (c.Free id key) := decidable_of_iff _ (c.free_iff id).symm

instance (leader : String) (act : BucketAct) : Decidable (c.Lands R leader act) := by
  cases act <;> unfold Lands <;> infer_instance

instance (act : BucketAct) : Decidable (c.Chooses DatasetNames.plain act) := by
  cases act <;> unfold Chooses <;> infer_instance

instance (B : DataBackends) (leader : String) (s : BucketCluster FileStore) (act : BucketAct) :
    Decidable (KeptGuard B leader DatasetNames.plain s act) := inferInstanceAs (Decidable (_ ∧ _))

end Decidable

/-- A function whose result goes to a bucket. -/
def oneBucket : NodeExecution where
  choreography := "c"
  graph :=
    { nodes := [⟨"n", .function, some "f", some 1, 3, .constant, none, none⟩,
        ⟨"b", .bucket, none, none, 3, .constant, some "out", none⟩]
      edges := [⟨"e", "n", "b", .fnToBucket, none, 1⟩] }
  node := ⟨"n", .function, some "f", some 1, 3, .constant, none, none⟩
  inputs := failing []
  nodeResults := ∅

/-- The version is derived, and both commands are taken and answered. -/
def writeResult (runId : String) (endpointId : String) (m : Meeting) (items : List DataItem) :
    List BucketAct :=
  [.begin (runId, "n") oneBucket (some [endpointId]) (fun _ => some "tcp://0.0.0.0:5555"),
    .look (runId, "n") items, .take (runId, "n") m, .answer (runId, "n"), .take (runId, "n") m,
    .answer (runId, "n"), .complete (runId, "n")]

/-- Everybody takes the endpoint `l` for the leader. -/
def agreed : Meeting where
  leaderOf _ := "l"
  rpcUri _ := some "tcp://l:5555"

/-- The text of the result. -/
def resultText : List UInt8 := [34, 110, 34]

/-- The dataset of the result in its versions. -/
def resultKey (version : ℤ) : RecordKey := { id := "out/c-n", version := version }

/-- Endpoints whose registries are empty. -/
def freshStores (_ : String) : FileStore := .init ["data"] (· ++ ".tmp")

theorem overFiles_freshStores : OverFiles DatasetNames.plain freshStores fun _ => {} :=
  fun _ => ⟨["data"], .init (DatasetNames.plain.at ["data"]) _⟩

/-- The registries of the examples, and the text of the result. -/
def plainOps : RegistryOps FileStore := fileOps DataHistory.plainBackends

def plainJson : JsonLib := jsonOf (.str "n") "\"n\""

/-- What is read of a dataset at the leader. -/
def readAtLeader (s : BucketCluster FileStore) (version : ℤ) : Option (List UInt8) :=
  ((s.stores "l").readWhole DataHistory.plainBackends (resultKey version)).toOption

/-- A completed write of `oneBucket` whose dataset the leader cannot read. -/
def lostAt (s : BucketCluster FileStore) (writer : ResultWriter) : Bool :=
  (match writer.stage with
    | .completed => true
    | _ => false) &&
  decide (writer.execution.buckets = [some "out"]) && decide (writer.handled = [some (resultKey 1)]) &&
  match (s.stores "l").readWhole DataHistory.plainBackends (resultKey 1) with
  | .ok _ => false
  | .error _ => true

theorem not_kept_of_lostAt {id : WriterId} {writer : ResultWriter}
    (hlookup : s.writers.lookup id = some writer) (hlost : lostAt s writer = true) :
    ¬ s.Kept plainOps json "l" := by
  intro hkept
  simp only [lostAt, Bool.and_eq_true, decide_eq_true_eq] at hlost
  obtain ⟨⟨⟨hstage, hbuckets⟩, hhandled⟩, hread⟩ := hlost
  have hcompleted : writer.stage = .completed := by
    split at hstage
    · assumption
    · cases hstage
  obtain ⟨value, -, hedges⟩ := hkept id writer hlookup hcompleted
  rw [hbuckets, hhandled, List.forall₂_cons] at hedges
  obtain ⟨⟨name, key, -, hkey, -, -, hwhole, -⟩, -⟩ := hedges
  obtain rfl := Option.some.inj hkey
  have hwhole : (s.stores "l").readWhole DataHistory.plainBackends (resultKey 1) = .ok _ := hwhole
  simp only [hwhole, Bool.false_eq_true] at hread

end BucketCluster

end Axo
