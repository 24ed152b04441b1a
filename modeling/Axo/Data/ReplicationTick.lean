import Axo.Data.BlobReplication
import Axo.Data.FileStatus
import Axo.Lib.Rounds

/-!
# A tick of the replicator

`run_tick` of `service/blob_replication.py` as one function of what the leader holds, what it knows
of its peers, and what they answer.  `BlobReplication` has the same loops in steps, with steps of the
leader's handlers in between; here nothing else happens meanwhile, and an answer can be anything.

* `runTick` are the three loops; the first exception ends them all;
* `wanted` is what the tick would push without a limit, and `Considered` when a record can be
  considered without an exception;
* `runTick_spec` says that the tick then pushes what the budget pays for of what is wanted.
-/

namespace Axo

open Rounds

/-- The metadata of a member's reply to `DATA_STATUS`. -/
structure PeerMetadata where
  /-- `None` when `set` raises an exception -/
  presentChunkIndices : Option (List ℤ)
  complete : Bool

/-- The arguments of a tick, and what the clocks say during it. -/
structure TickInput where
  members : List EndpointId
  /-- `query_status_fn` -/
  answer : EndpointId → RecordKey → Option PeerMetadata
  elapsedSeconds : ℚ
  now : ℚ
  latencyMs : EndpointId → RecordKey → ℚ := fun _ _ => 0
  lastSyncedAt : EndpointId → RecordKey → ℚ := fun _ _ => now

/-- What a tick works on. -/
structure TickState where
  leader : FileStore
  peerStatus : Dict (RecordKey × EndpointId) PeerSyncInfo
  bytesSent : ℕ := 0
  pushed : List ChunkPush := []

/-- The length of a chunk. -/
def ChunkPush.bytes (push : ChunkPush) : ℕ := push.data.length

/-- `self._rate_limit_bytes_per_second > 0 and bytes_sent >= byte_budget`. -/
def ReplicatorConfig.Spent (cfg : ReplicatorConfig) (elapsedSeconds : ℚ) (bytesSent : ℕ) : Prop :=
  0 < cfg.rateLimitBytesPerSecond ∧ cfg.rateLimitBytesPerSecond * elapsedSeconds ≤ bytesSent

instance (cfg : ReplicatorConfig) (elapsedSeconds : ℚ) : DecidablePred (cfg.Spent elapsedSeconds) :=
  fun _ => inferInstanceAs (Decidable (_ ∧ _))

namespace BlobReplicator

variable (B : DataBackends) (cfg : ReplicatorConfig) (input : TickInput)

/-- The loop over the chunks that a member lacks. -/
def pushMissing (peer : EndpointId) (key : RecordKey) (s : TickState) :
    List ℕ → TickState × Option DataFailure
  | [] => (s, none)
  | i :: missing =>
    if cfg.Spent input.elapsedSeconds s.bytesSent then (s, none)
    else
      match s.leader.readChunk B key i with
      | .error (.err _) => pushMissing peer key s missing
      | .error (.raised exception) => (s, some (.raised exception))
      | .ok chunk =>
        pushMissing peer key
          { s with
            pushed := s.pushed ++ [{ peer := peer, key := key, index := i, data := chunk }]
            bytesSent := s.bytesSent + chunk.length } missing

/-- The member was found complete a short while ago. -/
def recentlyComplete (peerStatus : Dict (RecordKey × EndpointId) PeerSyncInfo) (key : RecordKey)
    (peer : EndpointId) : Bool :=
  match peerStatus.lookup (key, peer) with
  | none => false
  | some cached => cached.complete && decide (input.now - cached.lastSyncedAt < cfg.recheckSeconds)

/-- `_record_peer_status`. -/
def recordPeerStatus (s : TickState) (record : DataRecord) (peer : EndpointId) (complete : Bool)
    (presentChunks : ℕ) : TickState :=
  let info : PeerSyncInfo :=
    { complete := complete
      presentChunks := presentChunks
      totalChunks := record.totalChunks
      latencyMs := input.latencyMs peer record.key
      lastSyncedAt := input.lastSyncedAt peer record.key }
  { s with peerStatus := s.peerStatus.insert (record.key, peer) info }

/-- A round of the loop over the members. -/
def askMember (record : DataRecord) (leaderPresent : List ℕ) (s : TickState) (peer : EndpointId) :
    TickState × Option DataFailure :=
  if recentlyComplete cfg input s.peerStatus record.key peer = true then (s, none)
  else
    match input.answer peer record.key with
    | none => (s, none)
    | some metadata =>
      match metadata.presentChunkIndices with
      | none => (s, some (.raised "TypeError"))
      | some present =>
        let s := recordPeerStatus input s record peer metadata.complete present.dedup.length
        if metadata.complete = true then (s, none)
        else pushMissing B cfg input peer record.key s
          (leaderPresent.filter fun i : ℕ => (i : ℤ) ∉ present)

/-- A round of the loop over the records. -/
def considerRecord (s : TickState) (record : DataRecord) : TickState × Option DataFailure :=
  if record.kind ∉ cfg.enabledKinds then (s, none)
  else
    match s.leader.status B record.key with
    | .error e => (s, some e)
    | .ok (leader, st) =>
      if st.complete = true then
        runEach (askMember B cfg input record st.presentChunkIndices) { s with leader := leader }
          input.members
      else ({ s with leader := leader }, none)

/-- `run_tick`, with the records in the order in which `list_records` gives them. -/
def runTick (isLeader : Bool) (records : List DataRecord) (s : TickState) :
    TickState × Option DataFailure :=
  if isLeader = false ∨ input.members = [] then (s, none)
  else runEach (considerRecord B cfg input) s records

/-! ### What a tick is to push -/

/-- The chunks of a record that a member does not list. -/
def missingChunks (leader : FileStore) (record : DataRecord) (peer : EndpointId)
    (present : List ℤ) : List ChunkPush :=
  ((leader.chunksHere B record).filter fun i : ℕ => (i : ℤ) ∉ present).map fun i : ℕ =>
    { peer := peer
      key := record.key
      index := i
      data := (leader.chunkData record i).getD [] }

/-- What a member is to be sent of a record. -/
def wantedBy (s : TickState) (record : DataRecord) (peer : EndpointId) : List ChunkPush :=
  if recentlyComplete cfg input s.peerStatus record.key peer = true then []
  else
    match input.answer peer record.key with
    | some { presentChunkIndices := some present, complete := false } =>
      missingChunks B s.leader record peer present
    | _ => []

/-- What the members are to be sent of a record. -/
def wanted (s : TickState) (record : DataRecord) : List ChunkPush :=
  if record.kind ∈ cfg.enabledKinds ∧ s.leader.CompleteHere B record then
    input.members.flatMap (wantedBy B cfg input s record)
  else []

/-- The answer of a member can be read. -/
def Readable (s : TickState) (record : DataRecord) (peer : EndpointId) : Prop :=
  recentlyComplete cfg input s.peerStatus record.key peer = true ∨
    ∀ metadata, input.answer peer record.key = some metadata →
      metadata.presentChunkIndices.isSome

/-- A record that is considered has chunks with paths, and when it is complete a hash, and answers
that can be read. -/
def Considered (s : TickState) (record : DataRecord) : Prop :=
  record.kind ∈ cfg.enabledKinds → FileStore.Addressable B record ∧
    (s.leader.CompleteHere B record →
      s.leader.Hashed B record ∧ ∀ peer ∈ input.members, Readable cfg input s record peer)

/-! ### One round at a time -/

variable {B cfg input}

theorem spent_mono (m n : ℕ) (h : cfg.Spent input.elapsedSeconds m) (hle : m ≤ n) :
    cfg.Spent input.elapsedSeconds n :=
  ⟨h.1, h.2.trans (Nat.cast_le.2 hle)⟩

variable (cfg input) in
/-- Chunks that can be read are pushed while the budget lasts. -/
theorem pushMissing_eq (peer : EndpointId) (key : RecordKey) (chunk : ℕ → List UInt8)
    (missing : List ℕ) (s : TickState)
    (hread : ∀ i ∈ missing, s.leader.readChunk B key i = .ok (chunk i)) :
    ∃ pushes, pushes = spend (cfg.Spent input.elapsedSeconds) ChunkPush.bytes s.bytesSent
        (missing.map fun i => { peer := peer, key := key, index := i, data := chunk i }) ∧
      pushMissing B cfg input peer key s missing =
        ({ s with
          pushed := s.pushed ++ pushes
          bytesSent := s.bytesSent + total ChunkPush.bytes pushes }, none) := by
  induction missing generalizing s with
  | nil => exact ⟨[], rfl, by simp [pushMissing]⟩
  | cons i missing ih =>
    rw [pushMissing]
    by_cases hspent : cfg.Spent input.elapsedSeconds s.bytesSent
    · refine ⟨[], (spend_of_spent hspent _).symm, ?_⟩
      rw [if_pos hspent]
      simp
    · obtain ⟨pushes, hpushes, hrest⟩ := ih ({ s with
        pushed := s.pushed ++ [{ peer := peer, key := key, index := i, data := chunk i }]
        bytesSent := s.bytesSent + (chunk i).length } : TickState) fun j hj =>
          hread j (List.mem_cons_of_mem i hj)
      refine ⟨{ peer := peer, key := key, index := i, data := chunk i } :: pushes, ?_, ?_⟩
      · rw [List.map_cons, spend_cons hspent, hpushes]
        rfl
      · rw [if_neg hspent, hread i List.mem_cons_self]
        dsimp only
        rw [hrest]
        simp [ChunkPush.bytes, Nat.add_assoc]

variable (cfg input) in
/-- A tick so far: which records were looked at, which members were asked for which of them, and
what was wanted. -/
structure Progress (s₀ : TickState) (looked : RecordKey → Prop)
    (asked : RecordKey → EndpointId → Prop) (want : List ChunkPush) (s : TickState) : Prop where
  catalog : s.leader.registry.catalog = s₀.leader.registry.catalog
  files : s.leader.files = s₀.leader.files
  hashCache : ∀ k, ¬ looked k → s.leader.registry.hashCache.lookup k = s₀.leader.registry.hashCache.lookup k
  hashed : ∀ k, (s₀.leader.registry.hashCache.lookup k).isSome → (s.leader.registry.hashCache.lookup k).isSome
  peerStatus : ∀ k m, ¬ asked k m → s.peerStatus.lookup (k, m) = s₀.peerStatus.lookup (k, m)
  answered : ∀ k m, s.peerStatus.lookup (k, m) = s₀.peerStatus.lookup (k, m) ∨
    ∃ metadata info, input.answer m k = some metadata ∧
      s.peerStatus.lookup (k, m) = some info ∧ info.complete = metadata.complete
  pushed : s.pushed = spend (cfg.Spent input.elapsedSeconds) ChunkPush.bytes 0 want
  bytesSent : s.bytesSent = total ChunkPush.bytes s.pushed

section Progress

variable {s₀ s : TickState} {looked : RecordKey → Prop} {asked : RecordKey → EndpointId → Prop}
  {want extra : List ChunkPush} {record : DataRecord} {peer : EndpointId}

theorem Progress.start (hpushed : s.pushed = []) (hbytes : s.bytesSent = 0) :
    Progress cfg input s (fun _ => False) (fun _ _ => False) [] s where
  catalog := rfl
  files := rfl
  hashCache _ _ := rfl
  hashed _ h := h
  peerStatus _ _ _ := rfl
  answered _ _ := Or.inl rfl
  pushed := hpushed
  bytesSent := by rw [hpushed, hbytes]; rfl

theorem Progress.mono {looked' : RecordKey → Prop} {asked' : RecordKey → EndpointId → Prop}
    (h : Progress cfg input s₀ looked asked want s)
    (hlooked : ∀ k, looked k → looked' k) (hasked : ∀ k m, asked k m → asked' k m) :
    Progress cfg input s₀ looked' asked' want s where
  catalog := h.catalog
  files := h.files
  hashCache k hk := h.hashCache k fun hlook => hk (hlooked k hlook)
  hashed := h.hashed
  peerStatus k m hk := h.peerStatus k m fun hask => hk (hasked k m hask)
  answered := h.answered
  pushed := h.pushed
  bytesSent := h.bytesSent

/-- What the budget pays for of what else is wanted. -/
theorem Progress.pay (h : Progress cfg input s₀ looked asked want s) :
    Progress cfg input s₀ looked asked (want ++ extra)
      { s with
        pushed := s.pushed ++ spend (cfg.Spent input.elapsedSeconds) ChunkPush.bytes s.bytesSent extra
        bytesSent := s.bytesSent + total ChunkPush.bytes
          (spend (cfg.Spent input.elapsedSeconds) ChunkPush.bytes s.bytesSent extra) } where
  catalog := h.catalog
  files := h.files
  hashCache := h.hashCache
  hashed := h.hashed
  peerStatus := h.peerStatus
  answered := h.answered
  pushed := by
    rw [spend_append spent_mono, ← h.pushed, Nat.zero_add, ← h.bytesSent]
  bytesSent := by
    rw [total_append, ← h.bytesSent]

/-- The answer of a member is written down. -/
theorem Progress.after_answer
    (h : Progress cfg input s₀ looked asked want s) {metadata : PeerMetadata}
    (hanswer : input.answer peer record.key = some metadata) (presentChunks : ℕ) :
    Progress cfg input s₀ looked
      (fun k m => asked k m ∨ k = record.key ∧ m = peer) want
      (recordPeerStatus input s record peer metadata.complete presentChunks) where
  catalog := h.catalog
  files := h.files
  hashCache := h.hashCache
  hashed := h.hashed
  peerStatus k m hk := by
    obtain ⟨hold, hnew⟩ := not_or.1 hk
    refine (AList.lookup_insert_ne fun heq => hnew ?_).trans (h.peerStatus k m hold)
    exact Prod.mk.inj heq
  answered k m := by
    by_cases hk : (k, m) = (record.key, peer)
    · obtain ⟨rfl, rfl⟩ := Prod.mk.inj hk
      exact Or.inr ⟨metadata, _, hanswer, AList.lookup_insert _, rfl⟩
    · have hsame : (recordPeerStatus input s record peer metadata.complete
          presentChunks).peerStatus.lookup (k, m) = s.peerStatus.lookup (k, m) :=
        AList.lookup_insert_ne hk
      rw [hsame]
      exact h.answered k m
  pushed := h.pushed
  bytesSent := h.bytesSent

theorem recentlyComplete_congr
    {peerStatus peerStatus' : Dict (RecordKey × EndpointId) PeerSyncInfo} {key : RecordKey}
    (h : peerStatus.lookup (key, peer) = peerStatus'.lookup (key, peer)) :
    recentlyComplete cfg input peerStatus key peer =
      recentlyComplete cfg input peerStatus' key peer := by
  unfold recentlyComplete
  rw [h]

theorem readable_iff {metadata : PeerMetadata}
    (hrecent : ¬ recentlyComplete cfg input s.peerStatus record.key peer = true)
    (hanswer : input.answer peer record.key = some metadata) :
    Readable cfg input s record peer ↔ metadata.presentChunkIndices.isSome := by
  constructor
  · intro hread
    exact hread.resolve_left hrecent metadata hanswer
  · intro hsome
    refine Or.inr fun other hother => ?_
    obtain rfl := Option.some.inj (hanswer.symm.trans hother)
    exact hsome

/-- A round of the loop over the members. -/
theorem Progress.after_member (h : Progress cfg input s₀ looked asked want s)
    (hrecord : s₀.leader.registry.catalog.lookup record.key = some record)
    (hnew : ¬ asked record.key peer) :
    ((askMember B cfg input record (s₀.leader.chunksHere B record) s peer).2 = none ↔
        Readable cfg input s₀ record peer) ∧
      (Readable cfg input s₀ record peer →
        Progress cfg input s₀ looked
          (fun k m => asked k m ∨ k = record.key ∧ m = peer)
          (want ++ wantedBy B cfg input s₀ record peer)
          (askMember B cfg input record (s₀.leader.chunksHere B record) s peer).1) := by
  have hpeer := h.peerStatus record.key peer hnew
  have hsame : Progress cfg input s₀ looked
      (fun k m => asked k m ∨ k = record.key ∧ m = peer) want s :=
    h.mono (fun k hk => hk) fun k m hk => Or.inl hk
  unfold askMember wantedBy
  rw [recentlyComplete_congr hpeer]
  by_cases hrecent : recentlyComplete cfg input s₀.peerStatus record.key peer = true
  · rw [if_pos hrecent, if_pos hrecent, List.append_nil]
    exact ⟨iff_of_true rfl (Or.inl hrecent), fun _ => hsame⟩
  rw [if_neg hrecent, if_neg hrecent]
  cases hanswer : input.answer peer record.key with
  | none =>
    rw [List.append_nil]
    refine ⟨iff_of_true rfl (Or.inr fun _ hm => ?_), fun _ => hsame⟩
    cases hanswer.symm.trans hm
  | some metadata =>
    rw [readable_iff hrecent hanswer]
    obtain ⟨present, complete⟩ := metadata
    cases present with
    | none =>
      exact ⟨iff_of_false (fun hnone => by cases hnone) fun hread => (by cases hread),
        fun hread => by cases hread⟩
    | some present =>
      have hnoted := h.after_answer hanswer present.dedup.length
      cases complete with
      | true =>
        rw [List.append_nil]
        exact ⟨iff_of_true rfl rfl, fun _ => hnoted⟩
      | false =>
        -- the chunks that the leader has can be read
        obtain ⟨pushes, rfl, hpushed⟩ := pushMissing_eq (B := B) cfg input peer record.key
          (fun i : ℕ => (s₀.leader.chunkData record i).getD [])
          ((s₀.leader.chunksHere B record).filter fun i : ℕ => (i : ℤ) ∉ present)
          (recordPeerStatus input s record peer false present.dedup.length)
          fun i hi => by
            obtain ⟨hkind, -, hthere⟩ := FileStore.mem_chunksHere.1 (List.mem_filter.1 hi).1
            have hread := FileStore.readChunk_of_hasChunk hrecord hkind hthere
            unfold FileStore.readChunk at hread ⊢
            rwa [hnoted.catalog, hnoted.files]
        dsimp only
        rw [if_neg (by decide), hpushed]
        exact ⟨iff_of_true rfl rfl, fun _ => hnoted.pay⟩

/-- The loop over the members. -/
theorem Progress.after_members (h : Progress cfg input s₀ looked asked want s)
    (hrecord : s₀.leader.registry.catalog.lookup record.key = some record)
    (hnew : ∀ peer, ¬ asked record.key peer) (hmembers : input.members.Nodup) :
    ((runEach (askMember B cfg input record (s₀.leader.chunksHere B record)) s
        input.members).2 = none ↔ ∀ peer ∈ input.members, Readable cfg input s₀ record peer) ∧
      ((∀ peer ∈ input.members, Readable cfg input s₀ record peer) →
        Progress cfg input s₀ looked (fun k m => asked k m ∨ k = record.key)
          (want ++ input.members.flatMap (wantedBy B cfg input s₀ record))
          (runEach (askMember B cfg input record (s₀.leader.chunksHere B record)) s
            input.members).1) := by
  have hloop := runEach_iff
    (askMember B cfg input record (s₀.leader.chunksHere B record)) s
    (fun done s => Progress cfg input s₀ looked
      (fun k m => asked k m ∨ k = record.key ∧ m ∈ done)
      (want ++ done.flatMap (wantedBy B cfg input s₀ record)) s)
    (Readable cfg input s₀ record) [] input.members ?_ ?_
  · refine ⟨hloop.1, fun hread => (hloop.2 hread).mono (fun k hk => hk) fun k m hk => ?_⟩
    exact hk.imp_right And.left
  · rw [List.flatMap_nil, List.append_nil]
    exact h.mono (fun k hk => hk) fun k m hk => Or.inl hk
  · intro before peer after t hsplit ht
    -- the member was not asked before
    have hpeer : peer ∉ before := fun hmem => by
      rw [List.nil_append] at hsplit
      rw [hsplit] at hmembers
      exact List.disjoint_of_nodup_append hmembers hmem List.mem_cons_self
    have hfresh : ¬ (asked record.key peer ∨ record.key = record.key ∧ peer ∈ before) :=
      not_or.2 ⟨hnew peer, fun hask => hpeer hask.2⟩
    obtain ⟨hok, hnext⟩ := ht.after_member (B := B) hrecord hfresh
    refine ⟨hok, fun hread => ?_⟩
    have hasked (k : RecordKey) (m : EndpointId)
        (hk : (asked k m ∨ k = record.key ∧ m ∈ before) ∨ k = record.key ∧ m = peer) :
        asked k m ∨ k = record.key ∧ m ∈ before ++ [peer] := by
      rcases hk with (hk | ⟨hk, hm⟩) | ⟨hk, rfl⟩
      · exact Or.inl hk
      · exact Or.inr ⟨hk, List.mem_append_left _ hm⟩
      · exact Or.inr ⟨hk, List.mem_append_right _ List.mem_cons_self⟩
    have hdone := (hnext hread).mono (fun k hk => hk) hasked
    rwa [List.append_assoc, ← List.flatMap_singleton (wantedBy B cfg input s₀ record) peer,
      ← List.flatMap_append] at hdone

/-- A round of the loop over the records. -/
theorem Progress.after_record {keys : List RecordKey}
    (h : Progress cfg input s₀ (· ∈ keys) (fun k _ => k ∈ keys) want s)
    (hrecord : s₀.leader.registry.catalog.lookup record.key = some record) (hnew : record.key ∉ keys)
    (hmembers : input.members.Nodup) :
    ((considerRecord B cfg input s record).2 = none ↔ Considered B cfg input s₀ record) ∧
      (Considered B cfg input s₀ record →
        Progress cfg input s₀ (· ∈ keys ++ [record.key])
          (fun k _ => k ∈ keys ++ [record.key]) (want ++ wanted B cfg input s₀ record)
          (considerRecord B cfg input s record).1) := by
  have hkeys (k : RecordKey) (hk : k ∈ keys) : k ∈ keys ++ [record.key] :=
    List.mem_append_left _ hk
  have hsame : Progress cfg input s₀ (· ∈ keys ++ [record.key])
      (fun k _ => k ∈ keys ++ [record.key]) want s :=
    h.mono hkeys fun k _ hk => hkeys k hk
  unfold considerRecord wanted Considered
  by_cases henabled : record.kind ∈ cfg.enabledKinds
  swap
  · rw [if_pos henabled, if_neg fun hboth => henabled hboth.1, List.append_nil]
    exact ⟨iff_of_true rfl fun hin => absurd hin henabled, fun _ => hsame⟩
  rw [if_neg (not_not.2 henabled)]
  have hrecord' : s.leader.registry.catalog.lookup record.key = some record := h.catalog ▸ hrecord
  have hcomplete : s.leader.CompleteHere B record ↔ s₀.leader.CompleteHere B record :=
    FileStore.completeHere_congr h.files
  have hhashed : s.leader.Hashed B record ↔ s₀.leader.Hashed B record := by
    unfold FileStore.Hashed
    rw [h.hashCache record.key hnew]
  have hok := FileStore.status_isOk_iff (B := B) hrecord'
  rw [hcomplete, hhashed] at hok
  cases hstatus : s.leader.status B record.key with
  | error e =>
    have hraised : ¬ (record.kind ∈ cfg.enabledKinds → FileStore.Addressable B record ∧
        (s₀.leader.CompleteHere B record → s₀.leader.Hashed B record ∧
          ∀ peer ∈ input.members, Readable cfg input s₀ record peer)) := fun hcons => by
      obtain ⟨haddress, hhash⟩ := hcons henabled
      obtain ⟨r, hr⟩ := hok.2 ⟨haddress, fun hc => (hhash hc).1⟩
      cases hstatus.symm.trans hr
    exact ⟨iff_of_false (fun hnone => by cases hnone) hraised, fun hcons => absurd hcons hraised⟩
  | ok r =>
    obtain ⟨leader, st⟩ := r
    obtain ⟨hpresent, hst, hfiles, hcatalog, hcache, hkept⟩ :=
      FileStore.status_result hrecord' hstatus
    obtain ⟨haddress, hhash⟩ := hok.1 ⟨_, hstatus⟩
    -- the state after the leader's own status
    have hleader : Progress cfg input s₀ (· ∈ keys ++ [record.key])
        (fun k _ => k ∈ keys) want { s with leader := leader } :=
      { hsame with
        catalog := hcatalog.trans h.catalog
        files := hfiles.trans h.files
        hashCache := fun k hk => by
          rw [List.mem_append, List.mem_singleton, not_or] at hk
          exact (hcache k hk.2).trans (h.hashCache k hk.1)
        hashed := fun k hk => hkept k (h.hashed k hk)
        peerStatus := h.peerStatus }
    dsimp only
    by_cases hc : s₀.leader.CompleteHere B record
    · have hst' : st.complete = true := hst.2 (hcomplete.2 hc)
      have hpresent' : st.presentChunkIndices = s₀.leader.chunksHere B record := by
        rw [hpresent]
        unfold FileStore.chunksHere
        rw [FileStore.hasChunk_congr h.files]
      rw [if_pos hst', if_pos ⟨henabled, hc⟩, hpresent']
      obtain ⟨hloop, hnext⟩ := hleader.after_members (B := B) hrecord (fun _ => hnew) hmembers
      refine ⟨hloop.trans ⟨fun hread _ => ⟨haddress, fun _ => ⟨hhash hc, hread⟩⟩,
        fun hcons => ((hcons henabled).2 hc).2⟩,
        fun hcons => (hnext ((hcons henabled).2 hc).2).mono (fun k hk => hk) fun k _ hk => ?_⟩
      exact List.mem_append.2 (hk.imp_right List.mem_singleton.2)
    · have hst' : ¬ st.complete = true := fun htrue => hc (hcomplete.1 (hst.1 htrue))
      rw [if_neg hst', if_neg fun hboth => hc hboth.2, List.append_nil]
      exact ⟨iff_of_true rfl fun _ => ⟨haddress, fun hin => absurd hin hc⟩,
        fun _ => hleader.mono (fun k hk => hk) fun k _ hk => hkeys k hk⟩

end Progress

/-! ### The tick -/

section Tick

variable {s : TickState} {records : List DataRecord}

/-- The records of a catalog are stored under their own keys, each once. -/
theorem records_spec (hkeyed : s.leader.registry.WellKeyed)
    (hrecords : records.Perm s.leader.registry.catalog.values) :
    (∀ record, record ∈ records ↔ s.leader.registry.catalog.lookup record.key = some record) ∧
      (records.map DataRecord.key).Nodup := by
  constructor
  · intro record
    rw [hrecords.mem_iff, Dict.mem_values]
    constructor
    · rintro ⟨k, hk⟩
      rwa [hkeyed k record hk]
    · exact fun hlookup => ⟨_, hlookup⟩
  · have hkeys : s.leader.registry.catalog.values.map DataRecord.key = s.leader.registry.catalog.keys := by
      unfold Dict.values AList.keys List.keys
      rw [List.map_map]
      refine List.map_congr_left fun e he => ?_
      exact hkeyed e.1 e.2 (AList.mem_lookup_iff.2 he)
    rw [(hrecords.map _).nodup_iff, hkeys]
    exact s.leader.registry.catalog.keys_nodup

variable (B cfg input) in
/-- A tick ends without an exception exactly when each record can be considered, and then it has
pushed what the budget pays for of what is wanted. -/
theorem runTick_spec (hkeyed : s.leader.registry.WellKeyed)
    (hrecords : records.Perm s.leader.registry.catalog.values) (hmembers : input.members.Nodup)
    (hpushed : s.pushed = []) (hbytes : s.bytesSent = 0) (hnonempty : input.members ≠ []) :
    ((runTick B cfg input true records s).2 = none ↔
        ∀ record ∈ records, Considered B cfg input s record) ∧
      ((∀ record ∈ records, Considered B cfg input s record) →
        Progress cfg input s (· ∈ records.map DataRecord.key)
          (fun k _ => k ∈ records.map DataRecord.key)
          (records.flatMap (wanted B cfg input s)) (runTick B cfg input true records s).1) := by
  obtain ⟨hlookup, hnodup⟩ := records_spec hkeyed hrecords
  unfold runTick
  rw [if_neg (not_or.2 ⟨by decide, hnonempty⟩)]
  refine runEach_iff (considerRecord B cfg input) s (fun done t => Progress cfg input s
      (· ∈ done.map DataRecord.key) (fun k _ => k ∈ done.map DataRecord.key)
      (done.flatMap (wanted B cfg input s)) t) (Considered B cfg input s) [] records ?_ ?_
  · exact (Progress.start hpushed hbytes).mono (fun k hk => hk.elim) fun k m hk => hk.elim
  · intro before record after t hsplit ht
    rw [List.nil_append] at hsplit
    have hmem : record ∈ records := hsplit ▸ List.mem_append_right _ List.mem_cons_self
    have hnew : record.key ∉ before.map DataRecord.key := fun hold => by
      rw [hsplit, List.map_append, List.map_cons] at hnodup
      exact List.disjoint_of_nodup_append hnodup hold List.mem_cons_self
    obtain ⟨hok, hnext⟩ := ht.after_record (B := B) ((hlookup record).1 hmem) hnew hmembers
    refine ⟨hok, fun hcons => ?_⟩
    have hdone := hnext hcons
    rwa [← List.flatMap_singleton (wanted B cfg input s) record, ← List.flatMap_append,
      ← List.map_singleton, ← List.map_append] at hdone

end Tick

end BlobReplicator

end Axo
