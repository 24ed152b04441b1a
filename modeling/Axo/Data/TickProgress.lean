import Axo.Data.ReplicationTick
import Mathlib.Data.List.Nodup

/-!
# What a tick pushes, and where ticks lead

* `TickRight` is what one tick should do: push only what is missing, nothing twice, within the
  budget, and something where something is missing;
* `tickRight_iff` says that it does exactly when every record can be considered;
* `replicate` are ticks one after the other, in which every pushed chunk arrives, and
  `replicate_complete` says that they make every member that answers complete;
* `runTick_right` is both together.
-/

namespace Axo

open Rounds

namespace BlobReplicator

variable (B : DataBackends) (cfg : ReplicatorConfig) (input : TickInput)

/-- A member outside its recheck window does not list a chunk that the leader has of a complete
record of an enabled kind. -/
structure Missing (s : TickState) (peer : EndpointId) (record : DataRecord) (i : ℕ) : Prop where
  member : peer ∈ input.members
  stored : s.leader.registry.catalog.lookup record.key = some record
  complete : s.leader.CompleteHere B record
  enabled : record.kind ∈ cfg.enabledKinds
  unverified : recentlyComplete cfg input s.peerStatus record.key peer = false
  unlisted : ∃ present, input.answer peer record.key =
    some { presentChunkIndices := some present, complete := false } ∧ (i : ℤ) ∉ present
  present : i ∈ s.leader.chunksHere B record

/-- What a tick should do, and leave behind. -/
structure TickRight (s : TickState) (r : TickState × Option DataFailure) : Prop where
  returns : r.2 = none
  safe : ∀ push ∈ r.1.pushed, ∃ record, record.key = push.key ∧
    Missing B cfg input s push.peer record push.index ∧
      s.leader.chunkData record push.index = some push.data
  once : (r.1.pushed.map fun push => (push.peer, push.key, push.index)).Nodup
  bounded : 0 < cfg.rateLimitBytesPerSecond → ∀ before last, r.1.pushed = before ++ [last] →
    (total ChunkPush.bytes before : ℚ) < cfg.rateLimitBytesPerSecond * input.elapsedSeconds
  whole : cfg.rateLimitBytesPerSecond ≤ 0 → ∀ peer record i, Missing B cfg input s peer record i →
    ∃ push ∈ r.1.pushed, push.peer = peer ∧ push.key = record.key ∧ push.index = i
  progress : ¬ cfg.Spent input.elapsedSeconds 0 →
    (∃ peer record i, Missing B cfg input s peer record i) → r.1.pushed ≠ []

variable {B cfg input} {s : TickState} {records : List DataRecord}

/-- What is wanted of a record are the chunks that are missing. -/
theorem mem_wanted {push : ChunkPush} {record : DataRecord}
    (hrecord : s.leader.registry.catalog.lookup record.key = some record) :
    push ∈ wanted B cfg input s record ↔ push.key = record.key ∧
      Missing B cfg input s push.peer record push.index ∧
      push.data = (s.leader.chunkData record push.index).getD [] := by
  unfold wanted
  split_ifs with hboth
  · simp only [List.mem_flatMap, wantedBy]
    constructor
    · rintro ⟨peer, hpeer, hpush⟩
      split_ifs at hpush with hrecent
      · cases hpush
      split at hpush
      · next present hanswer =>
        obtain ⟨i, hi, rfl⟩ := List.mem_map.1 hpush
        obtain ⟨hpresent, hlisted⟩ := List.mem_filter.1 hi
        exact ⟨rfl, ⟨hpeer, hrecord, hboth.2, hboth.1, Bool.eq_false_of_not_eq_true hrecent,
          ⟨present, hanswer, of_decide_eq_true hlisted⟩, hpresent⟩, rfl⟩
      · cases hpush
    · rintro ⟨hkey, hmissing, hdata⟩
      obtain ⟨present, hanswer, hlisted⟩ := hmissing.unlisted
      refine ⟨push.peer, hmissing.member, ?_⟩
      rw [if_neg (by rw [hmissing.unverified]; decide), hanswer]
      refine List.mem_map.2 ⟨push.index, List.mem_filter.2 ⟨hmissing.present,
        decide_eq_true hlisted⟩, ?_⟩
      rw [← hdata, ← hkey]
  · constructor
    · intro hpush
      cases hpush
    · rintro ⟨-, hmissing, -⟩
      exact absurd ⟨hmissing.enabled, hmissing.complete⟩ hboth

/-- Lists without repetitions, one after the other, that are told apart by what they were made
for. -/
theorem nodup_map_flatMap {α β γ δ : Type*} {f : α → List β} {g : β → γ} {l : List α} (origin : α → δ)
    (madeFor : γ → δ) (hl : (l.map origin).Nodup) (hf : ∀ x ∈ l, ((f x).map g).Nodup)
    (hmade : ∀ x ∈ l, ∀ y ∈ f x, madeFor (g y) = origin x) : ((l.flatMap f).map g).Nodup := by
  rw [List.map_flatMap, List.nodup_flatMap]
  refine ⟨hf, (List.pairwise_map.1 hl).imp_of_mem fun {x y} hx hy hne => ?_⟩
  rintro z hzx hzy
  obtain ⟨a, ha, rfl⟩ := List.mem_map.1 hzx
  obtain ⟨b, hb, hab⟩ := List.mem_map.1 hzy
  exact hne (by rw [← hmade x hx a ha, ← hmade y hy b hb, hab])

/-- Nothing is wanted twice. -/
theorem nodup_wanted (hmembers : input.members.Nodup)
    (hlookup : ∀ record ∈ records, s.leader.registry.catalog.lookup record.key = some record)
    (hrecords : (records.map DataRecord.key).Nodup) :
    ((records.flatMap (wanted B cfg input s)).map fun push =>
      (push.peer, push.key, push.index)).Nodup := by
  refine nodup_map_flatMap DataRecord.key (fun t => t.2.1) hrecords (fun record hrecord => ?_)
    fun record hrecord push hpush => ((mem_wanted (hlookup record hrecord)).1 hpush).1
  unfold wanted
  split_ifs with hboth
  · refine nodup_map_flatMap id Prod.fst (by rwa [List.map_id]) (fun peer _ => ?_)
      fun peer _ push hpush => ?_
    · unfold wantedBy
      split_ifs
      · exact List.nodup_nil
      split
      · next present _ =>
        rw [missingChunks, List.map_map]
        refine List.Nodup.map (fun i j hij => (Prod.mk.inj (Prod.mk.inj hij).2).2) ?_
        exact FileStore.nodup_chunksHere.filter _
      · exact List.nodup_nil
    · unfold wantedBy at hpush
      split_ifs at hpush
      · cases hpush
      split at hpush
      · obtain ⟨i, -, rfl⟩ := List.mem_map.1 hpush
        rfl
      · cases hpush
  · exact List.nodup_nil

/-- One tick does what it should exactly when every record can be considered. -/
theorem tickRight_iff (hkeyed : s.leader.registry.WellKeyed)
    (hrecords : records.Perm s.leader.registry.catalog.values) (hmembers : input.members.Nodup)
    (hpushed : s.pushed = []) (hbytes : s.bytesSent = 0) :
    TickRight B cfg input s (runTick B cfg input true records s) ↔
      (input.members ≠ [] → ∀ record ∈ records, Considered B cfg input s record) := by
  by_cases hnonempty : input.members = []
  · -- without members there is nothing to do
    have htick : runTick B cfg input true records s = (s, none) := if_pos (Or.inr hnonempty)
    have hnone (peer : EndpointId) (record : DataRecord) (i : ℕ) :
        ¬ Missing B cfg input s peer record i := fun h => by
      have hmember := h.member
      rw [hnonempty] at hmember
      cases hmember
    rw [htick]
    refine iff_of_true ⟨rfl, fun push hpush => ?_, ?_, fun _ before last hlast => ?_,
      fun _ peer record i h => absurd h (hnone peer record i), fun _ h => ?_⟩
      fun h => absurd hnonempty h
    · rw [hpushed] at hpush
      cases hpush
    · rw [hpushed]
      exact List.nodup_nil
    · rw [hpushed] at hlast
      exact absurd hlast.symm (by simp)
    · obtain ⟨peer, record, i, h⟩ := h
      exact absurd h (hnone peer record i)
  · obtain ⟨hreturns, hprogress⟩ := runTick_spec B cfg input hkeyed hrecords hmembers
      hpushed hbytes hnonempty
    obtain ⟨hlookup, hnodup⟩ := records_spec hkeyed hrecords
    refine ⟨fun hright _ => hreturns.1 hright.returns, fun hall => ?_⟩
    have hcons := hall hnonempty
    have hpaid := (hprogress hcons).pushed
    -- a chunk that is missing is wanted
    have hwanted (peer : EndpointId) (record : DataRecord) (i : ℕ)
        (h : Missing B cfg input s peer record i) :
        ∃ push ∈ records.flatMap (wanted B cfg input s),
          push.peer = peer ∧ push.key = record.key ∧ push.index = i :=
      ⟨⟨peer, record.key, i, (s.leader.chunkData record i).getD []⟩,
        List.mem_flatMap.2 ⟨record, (hlookup record).2 h.stored,
          (mem_wanted h.stored).2 ⟨rfl, h, rfl⟩⟩, rfl, rfl, rfl⟩
    refine ⟨hreturns.2 hcons, fun push hpush => ?_, ?_, fun hrate before last hlast => ?_,
      fun hrate peer record i h => ?_, fun hbudget h => ?_⟩
    · rw [hpaid] at hpush
      obtain ⟨record, hrecord, hmem⟩ :=
        List.mem_flatMap.1 ((spend_begins 0 _).subset hpush)
      obtain ⟨hkey, hmissing, hdata⟩ := (mem_wanted ((hlookup record).1 hrecord)).1 hmem
      refine ⟨record, hkey.symm, hmissing, ?_⟩
      obtain ⟨-, -, hthere⟩ := FileStore.mem_chunksHere.1 hmissing.present
      rw [hdata]
      exact FileStore.chunkData_of_hasChunk hthere
    · rw [hpaid]
      exact (nodup_wanted hmembers (fun record h => (hlookup record).1 h) hnodup).sublist
        ((spend_begins 0 _).sublist.map _)
    · have hspent := not_spent_of_last (hpaid.symm.trans hlast)
      rw [Nat.zero_add] at hspent
      exact not_le.1 fun hle => hspent ⟨hrate, hle⟩
    · rw [hpaid, spend_eq_self fun n hspent => absurd hspent.1 (not_lt.2 hrate)]
      exact hwanted peer record i h
    · obtain ⟨peer, record, i, h⟩ := h
      obtain ⟨push, hpush, -⟩ := hwanted peer record i h
      rw [hpaid]
      exact spend_ne_nil hbudget (List.ne_nil_of_mem hpush)

/-! ### Ticks, one after the other -/

/-- Which chunks of each dataset every member holds. -/
abbrev Holdings := EndpointId → RecordKey → List ℕ

/-- The answer of a member that holds these chunks of a record. -/
def answerOf (held : List ℕ) (record : DataRecord) : PeerMetadata where
  presentChunkIndices := some (held.map fun i : ℕ => (i : ℤ))
  complete := decide (∀ i ∈ chunkRange record.totalChunks, i ∈ held)

/-- When a tick takes place. -/
structure TickTimes where
  records : List DataRecord
  elapsedSeconds : ℚ
  now : ℚ
  latencyMs : EndpointId → RecordKey → ℚ
  lastSyncedAt : EndpointId → RecordKey → ℚ

/-- What a tick is given when the members that can be reached answer what they hold. -/
def inputOf (members : List EndpointId) (reachable : EndpointId → Bool) (leader : FileStore)
    (held : Holdings) (times : TickTimes) : TickInput where
  members := members
  answer := fun peer key =>
    if reachable peer = true then (leader.registry.catalog.lookup key).map (answerOf (held peer key))
    else none
  elapsedSeconds := times.elapsedSeconds
  now := times.now
  latencyMs := times.latencyMs
  lastSyncedAt := times.lastSyncedAt

/-- The leader with what it knows of its peers, and what these hold. -/
structure Replicas where
  leader : FileStore
  peerStatus : Dict (RecordKey × EndpointId) PeerSyncInfo
  held : Holdings

/-- What a tick begins with. -/
def Replicas.state (w : Replicas) : TickState := { leader := w.leader, peerStatus := w.peerStatus }

/-- Every pushed chunk arrives. -/
def delivered (held : Holdings) (pushed : List ChunkPush) : Holdings := fun peer key =>
  held peer key ++ (pushed.filter fun push => push.peer = peer ∧ push.key = key).map ChunkPush.index

variable (B cfg)

/-- One tick, whose chunks arrive. -/
def nextTick (members : List EndpointId) (reachable : EndpointId → Bool) (w : Replicas)
    (times : TickTimes) : Replicas :=
  let input := inputOf members reachable w.leader w.held times
  let t := (runTick B cfg input true times.records w.state).1
  { leader := t.leader, peerStatus := t.peerStatus, held := delivered w.held t.pushed }

/-- The first `n` ticks. -/
def replicate (members : List EndpointId) (reachable : EndpointId → Bool) (w : Replicas)
    (times : ℕ → TickTimes) : ℕ → Replicas
  | 0 => w
  | n + 1 => nextTick B cfg members reachable (replicate members reachable w times n) (times n)

variable {B cfg} {members : List EndpointId} {reachable : EndpointId → Bool} {w w₀ : Replicas}
  {times : TickTimes}

/-- A record that the ticks are about. -/
def Replicated (B : DataBackends) (cfg : ReplicatorConfig) (leader : FileStore)
    (record : DataRecord) : Prop :=
  leader.registry.catalog.lookup record.key = some record ∧ leader.CompleteHere B record ∧
    record.kind ∈ cfg.enabledKinds

/-- A member holds every chunk of a record. -/
def HoldsAll (held : Holdings) (peer : EndpointId) (record : DataRecord) : Prop :=
  ∀ i ∈ chunkRange record.totalChunks, i ∈ held peer record.key

/-- What holds after every tick. -/
structure ReplicasInv (B : DataBackends) (cfg : ReplicatorConfig) (w₀ w : Replicas) : Prop where
  catalog : w.leader.registry.catalog = w₀.leader.registry.catalog
  files : w.leader.files = w₀.leader.files
  hashed : ∀ record, Replicated B cfg w.leader record → w.leader.Hashed B record
  /-- a member that was found complete during the ticks holds everything -/
  verified : ∀ peer record info, w.leader.registry.catalog.lookup record.key = some record →
    w.peerStatus.lookup (record.key, peer) = some info → info.complete = true →
      w₀.peerStatus.lookup (record.key, peer) = some info ∨ HoldsAll w.held peer record

theorem mem_delivered {held : Holdings} {pushed : List ChunkPush} {peer : EndpointId}
    {key : RecordKey} {i : ℕ} :
    i ∈ delivered held pushed peer key ↔ i ∈ held peer key ∨
      ∃ push ∈ pushed, push.peer = peer ∧ push.key = key ∧ push.index = i := by
  simp only [delivered, List.mem_append, List.mem_map, List.mem_filter, decide_eq_true_eq,
    and_assoc]

theorem replicated_congr {leader t : FileStore} {record : DataRecord}
    (hcatalog : t.registry.catalog = leader.registry.catalog) (hfiles : t.files = leader.files) :
    Replicated B cfg t record ↔ Replicated B cfg leader record := by
  unfold Replicated
  rw [hcatalog, FileStore.completeHere_congr hfiles]

/-- A leader that has every chunk has each of them. -/
theorem present_of_complete {leader : FileStore} {record : DataRecord}
    (h : leader.CompleteHere B record) {i : ℕ} (hi : (i : ℤ) < record.totalChunks) :
    i ∈ leader.chunksHere B record := by
  by_cases hkind : record.kind ∈ B.kinds
  · exact FileStore.mem_chunksHere.2
      ⟨hkind, hi, ((FileStore.completeHere_iff hkind).1 h).2 i hi⟩
  · unfold FileStore.CompleteHere FileStore.chunksHere at h
    rw [if_neg hkind] at h
    have htotal : record.totalChunks = 0 := h.symm
    omega

/-- The records of the enabled kinds have paths for their chunks. -/
def PathsFor (B : DataBackends) (cfg : ReplicatorConfig) (leader : FileStore) : Prop :=
  ∀ record, leader.registry.catalog.lookup record.key = some record →
    record.kind ∈ cfg.enabledKinds → FileStore.Addressable B record

section Ticks

variable (hkeyed : w₀.leader.registry.WellKeyed) (haddress : PathsFor B cfg w₀.leader)
  (hrecords : times.records.Perm w₀.leader.registry.catalog.values) (hmembers : members.Nodup)

include hkeyed haddress hrecords

theorem ReplicasInv.considered (h : ReplicasInv B cfg w₀ w) :
    ∀ record ∈ times.records,
      Considered B cfg (inputOf members reachable w.leader w.held times) w.state record := by
  obtain ⟨hlookup, -⟩ := records_spec (s := w₀.state) hkeyed hrecords
  intro record hmem henabled
  have hstored : w.leader.registry.catalog.lookup record.key = some record := by
    rw [h.catalog]
    exact (hlookup record).1 hmem
  refine ⟨haddress record ((hlookup record).1 hmem) henabled, fun hcomplete =>
    ⟨h.hashed record ⟨hstored, hcomplete, henabled⟩, fun peer _ => Or.inr ?_⟩⟩
  intro metadata hanswer
  unfold inputOf at hanswer
  dsimp only at hanswer
  split_ifs at hanswer
  · obtain ⟨other, -, rfl⟩ := Option.map_eq_some_iff.1 hanswer
    rfl

include hmembers

variable (reachable) in
/-- Each of the ticks does what it should. -/
theorem ReplicasInv.tickRight (h : ReplicasInv B cfg w₀ w) :
    TickRight B cfg (inputOf members reachable w.leader w.held times) w.state
      (runTick B cfg (inputOf members reachable w.leader w.held times) true times.records
        w.state) := by
  have hkeyed' : w.state.leader.registry.WellKeyed := fun key record hlookup => by
    refine hkeyed key record ?_
    rw [← h.catalog]
    exact hlookup
  refine (tickRight_iff hkeyed' ?_ hmembers rfl rfl).2 fun _ =>
    h.considered hkeyed haddress hrecords
  show times.records.Perm w.leader.registry.catalog.values
  rw [h.catalog]
  exact hrecords

variable (reachable) in
/-- What a tick leaves of what the leader holds and knows. -/
theorem ReplicasInv.progress (h : ReplicasInv B cfg w₀ w) :
    ∃ looked asked want, Progress cfg
      (inputOf members reachable w.leader w.held times) w.state looked asked want
      (runTick B cfg (inputOf members reachable w.leader w.held times) true times.records
        w.state).1 := by
  by_cases hnonempty : members = []
  · refine ⟨fun _ => False, fun _ _ => False, [], ?_⟩
    have htick : runTick B cfg (inputOf members reachable w.leader w.held times) true
        times.records w.state = (w.state, none) := if_pos (Or.inr hnonempty)
    rw [htick]
    exact Progress.start rfl rfl
  · have hkeyed' : w.state.leader.registry.WellKeyed := fun key record hlookup => by
      refine hkeyed key record ?_
      rw [← h.catalog]
      exact hlookup
    have hrecords' : times.records.Perm w.state.leader.registry.catalog.values := by
      show times.records.Perm w.leader.registry.catalog.values
      rw [h.catalog]
      exact hrecords
    exact ⟨_, _, _, (runTick_spec B cfg _ hkeyed' hrecords' hmembers rfl rfl hnonempty).2
      (h.considered hkeyed haddress hrecords)⟩

/-- The invariant is kept. -/
theorem ReplicasInv.nextTick (h : ReplicasInv B cfg w₀ w) :
    ReplicasInv B cfg w₀ (nextTick B cfg members reachable w times) := by
  obtain ⟨looked, asked, want, hprogress⟩ :=
    h.progress reachable hkeyed haddress hrecords hmembers
  refine ⟨hprogress.catalog.trans h.catalog, hprogress.files.trans h.files, fun record hrec => ?_,
    fun peer record info hstored hinfo hcomplete => ?_⟩
  · have hold := h.hashed record ((replicated_congr hprogress.catalog hprogress.files).1 hrec)
    exact hold.imp_left (hprogress.hashed record.key)
  · have hgrown (hall : HoldsAll w.held peer record) :
        HoldsAll (BlobReplicator.nextTick B cfg members reachable w times).held peer record :=
      fun i hi => mem_delivered.2 (Or.inl (hall i hi))
    have hstored' : w.leader.registry.catalog.lookup record.key = some record :=
      (congrArg (AList.lookup record.key) hprogress.catalog).symm.trans hstored
    rcases hprogress.answered record.key peer with hsame | ⟨metadata, info', hanswer, hnew, heq⟩
    · exact (h.verified peer record info hstored' (hsame.symm.trans hinfo) hcomplete).imp_right
        hgrown
    · -- the member has answered that it holds everything
      obtain rfl := Option.some.inj (hnew.symm.trans hinfo)
      refine Or.inr (hgrown ?_)
      unfold inputOf at hanswer
      dsimp only at hanswer
      split_ifs at hanswer
      · rw [hstored', Option.map_some] at hanswer
        obtain rfl := Option.some.inj hanswer
        have hall : decide (∀ i ∈ chunkRange record.totalChunks, i ∈ w.held peer record.key) =
            true := heq.symm.trans hcomplete
        show ∀ i ∈ chunkRange record.totalChunks, i ∈ w.held peer record.key
        exact of_decide_eq_true hall

end Ticks

/-- What the members that answer lack of what the leader could send them. -/
def Lacks (B : DataBackends) (cfg : ReplicatorConfig) (members : List EndpointId)
    (reachable : EndpointId → Bool) (leader : FileStore) (held : Holdings)
    (t : EndpointId × DataRecord × ℕ) : Prop :=
  (t.1 ∈ members ∧ reachable t.1 = true) ∧ Replicated B cfg leader t.2.1 ∧
    (t.2.2 : ℤ) < t.2.1.totalChunks ∧ t.2.2 ∉ held t.1 t.2.1.key

/-- Every chunk of every record, for every member. -/
def allChunks (members : List EndpointId) (leader : FileStore) :
    List (EndpointId × DataRecord × ℕ) :=
  members.flatMap fun peer => leader.registry.catalog.values.flatMap fun record =>
    (chunkRange record.totalChunks).map fun i => (peer, record, i)

open Classical in
/-- The measure: how many chunks are lacking. -/
noncomputable def lacking (B : DataBackends) (cfg : ReplicatorConfig) (members : List EndpointId)
    (reachable : EndpointId → Bool) (leader : FileStore) (held : Holdings) :
    Finset (EndpointId × DataRecord × ℕ) :=
  (allChunks members leader).toFinset.filter (Lacks B cfg members reachable leader held)

theorem mem_lacking {leader : FileStore} {held : Holdings} {t : EndpointId × DataRecord × ℕ} :
    t ∈ lacking B cfg members reachable leader held ↔
      Lacks B cfg members reachable leader held t := by
  classical
  unfold lacking
  rw [Finset.mem_filter, List.mem_toFinset, and_iff_right_iff_imp]
  rintro ⟨⟨hpeer, -⟩, ⟨hstored, -⟩, hi, -⟩
  refine List.mem_flatMap.2 ⟨t.1, hpeer, List.mem_flatMap.2 ⟨t.2.1, ?_, ?_⟩⟩
  · exact Dict.mem_values.2 ⟨_, hstored⟩
  · exact List.mem_map.2 ⟨t.2.2, mem_chunkRange.2 hi, rfl⟩

theorem lacking_subset :
    lacking B cfg members reachable w₀.leader
        (nextTick B cfg members reachable w times).held ⊆
      lacking B cfg members reachable w₀.leader w.held := by
  intro t ht
  obtain ⟨hpeer, hrec, hi, hnot⟩ := mem_lacking.1 ht
  exact mem_lacking.2 ⟨hpeer, hrec, hi, fun hheld => hnot (mem_delivered.2 (Or.inl hheld))⟩

/-- What is missing is lacking. -/
theorem ReplicasInv.lacks_of_missing (h : ReplicasInv B cfg w₀ w) {peer : EndpointId}
    {record : DataRecord} {i : ℕ}
    (hmissing : Missing B cfg (inputOf members reachable w.leader w.held times) w.state peer record
      i) : Lacks B cfg members reachable w₀.leader w.held (peer, record, i) := by
  obtain ⟨present, hanswer, hlisted⟩ := hmissing.unlisted
  have hstored : w.leader.registry.catalog.lookup record.key = some record := hmissing.stored
  have hrec : Replicated B cfg w₀.leader record :=
    (replicated_congr h.catalog h.files).1 ⟨hstored, hmissing.complete, hmissing.enabled⟩
  have hi : (i : ℤ) < record.totalChunks := by
    have hpresent := hmissing.present
    exact (FileStore.mem_chunksHere.1 hpresent).2.1
  unfold inputOf at hanswer
  dsimp only at hanswer
  split_ifs at hanswer with hreach
  · rw [hstored, Option.map_some] at hanswer
    have hheld : (w.held peer record.key).map (fun i : ℕ => (i : ℤ)) = present :=
      Option.some.inj (congrArg PeerMetadata.presentChunkIndices (Option.some.inj hanswer))
    refine ⟨⟨hmissing.member, hreach⟩, hrec, hi, fun hold => hlisted ?_⟩
    rw [← hheld]
    exact List.mem_map.2 ⟨i, hold, rfl⟩

/-- What is lacking is missing, once no answer of before the ticks counts any more. -/
theorem ReplicasInv.missing_of_lacks (h : ReplicasInv B cfg w₀ w)
    (hexpired : ∀ k info, w₀.peerStatus.lookup k = some info →
      info.lastSyncedAt + cfg.recheckSeconds ≤ times.now) {peer : EndpointId}
    {record : DataRecord} {i : ℕ}
    (hlacks : Lacks B cfg members reachable w₀.leader w.held (peer, record, i)) :
    Missing B cfg (inputOf members reachable w.leader w.held times) w.state peer record i := by
  obtain ⟨⟨hpeer, hreach⟩, hrec, hi, hnot⟩ := hlacks
  obtain ⟨hstored, hcomplete, henabled⟩ := (replicated_congr h.catalog h.files).2 hrec
  have hall : ¬ HoldsAll w.held peer record := fun hall => hnot (hall i (mem_chunkRange.2 hi))
  refine ⟨hpeer, hstored, hcomplete, henabled, ?_, ?_, present_of_complete hcomplete hi⟩
  · rw [← Bool.not_eq_true]
    intro hrecent
    unfold recentlyComplete at hrecent
    cases hinfo : w.state.peerStatus.lookup (record.key, peer) with
    | none =>
      rw [hinfo] at hrecent
      cases hrecent
    | some info =>
      rw [hinfo] at hrecent
      obtain ⟨hdone, hrecent⟩ := Bool.and_eq_true_iff.1 hrecent
      rcases h.verified peer record info hstored hinfo hdone with hold | hholds
      · have hrecent : times.now - info.lastSyncedAt < cfg.recheckSeconds :=
          of_decide_eq_true hrecent
        have hexp := hexpired _ info hold
        linarith
      · exact hall hholds
  · refine ⟨(w.held peer record.key).map fun i : ℕ => (i : ℤ), ?_, fun hlisted => ?_⟩
    · unfold inputOf answerOf
      dsimp only
      have hfalse : decide (∀ i ∈ chunkRange record.totalChunks, i ∈ w.held peer record.key) =
          false := decide_eq_false hall
      rw [if_pos hreach, hstored, Option.map_some, hfalse]
    · obtain ⟨j, hj, hji⟩ := List.mem_map.1 hlisted
      exact hnot (Int.ofNat_inj.1 hji ▸ hj)

section Lacking

variable (hkeyed : w₀.leader.registry.WellKeyed) (haddress : PathsFor B cfg w₀.leader)
  (hrecords : times.records.Perm w₀.leader.registry.catalog.values) (hmembers : members.Nodup)

include hkeyed haddress hrecords hmembers

variable (reachable) in
/-- As long as something is lacking, each tick with a budget makes it less. -/
theorem ReplicasInv.lacking_ssubset (h : ReplicasInv B cfg w₀ w)
    (hexpired : ∀ k info, w₀.peerStatus.lookup k = some info →
      info.lastSyncedAt + cfg.recheckSeconds ≤ times.now)
    (hbudget : ¬ cfg.Spent times.elapsedSeconds 0)
    (hlacking : (lacking B cfg members reachable w₀.leader w.held).Nonempty) :
    lacking B cfg members reachable w₀.leader
        (BlobReplicator.nextTick B cfg members reachable w times).held ⊂
      lacking B cfg members reachable w₀.leader w.held := by
  obtain ⟨⟨peer, record, i⟩, hlacks⟩ := hlacking
  have hright := h.tickRight reachable hkeyed haddress hrecords hmembers
  have hpushed := hright.progress hbudget
    ⟨peer, record, i, h.missing_of_lacks hexpired (mem_lacking.1 hlacks)⟩
  obtain ⟨push, hpush⟩ := List.exists_mem_of_ne_nil _ hpushed
  obtain ⟨record', hkey, hmissing, -⟩ := hright.safe push hpush
  refine Finset.ssubset_iff_of_subset lacking_subset |>.2
    ⟨(push.peer, record', push.index), mem_lacking.2 (h.lacks_of_missing hmissing), fun hstill => ?_⟩
  -- the chunk has arrived
  exact (mem_lacking.1 hstill).2.2.2
    (mem_delivered.2 (Or.inr ⟨push, hpush, rfl, hkey.symm, rfl⟩))

end Lacking

/-- Ticks with a budget, as time goes by, make every member that answers complete. -/
theorem replicate_complete {times : ℕ → TickTimes} (haddress : PathsFor B cfg w₀.leader)
    (hhashed : ∀ record, Replicated B cfg w₀.leader record → w₀.leader.Hashed B record)
    (hkeyed : w₀.leader.registry.WellKeyed) (hmembers : members.Nodup)
    (hrecords : ∀ n, (times n).records.Perm w₀.leader.registry.catalog.values)
    (hbudget : ∀ n, ¬ cfg.Spent (times n).elapsedSeconds 0)
    (hclock : ∀ T, ∃ n₀, ∀ n, n₀ ≤ n → T ≤ (times n).now) :
    ∃ k, ∀ n, k ≤ n → ∀ peer ∈ members, reachable peer = true →
      ∀ record, Replicated B cfg w₀.leader record →
        HoldsAll (replicate B cfg members reachable w₀ times n).held peer record := by
  have hall (n : ℕ) : ReplicasInv B cfg w₀ (replicate B cfg members reachable w₀ times n) := by
    induction n with
    | zero => exact ⟨rfl, rfl, hhashed, fun _ _ _ _ hinfo _ => Or.inl hinfo⟩
    | succ n ih => exact ih.nextTick hkeyed haddress (hrecords n) hmembers
  -- from some tick on, no answer of before the ticks counts any more
  obtain ⟨T, hT⟩ := Finset.exists_le
    ((w₀.peerStatus.values.map fun info => info.lastSyncedAt + cfg.recheckSeconds).toFinset)
  obtain ⟨n₀, hn₀⟩ := hclock T
  have hexpired (n : ℕ) (hn : n₀ ≤ n) (k : RecordKey × EndpointId) (info : PeerSyncInfo)
      (hinfo : w₀.peerStatus.lookup k = some info) :
      info.lastSyncedAt + cfg.recheckSeconds ≤ (times n).now := by
    refine (hT _ ?_).trans (hn₀ n hn)
    exact List.mem_toFinset.2 (List.mem_map.2 ⟨info, Dict.mem_values.2 ⟨k, hinfo⟩, rfl⟩)
  let rest (n : ℕ) := lacking B cfg members reachable w₀.leader
    (replicate B cfg members reachable w₀ times n).held
  have hless (j : ℕ) : rest (n₀ + j) = ∅ ∨ (rest (n₀ + j)).card + j ≤ (rest n₀).card := by
    induction j with
    | zero => exact Or.inr le_rfl
    | succ j ih =>
      rcases (rest (n₀ + j)).eq_empty_or_nonempty with hempty | hnonempty
      · refine Or.inl (Finset.subset_empty.1 ?_)
        rw [← hempty]
        exact lacking_subset
      · have hcard := Finset.card_lt_card ((hall (n₀ + j)).lacking_ssubset
          reachable hkeyed haddress (hrecords (n₀ + j)) hmembers
          (hexpired (n₀ + j) (Nat.le_add_right n₀ j)) (hbudget (n₀ + j)) hnonempty)
        have hle := ih.resolve_left hnonempty.ne_empty
        refine Or.inr ?_
        have hlt : (rest (n₀ + (j + 1))).card < (rest (n₀ + j)).card := hcard
        omega
  refine ⟨n₀ + ((rest n₀).card + 1), fun n hn peer hpeer hreach record hrec i hi => ?_⟩
  obtain ⟨j, rfl⟩ := Nat.exists_eq_add_of_le ((Nat.le_add_right _ _).trans hn)
  by_contra hnot
  have hmem : (peer, record, i) ∈ rest (n₀ + j) :=
    mem_lacking.2 ⟨⟨hpeer, hreach⟩, hrec, mem_chunkRange.1 hi, hnot⟩
  rcases hless j with hempty | hle
  · rw [hempty] at hmem
    cases hmem
  · omega

open DataHistory (plainBackends plainKey plainRegister)

/-- A leader with a dataset of two bytes. -/
def oneDataset : FileStore :=
  ((FileStore.init ["srv"] id).perform plainBackends (plainRegister 2)).perform plainBackends
    (.storeChunk plainKey 0 [1, 2] 0)

/-- The leader has been given an empty dataset, too, with a hash that nobody knows. -/
def oddDataset : FileStore :=
  oneDataset.perform plainBackends (.register ⟨"odd", 1⟩ "raw" "fs" 0 1 0 none "foo")

theorem sound_oneDataset : FileStore.Sound ["srv"] oneDataset :=
  FileStore.sound_perform (FileStore.sound_perform FileStore.sound_init _) _

/-- The record of the dataset. -/
def plainRecord : DataRecord := DataStore.newRecord plainKey "raw" "fs" 2 2 0 none "sha256"

/-- No limit, and every dataset in files. -/
def plainConfig : ReplicatorConfig := ⟨0, ["fs"], 300⟩

/-- One member, which has nothing yet. -/
def plainInput : TickInput where
  members := ["f"]
  answer := fun _ _ => some ⟨some [], false⟩
  elapsedSeconds := 1
  now := 0

end BlobReplicator

end Axo
