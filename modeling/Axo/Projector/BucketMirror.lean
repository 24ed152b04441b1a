import Axo.Data.ReplicaAgreement
import Axo.Projector.FunctionDocs

/-!
# The data items of the read model

What `application/projector/bucket_handler.py` makes of the events of a stable leader and its
followers.

* `emitted` are the bus events of a step of the cluster, which `core/external/bridge.py` publishes:
  a follower reports what it deletes and completes itself, at its own time;
* `ItemMirror.step` is a step of the cluster, or the projection of a node's next event; the events
  of different nodes come in any order;
* `Mirrored` says that the leader's own events lead from the read model to its catalog, and
  `mirrored_step_iff` what a step needs to keep that;
* `itemsMirrored_of_reach` is the result for whole runs.
-/

namespace Axo

/-! ### What a node emits -/

/-- The events of an operation; one that fails emits none. -/
def eventsOf {α : Type} (events : α → List DataEvent) : Except DataFailure α → List DataEvent
  | .error _ => []
  | .ok result => events result

/-- `DATA_REGISTERED_EVENT`. -/
def DataEvent.isRegistration : DataEvent → Bool
  | .registered .. => true
  | .uploadCompleted _ _ | .deleted _ _ => false

namespace DataStore

variable (B : DataBackends)

/-- The events of one round of the loop of `apply_incoming`. -/
def entryEvents (now : ℚ) (s : DataStore) (key : CombinedKey) : Blob DataRecord → List DataEvent
  | .tombstone => eventsOf Prod.snd (s.delete B key.key now)
  | .record _ => []

/-- The events of the loop. -/
def incomingEvents (now : ℚ) (s : DataStore) :
    List (Sigma fun _ : CombinedKey => Blob DataRecord) → List DataEvent
  | [] => []
  | e :: rest =>
    s.entryEvents B now e.1 e.2 ++ incomingEvents now (s.applyEntry B now e.1 e.2) rest

variable {B} {s : DataStore} {now : ℚ}

theorem isRegistration_incomingEvents
    (entries : List (Sigma fun _ : CombinedKey => Blob DataRecord)) :
    ∀ event ∈ s.incomingEvents B now entries, event.isRegistration = false := by
  induction entries generalizing s with
  | nil =>
    intro event hevent
    cases hevent
  | cons e rest ih =>
    intro event hevent
    rcases List.mem_append.1 hevent with hfirst | hrest
    · obtain ⟨key, blob⟩ := e
      cases blob with
      | record record => cases hfirst
      | tombstone =>
        unfold entryEvents delete at hfirst
        cases hrecord : s.catalog.lookup key.key with
        | none =>
          rw [hrecord] at hfirst
          cases hfirst
        | some record =>
          rw [hrecord] at hfirst
          rw [List.mem_singleton.1 hfirst]
          rfl
    · exact ih event hrest

theorem isRegistration_storeChunk {key : RecordKey} {index : ℤ} {data : List UInt8} :
    ∀ event ∈ eventsOf (fun r => r.2.1) (s.storeChunk B key index data now),
      event.isRegistration = false := by
  intro event hevent
  cases hrecord : s.catalog.lookup key with
  | none =>
    rw [storeChunk, hrecord] at hevent
    cases hevent
  | some record =>
    by_cases haccepts : Dataset.Accepts B record index data
    · rw [storeChunk_of_accepts hrecord haccepts] at hevent
      unfold eventsOf putChunk completeIf completeUpload at hevent
      dsimp only at hevent
      split_ifs at hevent
      · cases hevent
      · rw [List.mem_singleton.1 hevent]
        rfl
      · cases hevent
    · obtain ⟨e, he⟩ := storeChunk_refused now hrecord haccepts
      rw [he] at hevent
      cases hevent

end DataStore

/-- A node that publishes events. -/
inductive Reporter
  | leader
  | follower (f : EndpointId)
  deriving DecidableEq

/-- The id of a node. -/
def Reporter.endpointId (leaderId : EndpointId) : Reporter → EndpointId
  | .leader => leaderId
  | .follower f => f

/-- The events that a step of the cluster emits, with the node that does. -/
def emitted (B : DataBackends) (s : ReplicaCluster) : ReplicaAction → List (Reporter × DataEvent)
  | .register key format kind totalSize chunkBytes now contentHash contentHashAlgo =>
    (eventsOf (fun r => r.2.1) (s.leader.register B key format kind totalSize chunkBytes now
      contentHash contentHashAlgo)).map fun event => (.leader, event)
  | .chunkPut key index data now =>
    (eventsOf (fun r => r.2.1) (s.leader.storeChunk B key index data now)).map fun event =>
      (.leader, event)
  | .delete key now =>
    (eventsOf Prod.snd (s.leader.delete B key now)).map fun event => (.leader, event)
  | .handlePush f now =>
    match s.metadata f with
    | [] => []
    | dataChanges :: _ =>
      ((s.followers f).incomingEvents B now dataChanges.entries).map fun event =>
        (.follower f, event)
  | .deliverChunk n now =>
    match s.chunkPushes[n]? with
    | none => []
    | some push =>
      (eventsOf (fun r => r.2.1) ((s.followers push.peer).storeChunk B push.key push.index
        push.data now)).map fun event => (.follower push.peer, event)
  | .flush | .startTick .. | .nextRecord | .nextMember .. | .nextChunk | .loseChunk _ => []

/-- A client's request to the leader. -/
def ReplicaAction.isRequest : ReplicaAction → Bool
  | .register .. | .chunkPut .. | .delete .. => true
  | .flush | .handlePush .. | .startTick .. | .nextRecord | .nextMember .. | .nextChunk
  | .deliverChunk .. | .loseChunk _ => false

namespace ReplicaCluster

variable {B : DataBackends} {cfg : ReplicatorConfig} {members : List EndpointId}
  {s t : ReplicaCluster}

/-- Only a request changes what the leader holds. -/
theorem held_leader_of_step {action : ReplicaAction} (haction : action.isRequest = false)
    (hstep : step B cfg members s action = some t) (k : RecordKey) :
    t.leader.held k = s.leader.held k := by
  cases action with
  | register | chunkPut | delete => cases haction
  | flush =>
    simp only [step] at hstep
    split_ifs at hstep
    cases hstep
    rfl
  | handlePush =>
    simp only [step] at hstep
    split at hstep
    · cases hstep
    · cases hstep
      rfl
  | startTick =>
    simp only [step] at hstep
    split_ifs at hstep
    cases hstep
    rfl
  | nextRecord =>
    simp only [step] at hstep
    split at hstep
    · cases hstep
    · split at hstep
      · cases hstep
        exact held_considerRecord _ k
      · cases hstep
        exact held_considerRecord _ k
      · cases hstep
  | nextMember answered latencyMs now =>
    simp only [step] at hstep
    split at hstep
    · cases hstep
    · split at hstep
      · split_ifs at hstep
        · cases hstep
          rfl
        · cases hstep
          rw [leader_askMember]
      · cases hstep
  | nextChunk =>
    simp only [step] at hstep
    split at hstep
    · cases hstep
    · split at hstep
      · cases hstep
        rfl
      · cases hstep
        rw [leader_sendChunk]
      · cases hstep
  | deliverChunk =>
    simp only [step] at hstep
    split at hstep
    · cases hstep
    · cases hstep
      rfl
  | loseChunk =>
    simp only [step] at hstep
    split_ifs at hstep
    cases hstep
    rfl

end ReplicaCluster

namespace Projector

open Transition

/-- `on_data_registered`, `on_data_upload_completed` and `on_data_deleted`. -/
def forwardDataEvent : DataEvent → EventBody
  | .registered key totalChunks format kind totalSize _ =>
    .data key.id (.registered key.version format kind totalSize totalChunks)
  | .uploadCompleted key _ => .data key.id (.uploadCompleted key.version)
  | .deleted key _ => .data key.id (.deleted key.version)

/-- `_publish`. -/
def publishDataEvent (endpointId : EndpointId) (stamp : EventStamp)
    (virtualEnvironmentId : Option String) (event : DataEvent) : DomainEvent :=
  Sending.published
    { virtualEnvironmentId := virtualEnvironmentId
      event :=
        { envelope :=
            { eventId := stamp.eventId
              createdAt := stamp.createdAt
              endpointId := some endpointId }
          body := forwardDataEvent event } }

/-! ### One data item -/

/-- What an event makes of the item of a dataset. -/
def itemStep (key : RecordKey) (item : Option DataItem) : DataEvent → Option DataItem
  | .registered k totalChunks format kind totalSize _ =>
    if k = key then
      some
        { name := k.id
          version := k.version
          format := format
          kind := kind
          totalSize := totalSize
          totalChunks := totalChunks
          status := .pending }
    else item
  | .uploadCompleted k _ => if k = key then item.map DataItem.markReady else item
  | .deleted k _ => if k = key then none else item

/-- The item of a dataset. -/
def ReadModel.itemOf (s : ReadModel) (key : RecordKey) : Option DataItem :=
  s.bucketData.lookup (dataItemKey key.id key.version)

/-- An item belongs to one dataset. -/
theorem dataItemKey_injective {key k : RecordKey}
    (h : dataItemKey k.id k.version = dataItemKey key.id key.version) : k = key := by
  obtain ⟨id, version⟩ := key
  obtain ⟨id', version'⟩ := k
  obtain ⟨rfl, rfl⟩ := functionKey_injective h
  rfl

theorem itemOf_applyEvent (key : RecordKey) (publishes : Bool) (stamp stamp' : EventStamp)
    (s : ReadModel) (endpointId : EndpointId) (virtualEnvironmentId : Option String)
    (event : DataEvent) :
    (applyEvent publishes stamp' s
        (publishDataEvent endpointId stamp virtualEnvironmentId event)).1.itemOf key =
      itemStep key (s.itemOf key) event := by
  have hne {k : RecordKey} (hk : k ≠ key) :
      dataItemKey key.id key.version ≠ dataItemKey k.id k.version :=
    fun h => hk (dataItemKey_injective h.symm)
  cases event with
  | registered k totalChunks format kind totalSize now =>
    simp only [itemStep]
    split_ifs with hk
    · subst hk
      exact Collection.lookup_upsert _ _ _
    · exact Collection.lookup_upsert_ne (hne hk)
  | uploadCompleted k now =>
    simp only [itemStep]
    split_ifs with hk
    · subst hk
      exact Collection.lookup_updateOne _ _ _
    · exact Collection.lookup_updateOne_ne (hne hk)
  | deleted k now =>
    simp only [itemStep]
    split_ifs with hk
    · subst hk
      exact AList.lookup_erase _ _
    · exact AList.lookup_erase_ne (hne hk)

/-- The event registers the dataset. -/
def registersKey (key : RecordKey) : DataEvent → Bool
  | .registered k .. => k = key
  | .uploadCompleted _ _ | .deleted _ _ => false

section ItemRuns

variable {key : RecordKey} {events : List DataEvent} {item : Option DataItem}

/-- After a registration it does not matter what was there before. -/
theorem foldl_itemStep_of_registers (h : events.any (registersKey key) = true)
    (item item' : Option DataItem) :
    events.foldl (itemStep key) item = events.foldl (itemStep key) item' := by
  induction events generalizing item item' with
  | nil => cases h
  | cons event events ih =>
    rw [List.any_cons, Bool.or_eq_true] at h
    rw [List.foldl_cons, List.foldl_cons]
    rcases h with hhere | hrest
    · cases event with
      | registered k totalChunks format kind totalSize now =>
        have hk : k = key := of_decide_eq_true hhere
        simp only [itemStep, if_pos hk]
      | uploadCompleted k now => cases hhere
      | deleted k now => cases hhere
    · exact ih hrest _ _

/-- Without a registration, no item comes to be. -/
theorem foldl_itemStep_none (h : events.any (registersKey key) = false) :
    events.foldl (itemStep key) none = none := by
  induction events with
  | nil => rfl
  | cons event events ih =>
    rw [List.any_cons, Bool.or_eq_false_iff] at h
    have hstep : itemStep key none event = none := by
      cases event with
      | registered k totalChunks format kind totalSize now =>
        exact if_neg (of_decide_eq_false h.1)
      | uploadCompleted k now => exact ite_self _
      | deleted k now => exact ite_self _
    rw [List.foldl_cons, hstep]
    exact ih h.2

@[simp] theorem markReady_markReady (item : DataItem) : item.markReady.markReady = item.markReady :=
  rfl

/-- Without a registration, an item that is marked before is marked after. -/
theorem foldl_itemStep_markReady (h : events.any (registersKey key) = false)
    (item : Option DataItem) :
    events.foldl (itemStep key) (item.map DataItem.markReady) =
      (events.foldl (itemStep key) item).map DataItem.markReady := by
  induction events generalizing item with
  | nil => rfl
  | cons event events ih =>
    rw [List.any_cons, Bool.or_eq_false_iff] at h
    have hstep : itemStep key (item.map DataItem.markReady) event =
        (itemStep key item event).map DataItem.markReady := by
      cases event with
      | registered k totalChunks format kind totalSize now =>
        have hk : k ≠ key := of_decide_eq_false h.1
        simp only [itemStep, if_neg hk]
      | uploadCompleted k now =>
        simp only [itemStep]
        split_ifs <;> rfl
      | deleted k now =>
        simp only [itemStep]
        split_ifs <;> rfl
    rw [List.foldl_cons, List.foldl_cons, hstep]
    exact ih h.2 _

end ItemRuns

/-! ### The catalog as items -/

/-- The item of a record. -/
def recordItem (record : DataRecord) (full : Bool) : DataItem where
  name := record.name
  version := record.version
  format := record.format
  kind := record.kind
  totalSize := record.totalSize
  totalChunks := record.totalChunks
  status := if full then .ready else .pending

/-- The item that mirrors what is held under a key. -/
def heldItem (held : Held) : Option DataItem :=
  held.record.map fun record => recordItem record (decide (Dataset.Full record held.chunks))

theorem recordItem_inj {record : DataRecord} {full full' : Bool} :
    recordItem record full = recordItem record full' ↔ full = full' := by
  refine ⟨fun h => ?_, fun h => h ▸ rfl⟩
  have hstatus := congrArg DataItem.status h
  cases full <;> cases full' <;> first | rfl | cases hstatus

theorem markReady_recordItem (record : DataRecord) (full : Bool) :
    (recordItem record full).markReady = recordItem record true := rfl

theorem heldItem_eq_none {held : Held} : heldItem held = none ↔ held.record = none :=
  Option.map_eq_none_iff

/-- An item may be marked if its record is complete. -/
theorem map_markReady_heldItem {held : Held} :
    (heldItem held).map DataItem.markReady = heldItem held ↔
      ∀ record ∈ held.record, Dataset.Full record held.chunks := by
  unfold heldItem
  cases held.record with
  | none => exact iff_of_true rfl fun _ hnone => by cases hnone
  | some record =>
    rw [Option.map_some, Option.map_some, Option.some.injEq, markReady_recordItem, recordItem_inj]
    exact ⟨fun hfull _ hsome => Option.some.inj hsome ▸ of_decide_eq_true hfull.symm,
      fun hfull => (decide_eq_true (hfull record rfl)).symm⟩

/-- The item of a registration. -/
theorem itemStep_registeredEvent {key : RecordKey} {record : DataRecord} {now : ℚ}
    (item : Option DataItem) :
    itemStep key item (DataStore.registeredEvent record now) =
      if record.key = key then some (recordItem record false) else item := rfl

/-- The events of a completion. -/
theorem foldl_itemStep_completeIf {s : DataStore} {key k : RecordKey} {full : Bool} {now : ℚ}
    (item : Option DataItem) :
    (s.completeIf full key now).2.foldl (itemStep k) item =
      if full = true ∧ key ∉ s.completedUploads ∧ key = k then item.map DataItem.markReady
      else item := by
  cases full with
  | false => simp [DataStore.completeIf]
  | true =>
    by_cases hcompleted : key ∈ s.completedUploads
    · simp [DataStore.completeIf, DataStore.completeUpload, hcompleted]
    · simp [DataStore.completeIf, DataStore.completeUpload, hcompleted, itemStep]

/-- The events of a registration. -/
theorem foldl_itemStep_putRecord {s : DataStore} {key k : RecordKey} {record : DataRecord} {now : ℚ}
    (hkey : record.key = key) (item : Option DataItem) :
    (s.putRecord key record now).2.foldl (itemStep k) item =
      if key = k then
        some (recordItem record (decide (record.totalChunks = 0 ∧ key ∉ s.completedUploads)))
      else item := by
  unfold DataStore.putRecord
  dsimp only
  rw [List.foldl_cons, itemStep_registeredEvent, foldl_itemStep_completeIf, hkey]
  by_cases hk : key = k
  · rw [if_pos hk, if_pos hk]
    by_cases hready : record.totalChunks = 0 ∧ key ∉ s.completedUploads
    · rw [if_pos ⟨decide_eq_true hready.1, hready.2, hk⟩, decide_eq_true hready, Option.map_some,
        markReady_recordItem]
    · rw [if_neg fun hall => hready ⟨of_decide_eq_true hall.1, hall.2.1⟩, decide_eq_false hready]
  · rw [if_neg hk, if_neg hk, if_neg fun hall => hk hall.2.2]

/-- The events of a put. -/
theorem foldl_itemStep_putChunk {s : DataStore} {key k : RecordKey} {record : DataRecord} {index : ℤ}
    {data : List UInt8} {now : ℚ} (hkey : record.key = key) (hindex : 0 ≤ index)
    (item : Option DataItem) :
    (s.putChunk key record index data now).2.foldl (itemStep k) item =
      if Dataset.Full record (Dataset.write (s.held key).chunks record.kind index.toNat data) ∧
          key ∉ s.completedUploads ∧ key = k then
        item.map DataItem.markReady
      else item := by
  have hblobs : ({ s with blobs := s.blobs.insert (chunkKey record.kind key index) data } :
      DataStore).blobs = s.blobs.insert (chunkKey record.kind key index.toNat) data := by
    rw [Int.toNat_of_nonneg hindex]
  have hchunks := DataStore.chunks_insert (k := key) hblobs
  rw [if_pos rfl] at hchunks
  have hfull : ({ s with
        blobs := s.blobs.insert (chunkKey record.kind key index) data } :
          DataStore).isFullyPresent record = true ↔
      Dataset.Full record (Dataset.write (s.held key).chunks record.kind index.toNat data) := by
    rw [DataStore.isFullyPresent_iff, hkey, hchunks]
    rfl
  exact (foldl_itemStep_completeIf item).trans (if_congr (and_congr_left fun _ => hfull) rfl rfl)

/-! ### The nodes and the projector -/

/-- The cluster, the events that are yet to be projected, in the order in which they were published,
and the read model. -/
structure ItemMirror where
  cluster : ReplicaCluster := {}
  pending : List (Reporter × DataEvent) := []
  readModel : ReadModel := {}

/-- The steps. -/
inductive MirrorAct
  | node (action : ReplicaAction)
  /-- the `n`-th event is projected, if no earlier one is of the same node -/
  | project (n : ℕ) (stamp : EventStamp) (virtualEnvironmentId : Option String)

/-- The events of the leader. -/
def ofLeader : Reporter × DataEvent → Option DataEvent
  | (.leader, event) => some event
  | (.follower _, _) => none

namespace ItemMirror

variable (B : DataBackends) (cfg : ReplicatorConfig) (members : List EndpointId)
  (leaderId : EndpointId) (publishes : Bool)

/-- One step. -/
def step (s : ItemMirror) : MirrorAct → Option ItemMirror
  | .node action =>
    (s.cluster.step B cfg members action).map fun cluster =>
      { s with cluster := cluster, pending := s.pending ++ emitted B s.cluster action }
  | .project n stamp virtualEnvironmentId =>
    match s.pending[n]? with
    | none => none
    | some (node, event) =>
      if (s.pending.take n).all fun earlier => earlier.1 ≠ node then
        some { s with
          pending := s.pending.eraseIdx n
          readModel := (applyEvent publishes stamp s.readModel
            (publishDataEvent (node.endpointId leaderId) stamp virtualEnvironmentId event)).1 }
      else none

/-- The read model shows a dataset exactly when the leader's catalog has it, and shows it as ready
exactly when the leader holds all its chunks. -/
def ShowsRight (s : ItemMirror) (key : RecordKey) : Prop :=
  ((s.readModel.itemOf key).isSome ↔ (s.cluster.leader.catalog.lookup key).isSome) ∧
    ((∃ item ∈ s.readModel.itemOf key, item.status = .ready) ↔
      ∃ record ∈ s.cluster.leader.catalog.lookup key, ∀ i ∈ chunkRange record.totalChunks,
        (s.cluster.leader.chunk record.kind key i).isSome)

/-- The leader's events that are yet to be projected. -/
def leaderPending (s : ItemMirror) : List DataEvent := s.pending.filterMap ofLeader

/-- A registration by the leader is yet to be projected. -/
def Awaits (s : ItemMirror) (key : RecordKey) : Bool := s.leaderPending.any (registersKey key)

/-- What the event may do to the read model at this time. -/
def Timely (s : ItemMirror) : Reporter × DataEvent → Prop
  | (.follower _, .deleted key _) =>
    (s.cluster.leader.catalog.lookup key).isSome → s.Awaits key = true
  | (.follower _, .uploadCompleted key _) =>
    ∀ record ∈ s.cluster.leader.catalog.lookup key,
      s.Awaits key = true ∨ Dataset.Full record (s.cluster.leader.held key).chunks
  | (.follower _, .registered ..) | (.leader, _) => True

/-- A follower's deletion is not projected after the registration of what the leader has now, nor
its completion of an upload unless the leader is complete; a record that is complete at once has no
chunks, and what becomes complete was not said to be so before. -/
def Guard (s : ItemMirror) : MirrorAct → Prop
  | .node (.register key format kind totalSize chunkBytes now contentHash contentHashAlgo) =>
    Dataset.Registers B kind totalSize chunkBytes →
      let record := DataStore.newRecord key format kind totalSize chunkBytes now contentHash
        contentHashAlgo
      (Dataset.Full record (s.cluster.leader.held key).chunks ↔
        record.totalChunks = 0 ∧ key ∉ s.cluster.leader.completedUploads)
  | .node (.chunkPut key index data _) =>
    ∀ record ∈ s.cluster.leader.catalog.lookup key, Dataset.Accepts B record index data →
      let chunks := (s.cluster.leader.held key).chunks
      ¬ Dataset.Full record chunks →
        Dataset.Full record (Dataset.write chunks record.kind index.toNat data) →
          key ∉ s.cluster.leader.completedUploads
  | .node _ => True
  | .project n _ _ => ∀ report ∈ s.pending[n]?, s.Timely report

/-- Besides, the registrations are of datasets that share no chunk file. -/
def ItemsGuard (N : DatasetNames) (s : ItemMirror) (act : MirrorAct) : Prop :=
  (∀ action, act = .node action → action.Within N) ∧ s.Guard B act

/-- The item of a dataset once the leader's events have been projected. -/
def dueItem (s : ItemMirror) (key : RecordKey) : Option DataItem :=
  s.leaderPending.foldl (itemStep key) (s.readModel.itemOf key)

/-- The leader's events lead to its catalog. -/
def Mirrored (s : ItemMirror) : Prop :=
  ∀ key, s.dueItem key = heldItem (s.cluster.leader.held key)

/-- What every run keeps. -/
structure Sound (s : ItemMirror) : Prop where
  keyed : s.cluster.leader.WellKeyed
  followers : ∀ f event, (.follower f, event) ∈ s.pending → event.isRegistration = false

variable {B cfg members leaderId publishes} {s t : ItemMirror}

theorem step_node_eq_some {action : ReplicaAction} :
    step B cfg members leaderId publishes s (.node action) = some t ↔
      ∃ cluster, s.cluster.step B cfg members action = some cluster ∧
        { s with cluster := cluster, pending := s.pending ++ emitted B s.cluster action } = t :=
  Option.map_eq_some_iff

/-! ### The leader's events -/

theorem filterMap_ofLeader_leader (events : List DataEvent) :
    (events.map fun event => (Reporter.leader, event)).filterMap ofLeader = events := by
  induction events with
  | nil => rfl
  | cons event events ih =>
    rw [List.map_cons, List.filterMap_cons_some (by rfl), ih]

theorem filterMap_ofLeader_follower (f : EndpointId) (events : List DataEvent) :
    (events.map fun event => (Reporter.follower f, event)).filterMap ofLeader = [] := by
  induction events with
  | nil => rfl
  | cons event events ih =>
    rw [List.map_cons, List.filterMap_cons_none (by rfl), ih]

/-- The due item after a step of the cluster. -/
theorem dueItem_node {cluster : ReplicaCluster} {reports : List (Reporter × DataEvent)}
    {key : RecordKey} :
    dueItem { s with cluster := cluster, pending := s.pending ++ reports } key =
      (reports.filterMap ofLeader).foldl (itemStep key) (s.dueItem key) := by
  simp only [dueItem, leaderPending, List.filterMap_append, List.foldl_append]

/-- Where nothing changes at the leader, nothing changes. -/
theorem mirrored_node_congr {cluster : ReplicaCluster} {reports : List (Reporter × DataEvent)}
    (hreports : reports.filterMap ofLeader = [])
    (hheld : ∀ key, cluster.leader.held key = s.cluster.leader.held key) :
    Mirrored { s with cluster := cluster, pending := s.pending ++ reports } ↔ s.Mirrored := by
  unfold Mirrored
  simp only [dueItem_node, hreports, List.foldl_nil, hheld]

/-- Where one key changes at the leader, the others stay as they are. -/
theorem mirrored_node_iff (h : s.Mirrored) (key : RecordKey) {cluster : ReplicaCluster}
    {events : List DataEvent}
    (hheld : ∀ k, k ≠ key → cluster.leader.held k = s.cluster.leader.held k)
    (hevents : ∀ k, k ≠ key → ∀ item, events.foldl (itemStep k) item = item) :
    Mirrored
        { s with
          cluster := cluster
          pending := s.pending ++ events.map fun event => (.leader, event) } ↔
      events.foldl (itemStep key) (heldItem (s.cluster.leader.held key)) =
        heldItem (cluster.leader.held key) := by
  unfold Mirrored
  simp only [dueItem_node, filterMap_ofLeader_leader, h _]
  refine ⟨fun hall => hall key, fun hkey k => ?_⟩
  by_cases hk : k = key
  · subst hk
    exact hkey
  · rw [hheld k hk, hevents k hk]

/-! ### The leader's handlers -/

theorem mirrored_register_iff (h : s.Mirrored) {key : RecordKey} {format kind : String}
    {totalSize chunkBytes : ℤ} {now : ℚ} {contentHash : Option String} {contentHashAlgo : String}
    (hstep : step B cfg members leaderId publishes s (.node (.register key format kind totalSize
      chunkBytes now contentHash contentHashAlgo)) = some t) :
    t.Mirrored ↔ s.Guard B (.node (.register key format kind totalSize chunkBytes now contentHash
      contentHashAlgo)) := by
  obtain ⟨cluster, hcluster, rfl⟩ := step_node_eq_some.1 hstep
  by_cases hregisters : Dataset.Registers B kind totalSize chunkBytes
  · simp only [ReplicaCluster.step, DataStore.register_of_registers hregisters,
      Option.some.injEq] at hcluster
    subst hcluster
    set record := DataStore.newRecord key format kind totalSize chunkBytes now contentHash
      contentHashAlgo with hrecord
    have hkey : record.key = key := rfl
    have hguard : s.Guard B (.node (.register key format kind totalSize chunkBytes now contentHash
        contentHashAlgo)) ↔
        (Dataset.Full record (s.cluster.leader.held key).chunks ↔
          record.totalChunks = 0 ∧ key ∉ s.cluster.leader.completedUploads) :=
      ⟨fun hg => hg hregisters, fun hg _ => hg⟩
    have hemitted : emitted B s.cluster (.register key format kind totalSize chunkBytes now
        contentHash contentHashAlgo) =
        (s.cluster.leader.putRecord key record now).2.map fun event => (.leader, event) := by
      simp only [emitted, DataStore.register_of_registers hregisters, eventsOf, hrecord]
    rw [hguard, hemitted, mirrored_node_iff h key
      (fun k hk => by rw [DataStore.held_putRecord, if_neg hk])
      fun k hk item => by rw [foldl_itemStep_putRecord hkey, if_neg (Ne.symm hk)]]
    rw [foldl_itemStep_putRecord hkey, if_pos rfl, DataStore.held_putRecord, if_pos rfl]
    unfold heldItem
    dsimp only
    rw [Option.map_some, Option.some.injEq, recordItem_inj, decide_eq_decide]
    exact Iff.comm
  · obtain ⟨e, he⟩ := s.cluster.leader.register_refused key format now contentHash contentHashAlgo
      hregisters
    simp only [ReplicaCluster.step, he, Option.some.injEq] at hcluster
    subst hcluster
    have hemitted : (emitted B s.cluster (.register key format kind totalSize chunkBytes now
        contentHash contentHashAlgo)).filterMap ofLeader = [] := by
      simp only [emitted, he, eventsOf, List.map_nil, List.filterMap_nil]
    exact iff_of_true ((mirrored_node_congr hemitted fun _ => rfl).2 h)
      fun hr => absurd hr hregisters

/-- More chunks do not make a record incomplete. -/
theorem full_write {record : DataRecord} {chunks : String → Chunks} {kind : String} {index : ℕ}
    {data : List UInt8} (h : Dataset.Full record chunks) :
    Dataset.Full record (Dataset.write chunks kind index data) := by
  intro i hi
  unfold Dataset.write
  by_cases hkind : record.kind = kind
  · subst hkind
    rw [Function.update_self]
    by_cases hindex : i = index
    · subst hindex
      rw [Function.update_self]
      rfl
    · rw [Function.update_of_ne hindex]
      exact h i hi
  · rw [Function.update_of_ne hkind]
    exact h i hi

theorem mirrored_chunkPut_iff (h : s.Mirrored) (hkeyed : s.cluster.leader.WellKeyed)
    {key : RecordKey} {index : ℤ} {data : List UInt8} {now : ℚ}
    (hstep : step B cfg members leaderId publishes s (.node (.chunkPut key index data now)) =
      some t) :
    t.Mirrored ↔ s.Guard B (.node (.chunkPut key index data now)) := by
  obtain ⟨cluster, hcluster, rfl⟩ := step_node_eq_some.1 hstep
  obtain rfl := Option.some.inj hcluster
  -- a put that is refused
  have hrefused (e : DataFailure) (he : s.cluster.leader.storeChunk B key index data now = .error e) :
      Mirrored
        { s with
          cluster := { s.cluster with
            leader := s.cluster.leader.handleChunkPut B key index data now }
          pending := s.pending ++ emitted B s.cluster (.chunkPut key index data now) } := by
    refine (mirrored_node_congr ?_ fun k => ?_).2 h
    · simp only [emitted, he, eventsOf, List.map_nil, List.filterMap_nil]
    · simp only [DataStore.handleChunkPut, he]
  cases hrecord : s.cluster.leader.catalog.lookup key with
  | none =>
    have hnone : s.cluster.leader.storeChunk B key index data now =
        .error (.err (DataRegistry.notRegisteredError key)) := by
      simp only [DataStore.storeChunk, hrecord]
    refine iff_of_true (hrefused _ hnone) fun record hsome => ?_
    rw [hrecord] at hsome
    cases hsome
  | some record =>
    by_cases haccepts : Dataset.Accepts B record index data
    swap
    · obtain ⟨e, he⟩ := DataStore.storeChunk_refused now hrecord haccepts
      refine iff_of_true (hrefused e he) fun record' hsome haccepts' => ?_
      rw [hrecord] at hsome
      cases hsome
      exact absurd haccepts' haccepts
    have hstore : s.cluster.leader.storeChunk B key index data now = _ :=
      DataStore.storeChunk_of_accepts hrecord haccepts
    set chunks := (s.cluster.leader.held key).chunks with hchunks
    have hguard : s.Guard B (.node (.chunkPut key index data now)) ↔
        (¬ Dataset.Full record chunks →
          Dataset.Full record (Dataset.write chunks record.kind index.toNat data) →
            key ∉ s.cluster.leader.completedUploads) := by
      refine ⟨fun hg => hg record hrecord haccepts, fun hg record' hsome _ => ?_⟩
      rw [hrecord] at hsome
      cases hsome
      exact hg
    have hemitted : emitted B s.cluster (.chunkPut key index data now) =
        (s.cluster.leader.putChunk key record index data now).2.map fun event =>
          (.leader, event) := by
      simp only [emitted, hstore, eventsOf]
    have hheld (k : RecordKey) :
        (s.cluster.leader.handleChunkPut B key index data now).held k =
          if k = key then
            { s.cluster.leader.held k with
              chunks := Dataset.write (s.cluster.leader.held k).chunks record.kind index.toNat data }
          else s.cluster.leader.held k := by
      unfold DataStore.handleChunkPut
      rw [hstore]
      dsimp only
      rw [DataStore.held_afterStatus, DataStore.held_putChunk haccepts.1]
    have hkey : record.key = key := hkeyed key record hrecord
    have hsome : (s.cluster.leader.held key).record = some record := hrecord
    rw [hguard, hemitted, mirrored_node_iff h key (fun k hk => by rw [hheld, if_neg hk])
      fun k hk item => by
        rw [foldl_itemStep_putChunk hkey haccepts.1, if_neg fun hall => hk hall.2.2.symm]]
    rw [foldl_itemStep_putChunk hkey haccepts.1, hheld, if_pos rfl]
    unfold heldItem
    dsimp only
    rw [hsome, Option.map_some, Option.map_some, Option.map_some, markReady_recordItem, ← hchunks]
    by_cases hnow : Dataset.Full record (Dataset.write chunks record.kind index.toNat data)
    · by_cases hcompleted : key ∈ s.cluster.leader.completedUploads
      · rw [if_neg fun hall => hall.2.1 hcompleted, Option.some.injEq, recordItem_inj,
          decide_eq_decide]
        exact ⟨fun hiff hnot => absurd (hiff.2 hnow) hnot,
          fun hg => ⟨fun _ => hnow, fun _ => not_not.1 fun hnot => hg hnot hnow hcompleted⟩⟩
      · rw [if_pos ⟨hnow, hcompleted, rfl⟩, decide_eq_true hnow]
        exact iff_of_true rfl fun _ _ => hcompleted
    · rw [if_neg fun hall => hnow hall.1, decide_eq_false hnow,
        decide_eq_false fun hbefore => hnow (full_write hbefore)]
      exact iff_of_true rfl fun _ hfull => absurd hfull hnow

theorem mirrored_delete (h : s.Mirrored) {key : RecordKey} {now : ℚ}
    (hstep : step B cfg members leaderId publishes s (.node (.delete key now)) = some t) :
    t.Mirrored := by
  obtain ⟨cluster, hcluster, rfl⟩ := step_node_eq_some.1 hstep
  rcases hdelete : s.cluster.leader.delete B key now with e | ⟨leader, events⟩ <;>
    simp only [ReplicaCluster.step, hdelete, Option.some.injEq] at hcluster <;> subst hcluster
  · refine (mirrored_node_congr ?_ fun _ => rfl).2 h
    simp only [emitted, hdelete, eventsOf, List.map_nil, List.filterMap_nil]
  · obtain ⟨record, -, hheld⟩ := DataStore.held_delete hdelete
    have hevents : events = [.deleted key now] := by
      unfold DataStore.delete at hdelete
      cases hrecord : s.cluster.leader.catalog.lookup key with
      | none =>
        rw [hrecord] at hdelete
        cases hdelete
      | some old =>
        rw [hrecord] at hdelete
        cases hdelete
        rfl
    have hemitted : emitted B s.cluster (.delete key now) =
        [DataEvent.deleted key now].map fun event => (.leader, event) := by
      simp only [emitted, hdelete, eventsOf, hevents]
    rw [hemitted]
    refine (mirrored_node_iff h key (fun k hk => ?_) fun k hk item => ?_).2 ?_
    · rw [hheld, if_neg hk]
    · exact if_neg (Ne.symm hk)
    · rw [hheld, if_pos rfl]
      exact if_pos rfl

/-- The leader emits nothing but for a request. -/
theorem filterMap_emitted {cluster : ReplicaCluster} {action : ReplicaAction}
    (haction : action.isRequest = false) : (emitted B cluster action).filterMap ofLeader = [] := by
  cases action with
  | register | chunkPut | delete => cases haction
  | handlePush f now =>
    simp only [emitted]
    split
    · rfl
    · exact filterMap_ofLeader_follower _ _
  | deliverChunk n now =>
    simp only [emitted]
    split
    · rfl
    · exact filterMap_ofLeader_follower _ _
  | _ => rfl

/-! ### The projector -/

/-- The next event of a node, with those before it and those after it. -/
theorem exists_of_project {n : ℕ} {stamp : EventStamp} {virtualEnvironmentId : Option String}
    (hstep : step B cfg members leaderId publishes s (.project n stamp virtualEnvironmentId) =
      some t) :
    ∃ before node event after, s.pending = before ++ (node, event) :: after ∧
      s.pending[n]? = some (node, event) ∧ (∀ earlier ∈ before, earlier.1 ≠ node) ∧
      t.cluster = s.cluster ∧ t.pending = before ++ after ∧
      ∀ key, t.readModel.itemOf key = itemStep key (s.readModel.itemOf key) event := by
  simp only [step] at hstep
  cases hreport : s.pending[n]? with
  | none =>
    rw [hreport] at hstep
    cases hstep
  | some report =>
    obtain ⟨node, event⟩ := report
    rw [hreport] at hstep
    simp only [Option.ite_none_right_eq_some, Option.some.injEq, List.all_eq_true,
      decide_eq_true_eq] at hstep
    obtain ⟨hfirst, rfl⟩ := hstep
    obtain ⟨hn, hget⟩ := List.getElem?_eq_some_iff.1 hreport
    refine ⟨s.pending.take n, node, event, s.pending.drop (n + 1), ?_, rfl, hfirst, rfl,
      List.eraseIdx_eq_take_drop_succ _ _, fun key => itemOf_applyEvent ..⟩
    rw [← hget, List.getElem_cons_drop, List.take_append_drop]

/-- The due items after the projection of an event of a follower. -/
theorem dueItem_follower {f : EndpointId} {event : DataEvent} {key : RecordKey}
    {before after : List (Reporter × DataEvent)}
    (hpending : s.pending = before ++ (.follower f, event) :: after)
    (hafter : t.pending = before ++ after)
    (hitem : t.readModel.itemOf key = itemStep key (s.readModel.itemOf key) event) :
    t.dueItem key =
      s.leaderPending.foldl (itemStep key) (itemStep key (s.readModel.itemOf key) event) := by
  have hleader : t.leaderPending = s.leaderPending := by
    unfold leaderPending
    rw [hpending, hafter, List.filterMap_append, List.filterMap_append,
      List.filterMap_cons_none (by rfl)]
  rw [dueItem, hleader, hitem]

/-- The projection of an event of the leader keeps what is due. -/
theorem dueItem_leader {event : DataEvent} {key : RecordKey}
    {before after : List (Reporter × DataEvent)}
    (hpending : s.pending = before ++ (.leader, event) :: after)
    (hfirst : ∀ earlier ∈ before, earlier.1 ≠ .leader) (hafter : t.pending = before ++ after)
    (hitem : t.readModel.itemOf key = itemStep key (s.readModel.itemOf key) event) :
    t.dueItem key = s.dueItem key := by
  have hbefore : before.filterMap ofLeader = [] := by
    refine List.filterMap_eq_nil_iff.2 fun report hreport => ?_
    obtain ⟨node, earlier⟩ := report
    cases node with
    | leader => exact absurd rfl (hfirst _ hreport)
    | follower f => rfl
  unfold dueItem leaderPending
  rw [hpending, hafter, hitem, List.filterMap_append, List.filterMap_append, hbefore,
    List.filterMap_cons_some (by rfl)]
  rfl

/-- A follower's event about another dataset, or before a registration, changes nothing. -/
theorem mirrored_follower_iff (h : s.Mirrored) (key : RecordKey) {f : EndpointId} {event : DataEvent}
    {before after : List (Reporter × DataEvent)}
    (hpending : s.pending = before ++ (.follower f, event) :: after)
    (hafter : t.pending = before ++ after) (hcluster : t.cluster = s.cluster)
    (hitem : ∀ k, t.readModel.itemOf k = itemStep k (s.readModel.itemOf k) event)
    (hother : ∀ k, k ≠ key → ∀ item, itemStep k item event = item) :
    t.Mirrored ↔ s.Awaits key = false →
      s.leaderPending.foldl (itemStep key) (itemStep key (s.readModel.itemOf key) event) =
        heldItem (s.cluster.leader.held key) := by
  have hdue (k : RecordKey) := dueItem_follower hpending hafter (hitem k)
  unfold Mirrored
  rw [hcluster]
  constructor
  · intro hall _
    rw [← hdue, hall]
  · intro hkey k
    rw [hdue]
    by_cases hk : k = key
    · subst hk
      cases hawaits : s.Awaits k with
      | true => exact (foldl_itemStep_of_registers hawaits _ _).trans (h k)
      | false => exact hkey hawaits
    · rw [hother k hk]
      exact h k

theorem mirrored_project_iff (h : s.Mirrored) (hsound : s.Sound) {n : ℕ} {stamp : EventStamp}
    {virtualEnvironmentId : Option String}
    (hstep : step B cfg members leaderId publishes s (.project n stamp virtualEnvironmentId) =
      some t) :
    t.Mirrored ↔ s.Guard B (.project n stamp virtualEnvironmentId) := by
  obtain ⟨before, node, event, after, hpending, hreport, hfirst, hcluster, hafter, hitem⟩ :=
    exists_of_project hstep
  have hguard : s.Guard B (.project n stamp virtualEnvironmentId) ↔ s.Timely (node, event) := by
    refine ⟨fun hg => hg _ hreport, fun hg report hsome => ?_⟩
    rw [hreport] at hsome
    cases hsome
    exact hg
  rw [hguard]
  cases node with
  | leader =>
    refine iff_of_true (fun key => ?_) trivial
    rw [dueItem_leader hpending hfirst hafter (hitem key), hcluster]
    exact h key
  | follower f =>
    cases event with
    | registered key totalChunks format kind totalSize now =>
      have hmem := hsound.followers f (.registered key totalChunks format kind totalSize now)
        (hpending ▸ List.mem_append_right _ List.mem_cons_self)
      cases hmem
    | deleted key now =>
      rw [mirrored_follower_iff h key hpending hafter hcluster hitem
        fun k hk item => if_neg (Ne.symm hk)]
      have hstepped : itemStep key (s.readModel.itemOf key) (.deleted key now) = none := if_pos rfl
      rw [hstepped]
      constructor
      · intro hnone hsome
        by_contra hawaits
        rw [Bool.not_eq_true] at hawaits
        have hheld := (foldl_itemStep_none hawaits).symm.trans (hnone hawaits)
        have hrecord : s.cluster.leader.catalog.lookup key = none := heldItem_eq_none.1 hheld.symm
        rw [hrecord] at hsome
        cases hsome
      · intro htimely hawaits
        rw [foldl_itemStep_none hawaits]
        refine (heldItem_eq_none.2 (Option.not_isSome_iff_eq_none.1 fun hsome => ?_)).symm
        rw [htimely hsome] at hawaits
        cases hawaits
    | uploadCompleted key now =>
      rw [mirrored_follower_iff h key hpending hafter hcluster hitem
        fun k hk item => if_neg (Ne.symm hk)]
      have hstepped : itemStep key (s.readModel.itemOf key) (.uploadCompleted key now) =
          (s.readModel.itemOf key).map DataItem.markReady := if_pos rfl
      have hmark (hawaits : s.Awaits key = false) :
          s.leaderPending.foldl (itemStep key)
              ((s.readModel.itemOf key).map DataItem.markReady) =
            (heldItem (s.cluster.leader.held key)).map DataItem.markReady :=
        (foldl_itemStep_markReady hawaits _).trans (congrArg _ (h key))
      rw [hstepped]
      constructor
      · intro hkey record hrecord
        by_cases hawaits : s.Awaits key = true
        · exact .inl hawaits
        · rw [Bool.not_eq_true] at hawaits
          exact .inr (map_markReady_heldItem.1 ((hmark hawaits).symm.trans (hkey hawaits)) record
            hrecord)
      · intro htimely hawaits
        rw [hmark hawaits, map_markReady_heldItem]
        intro record hrecord
        refine (htimely record hrecord).resolve_left fun htrue => ?_
        rw [htrue] at hawaits
        cases hawaits

/-- A step keeps what is due right exactly when it meets the guard. -/
theorem mirrored_step_iff (h : s.Mirrored) (hsound : s.Sound) {act : MirrorAct}
    (hstep : step B cfg members leaderId publishes s act = some t) :
    t.Mirrored ↔ s.Guard B act := by
  cases act with
  | project n stamp virtualEnvironmentId => exact mirrored_project_iff h hsound hstep
  | node action =>
    cases haction : action.isRequest with
    | true =>
      cases action with
      | register => exact mirrored_register_iff h hstep
      | chunkPut => exact mirrored_chunkPut_iff h hsound.keyed hstep
      | delete => exact iff_of_true (mirrored_delete h hstep) trivial
      | _ => cases haction
    | false =>
      obtain ⟨cluster, hcluster, rfl⟩ := step_node_eq_some.1 hstep
      have hheld := ReplicaCluster.held_leader_of_step haction hcluster
      have hguard : s.Guard B (.node action) := by
        cases action with
        | register | chunkPut => cases haction
        | _ => trivial
      exact iff_of_true ((mirrored_node_congr (filterMap_emitted haction) hheld).2 h) hguard

/-! ### Runs -/

/-- What a follower emits is no registration. -/
theorem isRegistration_emitted {cluster : ReplicaCluster} {action : ReplicaAction} {f : EndpointId}
    {event : DataEvent} (h : (.follower f, event) ∈ emitted B cluster action) :
    event.isRegistration = false := by
  have hleader (events : List DataEvent)
      (hmem : (Reporter.follower f, event) ∈ events.map fun event => (Reporter.leader, event)) :
      False := by
    obtain ⟨_, _, heq⟩ := List.mem_map.1 hmem
    cases heq
  cases action with
  | register | chunkPut | delete => exact (hleader _ h).elim
  | handlePush f' now =>
    simp only [emitted] at h
    split at h
    · cases h
    · obtain ⟨_, hevent, heq⟩ := List.mem_map.1 h
      cases heq
      exact DataStore.isRegistration_incomingEvents _ _ hevent
  | deliverChunk n now =>
    simp only [emitted] at h
    split at h
    · cases h
    · obtain ⟨_, hevent, heq⟩ := List.mem_map.1 h
      cases heq
      exact DataStore.isRegistration_storeChunk _ hevent
  | flush | startTick | nextRecord | nextMember | nextChunk | loseChunk => cases h

/-- The records of the leader keep their keys. -/
theorem wellKeyed_step {cluster cluster' : ReplicaCluster} (h : cluster.leader.WellKeyed)
    {action : ReplicaAction} (hstep : cluster.step B cfg members action = some cluster') :
    cluster'.leader.WellKeyed := by
  intro k record hrecord
  cases action with
  | register key format kind totalSize chunkBytes now contentHash contentHashAlgo =>
    by_cases hregisters : Dataset.Registers B kind totalSize chunkBytes
    · simp only [ReplicaCluster.step, DataStore.register_of_registers hregisters,
        Option.some.injEq] at hstep
      subst hstep
      have hkeep := hrecord.symm.trans (congrArg Held.record DataStore.held_putRecord)
      by_cases hk : k = key
      · rw [if_pos hk] at hkeep
        cases hkeep
        exact hk.symm
      · rw [if_neg hk] at hkeep
        exact h k record hkeep.symm
    · obtain ⟨e, he⟩ := cluster.leader.register_refused key format now contentHash contentHashAlgo
        hregisters
      simp only [ReplicaCluster.step, he, Option.some.injEq] at hstep
      exact h k record (hstep ▸ hrecord)
  | chunkPut key index data now =>
    obtain rfl := Option.some.inj hstep
    rcases cluster.leader.held_handleChunkPut (B := B) key index data now with
      hsame | ⟨_, _, _, hheld⟩
    · exact h k record ((congrArg Held.record (hsame k)).symm.trans hrecord)
    · have hkeep := hrecord.symm.trans (congrArg Held.record (hheld k))
      refine h k record (hkeep.trans ?_).symm
      split_ifs <;> rfl
  | delete key now =>
    rcases hdelete : cluster.leader.delete B key now with e | ⟨leader, events⟩ <;>
      simp only [ReplicaCluster.step, hdelete, Option.some.injEq] at hstep <;> subst hstep
    · exact h k record hrecord
    · obtain ⟨_, -, hheld⟩ := DataStore.held_delete hdelete
      have hkeep := hrecord.symm.trans (congrArg Held.record (hheld k))
      split_ifs at hkeep
      · cases hkeep
      · exact h k record hkeep.symm
  | _ =>
    have hheld := ReplicaCluster.held_leader_of_step rfl hstep k
    exact h k record ((congrArg Held.record hheld).symm.trans hrecord)

theorem Sound.step (h : s.Sound) {act : MirrorAct}
    (hstep : ItemMirror.step B cfg members leaderId publishes s act = some t) : t.Sound := by
  cases act with
  | node action =>
    obtain ⟨cluster, hcluster, rfl⟩ := step_node_eq_some.1 hstep
    refine ⟨wellKeyed_step h.keyed hcluster, fun f event hmem => ?_⟩
    rcases List.mem_append.1 hmem with hbefore | hnew
    · exact h.followers f event hbefore
    · exact isRegistration_emitted hnew
  | project n stamp virtualEnvironmentId =>
    obtain ⟨before, node, event, after, hpending, -, -, hcluster, hafter, -⟩ :=
      exists_of_project hstep
    refine ⟨hcluster ▸ h.keyed, fun f event' hmem => h.followers f event' ?_⟩
    rw [hafter] at hmem
    rw [hpending]
    rcases List.mem_append.1 hmem with hbefore | hlater
    · exact List.mem_append_left _ hbefore
    · exact List.mem_append_right _ (List.mem_cons_of_mem _ hlater)

/-- When everything has been projected, a read model that is right in the end is right. -/
theorem Mirrored.showsRight (h : s.Mirrored) (hpending : s.pending = []) (key : RecordKey) :
    s.ShowsRight key := by
  have hitem : s.readModel.itemOf key = heldItem (s.cluster.leader.held key) := by
    have hkey := h key
    unfold dueItem leaderPending at hkey
    rwa [hpending] at hkey
  unfold ShowsRight
  rw [hitem]
  unfold heldItem DataStore.held
  cases s.cluster.leader.catalog.lookup key with
  | none => exact ⟨Iff.rfl, iff_of_false (by simp) (by simp)⟩
  | some record =>
    refine ⟨Iff.rfl, ?_⟩
    simp only [Option.map_some, Option.mem_def, Option.some.injEq, exists_eq_left']
    unfold recordItem
    dsimp only
    split_ifs with hfull
    · exact iff_of_true rfl (of_decide_eq_true hfull)
    · exact iff_of_false (by simp) fun hall => hfull (decide_eq_true hall)

/-- In every run whose steps meet the guard, with datasets that share no chunk file: whenever all
events have been projected, the read model shows each dataset exactly when the leader has it, and as
ready exactly when the leader has all its chunks. -/
theorem itemsMirrored_of_reach {N : DatasetNames}
    (hreach : Reach (step B cfg members leaderId publishes) (ItemsGuard B N) {} s)
    (hpending : s.pending = []) (key : RecordKey) : s.ShowsRight key := by
  have hinv : s.Mirrored ∧ s.Sound := by
    refine Reach.invariant (I := fun s => s.Mirrored ∧ s.Sound) ⟨fun key => rfl, ?_, ?_⟩
      (fun _ _ _ h hguard hstep => ⟨(mirrored_step_iff h.1 h.2 hstep).2 hguard.2, h.2.step hstep⟩)
      hreach
    · intro key record hnone
      cases hnone
    · intro f event hmem
      cases hmem
  exact hinv.1.showsRight hpending key

/-! ### A dataset that is registered again -/

instance (s : ItemMirror) : ∀ report, Decidable (s.Timely report)
  | (.follower _, .deleted _ _) => inferInstanceAs (Decidable (_ → _))
  | (.follower _, .uploadCompleted key _) =>
    inferInstanceAs (Decidable (∀ record ∈ s.cluster.leader.catalog.lookup key, _))
  | (.follower _, .registered ..) | (.leader, _) => isTrue trivial

instance (s : ItemMirror) : ∀ act, Decidable (s.Guard B act)
  | .node (.register ..) => inferInstanceAs (Decidable (_ → _))
  | .node (.chunkPut key _ _ _) =>
    inferInstanceAs (Decidable (∀ record ∈ s.cluster.leader.catalog.lookup key, _))
  | .node (.delete ..) | .node .flush | .node (.handlePush ..) | .node (.startTick ..)
  | .node .nextRecord | .node (.nextMember ..) | .node .nextChunk | .node (.deliverChunk ..)
  | .node (.loseChunk _) => isTrue trivial
  | .project n _ _ => inferInstanceAs (Decidable (∀ report ∈ s.pending[n]?, s.Timely report))

instance (N : DatasetNames) [DecidablePred (· ∈ N.keys)] (s : ItemMirror) :
    ∀ act, Decidable (s.ItemsGuard B N act)
  | .node action => decidable_of_iff (action.Within N ∧ s.Guard B (.node action))
      ⟨fun h => ⟨fun _ heq => by cases heq; exact h.1, h.2⟩, fun h => ⟨h.1 action rfl, h.2⟩⟩
  | .project n stamp id => decidable_of_iff (s.Guard B (.project n stamp id))
      ⟨fun h => ⟨fun _ heq => (by cases heq), h⟩, fun h => h.2⟩

open DataHistory (plainBackends plainKey)
open ReplicaCluster (plainConfig)

/-- The next event of some node is projected. -/
def projectEvent (n : ℕ) : MirrorAct := .project n ⟨"e", "2024-01-01T00:00:00Z"⟩ none

/-- The client registers the dataset. -/
def registerPlain (now : ℚ) : MirrorAct :=
  .node (.register plainKey "raw" "fs" 2 2 now none "sha256")

/-- A dataset is registered, replicated, deleted, and registered again. -/
def registeredTwice : List MirrorAct :=
  [registerPlain 0, projectEvent 0, .node .flush, .node (.handlePush "a" 1),
    .node (.delete plainKey 2), projectEvent 0, .node .flush, registerPlain 3]

/-- The steps of a cluster of two. -/
def plainStep : ItemMirror → MirrorAct → Option ItemMirror :=
  step plainBackends plainConfig ["a"] "b" false

/-- The follower's deletion is projected before the second registration. -/
theorem itemsMirrored_timelyDeletion : ∃ s,
    Reach plainStep (ItemsGuard plainBackends .plain) {} s ∧
    s.ShowsRight plainKey ∧ (s.readModel.itemOf plainKey).isSome := by
  obtain ⟨s, hreach, htest⟩ := exists_reach_of_guarded_run plainStep
    (ItemsGuard plainBackends .plain) {} (fun s => decide (s.pending = []) && (s.readModel.itemOf plainKey).isSome)
    (registeredTwice ++ [.node (.handlePush "a" 4), projectEvent 1, projectEvent 0,
      .node (.chunkPut plainKey 0 [1, 2] 5), projectEvent 0])
    (by decide +kernel)
  obtain ⟨hpending, hitem⟩ := Bool.and_eq_true_iff.1 htest
  exact ⟨s, hreach, itemsMirrored_of_reach hreach (of_decide_eq_true hpending) plainKey, hitem⟩

/-- The follower's deletion is projected after the second registration. -/
theorem itemMissing_lateDeletion : ∃ s, Reach plainStep Always {} s ∧ s.pending = [] ∧
    ¬ s.ShowsRight plainKey := by
  obtain ⟨s, hreach, htest⟩ := exists_reach_of_run plainStep {}
    (fun s => decide (s.pending = []) && (!(s.readModel.itemOf plainKey).isSome &&
      (s.cluster.leader.catalog.lookup plainKey).isSome))
    (registeredTwice ++ [projectEvent 0, .node (.handlePush "a" 4), projectEvent 0, .node .flush,
      .node (.handlePush "a" 5)])
    (by decide +kernel)
  simp only [Bool.and_eq_true, decide_eq_true_eq, Bool.not_eq_true'] at htest
  obtain ⟨hpending, hitem, hrecord⟩ := htest
  refine ⟨s, hreach, hpending, fun hright => ?_⟩
  rw [hright.1.2 hrecord] at hitem
  cases hitem

end ItemMirror

end Projector

end Axo
