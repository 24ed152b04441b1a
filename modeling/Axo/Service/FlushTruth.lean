import Axo.Service.SyncThreads

/-!
# What a flush pushes

One endpoint over a whole run of its threads: registry calls, pushes and pulls from other endpoints,
and ticks with any membership, so with any changes of leadership.

* `StatePush.Tells` says that each entry of a push is what the endpoint stores under its key;
* `SyncThreads.Truthful` is what holds between the steps: an entry of the tracker is what is stored,
  unless a registry call between its write and its mark will mark what is;
* `TruthGuard` excludes the marks of calls that others have overtaken, the received records that
  contradict an entry of the tracker, and a drain between the write and the mark of such an entry;
* `pushTells_of_reach` is the result for whole runs.
-/

namespace Axo

open Transition Diff

/-- Each entry is the serialized record that the endpoint stores under its key, or a tombstone
where it stores none. -/
structure StatePush.Tells (push : StatePush) (n : SyncNode) : Prop where
  functions : ∀ key blob, push.functionChanges.lookup (.of key) = some blob →
    blob = (n.functions.lookup key).elim .tombstone fun record =>
      .record (serializeFunctionRecord record.toStoredFunction)
  data : ∀ key blob, push.dataChanges.lookup (.of key) = some blob →
    blob = (n.catalog.lookup key).elim .tombstone .record
  buckets : ∀ name bucket, push.bucketChanges.lookup name = some bucket →
    n.buckets.lookup name = some bucket

theorem Blob.stored_ofFunctionDoc_eq_iff {blob : Blob FunctionDoc}
    {record : Option RegisteredFunction} :
    record.map .function = blob.stored .ofFunctionDoc ↔
      blob = record.elim .tombstone fun record =>
        .record (serializeFunctionRecord record.toStoredFunction) := by
  cases blob with
  | record doc =>
    cases record with
    | none => simp [Blob.stored]
    | some record =>
      simp only [Blob.stored, SyncRecord.ofFunctionDoc, Option.map_some, Option.some.injEq,
        SyncRecord.function.injEq, Option.elim_some, Blob.record.injEq]
      constructor
      · rintro rfl
        rw [serializeFunctionRecord_deserialize]
      · rintro rfl
        rw [deserializeFunctionRecord_serialize]
  | tombstone => cases record <;> simp [Blob.stored]

theorem Blob.stored_data_eq_iff {blob : Blob DataRecord} {record : Option DataRecord} :
    record.map .data = blob.stored .data ↔ blob = record.elim .tombstone .record := by
  cases blob with
  | record doc => cases record <;> simp [Blob.stored, eq_comm]
  | tombstone => cases record <;> simp [Blob.stored]

/-- A push tells what is stored when its changes describe it. -/
theorem StatePush.tells_iff {push : StatePush} {n : SyncNode} :
    push.Tells n ↔ push.changes.Describes n.stored := by
  constructor
  · intro h k word hword
    rcases k with key | key | name
    · obtain ⟨blob, hblob, rfl⟩ := Option.map_eq_some_iff.1 hword
      exact Blob.stored_ofFunctionDoc_eq_iff.2 (h.functions key blob hblob)
    · obtain ⟨blob, hblob, rfl⟩ := Option.map_eq_some_iff.1 hword
      exact Blob.stored_data_eq_iff.2 (h.data key blob hblob)
    · obtain ⟨bucket, hbucket, rfl⟩ := Option.map_eq_some_iff.1 hword
      exact congrArg (Option.map SyncRecord.bucket) (h.buckets name bucket hbucket)
  · intro h
    refine ⟨fun key blob hblob => ?_, fun key blob hblob => ?_, fun name bucket hbucket => ?_⟩
    · exact Blob.stored_ofFunctionDoc_eq_iff.1
        (h (.function key) _ (congrArg (Option.map (Blob.stored .ofFunctionDoc)) hblob))
    · exact Blob.stored_data_eq_iff.1
        (h (.data key) _ (congrArg (Option.map (Blob.stored .data)) hblob))
    · have hstored := h (.bucket name) _
        (congrArg (Option.map fun bucket => some (SyncRecord.bucket bucket)) hbucket)
      exact Option.map_injective (fun _ _ => SyncRecord.bucket.inj) hstored

namespace SyncNode

/-- A configuration under which every change is flushed at the next tick. -/
def eagerConfig : SyncConfig where
  blobBackends := ["fs"]
  maxDirtyCount := 1
  idleSeconds := 5
  sha256 := fun _ => ""

/-- A dataset. -/
def datasetKey : RecordKey := { id := "d", version := 1 }

/-- Its record. -/
def datasetRecord : DataRecord where
  name := "d"
  version := 1
  keyAlias := "d"
  format := "raw"
  kind := "fs"
  totalSize := 1
  chunkBytes := 1
  totalChunks := 1
  createdAt := 0
  declaredHash := none
  contentHashAlgo := "sha256"

/-- A push of the endpoint `b` with one entry of the dataset. -/
def datasetPush (blob : Blob DataRecord) : StatePush where
  term := 0
  leaderIds := {"b"}
  members := {"a", "b"}
  functionChanges := ∅
  dataChanges := (∅ : Dict CombinedKey (Blob DataRecord)).insert (.of datasetKey) blob
  bucketChanges := ∅

end SyncNode

/-! ### Runs of the threads -/

/-- The call has written its record. -/
def RegistryCall.Written : RegistryCall → Prop
  | .putting _ => False
  | .raised _ | .marking _ => True

instance : (call : RegistryCall) → Decidable call.Written
  | .putting _ => inferInstanceAs (Decidable False)
  | .raised _ | .marking _ => inferInstanceAs (Decidable True)

theorem RegistryCall.Settles.written {call : RegistryCall} {stored : SyncStore}
    (h : call.Settles false stored) : call.Written := by
  cases call with
  | putting p => cases h
  | raised event | marking entry => trivial

namespace SyncThreads

/-- The tracker describes the stores, but for keys that a call in progress will mark again. -/
def Truthful (s : SyncThreads) : Prop :=
  ∀ k, ∀ word ∈ s.node.dirtyTracker.pending k,
    s.node.stored k = word ∨ Settled false s.inProgress s.node.stored k

/-- What is marked is what is stored, or another call will mark that. -/
def MarkTells (s : SyncThreads) (entry : StoreEntry) : Prop :=
  s.node.stored entry.key = entry.word ∨ Settled false s.inProgress s.node.stored entry.key

/-- A received record says what the tracker says of its key, or a call of the key will mark it. -/
def PutTells (s : SyncThreads) (entry : StoreEntry) : Prop :=
  (∀ word ∈ s.node.dirtyTracker.pending entry.key, entry.word = word) ∨
    Settled false s.inProgress (Function.update s.node.stored entry.key entry.word) entry.key

/-- Where a call is between its write and its mark, the tracker says nothing of its key, or what is
stored. -/
def DrainTells (s : SyncThreads) : Prop :=
  ∀ call ∈ s.inProgress, call.Written →
    ∀ word ∈ s.node.dirtyTracker.pending call.key, s.node.stored call.key = word

/-- What a step has to find. -/
def TruthGuard (s : SyncThreads) : ThreadAction → Prop
  | .advance call now => ∀ m ∈ s.marking (.advance call now), m.2.MarkTells m.1
  | .receive r now =>
    (∀ m ∈ s.marking (.receive r now), m.2.MarkTells m.1) ∧
      ∀ entry ∈ s.receiving r, s.PutTells entry
  | .drain => s.DrainTells
  | _ => True

instance (s : SyncThreads) (entry : StoreEntry) : Decidable (s.MarkTells entry) :=
  inferInstanceAs (Decidable (_ ∨ _))

instance (s : SyncThreads) (entry : StoreEntry) : Decidable (s.PutTells entry) :=
  inferInstanceAs (Decidable (_ ∨ _))

instance (s : SyncThreads) : Decidable s.DrainTells :=
  inferInstanceAs (Decidable (∀ call ∈ s.inProgress, _))

instance (s : SyncThreads) : (a : ThreadAction) → Decidable (s.TruthGuard a)
  | .advance call now =>
    inferInstanceAs (Decidable (∀ m ∈ s.marking (.advance call now), m.2.MarkTells m.1))
  | .receive r now =>
    inferInstanceAs (Decidable ((∀ m ∈ s.marking (.receive r now), m.2.MarkTells m.1) ∧
      ∀ entry ∈ s.receiving r, s.PutTells entry))
  | .drain => inferInstanceAs (Decidable s.DrainTells)
  | .begin .. | .snapshot _ | .mergePush | .pullRemote _ | .tick .. | .applyLocal =>
    inferInstanceAs (Decidable True)

variable {cfg : SyncConfig} {s t : SyncThreads} {a : ThreadAction} {now : ℚ}

theorem truthful_boot (e : EndpointId) : (boot e).Truthful := by
  intro k word hword
  have hpending : (boot e).node.dirtyTracker.pending k = none := congrFun diffOf_empty k
  rw [hpending] at hword
  cases hword

namespace Truthful

/-- A step that leaves stores and tracker alone, and ends no call. -/
theorem frame (h : s.Truthful) (hstored : t.node.stored = s.node.stored)
    (htracker : t.node.dirtyTracker = s.node.dirtyTracker)
    (hcalls : ∀ c ∈ s.inProgress, c ∈ t.inProgress) : t.Truthful := by
  intro k word hword
  rw [htracker] at hword
  rw [hstored]
  exact (h k word hword).imp_right fun hsettled => hsettled.congr hcalls rfl

/-- The next piece of a registry call. -/
theorem advance (h : s.Truthful) {call : RegistryCall} (hadvances : s.Advances t a call now)
    (hG : ∀ m ∈ s.marking a, m.2.MarkTells m.1) : t.Truthful := by
  intro k word hword
  rw [hadvances.node] at hword ⊢
  rcases advance_cases s.node now call k with
    ⟨p, rfl, rfl⟩ | ⟨entry, rfl, rfl⟩ | ⟨hmark, hstored, hpending⟩
  · exact Or.inr (settled_put p (hadvances.next _ rfl))
  · obtain ⟨u, hu, hnode, hcalls, -⟩ := hadvances.marking entry rfl
    have hmark : u.MarkTells entry := hG _ hu
    unfold MarkTells at hmark
    rw [hnode, hcalls] at hmark
    have hmarked : (s.node.mark now entry).dirtyTracker.pending entry.key = some entry.word := by
      rw [SyncNode.pending_mark, Function.update_self]
    have hsame : entry.word = word := Option.some.inj (hmarked.symm.trans hword)
    show (s.node.mark now entry).stored entry.key = word ∨
      Settled false t.inProgress (s.node.mark now entry).stored entry.key
    rw [SyncNode.stored_mark, ← hsame]
    exact hmark
  · rw [hpending] at hword
    rw [hstored]
    exact (h k word hword).imp_right fun hsettled =>
      hsettled.advance hadvances.rest hadvances.next hmark

/-- The next piece of a receiver. -/
theorem receive (h : s.Truthful) {r : Receiver} (hreceives : Receives cfg s r now t)
    (hG : s.TruthGuard (.receive r now)) : t.Truthful := by
  -- only a receiver that is in a call gives one up
  have hcalls {entries : List StoreEntry} (ha : s.applying r = some ⟨entries, none⟩)
      (b : Option Applying) : ∀ c ∈ s.inProgress, c ∈ (s.set r b).inProgress := fun c hc =>
    (mem_inProgress_set hc ha b).resolve_left nofun
  cases hreceives with
  | done ha => exact h.frame rfl rfl (hcalls ha _)
  | skip ha hnone => exact h.frame rfl rfl (hcalls ha _)
  | delete ha hsome => exact h.frame rfl rfl (hcalls ha _)
  | call ha => exact h.advance (advances_of_receive ha) hG.1
  | @put entry entries ha hkept =>
    have hput : s.PutTells entry := hG.2 entry (by simp only [receiving, ha, if_pos hkept]; rfl)
    intro k word hword
    have hword : word ∈ (s.node.put entry).dirtyTracker.pending k := hword
    rw [SyncNode.dirtyTracker_put] at hword
    show (s.node.put entry).stored k = word ∨ Settled false _ (s.node.put entry).stored k
    rw [SyncNode.stored_put]
    by_cases hk : k = entry.key
    · subst hk
      rw [Function.update_self]
      exact hput.imp (fun hsame => hsame word hword) fun hsettled =>
        hsettled.congr (hcalls ha _) rfl
    · rw [Function.update_of_ne hk]
      exact (h k word hword).imp_right fun hsettled =>
        hsettled.congr (hcalls ha _) (Function.update_of_ne hk _ _)

theorem step (h : s.Truthful) (hG : s.TruthGuard a) (hstep : s.step cfg a = some t) :
    t.Truthful := by
  cases a with
  | begin op now =>
    cases hstep
    obtain ⟨hstored, htracker, -, -⟩ := SyncNode.begin_frame cfg s.node op now
    refine h.frame hstored htracker fun c hc => ?_
    rcases mem_inProgress.1 hc with hc | hc
    · exact mem_inProgress.2 (Or.inl (List.mem_append_right _ hc))
    · exact mem_inProgress.2 (Or.inr hc)
  | advance call now => exact h.advance (advances_of_advance hstep) hG
  | receive r now => exact h.receive (receives_of_step hstep) hG
  | snapshot push =>
    simp only [SyncThreads.step] at hstep
    split_ifs at hstep
    · cases hstep
      exact h
    · cases hstep
      exact h.frame rfl rfl fun _ => id
  | mergePush =>
    simp only [SyncThreads.step] at hstep
    split at hstep
    · rename_i push localState hmerging hreceiver
      cases hstep
      exact h.frame rfl rfl fun c hc => mem_inProgress_start hreceiver _ hc
    · cases hstep
  | pullRemote incoming =>
    simp only [SyncThreads.step] at hstep
    split_ifs at hstep with hreceiver
    split at hstep
    · cases hstep
      exact h
    · cases hstep
      exact h.frame rfl rfl fun c hc =>
        mem_inProgress_start (Option.not_isSome_iff_eq_none.1 hreceiver) _ hc
  | tick members now =>
    simp only [SyncThreads.step] at hstep
    split_ifs at hstep
    · cases hstep
      exact h.frame rfl rfl fun _ => id
    · cases hstep
      exact h.frame rfl rfl fun _ => id
  | drain =>
    simp only [SyncThreads.step] at hstep
    split at hstep
    · cases hstep
      intro k word hword
      have hpending : s.node.dirtyTracker.drain.2.pending k = none :=
        congrFun (DirtyTracker.pending_drain _) k
      rw [show _ = none from hpending] at hword
      cases hword
    · cases hstep
  | applyLocal =>
    simp only [SyncThreads.step] at hstep
    split at hstep
    · cases hstep
      exact h.frame rfl rfl fun _ => id
    · cases hstep

end Truthful

/-- A tracker that is drained where the guard allows it describes the stores. -/
theorem Truthful.describes (h : s.Truthful) (hG : s.DrainTells) :
    s.node.dirtyTracker.pending.Describes s.node.stored := by
  intro k word hword
  rcases h k word hword with hstored | ⟨call, hcall, rfl, hsettles⟩
  · exact hstored
  · exact hG call hcall hsettles.written word hword

/-- In a run whose steps meet the guard, every push of what is drained tells what the endpoint
stores at that moment. -/
theorem pushTells_of_reach {e : EndpointId}
    (h : Reach (SyncThreads.step cfg) TruthGuard (boot e) s) (hG : s.TruthGuard .drain)
    (hdrain : s.step cfg .drain = some t) :
    ∀ member push, (member, push) ∈ t.pushes → push.Tells t.node := by
  have htruthful : s.Truthful :=
    Reach.invariant (truthful_boot e) (fun _ _ _ hs hG hstep => hs.step hG hstep) h
  intro member push hpush
  simp only [SyncThreads.step] at hdrain
  split at hdrain
  · cases hdrain
    rw [StatePush.tells_iff]
    simp only [pushes] at hpush
    split_ifs at hpush with hempty
    · cases hpush
    · obtain ⟨_, -, heq⟩ := List.mem_map.1 hpush
      cases heq
      exact htruthful.describes hG
  · cases hdrain

open SyncNode in
/-- A follower receives a dataset and its deletion, becomes the leader, and pushes the deletion,
which is still true; a bucket that has been written and not been marked yet is not in the push. -/
theorem pushTells_deletedDataset : ∃ s t push,
    Reach (SyncThreads.step eagerConfig) TruthGuard (boot "a") s ∧
      s.step eagerConfig .drain = some t ∧ ("0", push) ∈ t.pushes ∧
      push.dataChanges.lookup (.of datasetKey) = some .tombstone ∧
      t.node.buckets.lookup "z" ≠ none ∧ push.Tells t.node := by
  obtain ⟨s, hs, htest⟩ := exists_reach_of_guarded_run (SyncThreads.step eagerConfig) TruthGuard
    (boot "a")
    (fun s => decide (s.TruthGuard .drain) && decide (s.node.buckets.lookup "z" ≠ none) &&
      (s.step eagerConfig .drain).any fun t => t.pushes.any fun e =>
        e.1 = "0" && e.2.dataChanges.lookup (.of datasetKey) = some .tombstone)
    [.tick ["b"] 0, .snapshot (datasetPush (.record datasetRecord)), .mergePush, .receive .push 1,
      .receive .push 1, .snapshot (datasetPush .tombstone), .mergePush, .receive .push 2,
      .receive .push 2, .receive .push 2, .receive .push 2, .receive .push 2, .tick ["0"] 3,
      .begin (.registerBucket "z" 1) 3,
      .advance (.putting ⟨.bucket "z" ⟨"z", 1, 3⟩, .bucketRegistered "z", rfl, rfl⟩) 3]
    (by decide +kernel)
  simp only [Bool.and_eq_true, decide_eq_true_eq, Option.any_eq_true, List.any_eq_true] at htest
  obtain ⟨⟨hG, hbucket⟩, t, hdrain, ⟨member, push⟩, hmem, rfl, htombstone⟩ := htest
  have hsame : t.node.buckets = s.node.buckets := by
    simp only [SyncThreads.step] at hdrain
    split at hdrain
    · cases hdrain
      rfl
    · cases hdrain
  exact ⟨s, t, push, hs, hdrain, hmem, htombstone, hsame ▸ hbucket,
    pushTells_of_reach hs hG hdrain _ _ hmem⟩

open SyncNode in
/-- When the dataset is registered once more before that, the new leader still pushes its deletion,
although it stores the dataset. -/
theorem pushedTombstone : ∃ s t push,
    Reach (SyncThreads.step eagerConfig) Always (boot "a") s ∧
      s.step eagerConfig .drain = some t ∧ ("0", push) ∈ t.pushes ∧ ¬ push.Tells t.node := by
  obtain ⟨s, hs, htest⟩ := exists_reach_of_run (SyncThreads.step eagerConfig) (boot "a")
    (fun s => (s.step eagerConfig .drain).any fun t : SyncThreads =>
      decide (t.node.catalog.lookup datasetKey = some datasetRecord) && t.pushes.any fun e =>
        e.1 = "0" && e.2.dataChanges.lookup (.of datasetKey) = some .tombstone)
    [.tick ["b"] 0, .snapshot (datasetPush (.record datasetRecord)), .mergePush, .receive .push 1,
      .receive .push 1, .snapshot (datasetPush .tombstone), .mergePush, .receive .push 2,
      .receive .push 2, .receive .push 2, .receive .push 2, .receive .push 2,
      .snapshot (datasetPush (.record datasetRecord)), .mergePush, .receive .push 3,
      .receive .push 3, .tick ["0"] 4]
    (by decide +kernel)
  simp only [Bool.and_eq_true, decide_eq_true_eq, Option.any_eq_true, List.any_eq_true] at htest
  obtain ⟨t, hdrain, hcatalog, ⟨member, push⟩, hmem, rfl, htombstone⟩ := htest
  refine ⟨s, t, push, hs, hdrain, hmem, fun htells => ?_⟩
  have htold := htells.data datasetKey _ htombstone
  rw [hcatalog] at htold
  cases htold

end SyncThreads

end Axo
