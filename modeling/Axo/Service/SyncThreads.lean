import Axo.Lib.Transition
import Axo.Service.RegistryCalls

/-!
# The threads of an endpoint

The stores, the tracker and the cluster state of an endpoint are shared by its threads.  Each works
in steps, with steps of the others in between:

* the threads that call a registry: the pieces of `RegistryCall`;
* the receive loop, with a push: the snapshot with the check of the term, `apply_remote`, and the
  rounds of the three calls of `apply_incoming`;
* the discovery thread, with a pulled state: `apply_remote`, and the same rounds;
* the heartbeat thread: the check whether a flush is due, `drain`, and `apply_local`.

A round that deletes a dataset is a call of `DataRegistry.delete` with its pieces.  `run_perform`,
`run_push`, `run_pull` and `run_tick` say that the steps of one thread alone are
`SyncNode.perform`, `SyncNode.handlePush`, `SyncNode.pullFrom` and `SyncNode.tick`.
-/

namespace Axo

open Transition

/-! ### Received entries -/

/-- What a blob holds. -/
def Blob.record? {α : Type*} : Blob α → Option α
  | .record doc => some doc
  | .tombstone => none

/-- The entries of three dicts, in the order in which `apply_incoming` goes through them. -/
def receivedEntries (functions : Dict CombinedKey (Blob FunctionDoc))
    (data : Dict CombinedKey (Blob DataRecord)) (buckets : Dict String DataBucket) :
    List StoreEntry :=
  functions.entries.map (fun e => .function e.1.key (e.2.record?.map deserializeFunctionRecord)) ++
    data.entries.map (fun e => .data e.1.key e.2.record?) ++
    buckets.entries.map fun e => .bucket e.1 e.2

/-- The dataset that an entry deletes. -/
def StoreEntry.deletedData : StoreEntry → Option RecordKey
  | .data key none => some key
  | _ => none

/-- One round of `apply_incoming`. -/
def SyncNode.receive (now : ℚ) (n : SyncNode) (entry : StoreEntry) : SyncNode :=
  match entry.deletedData with
  | some key =>
    if n.catalog.lookup key = none then n
    else (n.put entry).mark now entry
  | none => n.put entry

/-- The catalog and the tracker that a loop over received datasets has left. -/
def SyncNode.withData (n : SyncNode) (s : DataCatalog × DirtyTracker) : SyncNode :=
  { n with catalog := s.1, dirtyTracker := s.2 }

/-- The rounds are the three calls of `apply_incoming`. -/
theorem foldl_receive (n : SyncNode) (functions : Dict CombinedKey (Blob FunctionDoc))
    (data : Dict CombinedKey (Blob DataRecord)) (buckets : Dict String DataBucket) (now : ℚ) :
    (receivedEntries functions data buckets).foldl (SyncNode.receive now) n =
      n.applyIncoming functions data buckets now := by
  have hfunctions (n : SyncNode) (entries : List (Σ _ : CombinedKey, Blob FunctionDoc)) :
      entries.foldl (fun n e => SyncNode.receive now n
          (.function e.1.key (e.2.record?.map deserializeFunctionRecord))) n =
        { n with
          functions := entries.foldl (fun backend e =>
            RegistrySyncBridge.applyEntry backend e.1 e.2) n.functions } := by
    refine List.foldl_hom (fun backend => { n with functions := backend }) fun backend e => ?_
    obtain ⟨key, _ | doc⟩ := e <;> rfl
  have hdata (n : SyncNode) (entries : List (Σ _ : CombinedKey, Blob DataRecord)) :
      entries.foldl (fun n e => SyncNode.receive now n (.data e.1.key e.2.record?)) n =
        n.withData (entries.foldl (fun s e => DataRegistrySyncBridge.applyEntry now s e.1 e.2)
          (n.catalog, n.dirtyTracker)) := by
    show entries.foldl _ (n.withData (n.catalog, n.dirtyTracker)) = _
    refine List.foldl_hom n.withData fun s e => ?_
    obtain ⟨key, record | _⟩ := e
    · rfl
    · rcases Option.eq_none_or_eq_some (s.1.lookup key.key) with hnone | ⟨record, hsome⟩
      · rw [SyncNode.applyEntry_tombstone_of_none hnone]
        exact if_pos hnone
      · rw [SyncNode.applyEntry_tombstone_of_some hsome]
        refine (if_neg fun hnone => ?_).trans ?_
        · rw [show s.1.lookup key.key = none from hnone] at hsome
          cases hsome
        · show n.withData (s.1.erase key.key, s.2.markDataDirty (.of key.key) .tombstone now) = _
          rw [CombinedKey.of_key]
  have hbuckets (n : SyncNode) (entries : List (Σ _ : String, DataBucket)) :
      entries.foldl (fun n e => SyncNode.receive now n (.bucket e.1 e.2)) n =
        { n with
          buckets := entries.foldl (fun catalog e => catalog.insert e.1 e.2) n.buckets } :=
    List.foldl_hom (fun catalog => { n with buckets := catalog }) fun _ _ => rfl
  unfold receivedEntries
  rw [List.foldl_append, List.foldl_append, List.foldl_map, List.foldl_map, List.foldl_map,
    hfunctions, hdata, hbuckets]
  rfl

/-! ### The threads -/

/-- The threads that apply what they have received. -/
inductive Receiver
  /-- the receive loop, with a push -/
  | push
  /-- the discovery thread, with a pulled state -/
  | pull
  deriving DecidableEq

/-- A thread in its calls of `apply_incoming`. -/
structure Applying where
  /-- what is yet to be applied -/
  entries : List StoreEntry
  /-- the call of `DataRegistry.delete` that it is in -/
  call : Option RegistryCall
  deriving DecidableEq

/-- The next piece; none when nothing is left. -/
def Applying.advance (cfg : SyncConfig) (a : Applying) (n : SyncNode) (now : ℚ) :
    Option (SyncNode × Applying) :=
  match a.call with
  | some call => some ((call.advance n now).1, { a with call := (call.advance n now).2 })
  | none =>
    match a.entries with
    | [] => none
    | entry :: entries =>
      match entry.deletedData with
      | some key =>
        some ((n.begin cfg (.deleteData key) now).1,
          ⟨entries, (n.begin cfg (.deleteData key) now).2⟩)
      | none => some (n.put entry, ⟨entries, none⟩)

/-- The entries of a push, to be applied. -/
def StatePush.applying (push : StatePush) : Applying where
  entries := receivedEntries push.functionChanges push.dataChanges push.bucketChanges
  call := none

/-- The entries of a cluster state, to be applied. -/
def ClusterState.applying (state : ClusterState) : Applying where
  entries := receivedEntries state.functions state.data state.buckets
  call := none

/-- The heartbeat thread in a tick that flushes. -/
inductive Flushing
  /-- the flush is due -/
  | due (members : List EndpointId)
  /-- the tracker is drained, and the mutation not folded in yet -/
  | drained (members : List EndpointId) (mutation : StateMutation)

/-- An endpoint and its threads. -/
structure SyncThreads where
  node : SyncNode
  /-- the registry calls in progress -/
  calls : List RegistryCall
  /-- the push that passed the check of the term, with the snapshot -/
  merging : Option (StatePush × ClusterState)
  applying : Receiver → Option Applying
  flushing : Option Flushing

/-- The steps of the threads. -/
inductive ThreadAction
  /-- a registry is called -/
  | begin (op : RegistryOp) (now : ℚ)
  /-- the next piece of a call -/
  | advance (call : RegistryCall) (now : ℚ)
  /-- a push arrives, and the snapshot is taken -/
  | snapshot (push : StatePush)
  /-- `apply_remote` of the push; its result is not looked at -/
  | mergePush
  /-- `apply_remote` of a pulled state -/
  | pullRemote (incoming : ClusterState)
  /-- the next piece of `apply_incoming` -/
  | receive (r : Receiver) (now : ℚ)
  /-- a tick, up to the check whether a flush is due -/
  | tick (members : List EndpointId) (now : ℚ)
  | drain
  /-- `apply_local` of what was drained -/
  | applyLocal

namespace SyncThreads

/-- An endpoint that has just booted. -/
def boot (e : EndpointId) : SyncThreads where
  node := .boot e
  calls := []
  merging := none
  applying := fun _ => none
  flushing := none

/-- No handler is in progress. -/
def Quiet (s : SyncThreads) : Prop :=
  s.calls = [] ∧ s.merging = none ∧ s.applying .push = none ∧ s.applying .pull = none ∧
    s.flushing.isNone

instance (s : SyncThreads) : Decidable s.Quiet :=
  decidable_of_iff (s.calls = [] ∧ s.merging.isNone ∧ s.applying .push = none ∧
    s.applying .pull = none ∧ s.flushing.isNone) (by simp only [Option.isNone_iff_eq_none, Quiet])

/-- The registry calls in progress, those of the receivers included. -/
def inProgress (s : SyncThreads) : List RegistryCall :=
  s.calls ++ [Receiver.push, .pull].flatMap fun r => ((s.applying r).bind Applying.call).toList

/-- What the receivers have yet to apply. -/
def left (s : SyncThreads) : List StoreEntry :=
  [Receiver.push, .pull].flatMap fun r => (s.applying r).elim [] Applying.entries

/-- A receiver is somewhere else. -/
def set (s : SyncThreads) (r : Receiver) (a : Option Applying) : SyncThreads :=
  { s with applying := Function.update s.applying r a }

/-- One step of a thread. -/
def step (cfg : SyncConfig) (s : SyncThreads) : ThreadAction → Option SyncThreads
  | .begin op now =>
    some { s with
      node := (s.node.begin cfg op now).1
      calls := (s.node.begin cfg op now).2.toList ++ s.calls }
  | .advance call now =>
    if call ∈ s.calls then
      some { s with
        node := (call.advance s.node now).1
        calls := (call.advance s.node now).2.toList ++ s.calls.erase call }
    else none
  | .snapshot push =>
    if s.merging.isSome ∨ (s.applying .push).isSome then none
    else if push.term < s.node.state.term then some s
    else some { s with merging := some (push, s.node.state) }
  | .mergePush =>
    match s.merging, s.applying .push with
    | some (push, localState), none =>
      some (({ s with
        node := { s.node with state := (s.node.state.applyRemote (push.incoming localState)).1 }
        merging := none } : SyncThreads).set .push (some push.applying))
    | _, _ => none
  | .pullRemote incoming =>
    if (s.applying .pull).isSome then none
    else
      match s.node.state.applyRemote incoming with
      | (_, false) => some s
      | (state, true) =>
        some (({ s with node := { s.node with state := state } } : SyncThreads).set .pull
          (some incoming.applying))
  | .receive r now =>
    (s.applying r).map fun a =>
      match a.advance cfg s.node now with
      | none => s.set r none
      | some (node, a') => ({ s with node := node } : SyncThreads).set r (some a')
  | .tick members now =>
    if s.flushing.isSome then none
    else if (s.node.recompute members).isLeader ∧
        s.node.dirtyTracker.shouldFlush cfg.maxDirtyCount now cfg.idleSeconds then
      some { s with node := s.node.recompute members, flushing := some (.due members) }
    else some { s with node := s.node.recompute members }
  | .drain =>
    match s.flushing with
    | some (.due members) =>
      some { s with
        node := { s.node with dirtyTracker := s.node.dirtyTracker.drain.2 }
        flushing := some (.drained members s.node.dirtyTracker.drain.1) }
    | _ => none
  | .applyLocal =>
    match s.flushing with
    | some (.drained _ mutation) =>
      some { s with
        node := { s.node with state := s.node.state.applyLocal mutation }
        flushing := none }
    | _ => none

/-- What is pushed of the mutation that was drained. -/
def pushes (s : SyncThreads) : List (EndpointId × StatePush) :=
  match s.flushing with
  | some (.drained members mutation) =>
    if mutation.isEmpty then []
    else members.map fun member => (member, StatePush.ofMutation s.node.elector.view
      (memberIdsOf s.node.elector.selfId members).toFinset mutation)
  | _ => []

variable {cfg : SyncConfig} {s t : SyncThreads} {now : ℚ}
  {r : Receiver} {a a' : Applying}

@[simp] theorem applying_set (s : SyncThreads) (r : Receiver) (a : Option Applying) :
    (s.set r a).applying r = a := Function.update_self ..

/-- Where a receiver was before does not matter. -/
theorem set_set (s : SyncThreads) (r : Receiver) (a a' : Option Applying) (n : SyncNode) :
    ({ s.set r a with node := n } : SyncThreads).set r a' =
      ({ s with node := n } : SyncThreads).set r a' := by
  unfold set
  rw [Function.update_idem]

theorem set_self {a : Option Applying} (h : s.applying r = a) : s.set r a = s := by
  unfold set
  rw [← h, Function.update_eq_self]

/-! ### One thread alone -/

/-- A call that is in progress goes on to its end. -/
theorem run_advance (cfg : SyncConfig) (s : SyncThreads) (now : ℚ) (n : SyncNode)
    (call : RegistryCall) :
    ∃ actions, run (step cfg) { s with node := n, calls := call :: s.calls } actions =
      some { s with node := call.finish n now } := by
  have hstep (n : SyncNode) (call : RegistryCall) :
      step cfg { s with node := n, calls := call :: s.calls } (.advance call now) =
        some { s with
          node := (call.advance n now).1
          calls := (call.advance n now).2.toList ++ s.calls } := by
    simp [step]
  have hmark (n : SyncNode) (entry : StoreEntry) :
      run (step cfg) { s with node := n, calls := .marking entry :: s.calls }
        [.advance (.marking entry) now] = some { s with node := n.mark now entry } := by
    rw [run_cons, hstep]
    rfl
  have hraised (n : SyncNode) (event : RegistryEvent) : ∃ actions,
      run (step cfg) { s with node := n, calls := .raised event :: s.calls } actions =
        some { s with node := n.notify now event } := by
    rw [SyncNode.notify_eq]
    cases hread : n.read event with
    | none =>
      refine ⟨[.advance (.raised event) now], ?_⟩
      rw [run_cons, hstep, RegistryCall.advance, hread]
      rfl
    | some entry =>
      refine ⟨[.advance (.raised event) now, .advance (.marking entry) now], ?_⟩
      rw [run_cons, hstep, Option.bind_some, RegistryCall.advance, hread]
      exact hmark n entry
  cases call with
  | marking entry => exact ⟨_, hmark n entry⟩
  | raised event => exact hraised n event
  | putting p =>
    obtain ⟨actions, hactions⟩ := hraised (n.put p.entry) p.event
    refine ⟨.advance (.putting p) now :: actions, ?_⟩
    rw [run_cons, hstep, Option.bind_some]
    exact hactions

/-- A registry call while the other threads stand still. -/
theorem run_perform (op : RegistryOp) :
    ∃ actions, run (step cfg) s (.begin op now :: actions) =
      some { s with node := s.node.perform cfg op now } := by
  rw [SyncNode.perform_eq_finish]
  cases hcall : (s.node.begin cfg op now).2 with
  | none =>
    refine ⟨[], ?_⟩
    rw [run_cons]
    simp only [step, hcall]
    rfl
  | some call =>
    obtain ⟨actions, hactions⟩ := run_advance cfg s now (s.node.begin cfg op now).1 call
    refine ⟨actions, ?_⟩
    rw [run_cons]
    simp only [step, hcall, Option.bind_some]
    exact hactions

theorem step_receive {n : SyncNode} (h : s.applying r = some a)
    (ha : a.advance cfg s.node now = some (n, a')) :
    s.step cfg (.receive r now) = some (({ s with node := n } : SyncThreads).set r (some a')) := by
  simp only [step, h, Option.map_some, ha]

theorem step_receive_last (h : s.applying r = some a) (ha : a.advance cfg s.node now = none) :
    s.step cfg (.receive r now) = some (s.set r none) := by
  simp only [step, h, Option.map_some, ha]

/-- The call that deletes a received dataset has begun, unless there is none. -/
theorem begin_deleteData (cfg : SyncConfig) (n : SyncNode) (key : RecordKey) (now : ℚ) :
    n.begin cfg (.deleteData key) now =
      if n.catalog.lookup key = none then (n, none)
      else (n, some (.putting ⟨.data key none, .dataDeleted key, rfl, rfl⟩)) := by
  cases hlookup : n.catalog.lookup key with
  | none =>
    have hwrite : n.write cfg now (.deleteData key) =
        .error (DataRegistry.notRegisteredError key) := by
      simp [SyncNode.write, DataRegistry.delete, hlookup]
    unfold SyncNode.begin
    rw [hwrite, if_pos rfl]
  | some record =>
    have hwrite : n.write cfg now (.deleteData key) =
        .ok ({ n with catalog := n.catalog.erase key }, some (.dataDeleted key)) := by
      simp [SyncNode.write, DataRegistry.delete, hlookup]
    unfold SyncNode.begin
    rw [hwrite, if_neg (Option.some_ne_none record)]
    rfl

/-- One round. -/
theorem run_round (cfg : SyncConfig) (now : ℚ) {entry : StoreEntry} {entries : List StoreEntry}
    (h : s.applying r = some ⟨entry :: entries, none⟩) :
    ∃ k, run (step cfg) s (List.replicate k (.receive r now)) =
      some (({ s with node := s.node.receive now entry } : SyncThreads).set r
        (some ⟨entries, none⟩)) := by
  unfold SyncNode.receive
  cases hdeleted : entry.deletedData with
  | none =>
    refine ⟨1, ?_⟩
    have hadvance : Applying.advance cfg ⟨entry :: entries, none⟩ s.node now =
        some (s.node.put entry, ⟨entries, none⟩) := by
      simp only [Applying.advance, hdeleted]
    rw [List.replicate_one, run_cons, step_receive h hadvance]
    rfl
  | some key =>
    have hadvance : Applying.advance cfg ⟨entry :: entries, none⟩ s.node now =
        some ((s.node.begin cfg (.deleteData key) now).1,
          ⟨entries, (s.node.begin cfg (.deleteData key) now).2⟩) := by
      simp only [Applying.advance, hdeleted]
    dsimp only
    rw [begin_deleteData] at hadvance
    split_ifs at hadvance ⊢ with hlookup
    · refine ⟨1, ?_⟩
      rw [List.replicate_one, run_cons, step_receive h hadvance]
      rfl
    · refine ⟨4, ?_⟩
      have hentry : entry = .data key none := by
        rcases entry with ⟨key', record⟩ | ⟨key', _ | record⟩ | ⟨name, bucket⟩ <;> cases hdeleted
        rfl
      have hnext (n : SyncNode) (call : RegistryCall) :
          step cfg (({ s with node := n } : SyncThreads).set r (some ⟨entries, some call⟩))
              (.receive r now) =
            some (({ s with node := (call.advance n now).1 } : SyncThreads).set r
              (some ⟨entries, (call.advance n now).2⟩)) := by
        refine (step_receive (applying_set ..) rfl).trans ?_
        exact congrArg some (set_set { s with node := n } r _ _ _)
      show run _ _ [_, _, _, _] = _
      subst hentry
      rw [run_cons, step_receive h hadvance, Option.bind_some, run_cons, hnext, Option.bind_some,
        run_cons]
      simp only [RegistryCall.advance, hnext, Option.bind_some, SyncNode.read, Option.map_some,
        run_cons, run_nil]

/-- All the rounds, and the end of the handler. -/
theorem run_rounds (cfg : SyncConfig) (now : ℚ) (entries : List StoreEntry)
    (h : s.applying r = some ⟨entries, none⟩) :
    ∃ k, run (step cfg) s (List.replicate k (.receive r now)) =
      some (({ s with node := entries.foldl (SyncNode.receive now) s.node } : SyncThreads).set r
        none) := by
  induction entries generalizing s with
  | nil =>
    refine ⟨1, ?_⟩
    rw [List.replicate_one, run_cons, step_receive_last h rfl]
    rfl
  | cons entry entries ih =>
    obtain ⟨k, hk⟩ := run_round cfg now h
    obtain ⟨k', hk'⟩ := ih (s := ({ s with node := s.node.receive now entry } : SyncThreads).set r
      (some ⟨entries, none⟩)) (applying_set ..)
    refine ⟨k + k', ?_⟩
    rw [List.replicate_add, run_append, hk, Option.bind_some, hk']
    exact congrArg some (set_set _ r _ _ _)

/-- A push that is handled while the other threads stand still. -/
theorem run_push {push : StatePush} {node : SyncNode} (hidle : s.merging = none)
    (hreceiver : s.applying .push = none) (hpush : s.node.handlePush push now = .ok node) :
    ∃ k, run (step cfg) s
        (.snapshot push :: .mergePush :: List.replicate k (.receive .push now)) =
      some { s with node := node } := by
  unfold SyncNode.handlePush at hpush
  split_ifs at hpush with hterm
  cases hpush
  have hsnapshot : s.step cfg (.snapshot push) =
      some { s with merging := some (push, s.node.state) } := by
    simp [step, hidle, hreceiver, hterm]
  obtain ⟨k, hk⟩ := run_rounds cfg now (r := .push)
    (s := ({ s with
      node := { s.node with state := (s.node.state.applyRemote (push.incoming s.node.state)).1 }
      merging := none } : SyncThreads).set .push (some push.applying))
    push.applying.entries (applying_set ..)
  refine ⟨k, ?_⟩
  rw [run_cons, hsnapshot, Option.bind_some, run_cons]
  simp only [step, hreceiver, Option.bind_some]
  refine hk.trans (congrArg some ((set_set _ .push _ _ _).trans ?_))
  rw [StatePush.applying, foldl_receive, set_self (by exact hreceiver)]
  cases s
  cases hidle
  rfl

/-- A pull while the other threads stand still. -/
theorem run_pull {incoming : ClusterState} (hidle : s.applying .pull = none)
    (hversion : s.node.state.version < incoming.version) :
    ∃ k, run (step cfg) s (.pullRemote incoming :: List.replicate k (.receive .pull now)) =
      some { s with node := s.node.pullFrom incoming now } := by
  have happly : s.node.state.applyRemote incoming = (incoming, true) :=
    if_neg (not_le.2 hversion)
  have hremote : s.step cfg (.pullRemote incoming) =
      some (({ s with node := { s.node with state := incoming } } : SyncThreads).set .pull
        (some incoming.applying)) := by
    simp [step, hidle, happly]
  obtain ⟨k, hk⟩ := run_rounds cfg now (r := .pull)
    (s := ({ s with node := { s.node with state := incoming } } : SyncThreads).set .pull
      (some incoming.applying))
    incoming.applying.entries (applying_set ..)
  refine ⟨k, ?_⟩
  rw [run_cons, hremote, Option.bind_some]
  refine hk.trans (congrArg some ((set_set _ .pull _ _ _).trans ?_))
  rw [ClusterState.applying, foldl_receive, set_self (by exact hidle)]
  unfold SyncNode.pullFrom
  rw [happly]
  rfl

/-- A tick that flushes while the other threads stand still. -/
theorem run_tick {members : List EndpointId} (hidle : s.flushing = none)
    (hleads : (s.node.recompute members).isLeader = true)
    (hdue : s.node.dirtyTracker.shouldFlush cfg.maxDirtyCount now cfg.idleSeconds = true) :
    run (step cfg) s [.tick members now, .drain, .applyLocal] =
      some { s with node := (s.node.tick cfg members now).1 } := by
  have htick : s.step cfg (.tick members now) =
      some { s with node := s.node.recompute members, flushing := some (.due members) } := by
    simp [step, hidle, hleads, hdue]
  rw [run_cons, htick, Option.bind_some]
  unfold SyncNode.tick
  rw [if_pos ⟨hleads, hdue⟩]
  cases s
  cases hidle
  rfl

/-! ### What a step does -/

theorem mem_inProgress {call : RegistryCall} :
    call ∈ s.inProgress ↔
      call ∈ s.calls ∨ ∃ r a, s.applying r = some a ∧ a.call = some call := by
  simp only [inProgress, List.mem_append, List.mem_flatMap, Option.mem_toList,
    Option.bind_eq_some_iff]
  refine or_congr_right ⟨fun ⟨r, _, a, ha⟩ => ⟨r, a, ha⟩, fun ⟨r, a, ha⟩ => ⟨r, ?_, a, ha⟩⟩
  cases r <;> simp

theorem mem_left {entry : StoreEntry} :
    entry ∈ s.left ↔ ∃ r a, s.applying r = some a ∧ entry ∈ a.entries := by
  simp only [left, List.mem_flatMap]
  constructor
  · rintro ⟨r, -, hentry⟩
    cases ha : s.applying r with
    | none =>
      rw [ha] at hentry
      cases hentry
    | some a =>
      rw [ha] at hentry
      exact ⟨r, a, ha, hentry⟩
  · rintro ⟨r, a, ha, hentry⟩
    refine ⟨r, by cases r <;> simp, ?_⟩
    rw [ha]
    exact hentry

/-- A receiver that moves takes nothing from the other. -/
theorem mem_inProgress_set {call : RegistryCall} (hcall : call ∈ s.inProgress)
    (ha : s.applying r = some a) (b : Option Applying) :
    a.call = some call ∨ call ∈ (s.set r b).inProgress := by
  rcases mem_inProgress.1 hcall with hcall | ⟨r', a₁, ha₁, hcall⟩
  · exact Or.inr (mem_inProgress.2 (Or.inl hcall))
  · by_cases hr : r' = r
    · subst hr
      rw [ha] at ha₁
      cases ha₁
      exact Or.inl hcall
    · refine Or.inr (mem_inProgress.2 (Or.inr ⟨r', a₁, ?_, hcall⟩))
      rw [← ha₁]
      exact Function.update_of_ne hr ..

theorem mem_left_set {entry : StoreEntry} {b : Option Applying}
    (h : entry ∈ (s.set r b).left) : entry ∈ s.left ∨ ∃ a ∈ b, entry ∈ a.entries := by
  obtain ⟨r', a₁, ha₁, hentry⟩ := mem_left.1 h
  by_cases hr : r' = r
  · subst hr
    rw [applying_set] at ha₁
    exact Or.inr ⟨a₁, ha₁, hentry⟩
  · refine Or.inl (mem_left.2 ⟨r', a₁, ?_, hentry⟩)
    rw [← ha₁]
    exact (Function.update_of_ne hr ..).symm

/-- What is left but for a receiver is left when that one moves. -/
theorem mem_left_of_set {entry : StoreEntry} (h : entry ∈ s.left) (ha : s.applying r = some a)
    (b : Option Applying) : entry ∈ a.entries ∨ entry ∈ (s.set r b).left := by
  obtain ⟨r', a₁, ha₁, hentry⟩ := mem_left.1 h
  by_cases hr : r' = r
  · subst hr
    rw [ha] at ha₁
    cases ha₁
    exact Or.inl hentry
  · refine Or.inr (mem_left.2 ⟨r', a₁, ?_, hentry⟩)
    rw [← ha₁]
    exact Function.update_of_ne hr ..

/-- A receiver that starts takes nothing from the other. -/
theorem mem_inProgress_start (hr : s.applying r = none) (b : Option Applying)
    {call : RegistryCall} (hcall : call ∈ s.inProgress) : call ∈ (s.set r b).inProgress := by
  rcases mem_inProgress.1 hcall with hcall | ⟨r', a, ha, hcall⟩
  · exact mem_inProgress.2 (Or.inl hcall)
  · refine mem_inProgress.2 (Or.inr ⟨r', a, (Function.update_of_ne ?_ ..).trans ha, hcall⟩)
    rintro rfl
    rw [hr] at ha
    cases ha

theorem mem_left_start (hr : s.applying r = none) {entry : StoreEntry} :
    entry ∈ (s.set r (some a)).left ↔ entry ∈ a.entries ++ s.left := by
  rw [List.mem_append]
  constructor
  · intro h
    rcases mem_left_set h with h | ⟨_, heq, h⟩
    · exact Or.inr h
    · cases heq
      exact Or.inl h
  · rintro (h | h)
    · exact mem_left.2 ⟨r, a, applying_set .., h⟩
    · obtain ⟨r', a', ha', hentry⟩ := mem_left.1 h
      refine mem_left.2 ⟨r', a', (Function.update_of_ne ?_ ..).trans ha', hentry⟩
      rintro rfl
      rw [hr] at ha'
      cases ha'

/-- The record that the next piece of a receiver stores, or the function that it erases. -/
def receiving (s : SyncThreads) (r : Receiver) : Option StoreEntry :=
  match s.applying r with
  | some ⟨entry :: _, none⟩ => if entry.deletedData = none then some entry else none
  | _ => none

/-- The mark that a step makes, with the threads as they are without it. -/
def marking (s : SyncThreads) : ThreadAction → Option (StoreEntry × SyncThreads)
  | .advance (.marking entry) _ =>
    some (entry, { s with calls := s.calls.erase (.marking entry) })
  | .receive r _ =>
    match s.applying r with
    | some ⟨entries, some (.marking entry)⟩ => some (entry, s.set r (some ⟨entries, none⟩))
    | _ => none
  | _ => none

/-- The step is the next piece of a registry call. -/
structure Advances (s t : SyncThreads) (action : ThreadAction) (call : RegistryCall) (now : ℚ) :
    Prop where
  node : t.node = (call.advance s.node now).1
  rest : ∀ c ∈ s.inProgress, c = call ∨ c ∈ t.inProgress
  next : ∀ c ∈ (call.advance s.node now).2, c ∈ t.inProgress
  left : ∀ entry, entry ∈ t.left ↔ entry ∈ s.left
  merging : t.merging = s.merging
  flushing : t.flushing = s.flushing
  marking : ∀ entry, call = .marking entry → ∃ u, s.marking action = some (entry, u) ∧
    u.node = s.node ∧ u.inProgress = t.inProgress ∧ u.left = t.left

theorem advances_of_advance {call : RegistryCall}
    (h : s.step cfg (.advance call now) = some t) : s.Advances t (.advance call now) call now := by
  simp only [step, Option.ite_none_right_eq_some, Option.some.injEq] at h
  obtain ⟨hcall, rfl⟩ := h
  refine ⟨rfl, fun c hc => ?_, fun c hc => mem_inProgress.2 (Or.inl ?_), fun _ => Iff.rfl, rfl, rfl,
    fun entry heq => ?_⟩
  · rcases mem_inProgress.1 hc with hc | hc
    · by_cases heq : c = call
      · exact Or.inl heq
      · exact Or.inr (mem_inProgress.2 (Or.inl
          (List.mem_append_right _ ((List.mem_erase_of_ne heq).2 hc))))
    · exact Or.inr (mem_inProgress.2 (Or.inr hc))
  · exact List.mem_append_left _ (Option.mem_toList.2 hc)
  · subst heq
    exact ⟨_, rfl, rfl, rfl, rfl⟩

/-- What the next piece of a receiver is. -/
inductive Receives (cfg : SyncConfig) (s : SyncThreads) (r : Receiver) (now : ℚ) :
    SyncThreads → Prop
  /-- the handler returns -/
  | done (h : s.applying r = some ⟨[], none⟩) : Receives cfg s r now (s.set r none)
  /-- a record is stored, or a function erased -/
  | put {entry : StoreEntry} {entries : List StoreEntry}
      (h : s.applying r = some ⟨entry :: entries, none⟩) (hkept : entry.deletedData = none) :
      Receives cfg s r now
        (({ s with node := s.node.put entry } : SyncThreads).set r (some ⟨entries, none⟩))
  /-- the dataset to delete is not there -/
  | skip {key : RecordKey} {entries : List StoreEntry}
      (h : s.applying r = some ⟨.data key none :: entries, none⟩)
      (hnone : s.node.stored (.data key) = none) :
      Receives cfg s r now (s.set r (some ⟨entries, none⟩))
  | delete {key : RecordKey} {entries : List StoreEntry}
      (h : s.applying r = some ⟨.data key none :: entries, none⟩)
      (hsome : s.node.stored (.data key) ≠ none) :
      Receives cfg s r now (s.set r
        (some ⟨entries, some (.putting ⟨.data key none, .dataDeleted key, rfl, rfl⟩)⟩))
  /-- the next piece of the deletion -/
  | call {entries : List StoreEntry} {call : RegistryCall}
      (h : s.applying r = some ⟨entries, some call⟩) :
      Receives cfg s r now
        (({ s with node := (call.advance s.node now).1 } : SyncThreads).set r
          (some ⟨entries, (call.advance s.node now).2⟩))

theorem receives_of_step (h : s.step cfg (.receive r now) = some t) :
    Receives cfg s r now t := by
  obtain ⟨⟨entries, call⟩, ha, rfl⟩ := Option.map_eq_some_iff.1 h
  cases call with
  | some call => exact .call ha
  | none =>
    cases entries with
    | nil => exact .done ha
    | cons entry entries =>
      cases hdeleted : entry.deletedData with
      | none =>
        simp only [Applying.advance, hdeleted]
        exact .put ha hdeleted
      | some key =>
        have hentry : entry = .data key none := by
          rcases entry with ⟨key', record⟩ | ⟨key', _ | record⟩ | ⟨name, bucket⟩ <;> cases hdeleted
          rfl
        subst hentry
        simp only [Applying.advance, hdeleted, begin_deleteData]
        split_ifs with hlookup
        · exact .skip ha (congrArg (Option.map SyncRecord.data) hlookup)
        · exact .delete ha fun hnone => hlookup (Option.map_eq_none_iff.1 hnone)

theorem advances_of_receive {entries : List StoreEntry} {call : RegistryCall}
    (h : s.applying r = some ⟨entries, some call⟩) :
    s.Advances (({ s with node := (call.advance s.node now).1 } : SyncThreads).set r
      (some ⟨entries, (call.advance s.node now).2⟩)) (.receive r now) call now := by
  have hnode (n : SyncNode) (b : Option Applying) :
      (({ s with node := n } : SyncThreads).set r b).inProgress = (s.set r b).inProgress := rfl
  refine ⟨rfl, fun c hc => ?_, fun c hc => ?_, fun entry => ⟨fun hentry => ?_, fun hentry => ?_⟩,
    rfl, rfl, fun entry heq => ?_⟩
  · rw [hnode]
    refine (mem_inProgress_set hc h _).imp_left fun hcall => ?_
    cases hcall
    rfl
  · exact mem_inProgress.2 (Or.inr ⟨r, _, applying_set .., hc⟩)
  · rcases mem_left_set hentry with hentry | ⟨a, ha, hentry⟩
    · exact hentry
    · cases ha
      exact mem_left.2 ⟨r, _, h, hentry⟩
  · rcases mem_left_of_set hentry h
      (some ⟨entries, (call.advance s.node now).2⟩) with hentry | hentry
    · exact mem_left.2 ⟨r, _, applying_set .., hentry⟩
    · exact hentry
  · subst heq
    exact ⟨s.set r (some ⟨entries, none⟩), by simp only [SyncThreads.marking, h], rfl, rfl, rfl⟩

end SyncThreads

end Axo
