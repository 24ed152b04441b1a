import Axo.Service.FlushTruth

/-!
# Cluster state and stores

Whether the cluster state of an endpoint, with what its tracker has yet to send laid over it, is
what the endpoint stores, while its threads interleave.

* `StepInv` is what holds between the steps: where a receiver has yet to apply an entry, the cluster
  state and the tracker already tell what it says, and elsewhere they tell what is stored, unless a
  registry call in progress will mark that;
* `StepGuard` says of each step what it takes to keep it so;
* `inStep_of_reach` is the result for whole runs.
-/

namespace Axo

open Transition Diff

/-- The live entries of the cluster state, with the pending entries of the tracker laid over them,
are the records that are stored. -/
def SyncNode.InStep (n : SyncNode) : Prop :=
  n.stored = Diff.apply n.dirtyTracker.pending (Diff.apply n.state.held fun _ => none)

/-! ### Received entries -/

theorem StoreEntry.deletedData_eq_some {entry : StoreEntry} {key : RecordKey}
    (h : entry.deletedData = some key) : entry = .data key none := by
  rcases entry with ⟨key', record⟩ | ⟨key', _ | record⟩ | ⟨name, bucket⟩ <;> cases h
  rfl

/-- A record of a dataset deletes none. -/
theorem StoreEntry.word_ne_none {entry : StoreEntry} {key : RecordKey} (h : entry.key = .data key)
    (hkept : entry.deletedData = none) : entry.word ≠ none := by
  rcases entry with ⟨key', record⟩ | ⟨key', _ | record⟩ | ⟨name, bucket⟩
  · cases h
  · cases hkept
  · exact Option.some_ne_none _
  · cases h

/-- Every key that a diff names has an entry. -/
theorem exists_receivedEntries {functions : Dict CombinedKey (Blob FunctionDoc)}
    {data : Dict CombinedKey (Blob DataRecord)} {buckets : Dict String DataBucket} {k : SyncKey}
    (h : diffOf functions data buckets k ≠ none) :
    ∃ entry ∈ receivedEntries functions data buckets, entry.key = k := by
  obtain ⟨word, hword⟩ := Option.ne_none_iff_exists'.1 h
  unfold receivedEntries
  simp only [List.mem_append, List.mem_map]
  rcases k with key | key | name
  · obtain ⟨blob, hblob, -⟩ := Option.map_eq_some_iff.1 hword
    exact ⟨_, Or.inl (Or.inl ⟨_, AList.mem_lookup_iff.1 hblob, rfl⟩), by
      rw [StoreEntry.key, CombinedKey.key_of]⟩
  · obtain ⟨blob, hblob, -⟩ := Option.map_eq_some_iff.1 hword
    exact ⟨_, Or.inl (Or.inr ⟨_, AList.mem_lookup_iff.1 hblob, rfl⟩), by
      rw [StoreEntry.key, CombinedKey.key_of]⟩
  · obtain ⟨bucket, hbucket, -⟩ := Option.map_eq_some_iff.1 hword
    exact ⟨_, Or.inr ⟨_, AList.mem_lookup_iff.1 hbucket, rfl⟩, rfl⟩

namespace SyncThreads

/-! ### The guard -/

/-- What the heartbeat thread has drained and not folded in yet. -/
def drained (s : SyncThreads) : SyncDiff :=
  match s.flushing with
  | some (.drained _ mutation) => mutation.changes
  | _ => Diff.empty

/-- What a cluster state would tell together with the tracker. -/
def toldWith (s : SyncThreads) (held : SyncDiff) : SyncStore :=
  Diff.apply s.node.dirtyTracker.pending (Diff.apply s.drained (Diff.apply held fun _ => none))

/-- What the cluster state and the tracker tell. -/
def told (s : SyncThreads) : SyncStore := s.toldWith s.node.state.held

/-- What is stored under the key, or written by a call in progress, will be marked. -/
def Covers (s : SyncThreads) (k : SyncKey) : Prop := Settled true s.inProgress s.node.stored k

/-- What is told is what the entry says; a deletion of a dataset that is stored marks it, and is
told from then on. -/
def Expects (s : SyncThreads) (told : SyncStore) (entry : StoreEntry) : Prop :=
  told entry.key = entry.word ∨
    entry.deletedData.isSome ∧ (s.node.stored entry.key ≠ none ∨ s.Covers entry.key)

/-- What is marked is what the receivers have yet to apply under the key, if they have; and it is
what is stored, or another call will mark that. -/
def MarkGuard (s : SyncThreads) (entry : StoreEntry) : Prop :=
  (∀ e ∈ s.left, e.key = entry.key → s.Expects (fun _ => entry.word) e) ∧
    ((∀ e ∈ s.left, e.key ≠ entry.key) →
      s.node.stored entry.key = entry.word ∨ s.Covers entry.key)

/-- A push is merged while the cluster state is that of the snapshot, and contradicts neither the
tracker nor a running pull; or it says nothing new. -/
def MergeGuard (s : SyncThreads) (push : StatePush) (localState : ClusterState) : Prop :=
  if localState.version = s.node.state.version then
    ∀ e ∈ push.applying.entries ++ s.left,
      s.Expects (s.toldWith (Diff.andThen s.node.state.held push.changes)) e
  else ∀ e ∈ push.applying.entries, s.Expects s.told e

/-- A pulled state contradicts neither the tracker nor a running push, and names every key that is
stored and not pending. -/
def PullGuard (s : SyncThreads) (incoming : ClusterState) : Prop :=
  (∀ e ∈ incoming.applying.entries ++ s.left, s.Expects (s.toldWith incoming.held) e) ∧
    ∀ k ∈ s.node.keys, (∀ e ∈ incoming.applying.entries ++ s.left, e.key ≠ k) →
      Diff.andThen s.drained s.node.dirtyTracker.pending k ≠ none ∨ s.Covers k

/-- What a step has to find. -/
def StepGuard (s : SyncThreads) : ThreadAction → Prop
  | .advance call now => ∀ m ∈ s.marking (.advance call now), m.2.MarkGuard m.1
  | .receive r now => ∀ m ∈ s.marking (.receive r now), m.2.MarkGuard m.1
  | .mergePush => ∀ m ∈ s.merging, s.MergeGuard m.1 m.2
  | .pullRemote incoming => incoming.version ≤ s.node.state.version ∨ s.PullGuard incoming
  | _ => True

instance (s : SyncThreads) (k : SyncKey) : Decidable (s.Covers k) :=
  inferInstanceAs (Decidable (Settled _ _ _ _))

instance (s : SyncThreads) (told : SyncStore) (entry : StoreEntry) :
    Decidable (s.Expects told entry) := inferInstanceAs (Decidable (_ ∨ _ ∧ _))

instance (s : SyncThreads) (entry : StoreEntry) : Decidable (s.MarkGuard entry) :=
  inferInstanceAs (Decidable (_ ∧ _))

instance (s : SyncThreads) (push : StatePush) (localState : ClusterState) :
    Decidable (s.MergeGuard push localState) :=
  inferInstanceAs (Decidable (if localState.version = s.node.state.version then
      ∀ e ∈ push.applying.entries ++ s.left,
        s.Expects (s.toldWith (Diff.andThen s.node.state.held push.changes)) e
    else ∀ e ∈ push.applying.entries, s.Expects s.told e))

instance (s : SyncThreads) (incoming : ClusterState) : Decidable (s.PullGuard incoming) :=
  inferInstanceAs (Decidable ((∀ e ∈ incoming.applying.entries ++ s.left,
      s.Expects (s.toldWith incoming.held) e) ∧
    ∀ k ∈ s.node.keys, (∀ e ∈ incoming.applying.entries ++ s.left, e.key ≠ k) →
      Diff.andThen s.drained s.node.dirtyTracker.pending k ≠ none ∨ s.Covers k))

instance (s : SyncThreads) : (a : ThreadAction) → Decidable (s.StepGuard a)
  | .advance call now =>
    inferInstanceAs (Decidable (∀ m ∈ s.marking (.advance call now), m.2.MarkGuard m.1))
  | .receive r now =>
    inferInstanceAs (Decidable (∀ m ∈ s.marking (.receive r now), m.2.MarkGuard m.1))
  | .mergePush => inferInstanceAs (Decidable (∀ m ∈ s.merging, s.MergeGuard m.1 m.2))
  | .pullRemote incoming =>
    inferInstanceAs (Decidable (incoming.version ≤ s.node.state.version ∨ s.PullGuard incoming))
  | .begin .. | .snapshot _ | .tick .. | .drain | .applyLocal => inferInstanceAs (Decidable True)

/-! ### The invariant -/

/-- Since the snapshot of the push the cluster state has not changed, or its version has. -/
def SnapshotTracked (s : SyncThreads) : Prop :=
  ∀ push localState, s.merging = some (push, localState) →
    localState.version ≤ s.node.state.version ∧
      (localState.version = s.node.state.version → localState.held = s.node.state.held)

/-- Between two steps. -/
structure StepInv (s : SyncThreads) : Prop where
  onLeft : ∀ e ∈ s.left, s.Expects s.told e
  elsewhere : ∀ k, (∀ e ∈ s.left, e.key ≠ k) → s.node.stored k = s.told k ∨ s.Covers k
  snapshot : s.SnapshotTracked

variable {cfg : SyncConfig} {s t : SyncThreads} {a : ThreadAction} {now : ℚ}

theorem stepInv_boot (e : EndpointId) : (boot e).StepInv where
  onLeft := fun _ h => by cases h
  elsewhere := fun k _ => by
    refine Or.inl ?_
    show storeOf ∅ ∅ ∅ k =
      Diff.apply (diffOf ∅ ∅ ∅) (Diff.apply Diff.empty (Diff.apply (diffOf ∅ ∅ ∅) _)) k
    rw [diffOf_empty, storeOf_empty]
    rfl
  snapshot := fun _ _ h => by cases h

/-- What is told of a key is decided by what is pending, drained and held of it. -/
theorem told_congr {k : SyncKey}
    (hpending : t.node.dirtyTracker.pending k = s.node.dirtyTracker.pending k)
    (hstate : t.node.state = s.node.state) (hflushing : t.flushing = s.flushing) :
    t.told k = s.told k := by
  unfold told toldWith drained
  simp only [Diff.apply, hpending, hstate, hflushing]

theorem Expects.congr {told told' : SyncStore} {e : StoreEntry} (h : s.Expects told e)
    (htold : told' e.key = told e.key) (hstored : t.node.stored e.key = s.node.stored e.key)
    (hcovers : s.Covers e.key → t.Covers e.key) : t.Expects told' e := by
  unfold Expects
  rw [htold, hstored]
  exact h.imp_right (And.imp_right (Or.imp_right hcovers))

namespace StepInv

/-- A step that leaves what is stored, told and left alone, and ends no call. -/
theorem frame (h : s.StepInv) (hstored : t.node.stored = s.node.stored) (htold : t.told = s.told)
    (hleft : ∀ e, e ∈ t.left ↔ e ∈ s.left) (hcalls : ∀ c ∈ s.inProgress, c ∈ t.inProgress)
    (hsnapshot : t.SnapshotTracked) : t.StepInv := by
  have hcovers (k : SyncKey) (hk : s.Covers k) : t.Covers k :=
    Settled.congr hk hcalls (congrFun hstored k)
  refine ⟨fun e he => ?_, fun k hk => ?_, hsnapshot⟩
  · exact (h.onLeft e ((hleft e).1 he)).congr (congrFun htold _) (congrFun hstored _) (hcovers _)
  · rw [hstored, htold]
    exact (h.elsewhere k fun e he => hk e ((hleft e).2 he)).imp_right (hcovers k)

/-- The next piece of a registry call. -/
theorem advance (h : s.StepInv) {call : RegistryCall} (hadvances : s.Advances t a call now)
    (hG : ∀ m ∈ s.marking a, m.2.MarkGuard m.1) : t.StepInv := by
  have hrest := sameRest_advance s.node now call
  have hstate : t.node.state = s.node.state := by rw [hadvances.node, hrest.state]
  -- what becomes of a key that is not marked
  have hkey (k : SyncKey) (hmark : ∀ entry, call = .marking entry → entry.key ≠ k) :
      t.told k = s.told k ∧ (t.node.stored k = s.node.stored k ∨ t.Covers k) ∧
        (s.Covers k → t.Covers k) := by
    have hcovers (hk : s.Covers k) : t.Covers k := by
      unfold Covers
      rw [hadvances.node]
      exact hk.advance hadvances.rest hadvances.next hmark
    refine ⟨?_, ?_, hcovers⟩
    · refine told_congr ?_ hstate hadvances.flushing
      rw [hadvances.node]
      rcases advance_cases s.node now call k with
        ⟨p, rfl, rfl⟩ | ⟨entry, rfl, rfl⟩ | ⟨-, -, hpending⟩
      · exact congrArg (fun d => DirtyTracker.pending d _) (SyncNode.dirtyTracker_put _ _)
      · exact absurd rfl (hmark entry rfl)
      · exact hpending
    · rcases advance_cases s.node now call k with
        ⟨p, rfl, rfl⟩ | ⟨entry, rfl, rfl⟩ | ⟨-, hstored, -⟩
      · refine Or.inr ?_
        unfold Covers
        rw [hadvances.node]
        exact settled_put p (hadvances.next _ rfl)
      · exact absurd rfl (hmark entry rfl)
      · exact Or.inl (by rw [hadvances.node, hstored])
  -- what becomes of the key that is
  have hmarked (entry : StoreEntry) (hcall : call = .marking entry) :
      t.told entry.key = entry.word ∧
        (∀ e ∈ t.left, e.key = entry.key → t.Expects (fun _ => entry.word) e) ∧
          ((∀ e ∈ t.left, e.key ≠ entry.key) →
            t.node.stored entry.key = entry.word ∨ t.Covers entry.key) := by
    obtain ⟨u, hu, hnode, hprogress, hleft⟩ := hadvances.marking entry hcall
    have hstored : t.node.stored = u.node.stored := by
      rw [hadvances.node, hcall, hnode]
      exact SyncNode.stored_mark ..
    have hcovers (k : SyncKey) : t.Covers k ↔ u.Covers k := by
      unfold Covers
      rw [hprogress, hstored]
    obtain ⟨hexpects, hcovered⟩ := hG _ hu
    rw [hleft] at hexpects hcovered
    refine ⟨?_, fun e he hkey => ?_, fun hnone => ?_⟩
    · have hpending : t.node.dirtyTracker.pending entry.key = some entry.word := by
        rw [hadvances.node, hcall]
        show (s.node.mark now entry).dirtyTracker.pending _ = _
        rw [SyncNode.pending_mark, Function.update_self]
      unfold told toldWith
      exact apply_of_some hpending
    · exact (hexpects e he hkey).congr rfl (congrFun hstored _) (hcovers _).2
    · rw [hstored, hcovers]
      exact hcovered hnone
  have hmark_or (k : SyncKey) :
      (∃ entry, call = .marking entry ∧ entry.key = k) ∨
        ∀ entry, call = .marking entry → entry.key ≠ k := by
    by_cases hk : ∃ entry, call = .marking entry ∧ entry.key = k
    · exact Or.inl hk
    · exact Or.inr fun entry hcall heq => hk ⟨entry, hcall, heq⟩
  refine ⟨fun e he => ?_, fun k hk => ?_, ?_⟩
  · rcases hmark_or e.key with ⟨entry, hcall, hkey⟩ | hmark
    · obtain ⟨htold, hexpects, -⟩ := hmarked entry hcall
      exact (hexpects e he hkey.symm).congr (by rw [← hkey, htold]) rfl id
    · obtain ⟨htold, hstored, hcovers⟩ := hkey e.key hmark
      rcases h.onLeft e ((hadvances.left e).1 he) with hword | ⟨hdeletes, hsome⟩
      · exact Or.inl (htold.trans hword)
      · refine Or.inr ⟨hdeletes, ?_⟩
        rcases hsome with hsome | hcovered
        · exact hstored.imp_left fun heq => by rwa [heq]
        · exact Or.inr (hcovers hcovered)
  · rcases hmark_or k with ⟨entry, hcall, rfl⟩ | hmark
    · obtain ⟨htold, -, hcovered⟩ := hmarked entry hcall
      rw [htold]
      exact hcovered hk
    · obtain ⟨htold, hstored, hcovers⟩ := hkey k hmark
      rcases h.elsewhere k fun e he => hk e ((hadvances.left e).2 he) with heq | hcovered
      · exact hstored.imp_left fun hsame => by rw [hsame, htold, heq]
      · exact Or.inr (hcovers hcovered)
  · unfold SnapshotTracked
    rw [hadvances.merging, hstate]
    exact h.snapshot

/-- The next piece of a receiver. -/
theorem receive (h : s.StepInv) {r : Receiver} (hreceives : Receives cfg s r now t)
    (hG : ∀ m ∈ s.marking (.receive r now), m.2.MarkGuard m.1) : t.StepInv := by
  -- a receiver that is not in a call ends none
  have hcalls {entries : List StoreEntry} (hr : s.applying r = some ⟨entries, none⟩)
      (b : Option Applying) (c : RegistryCall) (hc : c ∈ s.inProgress) :
      c ∈ (s.set r b).inProgress :=
    (mem_inProgress_set hc hr b).resolve_left fun heq => by cases heq
  -- an entry that is taken is left no longer
  have htaken {entry : StoreEntry} {entries : List StoreEntry} (call : Option RegistryCall)
      (hr : s.applying r = some ⟨entry :: entries, none⟩) :
      entry ∈ s.left ∧ (∀ e ∈ (s.set r (some ⟨entries, call⟩)).left, e ∈ s.left) ∧
        ∀ e ∈ s.left, e = entry ∨ e ∈ (s.set r (some ⟨entries, call⟩)).left := by
    refine ⟨mem_left.2 ⟨r, _, hr, List.mem_cons_self⟩, fun e he => ?_, fun e he => ?_⟩
    · rcases mem_left_set he with he | ⟨_, heq, he⟩
      · exact he
      · cases heq
        exact mem_left.2 ⟨r, _, hr, List.mem_cons_of_mem _ he⟩
    · rcases mem_left_of_set he hr (some ⟨entries, call⟩) with he | he
      · refine (List.mem_cons.1 he).imp_right fun he => ?_
        exact mem_left.2 ⟨r, _, applying_set .., he⟩
      · exact Or.inr he
  cases hreceives with
  | done hr =>
    refine h.frame rfl rfl (fun e => ⟨fun he => ?_, fun he => ?_⟩) (hcalls hr none) h.snapshot
    · rcases mem_left_set he with he | ⟨_, heq, -⟩
      · exact he
      · cases heq
    · rcases mem_left_of_set he hr none with he | he
      · cases he
      · exact he
  | @put entry entries hr hkept =>
    obtain ⟨hentry, hsub, hleft⟩ := htaken none hr
    set t := ({ s with node := s.node.put entry } : SyncThreads).set r (some ⟨entries, none⟩)
    -- a kept entry is told
    have hword : s.told entry.key = entry.word := by
      rcases h.onLeft entry hentry with hword | ⟨hdeletes, -⟩
      · exact hword
      · rw [hkept] at hdeletes
        cases hdeletes
    have hrest := SyncNode.sameRest_put s.node entry
    have htold : t.told = s.told := funext fun k =>
      told_congr (congrArg (fun d => DirtyTracker.pending d k) (SyncNode.dirtyTracker_put ..))
        hrest.state rfl
    have hstored : t.node.stored = Function.update s.node.stored entry.key entry.word :=
      SyncNode.stored_put s.node entry
    have hcovers {k : SyncKey} (hk : k ≠ entry.key) (hcovered : s.Covers k) : t.Covers k := by
      refine Settled.congr hcovered (hcalls hr _) ?_
      rw [hstored, Function.update_of_ne hk]
    refine ⟨fun e he => ?_, fun k hk => ?_, ?_⟩
    · rcases h.onLeft e (hsub e he) with hsame | ⟨hdeletes, hsome⟩
      · exact Or.inl (by rw [htold, hsame])
      · refine Or.inr ⟨hdeletes, ?_⟩
        by_cases hkey : e.key = entry.key
        · -- the record of the dataset that `e` deletes is stored
          obtain ⟨key, hkey'⟩ := Option.isSome_iff_exists.1 hdeletes
          rw [StoreEntry.deletedData_eq_some hkey'] at hkey ⊢
          refine Or.inl ?_
          rw [hstored, hkey, Function.update_self]
          exact StoreEntry.word_ne_none hkey.symm hkept
        · refine hsome.imp (fun hsome => ?_) (hcovers hkey)
          rwa [hstored, Function.update_of_ne hkey]
    · rw [htold, hstored]
      by_cases hkey : k = entry.key
      · rw [hkey, Function.update_self]
        exact Or.inl hword.symm
      · rw [Function.update_of_ne hkey]
        refine (h.elsewhere k fun e he heq => ?_).imp_right (hcovers hkey)
        rcases hleft e he with rfl | he
        · exact hkey heq.symm
        · exact hk e he heq
    · unfold SnapshotTracked
      rw [show t.node.state = s.node.state from hrest.state]
      exact h.snapshot
  | @skip key entries hr hnone =>
    obtain ⟨hentry, hsub, hleft⟩ := htaken none hr
    have hcovers {k : SyncKey} (hcovered : s.Covers k) :
        (s.set r (some ⟨entries, none⟩)).Covers k := Settled.congr hcovered (hcalls hr _) rfl
    refine ⟨fun e he => (h.onLeft e (hsub e he)).congr rfl rfl hcovers, fun k hk => ?_, h.snapshot⟩
    by_cases hkey : k = .data key
    · subst hkey
      rcases h.onLeft _ hentry with hword | ⟨-, hsome | hcovered⟩
      · exact Or.inl (hnone.trans hword.symm)
      · exact absurd hnone hsome
      · exact Or.inr (hcovers hcovered)
    · refine (h.elsewhere k fun e he heq => ?_).imp_right hcovers
      rcases hleft e he with rfl | he
      · exact hkey heq.symm
      · exact hk e he heq
  | @delete key entries hr hsome =>
    set call : RegistryCall := .putting ⟨.data key none, .dataDeleted key, rfl, rfl⟩
    obtain ⟨-, hsub, hleft⟩ := htaken (some call) hr
    have hcovers {k : SyncKey} (hcovered : s.Covers k) :
        (s.set r (some ⟨entries, some call⟩)).Covers k := Settled.congr hcovered (hcalls hr _) rfl
    refine ⟨fun e he => (h.onLeft e (hsub e he)).congr rfl rfl hcovers, fun k hk => ?_, h.snapshot⟩
    by_cases hkey : k = .data key
    · -- the call has yet to write its key
      subst hkey
      exact Or.inr ⟨call, mem_inProgress.2 (Or.inr ⟨r, _, applying_set .., rfl⟩), rfl, rfl⟩
    · refine (h.elsewhere k fun e he heq => ?_).imp_right hcovers
      rcases hleft e he with rfl | he
      · exact hkey heq.symm
      · exact hk e he heq
  | call hr => exact h.advance (advances_of_receive hr) hG

/-- A receiver starts with its entries, and the cluster state tells what they say. -/
theorem start (h : s.StepInv) {r : Receiver} {b : Applying} {state : ClusterState}
    {merging : Option (StatePush × ClusterState)} (hidle : s.applying r = none)
    (hexpects : ∀ e ∈ b.entries ++ s.left, s.Expects (s.toldWith state.held) e)
    (helsewhere : ∀ k, (∀ e ∈ b.entries ++ s.left, e.key ≠ k) →
      s.toldWith state.held k = s.told k ∨
        s.node.stored k = s.toldWith state.held k ∨ s.Covers k)
    (hsnapshot : ∀ push localState, merging = some (push, localState) →
      localState.version ≤ state.version ∧
        (localState.version = state.version → localState.held = state.held)) :
    StepInv (({ s with node := { s.node with state := state }, merging := merging } :
      SyncThreads).set r (some b)) := by
  have hcovers {k : SyncKey} (hcovered : s.Covers k) :
      (({ s with node := { s.node with state := state }, merging := merging } :
        SyncThreads).set r (some b)).Covers k :=
    Settled.congr hcovered (fun c hc => mem_inProgress_start hidle _ hc) rfl
  refine ⟨fun e he => ?_, fun k hk => ?_, hsnapshot⟩
  · exact (hexpects e ((mem_left_start hidle).1 he)).congr rfl rfl hcovers
  · have hk' (e : StoreEntry) (he : e ∈ b.entries ++ s.left) : e.key ≠ k :=
      hk e ((mem_left_start hidle).2 he)
    rcases helsewhere k hk' with hsame | hstored | hcovered
    · refine (h.elsewhere k fun e he => hk' e (List.mem_append_right _ he)).imp ?_ hcovers
      exact fun hstored => hstored.trans hsame.symm
    · exact Or.inl hstored
    · exact Or.inr (hcovers hcovered)

/-- A push that passed the check of the term is merged. -/
theorem mergePush (h : s.StepInv) {push : StatePush} {localState : ClusterState}
    (hmerging : s.merging = some (push, localState)) (hidle : s.applying .push = none)
    (hG : s.MergeGuard push localState) :
    StepInv (({ s with
      node := { s.node with state := (s.node.state.applyRemote (push.incoming localState)).1 }
      merging := none } : SyncThreads).set .push (some push.applying)) := by
  obtain ⟨hle, hsame⟩ := h.snapshot push localState hmerging
  unfold MergeGuard at hG
  split_ifs at hG with hversion
  · have happly : (s.node.state.applyRemote (push.incoming localState)).1 =
        push.incoming localState := by
      unfold ClusterState.applyRemote
      rw [if_neg]
      show ¬ localState.version + 1 ≤ s.node.state.version
      omega
    have hheld : (push.incoming localState).held =
        Diff.andThen s.node.state.held push.changes := by
      rw [StatePush.held_incoming, hsame hversion]
    rw [happly]
    refine h.start hidle (by rwa [hheld]) (fun k hk => Or.inl ?_) fun _ _ heq => by cases heq
    -- the push does not name the key
    have hk' : push.changes k = none := by
      by_contra hne
      obtain ⟨e, he, hkey⟩ := exists_receivedEntries hne
      exact hk e (List.mem_append_left _ he) hkey
    rw [hheld]
    unfold told toldWith
    simp only [Diff.apply, Diff.andThen, hk', Option.none_or]
  · have happly : (s.node.state.applyRemote (push.incoming localState)).1 = s.node.state := by
      unfold ClusterState.applyRemote
      rw [if_pos]
      show localState.version + 1 ≤ s.node.state.version
      omega
    rw [happly]
    refine h.start hidle (fun e he => ?_) (fun k _ => Or.inl rfl) fun _ _ heq => by cases heq
    rcases List.mem_append.1 he with he | he
    · exact hG e he
    · exact h.onLeft e he

/-- A pulled state with a higher version takes the place of the cluster state. -/
theorem pullRemote (h : s.StepInv) {incoming : ClusterState} (hidle : s.applying .pull = none)
    (hversion : s.node.state.version < incoming.version) (hG : s.PullGuard incoming) :
    StepInv (({ s with node := { s.node with state := incoming } } : SyncThreads).set .pull
      (some incoming.applying)) := by
  obtain ⟨hexpects, hnamed⟩ := hG
  refine h.start hidle hexpects (fun k hk => ?_) fun push localState hmerging => ?_
  · have hk' : incoming.held k = none := by
      by_contra hne
      obtain ⟨e, he, hkey⟩ := exists_receivedEntries hne
      exact hk e (List.mem_append_left _ he) hkey
    have hnote (held : SyncDiff) : s.toldWith held =
        Diff.apply (Diff.andThen s.drained s.node.dirtyTracker.pending)
          (Diff.apply held fun _ => none) := (apply_andThen ..).symm
    cases hnoted : Diff.andThen s.drained s.node.dirtyTracker.pending k with
    | some word =>
      refine Or.inl ?_
      unfold told
      rw [hnote, hnote, apply_of_some hnoted, apply_of_some hnoted]
    | none =>
      refine Or.inr ?_
      have htold : s.toldWith incoming.held k = none := by
        rw [hnote, apply_of_none hnoted, apply_of_none hk']
      rw [htold]
      by_cases hstored : s.node.stored k = none
      · exact Or.inl hstored
      · refine Or.inr ((hnamed k (SyncNode.mem_keys hstored) hk).resolve_left ?_)
        exact not_not.2 hnoted
  · obtain ⟨hle, -⟩ := h.snapshot push localState hmerging
    exact ⟨hle.trans hversion.le, fun heq => absurd heq (hle.trans_lt hversion).ne⟩

/-- A drain moves what is pending out of the tracker, where it is told still. -/
theorem drain (h : s.StepInv) {members : List EndpointId}
    (hflushing : s.flushing = some (.due members)) :
    StepInv { s with
      node := { s.node with dirtyTracker := s.node.dirtyTracker.drain.2 }
      flushing := some (.drained members s.node.dirtyTracker.drain.1) } := by
  refine h.frame rfl ?_ (fun _ => Iff.rfl) (fun _ hc => hc) h.snapshot
  unfold told toldWith drained
  rw [hflushing]
  show Diff.apply s.node.dirtyTracker.drain.2.pending _ = _
  rw [DirtyTracker.pending_drain]
  rfl

/-- What was drained is folded into the cluster state, where it is told still. -/
theorem applyLocal (h : s.StepInv) {members : List EndpointId} {mutation : StateMutation}
    (hflushing : s.flushing = some (.drained members mutation)) :
    StepInv { s with
      node := { s.node with state := s.node.state.applyLocal mutation }
      flushing := none } := by
  refine h.frame rfl ?_ (fun _ => Iff.rfl) (fun _ hc => hc) fun push localState hmerging => ?_
  · unfold told toldWith drained
    rw [hflushing]
    show Diff.apply _ (Diff.apply Diff.empty
      (Diff.apply (s.node.state.applyLocal mutation).held _)) = _
    rw [ClusterState.held_applyLocal, apply_andThen, apply_empty]
  · obtain ⟨hle, -⟩ := h.snapshot push localState hmerging
    have hversion : (s.node.state.applyLocal mutation).version = s.node.state.version + 1 := rfl
    show localState.version ≤ (s.node.state.applyLocal mutation).version ∧ _
    exact ⟨by omega, fun heq => absurd (heq.trans hversion) (by omega)⟩

/-- A step that meets the guard keeps cluster state and stores together. -/
theorem step (h : s.StepInv) (hG : s.StepGuard a) (hstep : s.step cfg a = some t) :
    t.StepInv := by
  cases a with
  | begin op now =>
    cases hstep
    obtain ⟨hstored, htracker, hrest, -⟩ := SyncNode.begin_frame cfg s.node op now
    refine h.frame hstored (funext fun k => told_congr ?_ hrest.state rfl) (fun _ => Iff.rfl) ?_ ?_
    · exact congrArg (fun d => DirtyTracker.pending d k) htracker
    · intro c hc
      rcases mem_inProgress.1 hc with hc | hc
      · exact mem_inProgress.2 (Or.inl (List.mem_append_right _ hc))
      · exact mem_inProgress.2 (Or.inr hc)
    · unfold SnapshotTracked
      rw [hrest.state]
      exact h.snapshot
  | advance call now => exact h.advance (advances_of_advance hstep) hG
  | snapshot push =>
    simp only [SyncThreads.step] at hstep
    split_ifs at hstep
    · cases hstep
      exact h
    · cases hstep
      refine h.frame rfl rfl (fun _ => Iff.rfl) (fun _ hc => hc) fun push' localState hmerging => ?_
      cases hmerging
      exact ⟨le_rfl, fun _ => rfl⟩
  | mergePush =>
    simp only [SyncThreads.step] at hstep
    split at hstep
    · rename_i push localState hmerging hidle
      cases hstep
      exact h.mergePush hmerging hidle (hG _ hmerging)
    · cases hstep
  | pullRemote incoming =>
    simp only [SyncThreads.step] at hstep
    split_ifs at hstep with hidle
    by_cases hversion : incoming.version ≤ s.node.state.version
    · have happly : s.node.state.applyRemote incoming = (s.node.state, false) := if_pos hversion
      rw [happly] at hstep
      cases hstep
      exact h
    · have happly : s.node.state.applyRemote incoming = (incoming, true) := if_neg hversion
      rw [happly] at hstep
      cases hstep
      exact h.pullRemote (Option.not_isSome_iff_eq_none.1 hidle) (not_le.1 hversion)
        (hG.resolve_left hversion)
  | receive r now => exact h.receive (receives_of_step hstep) hG
  | tick members now =>
    simp only [SyncThreads.step] at hstep
    split_ifs at hstep with hidle
    · cases hstep
      refine h.frame rfl ?_ (fun _ => Iff.rfl) (fun _ hc => hc) h.snapshot
      unfold told toldWith drained
      rw [Option.not_isSome_iff_eq_none.1 hidle]
      rfl
    · cases hstep
      exact h.frame rfl rfl (fun _ => Iff.rfl) (fun _ hc => hc) h.snapshot
  | drain =>
    simp only [SyncThreads.step] at hstep
    split at hstep
    · rename_i members hflushing
      cases hstep
      exact h.drain hflushing
    · cases hstep
  | applyLocal =>
    simp only [SyncThreads.step] at hstep
    split at hstep
    · rename_i members mutation hflushing
      cases hstep
      exact h.applyLocal hflushing
    · cases hstep

end StepInv

/-- In a run whose steps meet the guard, the cluster state with the pending entries laid over it
is what the endpoint stores, whenever no handler is in progress. -/
theorem inStep_of_reach {e : EndpointId} (h : Reach (step cfg) StepGuard (boot e) s)
    (hquiet : s.Quiet) : s.node.InStep := by
  have hinv : s.StepInv :=
    Reach.invariant (stepInv_boot e) (fun _ _ _ hs hG hstep => hs.step hG hstep) h
  obtain ⟨hcalls, -, hpush, hpull, hflushing⟩ := hquiet
  have happlying (r : Receiver) : s.applying r = none := by cases r <;> assumption
  funext k
  have hleft (e : StoreEntry) (he : e ∈ s.left) : e.key ≠ k := by
    obtain ⟨r, a, ha, -⟩ := mem_left.1 he
    rw [happlying r] at ha
    cases ha
  rcases hinv.elsewhere k hleft with hstored | ⟨call, hcall, -⟩
  · rw [hstored]
    unfold told toldWith drained
    rw [Option.isNone_iff_eq_none.1 hflushing]
    rfl
  · rcases mem_inProgress.1 hcall with hcall | ⟨r, a, ha, -⟩
    · rw [hcalls] at hcall
      cases hcall
    · rw [happlying r] at ha
      cases ha

/-- The pieces of a call that registers a bucket. -/
def bucketPieces (name : String) (now : ℚ) : List ThreadAction :=
  [.begin (.registerBucket name 1) now,
    .advance (.putting ⟨.bucket name ⟨name, 1, now⟩, .bucketRegistered name, rfl, rfl⟩) now,
    .advance (.raised (.bucketRegistered name)) now,
    .advance (.marking (.bucket name ⟨name, 1, now⟩)) now]

/-- A push of a dataset is handled after a flush; a bucket is registered between two of its
calls. -/
theorem inStep_interleaved : ∃ s,
    Reach (step SyncNode.eagerConfig) StepGuard (boot "a") s ∧ s.Quiet ∧
      s.node.catalog.lookup SyncNode.datasetKey = some SyncNode.datasetRecord ∧
      s.node.dirtyTracker.pending (.bucket "z") ≠ none ∧ s.node.InStep := by
  obtain ⟨s, hs, htest⟩ := exists_reach_of_guarded_run (step SyncNode.eagerConfig) StepGuard
    (boot "a")
    (fun s => decide s.Quiet &&
      decide (s.node.catalog.lookup SyncNode.datasetKey = some SyncNode.datasetRecord) &&
      decide (s.node.dirtyTracker.pending (.bucket "z") ≠ none))
    (bucketPieces "x" 0 ++ [.tick [] 1, .drain, .applyLocal,
      .snapshot (SyncNode.datasetPush (.record SyncNode.datasetRecord)), .mergePush] ++
      bucketPieces "z" 3 ++ [.receive .push 4, .receive .push 5])
    (by decide +kernel)
  simp only [Bool.and_eq_true, decide_eq_true_eq] at htest
  obtain ⟨⟨hquiet, hdata⟩, hpending⟩ := htest
  exact ⟨s, hs, hquiet, hdata, hpending, inStep_of_reach hs hquiet⟩

/-- When the flush falls between the snapshot of the push and its `apply_remote`, the dataset is
stored, and the cluster state has never heard of it. -/
theorem outOfStep_flushBetween : ∃ s,
    Reach (step SyncNode.eagerConfig) Always (boot "a") s ∧ s.Quiet ∧ ¬ s.node.InStep := by
  obtain ⟨s, hs, htest⟩ := exists_reach_of_run (step SyncNode.eagerConfig) (boot "a")
    (fun s => decide s.Quiet &&
      decide (s.node.stored (.data SyncNode.datasetKey) ≠
        Diff.apply s.node.dirtyTracker.pending (Diff.apply s.node.state.held fun _ => none)
          (.data SyncNode.datasetKey)))
    (bucketPieces "x" 0 ++ [.snapshot (SyncNode.datasetPush (.record SyncNode.datasetRecord)),
      .tick [] 1, .drain, .applyLocal, .mergePush, .receive .push 2, .receive .push 3])
    (by decide +kernel)
  simp only [Bool.and_eq_true, decide_eq_true_eq] at htest
  obtain ⟨hquiet, hdiffer⟩ := htest
  exact ⟨s, hs, hquiet, fun hinStep => hdiffer (congrFun hinStep _)⟩

end SyncThreads

end Axo
