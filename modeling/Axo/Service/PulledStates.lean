import Axo.Service.FlushTruth
import Axo.Service.SyncCluster

/-!
# States that are pulled

What becomes of an endpoint that pulls the cluster state of another one.  Every change has a
number, and a value is older than another one when the change it comes from has a smaller number.

* `TraceInv` says that each value in the cluster, stored, pending, held or on its way, is that of
  the change it is traced to;
* `NotBackwards` says what a pull must not do, and `NotBehind` what it takes: the version counters
  of two endpoints say nothing about it;
* `notBackwards_iff_of_reach` is the result for whole runs.
-/

namespace Axo

open Transition Diff

/-- The entries of the diff are those of the changes with these numbers. -/
def Traced (log : List SyncChange) : Diff SyncKey ℕ → SyncDiff → Prop :=
  Related fun k i word => log[i]? = some (k, word)

/-- The number of the last change of the key. -/
def latest (log : List SyncChange) (k : SyncKey) : Option ℕ :=
  ((List.range log.length).filter fun i => log[i]?.any fun change => change.1 = k).getLast?

/-- The values of an endpoint are those of the changes they are traced to. -/
structure SyncMember.TracedBack (log : List SyncChange) (m : SyncMember) : Prop where
  stored : ∃ d, Traced log m.provenance.stored d ∧ m.node.stored = Diff.apply d fun _ => none
  pending : Traced log m.provenance.pending m.node.dirtyTracker.pending
  held : Traced log m.provenance.held m.node.state.held

namespace SyncCluster

/-- Every value in the cluster is that of the change it is traced to. -/
structure TraceInv (s : SyncCluster) : Prop where
  members : ∀ e, (s.members e).TracedBack s.changes
  pushes : ∀ msg ∈ s.pushes, Traced s.changes msg.changes msg.push.changes
  replies : ∀ reply ∈ s.replies, Traced s.changes reply.changes reply.state.held

/-- What the endpoint stores under the key comes from the change number `i`. -/
def StoredFrom (s : SyncCluster) (e : EndpointId) (k : SyncKey) (i : ℕ) : Prop :=
  (s.members e).provenance.stored k = some i ∧
    s.changes[i]? = some (k, (s.members e).node.stored k)

/-- The cluster state of the endpoint holds the last change of the key. -/
def HoldsLatest (s : SyncCluster) (e : EndpointId) (k : SyncKey) : Prop :=
  ∃ i word, latest s.changes k = some i ∧ s.changes[i]? = some (k, word) ∧
    (s.members e).provenance.held k = some i ∧ (s.members e).node.state.held k = some word

/-- From `s` to `t`, the cluster state of the endpoint loses the last change of no key, and none of
its records gives way to something older. -/
structure NotBackwards (s t : SyncCluster) (e : EndpointId) : Prop where
  held : ∀ k, s.HoldsLatest e k → t.HoldsLatest e k
  stored : ∀ k, (s.members e).node.stored k ≠ none →
    ∃ i j, i ≤ j ∧ s.StoredFrom e k i ∧ t.StoredFrom e k j

/-- The answer holds the last change of each key of which its target holds it, and nothing older
than a record that its target stores. -/
def NotBehind (s : SyncCluster) (reply : PullReply) : Prop :=
  ∀ change ∈ s.changes,
    (∀ i ∈ latest s.changes change.1,
        (s.members reply.target).provenance.held change.1 = some i →
          reply.changes change.1 = some i) ∧
      ((s.members reply.target).node.stored change.1 ≠ none →
        ∀ i ∈ (s.members reply.target).provenance.stored change.1,
          ∀ j ∈ reply.changes change.1, i ≤ j)

instance (s : SyncCluster) (reply : PullReply) : Decidable (s.NotBehind reply) :=
  inferInstanceAs (Decidable (∀ change ∈ s.changes, _))

end SyncCluster

/-! ### Traces -/

theorem Traced.append {log : List SyncChange} {numbers : Diff SyncKey ℕ} {d : SyncDiff}
    (h : Traced log numbers d) (changes : List SyncChange) :
    Traced (log ++ changes) numbers d := by
  refine h.mono fun k i word hi => ?_
  obtain ⟨hlt, -⟩ := List.getElem?_eq_some_iff.1 hi
  rw [List.getElem?_append_left hlt, hi]

/-- The change that is made now has the next number. -/
theorem traced_single (log : List SyncChange) (change : SyncChange) :
    Traced (log ++ [change]) (single change.1 log.length) (single change.1 change.2) :=
  related_single List.getElem?_concat_length

theorem deletedData_eq_some {changes : SyncDiff} {stored : SyncStore} {k : SyncKey}
    {word : Option SyncRecord} (h : deletedData changes stored k = some word) :
    word = none ∧ changes k = some none := by
  rcases k with key | key | name
  · cases h
  · simp only [deletedData] at h
    split_ifs at h with hdeleted
    exact ⟨(Option.some.inj h).symm, hdeleted.1⟩
  · cases h

/-- The deletions that the tracker notes are traced as the entries they come from. -/
theorem Traced.deletedData {log : List SyncChange} {numbers : Diff SyncKey ℕ} {d : SyncDiff}
    (h : Traced log numbers d) (stored : SyncStore) :
    Traced log (numbers.on (deletedData d stored)) (Axo.deletedData d stored) := by
  intro k
  unfold Diff.on
  cases hdeleted : Axo.deletedData d stored k with
  | none => exact .none
  | some word =>
    obtain ⟨rfl, hd⟩ := deletedData_eq_some hdeleted
    obtain ⟨i, hi, htrace⟩ := h.of_right hd
    rw [Option.isSome_some, if_pos rfl, hi]
    exact .some htrace

namespace SyncMember

variable {cfg : SyncConfig} {log : List SyncChange} {m : SyncMember}

theorem tracedBack_boot (log : List SyncChange) (e : EndpointId) : (boot e).TracedBack log where
  stored := ⟨Diff.empty, related_empty, storeOf_empty⟩
  pending := by
    show Traced log Diff.empty (diffOf ∅ ∅ ∅)
    rw [diffOf_empty]
    exact related_empty
  held := by
    show Traced log Diff.empty (diffOf ∅ ∅ ∅)
    rw [diffOf_empty]
    exact related_empty

namespace TracedBack

/-- A record is that of the change it is traced to. -/
theorem getElem?_stored (h : m.TracedBack log) {k : SyncKey} {i : ℕ}
    (hi : m.provenance.stored k = some i) : log[i]? = some (k, m.node.stored k) := by
  obtain ⟨d, hd, hstored⟩ := h.stored
  obtain ⟨word, hword, htrace⟩ := hd.of_left hi
  rw [hstored, apply_of_some hword]
  exact htrace

/-- Every record is traced to a change. -/
theorem exists_of_stored (h : m.TracedBack log) {k : SyncKey} (hk : m.node.stored k ≠ none) :
    ∃ i, m.provenance.stored k = some i := by
  obtain ⟨d, hd, hstored⟩ := h.stored
  cases hword : d k with
  | none =>
    rw [hstored, apply_of_none hword] at hk
    exact absurd rfl hk
  | some word =>
    obtain ⟨i, hi, -⟩ := hd.of_right hword
    exact ⟨i, hi⟩

theorem append (h : m.TracedBack log) (changes : List SyncChange) :
    m.TracedBack (log ++ changes) := by
  obtain ⟨d, hd, hstored⟩ := h.stored
  exact ⟨⟨d, hd.append changes, hstored⟩, h.pending.append changes, h.held.append changes⟩

theorem perform (h : m.TracedBack log) (op : RegistryOp) (now : ℚ) :
    (m.perform cfg op now log.length).TracedBack
      (log ++ (m.node.changeOf cfg op now).toList) := by
  obtain ⟨hrest, -⟩ := SyncNode.perform_cases cfg m.node op now
  unfold SyncMember.perform
  cases hchange : m.node.changeOf cfg op now with
  | none =>
    obtain ⟨hstored, htracker⟩ := SyncNode.perform_of_changeOf_none hchange
    rw [Option.toList_none, List.append_nil]
    refine ⟨?_, ?_, ?_⟩
    · rw [hstored]
      exact h.stored
    · rw [htracker]
      exact h.pending
    · rw [hrest.state]
      exact h.held
  | some change =>
    obtain ⟨hstored, hpending⟩ := SyncNode.perform_of_changeOf_some hchange
    obtain ⟨d, hd, hbefore⟩ := h.stored
    have hnew := traced_single log change
    rw [Option.toList_some]
    refine ⟨⟨d.andThen (single change.1 change.2), (hd.append [change]).andThen hnew, ?_⟩, ?_, ?_⟩
    · rw [hstored, hbefore, apply_andThen, apply_single]
    · rw [hpending]
      exact (h.pending.append [change]).andThen hnew
    · rw [hrest.state]
      exact h.held.append [change]

theorem tick (h : m.TracedBack log) (members : List EndpointId) (now : ℚ) :
    (m.tick cfg members now).TracedBack log := by
  unfold SyncMember.tick
  by_cases hflush : m.node.flushes cfg members now = true
  · obtain ⟨hstored, hpending, hheld, -⟩ :=
      SyncNode.flush_cases (m.node.recompute members) members
    rw [SyncNode.tick_of_flushes hflush, if_pos hflush]
    refine ⟨?_, ?_, ?_⟩
    · rw [hstored]
      exact h.stored
    · rw [hpending]
      exact related_empty
    · rw [hheld]
      exact h.held.andThen h.pending
  · rw [SyncNode.tick_of_not_flushes hflush, if_neg hflush]
    exact ⟨h.stored, h.pending, h.held⟩

theorem pushes (h : m.TracedBack log) {members : List EndpointId} {now : ℚ} {msg : PushMessage}
    (hmsg : msg ∈ m.pushes cfg members now) : Traced log msg.changes msg.push.changes := by
  obtain ⟨⟨target, push⟩, hmem, rfl⟩ := List.mem_map.1 hmsg
  rcases SyncNode.tick_cases cfg m.node members now with htick | ⟨-, -, htick⟩
  · rw [htick] at hmem
    cases hmem
  · rw [htick] at hmem
    rw [(SyncNode.mem_flush hmem).2.1]
    exact h.pending

theorem receive (h : m.TracedBack log) {msg : PushMessage}
    (hmsg : Traced log msg.changes msg.push.changes) (now : ℚ) :
    (m.receive msg now).TracedBack log := by
  unfold SyncMember.receive
  split
  · exact h
  · rename_i node hpush
    obtain ⟨-, hstored, hpending, hstate, -⟩ := SyncNode.handlePush_ok hpush
    obtain ⟨d, hd, hbefore⟩ := h.stored
    refine ⟨⟨d.andThen msg.push.changes, hd.andThen hmsg, ?_⟩, ?_, ?_⟩
    · rw [hstored, hbefore, apply_andThen]
    · rw [hpending]
      exact h.pending.andThen (hmsg.deletedData _)
    · rw [hstate, StatePush.held_incoming]
      exact h.held.andThen hmsg

theorem adopt (h : m.TracedBack log) {reply : PullReply}
    (hreply : Traced log reply.changes reply.state.held) (now : ℚ) :
    (m.adopt reply now).TracedBack log := by
  unfold SyncMember.adopt
  split_ifs with hversion
  · exact h
  · rcases SyncNode.pullFrom_cases m.node reply.state now with
      ⟨hold, -⟩ | ⟨-, hstored, hpending, hstate, -⟩
    · exact absurd hold hversion
    · obtain ⟨d, hd, hbefore⟩ := h.stored
      refine ⟨⟨d.andThen reply.state.held, hd.andThen hreply, ?_⟩, ?_, ?_⟩
      · rw [hstored, hbefore, apply_andThen]
      · rw [hpending]
        exact h.pending.andThen (hreply.deletedData _)
      · rw [hstate]
        exact hreply

end TracedBack

end SyncMember

namespace SyncCluster

variable {cfg : SyncConfig} {s t : SyncCluster} {a : SyncClusterAction}

/-! ### The invariant -/

theorem traceInv_init : init.TraceInv where
  members := SyncMember.tracedBack_boot []
  pushes := fun _ h => by cases h
  replies := fun _ h => by cases h

namespace TraceInv

theorem step (h : s.TraceInv) (hstep : s.step cfg a = some t) : t.TraceInv := by
  cases a with
  | boot e =>
    cases hstep
    exact ⟨forall_set h.members (SyncMember.tracedBack_boot _ e), h.pushes, h.replies⟩
  | perform e op now =>
    cases hstep
    -- the list of all changes grows, and every number keeps its meaning
    exact ⟨forall_set (fun e' => (h.members e').append _) ((h.members e).perform op now),
      fun msg hmsg => (h.pushes msg hmsg).append _,
      fun reply hreply => (h.replies reply hreply).append _⟩
  | tick e members now =>
    cases hstep
    refine ⟨forall_set h.members ((h.members e).tick members now), fun msg hmsg => ?_, h.replies⟩
    rcases List.mem_append.1 hmsg with hmsg | hmsg
    · exact h.pushes msg hmsg
    · exact (h.members e).pushes hmsg
  | deliver i now =>
    obtain ⟨msg, hmsg, rfl⟩ := Option.map_eq_some_iff.1 hstep
    have htraced := h.pushes msg (List.mem_of_getElem? hmsg)
    exact ⟨forall_set h.members ((h.members msg.target).receive htraced now),
      fun msg' hmsg' => h.pushes msg' (List.mem_of_mem_eraseIdx hmsg'), h.replies⟩
  | lose i =>
    cases hstep
    exact ⟨h.members, fun msg hmsg => h.pushes msg (List.mem_of_mem_eraseIdx hmsg), h.replies⟩
  | answer e target =>
    cases hstep
    refine ⟨h.members, h.pushes, fun reply hreply => ?_⟩
    rcases List.mem_append.1 hreply with hreply | hreply
    · exact h.replies reply hreply
    · cases List.mem_singleton.1 hreply
      exact (h.members e).held
  | adopt i now =>
    obtain ⟨reply, hreply, rfl⟩ := Option.map_eq_some_iff.1 hstep
    have htraced := h.replies reply (List.mem_of_getElem? hreply)
    exact ⟨forall_set h.members ((h.members reply.target).adopt htraced now), h.pushes,
      fun reply' hreply' => h.replies reply' (List.mem_of_mem_eraseIdx hreply')⟩
  | timeOut i =>
    cases hstep
    exact ⟨h.members, h.pushes,
      fun reply hreply => h.replies reply (List.mem_of_mem_eraseIdx hreply)⟩

theorem storedFrom_iff (h : s.TraceInv) {e : EndpointId} {k : SyncKey} {i : ℕ} :
    s.StoredFrom e k i ↔ (s.members e).provenance.stored k = some i :=
  ⟨And.left, fun hi => ⟨hi, (h.members e).getElem?_stored hi⟩⟩

theorem holdsLatest_iff (h : s.TraceInv) {e : EndpointId} {k : SyncKey} :
    s.HoldsLatest e k ↔
      ∃ i, latest s.changes k = some i ∧ (s.members e).provenance.held k = some i := by
  constructor
  · rintro ⟨i, -, hlatest, -, hi, -⟩
    exact ⟨i, hlatest, hi⟩
  · rintro ⟨i, hlatest, hi⟩
    obtain ⟨word, hword, htrace⟩ := (h.members e).held.of_left hi
    exact ⟨i, word, hlatest, htrace, hi, hword⟩

/-- Nothing goes backwards when nothing changes. -/
theorem notBackwards_of_same (h : s.TraceInv) (ht : t.TraceInv) {e : EndpointId}
    (hchanges : t.changes = s.changes) (hsame : t.members e = s.members e) :
    NotBackwards s t e := by
  refine ⟨fun k hk => ?_, fun k hk => ?_⟩
  · rw [h.holdsLatest_iff] at hk
    rw [ht.holdsLatest_iff, hchanges, hsame]
    exact hk
  · obtain ⟨i, hi⟩ := (h.members e).exists_of_stored hk
    refine ⟨i, i, le_rfl, h.storedFrom_iff.2 hi, ht.storedFrom_iff.2 ?_⟩
    rw [hsame]
    exact hi

/-- A pull that is taken goes backwards exactly when what it brings is behind. -/
theorem notBackwards_iff (h : s.TraceInv) (ht : t.TraceInv) {reply : PullReply}
    (hchanges : t.changes = s.changes)
    (hheld : (t.members reply.target).provenance.held = reply.changes)
    (hstored : (t.members reply.target).provenance.stored =
      (s.members reply.target).provenance.stored.andThen reply.changes) :
    NotBackwards s t reply.target ↔ s.NotBehind reply := by
  constructor
  · intro hnb change hchange
    refine ⟨fun i hlatest hi => ?_, fun hrecord i hi j hj => ?_⟩
    · have hkept := hnb.held _ (h.holdsLatest_iff.2 ⟨i, hlatest, hi⟩)
      rw [ht.holdsLatest_iff, hchanges, hheld, Option.mem_def.1 hlatest] at hkept
      obtain ⟨i', hi', hreply⟩ := hkept
      rw [hreply, hi']
    · obtain ⟨i', j', hle, hi', hj'⟩ := hnb.stored _ hrecord
      rw [h.storedFrom_iff, Option.mem_def.1 hi] at hi'
      rw [ht.storedFrom_iff, hstored, Diff.andThen, Option.mem_def.1 hj, Option.some_or] at hj'
      cases hi'
      cases hj'
      exact hle
  · intro hbehind
    refine ⟨fun k hk => ?_, fun k hrecord => ?_⟩
    · rw [h.holdsLatest_iff] at hk
      obtain ⟨i, hlatest, hi⟩ := hk
      obtain ⟨word, -, htrace⟩ := (h.members reply.target).held.of_left hi
      rw [ht.holdsLatest_iff, hchanges, hheld]
      exact ⟨i, hlatest, (hbehind _ (List.mem_of_getElem? htrace)).1 i hlatest hi⟩
    · obtain ⟨i, hi⟩ := (h.members reply.target).exists_of_stored hrecord
      have hmem := List.mem_of_getElem? ((h.members reply.target).getElem?_stored hi)
      -- the record is overwritten when the answer names its key, and kept when it does not
      cases hj : reply.changes k with
      | none =>
        refine ⟨i, i, le_rfl, h.storedFrom_iff.2 hi, ht.storedFrom_iff.2 ?_⟩
        rw [hstored, Diff.andThen, hj, Option.none_or]
        exact hi
      | some j =>
        refine ⟨i, j, (hbehind _ hmem).2 hrecord i hi j hj, h.storedFrom_iff.2 hi,
          ht.storedFrom_iff.2 ?_⟩
        rw [hstored, Diff.andThen, hj, Option.some_or]

/-- The same for the step of the cluster, whether the pull is taken or not. -/
theorem adopt_notBackwards_iff (h : s.TraceInv) {reply : PullReply} {i : ℕ} {now : ℚ}
    (hreply : s.replies[i]? = some reply) (hstep : s.step cfg (.adopt i now) = some t) :
    NotBackwards s t reply.target ↔
      reply.state.version ≤ (s.members reply.target).node.state.version ∨
        s.NotBehind reply := by
  have ht := h.step hstep
  have hmember : t.changes = s.changes ∧
      t.members reply.target = (s.members reply.target).adopt reply now := by
    obtain ⟨reply', hreply', rfl⟩ := Option.map_eq_some_iff.1 hstep
    cases hreply.symm.trans hreply'
    exact ⟨rfl, Function.update_self ..⟩
  obtain ⟨hchanges, hmember⟩ := hmember
  unfold SyncMember.adopt at hmember
  by_cases hversion : reply.state.version ≤ (s.members reply.target).node.state.version
  · rw [if_pos hversion] at hmember
    exact iff_of_true (h.notBackwards_of_same ht hchanges hmember) (Or.inl hversion)
  · rw [if_neg hversion] at hmember
    rw [or_iff_right hversion]
    refine h.notBackwards_iff ht hchanges ?_ ?_
    · rw [hmember]
    · rw [hmember]
      rfl

end TraceInv

theorem traceInv_of_reach (h : Reach (step cfg) Always init s) : s.TraceInv :=
  Reach.invariant traceInv_init (fun _ _ _ hs _ hstep => hs.step hstep) h

/-- In every run, an answer that arrives takes its target backwards exactly when its version is
the higher one and it is behind: without the last change of a key of which its target holds it, or
with an entry older than the record that its target stores. -/
theorem notBackwards_iff_of_reach {reply : PullReply} {i : ℕ} {now : ℚ}
    (h : Reach (step cfg) Always init s) (hreply : s.replies[i]? = some reply)
    (hstep : s.step cfg (.adopt i now) = some t) :
    NotBackwards s t reply.target ↔
      reply.state.version ≤ (s.members reply.target).node.state.version ∨ s.NotBehind reply :=
  (traceInv_of_reach h).adopt_notBackwards_iff hreply hstep

/-- A dataset of the given size. -/
def registerSized (totalSize : ℤ) : RegistryOp :=
  .registerData SyncNode.datasetKey "raw" "fs" totalSize 1 none "sha256"

/-- `a` has taken one push of `b`; the next one is lost, and `a` pulls what it has missed. -/
theorem notBackwards_missedPush : ∃ s t reply,
    Reach (step SyncNode.eagerConfig) Always init s ∧ s.replies[0]? = some reply ∧
      s.step SyncNode.eagerConfig (.adopt 0 6) = some t ∧
      (s.members reply.target).node.stored (.data SyncNode.datasetKey) ≠ none ∧
      (s.members reply.target).node.stored (.bucket "y") = none ∧
      (t.members reply.target).node.stored (.bucket "y") ≠ none ∧
      NotBackwards s t reply.target := by
  obtain ⟨s, hs, htest⟩ := exists_reach_of_run (step SyncNode.eagerConfig) init
    (fun s => s.replies[0]?.any fun reply : PullReply => decide (s.NotBehind reply) &&
      decide ((s.members reply.target).node.stored (.data SyncNode.datasetKey) ≠ none) &&
      decide ((s.members reply.target).node.stored (.bucket "y") = none) &&
      (s.step SyncNode.eagerConfig (.adopt 0 6)).any fun t : SyncCluster =>
        decide ((t.members reply.target).node.stored (.bucket "y") ≠ none))
    [.perform "b" (registerSized 1) 0, .tick "b" ["a"] 1, .deliver 0 2,
      .perform "b" (.registerBucket "y" 1) 3, .tick "b" ["a"] 4, .lose 0, .answer "b" "a"]
    (by decide +kernel)
  simp only [Option.any_eq_true, Bool.and_eq_true, decide_eq_true_eq] at htest
  obtain ⟨reply, hreply, ⟨⟨hbehind, hdata⟩, hbucket⟩, t, hstep, hpulled⟩ := htest
  exact ⟨s, t, reply, hs, hreply, hstep, hdata, hbucket, hpulled,
    (notBackwards_iff_of_reach hs hreply hstep).2 (Or.inr hbehind)⟩

/-- `b` registers a dataset and then a bucket, in two flushes; `a` registers the dataset anew, in
one flush.  When `a` pulls from `b`, whose version is higher, the older record replaces the newer
one in its cluster state and in its catalog. -/
theorem pulledBackwards : ∃ s t reply,
    Reach (step SyncNode.eagerConfig) Always init s ∧ s.replies[0]? = some reply ∧
      s.step SyncNode.eagerConfig (.adopt 0 6) = some t ∧ ¬ NotBackwards s t reply.target ∧
      ((s.members reply.target).node.catalog.lookup SyncNode.datasetKey).map DataRecord.totalSize =
        some 2 ∧
      ((t.members reply.target).node.catalog.lookup SyncNode.datasetKey).map DataRecord.totalSize =
        some 1 := by
  obtain ⟨s, hs, htest⟩ := exists_reach_of_run (step SyncNode.eagerConfig) init
    (fun s => s.replies[0]?.any fun reply : PullReply => decide (¬ s.NotBehind reply) &&
      decide (¬ reply.state.version ≤ (s.members reply.target).node.state.version) &&
      decide (((s.members reply.target).node.catalog.lookup SyncNode.datasetKey).map
        DataRecord.totalSize = some 2) &&
      (s.step SyncNode.eagerConfig (.adopt 0 6)).any fun t : SyncCluster =>
        decide (((t.members reply.target).node.catalog.lookup SyncNode.datasetKey).map
          DataRecord.totalSize = some 1))
    [.perform "b" (registerSized 1) 0, .tick "b" [] 1, .perform "b" (.registerBucket "y" 1) 2,
      .tick "b" [] 3, .perform "a" (registerSized 2) 4, .tick "a" [] 5, .answer "b" "a"]
    (by decide +kernel)
  simp only [Option.any_eq_true, Bool.and_eq_true, decide_eq_true_eq] at htest
  obtain ⟨reply, hreply, ⟨⟨hbehind, hversion⟩, hnewer⟩, t, hstep, holder⟩ := htest
  refine ⟨s, t, reply, hs, hreply, hstep, fun hnb => ?_, hnewer, holder⟩
  exact (((traceInv_of_reach hs).adopt_notBackwards_iff hreply hstep).1 hnb).elim hversion hbehind

end SyncCluster

end Axo
