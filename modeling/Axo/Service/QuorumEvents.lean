import Axo.Service.ConsensusLoop

/-!
# The quorum events of a run of ticks

`App` threads the high-water mark and the member set that `run_consensus_tick` returns into the next
tick.  `Watching.run` is that for a list of ticks, each with a membership snapshot and a state of the
elector of its own, and collects what is emitted.

* `HasQuorum` says of the snapshots alone whether the last is a strict majority of the largest;
* `Told` is the invariant that links the threaded state and the events to the snapshots;
* `quorumEvents_tellTruth` is the result.
-/

namespace Axo

/-- What `run_consensus_tick` is called with and nothing threads. -/
structure QuorumTick where
  elector : BullyLeaderElector
  members : List EndpointId

/-- `_cluster_high_water` and `_cluster_member_ids` of `App`, and everything emitted so far. -/
structure Watching where
  highWaterMark : ℕ
  memberIds : Option (List EndpointId)
  emitted : List ConsensusEvent

namespace Watching

variable (selfId : EndpointId)

/-- Before the first tick. -/
def start : Watching := ⟨0, none, []⟩

/-- The events of one tick. -/
def tickEvents (w : Watching) (tick : QuorumTick) : List ConsensusEvent :=
  (runConsensusTick tick.elector tick.members selfId w.highWaterMark w.memberIds).events

/-- One tick. -/
def next (w : Watching) (tick : QuorumTick) : Watching :=
  let t := runConsensusTick tick.elector tick.members selfId w.highWaterMark w.memberIds
  { highWaterMark := t.highWaterMark
    memberIds := some t.memberIds
    emitted := w.emitted ++ t.events }

/-- The ticks, one after the other. -/
def run (ticks : List QuorumTick) : Watching := ticks.foldl (next selfId) start

end Watching

/-! ### What the events are to tell -/

/-- Whether an event says that quorum is held. -/
def ConsensusEvent.quorumNews : ConsensusEvent → Option Bool
  | .quorumLost .. => some false
  | .quorumRestored .. => some true
  | _ => none

/-- The member that an event says has left. -/
def ConsensusEvent.evicted : ConsensusEvent → Option EndpointId
  | .degraded _ _ _ evictedPeerId => some evictedPeerId
  | _ => none

/-- The quorum events of a list, in order: `false` for lost, `true` for restored. -/
def quorumNews (events : List ConsensusEvent) : List Bool :=
  events.filterMap ConsensusEvent.quorumNews

/-- The members reported to have left. -/
def evictedIds (events : List ConsensusEvent) : List EndpointId :=
  events.filterMap ConsensusEvent.evicted

/-- Each piece of news is the opposite of the one before it, the first that of `held`. -/
def Alternates (held : Bool) : List Bool → Prop
  | [] => True
  | news :: rest => news = !held ∧ Alternates news rest

/-- What the last piece of news says; none counts as restored. -/
def lastNews (news : List Bool) : Bool := news.getLast?.getD true

/-- The members of a snapshot, the node itself included. -/
def QuorumTick.memberIds (selfId : EndpointId) (tick : QuorumTick) : List EndpointId :=
  memberIdsOf selfId tick.members

/-- The largest size of the cluster so far. -/
def largestSize (selfId : EndpointId) (ticks : List QuorumTick) : ℕ :=
  (ticks.map fun tick => (tick.memberIds selfId).length).foldl max 0

/-- The members at the last tick. -/
def currentMembers (selfId : EndpointId) (ticks : List QuorumTick) : List EndpointId :=
  (ticks.getLast?.map (QuorumTick.memberIds selfId)).getD []

/-- The current size is a strict majority of the largest. -/
def HasQuorum (selfId : EndpointId) (ticks : List QuorumTick) : Prop :=
  largestSize selfId ticks < 2 * (currentMembers selfId ticks).length

instance (selfId : EndpointId) (ticks : List QuorumTick) : Decidable (HasQuorum selfId ticks) :=
  inferInstanceAs (Decidable (_ < _))

/-! ### The news -/

theorem alternates_append {held : Bool} {news : List Bool} {b : Bool} :
    Alternates held (news ++ [b]) ↔ Alternates held news ∧ b = !(news.getLast?.getD held) := by
  induction news generalizing held with
  | nil => simp [Alternates]
  | cons c news ih =>
    rw [List.cons_append, Alternates, Alternates, ih, and_assoc, List.getLast?_cons]
    rfl

theorem lastNews_append (news : List Bool) (b : Bool) : lastNews (news ++ [b]) = b := by
  simp [lastNews]

@[simp] theorem quorumNews_append (events events' : List ConsensusEvent) :
    quorumNews (events ++ events') = quorumNews events ++ quorumNews events' :=
  List.filterMap_append

@[simp] theorem evictedIds_append (events events' : List ConsensusEvent) :
    evictedIds (events ++ events') = evictedIds events ++ evictedIds events' :=
  List.filterMap_append

/-- The events about the leader view are none of these. -/
theorem news_viewEvents (selfId : EndpointId) (previous view : LeaderView) :
    quorumNews (viewEvents selfId previous view) = [] ∧
      evictedIds (viewEvents selfId previous view) = [] := by
  simp only [viewEvents]
  split_ifs <;> exact ⟨rfl, rfl⟩

/-- The events that report members who left. -/
theorem news_degraded (term memberCount size : ℕ) (ids : List EndpointId) :
    quorumNews (ids.map (.degraded term memberCount size)) = [] ∧
      evictedIds (ids.map (.degraded term memberCount size)) = ids := by
  induction ids with
  | nil => exact ⟨rfl, rfl⟩
  | cons id ids ih => exact ⟨ih.1, congrArg (id :: ·) ih.2⟩

/-- The number of members is a quorum when it is a strict majority of the mark. -/
theorem quorumSize_le_iff {highWaterMark size : ℕ} :
    quorumSize highWaterMark ≤ size ↔ highWaterMark < 2 * size := by
  unfold quorumSize
  omega

section tick

variable (term highWaterMark : ℕ) (previous memberIds : List EndpointId)

/-- What a tick tells of the quorum: nothing when it is held as it was. -/
theorem quorumNews_quorumEvents :
    quorumNews (quorumEvents term highWaterMark (some previous) memberIds) =
      if highWaterMark < 2 * previous.length ↔
          max highWaterMark memberIds.length < 2 * memberIds.length then []
      else [decide (max highWaterMark memberIds.length < 2 * memberIds.length)] := by
  simp only [quorumEvents, quorumSize_le_iff]
  by_cases hhad : highWaterMark < 2 * previous.length <;>
    by_cases hhas : max highWaterMark memberIds.length < 2 * memberIds.length
  · simp only [hhad, hhas, not_true, and_false, if_false, false_and, if_true, iff_self]
    exact (news_degraded ..).1
  · simp [hhad, hhas, quorumNews, ConsensusEvent.quorumNews]
  · simp [hhad, hhas, quorumNews, ConsensusEvent.quorumNews]
  · simp [hhad, hhas, quorumNews]

/-- The members it reports. -/
theorem evictedIds_quorumEvents :
    evictedIds (quorumEvents term highWaterMark (some previous) memberIds) =
      if highWaterMark < 2 * previous.length ∧
          max highWaterMark memberIds.length < 2 * memberIds.length then
        previous.filter fun peerId => peerId ∉ memberIds
      else [] := by
  simp only [quorumEvents, quorumSize_le_iff]
  by_cases hhad : highWaterMark < 2 * previous.length <;>
    by_cases hhas : max highWaterMark memberIds.length < 2 * memberIds.length
  · simp only [hhad, hhas, not_true, and_false, if_false, false_and, if_true, and_self]
    exact (news_degraded ..).2
  · simp [hhad, hhas, evictedIds, ConsensusEvent.evicted]
  · simp [hhad, hhas, evictedIds, ConsensusEvent.evicted]
  · simp [hhad, hhas, evictedIds]

end tick

/-! ### The threaded state -/

variable {selfId : EndpointId} {ticks : List QuorumTick} {tick : QuorumTick} {w : Watching}

@[simp] theorem largestSize_append :
    largestSize selfId (ticks ++ [tick]) =
      max (largestSize selfId ticks) (tick.memberIds selfId).length := by
  simp [largestSize]

@[simp] theorem currentMembers_append :
    currentMembers selfId (ticks ++ [tick]) = tick.memberIds selfId := by
  simp [currentMembers]

theorem Watching.run_append :
    Watching.run selfId (ticks ++ [tick]) = (Watching.run selfId ticks).next selfId tick := by
  simp [run]

/-- The node is one of its members. -/
theorem length_memberIds_pos (selfId : EndpointId) (tick : QuorumTick) :
    0 < (tick.memberIds selfId).length := by
  have hself : selfId ∈ tick.memberIds selfId := by simp [QuorumTick.memberIds, memberIdsOf]
  exact List.length_pos_of_mem hself

theorem nodup_currentMembers (selfId : EndpointId) (ticks : List QuorumTick) :
    (currentMembers selfId ticks).Nodup := by
  unfold currentMembers
  cases ticks.getLast? with
  | none => exact List.nodup_nil
  | some tick => exact List.nodup_dedup _

/-- What is threaded and what was emitted, against the snapshots. -/
structure Told (selfId : EndpointId) (ticks : List QuorumTick) (w : Watching) : Prop where
  largest : w.highWaterMark = largestSize selfId ticks
  members : w.memberIds = ticks.getLast?.map (QuorumTick.memberIds selfId)
  alternates : Alternates true (quorumNews w.emitted)
  silent : ticks = [] → quorumNews w.emitted = []
  agrees : ticks ≠ [] → lastNews (quorumNews w.emitted) = decide (HasQuorum selfId ticks)

theorem told_start : Told selfId [] Watching.start where
  largest := rfl
  members := rfl
  alternates := trivial
  silent _ := rfl
  agrees h := absurd rfl h

/-- The members threaded after some tick. -/
theorem Told.members_of_ne (h : Told selfId ticks w) (hne : ticks ≠ []) :
    w.memberIds = some (currentMembers selfId ticks) := by
  rw [h.members, currentMembers, List.getLast?_eq_getLast_of_ne_nil hne]
  rfl

/-- The news of one tick: what the two last sets of snapshots differ in. -/
theorem Told.news (h : Told selfId ticks w) :
    quorumNews (w.tickEvents selfId tick) =
      if ticks = [] ∨ (HasQuorum selfId ticks ↔ HasQuorum selfId (ticks ++ [tick])) then []
      else [decide (HasQuorum selfId (ticks ++ [tick]))] := by
  have hevents : quorumNews (w.tickEvents selfId tick) = quorumNews (quorumEvents
      (tick.elector.recompute tick.members).view.term w.highWaterMark w.memberIds
      (tick.memberIds selfId)) := by
    rw [Watching.tickEvents, runConsensusTick, quorumNews_append, (news_viewEvents ..).1,
      List.append_nil]
    rfl
  rw [hevents]
  by_cases hne : ticks = []
  · rw [if_pos (Or.inl hne), h.members, hne]
    rfl
  · rw [h.members_of_ne hne, quorumNews_quorumEvents, h.largest]
    simp only [hne, false_or, HasQuorum, largestSize_append, currentMembers_append]

/-- The members that one tick reports to have left. -/
theorem Told.evicted (h : Told selfId ticks w) (tick : QuorumTick) :
    evictedIds (w.tickEvents selfId tick) =
      if HasQuorum selfId ticks ∧ HasQuorum selfId (ticks ++ [tick]) then
        (currentMembers selfId ticks).filter fun peerId => peerId ∉ tick.memberIds selfId
      else [] := by
  have hevents : evictedIds (w.tickEvents selfId tick) = evictedIds (quorumEvents
      (tick.elector.recompute tick.members).view.term w.highWaterMark w.memberIds
      (tick.memberIds selfId)) := by
    rw [Watching.tickEvents, runConsensusTick, evictedIds_append, (news_viewEvents ..).2,
      List.append_nil]
    rfl
  rw [hevents]
  by_cases hne : ticks = []
  · subst hne
    rw [h.members, if_neg fun hquorum => absurd hquorum.1 (lt_irrefl 0)]
    rfl
  · rw [h.members_of_ne hne, evictedIds_quorumEvents, h.largest]
    simp only [HasQuorum, largestSize_append, currentMembers_append]

/-- At the first tick quorum is held. -/
theorem hasQuorum_singleton : HasQuorum selfId [tick] := by
  have hpos := length_memberIds_pos selfId tick
  have hquorum : HasQuorum selfId ([] ++ [tick]) := by
    rw [HasQuorum, largestSize_append, currentMembers_append]
    simp only [largestSize, List.map_nil, List.foldl_nil]
    omega
  exact hquorum

/-- A tick keeps all of it. -/
theorem Told.next (h : Told selfId ticks w) : Told selfId (ticks ++ [tick]) (w.next selfId tick) := by
  have hne : ticks ++ [tick] ≠ [] := by simp
  have hemitted : quorumNews (w.next selfId tick).emitted =
      quorumNews w.emitted ++ quorumNews (w.tickEvents selfId tick) := quorumNews_append ..
  have hlargest : (w.next selfId tick).highWaterMark = largestSize selfId (ticks ++ [tick]) := by
    rw [largestSize_append, ← h.largest]
    rfl
  have hmembers : (w.next selfId tick).memberIds =
      (ticks ++ [tick]).getLast?.map (QuorumTick.memberIds selfId) := by
    rw [List.getLast?_concat]
    rfl
  by_cases hsame : ticks = [] ∨ (HasQuorum selfId ticks ↔ HasQuorum selfId (ticks ++ [tick]))
  · rw [h.news, if_pos hsame, List.append_nil] at hemitted
    refine ⟨hlargest, hmembers, hemitted ▸ h.alternates, fun hnil => absurd hnil hne, fun _ => ?_⟩
    rw [hemitted]
    by_cases hfirst : ticks = []
    · rw [h.silent hfirst, hfirst]
      exact (decide_eq_true hasQuorum_singleton).symm
    · rw [h.agrees hfirst, decide_eq_decide]
      exact hsame.resolve_left hfirst
  · rw [h.news, if_neg hsame] at hemitted
    obtain ⟨hfirst, hdiffers⟩ := not_or.1 hsame
    refine ⟨hlargest, hmembers, ?_, fun hnil => absurd hnil hne, fun _ => ?_⟩
    · rw [hemitted, alternates_append]
      refine ⟨h.alternates, ?_⟩
      have hlast := h.agrees hfirst
      rw [lastNews] at hlast
      rw [hlast]
      by_cases hhas : HasQuorum selfId (ticks ++ [tick])
      · have hhad : ¬ HasQuorum selfId ticks := fun hhad => hdiffers (iff_of_true hhad hhas)
        simp [hhas, hhad]
      · have hhad : HasQuorum selfId ticks :=
          not_not.1 fun hhad => hdiffers (iff_of_false hhad hhas)
        simp [hhas, hhad]
    · rw [hemitted, lastNews_append]

theorem told_run (selfId : EndpointId) (ticks : List QuorumTick) :
    Told selfId ticks (Watching.run selfId ticks) := by
  induction ticks using List.reverseRecOn with
  | nil => exact told_start
  | append_singleton ticks tick ih =>
    rw [Watching.run_append]
    exact ih.next

/-- After every tick of every run: lost and restored alternate, lost first; the last of them agrees
with the sizes of the cluster; and the members reported at the tick are those that left at it, if
quorum was held before and after, each once, and otherwise none. -/
theorem quorumEvents_tellTruth (selfId : EndpointId) (before : List QuorumTick) (tick : QuorumTick) :
    Alternates true (quorumNews (Watching.run selfId (before ++ [tick])).emitted) ∧
      lastNews (quorumNews (Watching.run selfId (before ++ [tick])).emitted) =
        decide (HasQuorum selfId (before ++ [tick])) ∧
      (evictedIds ((Watching.run selfId before).tickEvents selfId tick)).Nodup ∧
      ∀ peerId, peerId ∈ evictedIds ((Watching.run selfId before).tickEvents selfId tick) ↔
        HasQuorum selfId before ∧ HasQuorum selfId (before ++ [tick]) ∧
          peerId ∈ currentMembers selfId before ∧ peerId ∉ tick.memberIds selfId := by
  have htold := told_run selfId (before ++ [tick])
  have hevicted := (told_run selfId before).evicted tick
  refine ⟨htold.alternates, htold.agrees (by simp), ?_, fun peerId => ?_⟩
  · rw [hevicted]
    split_ifs
    · exact (nodup_currentMembers selfId before).filter _
    · exact List.nodup_nil
  · rw [hevicted]
    split_ifs with hquorum
    · rw [List.mem_filter, decide_eq_true_iff]
      exact ⟨fun h => ⟨hquorum.1, hquorum.2, h⟩, fun h => h.2.2⟩
    · exact iff_of_false List.not_mem_nil fun h => hquorum ⟨h.1, h.2.1⟩

end Axo
