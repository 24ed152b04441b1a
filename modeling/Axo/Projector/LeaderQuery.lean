import Axo.Lib.Transition
import Axo.Projector.ReadModel
import Axo.Service.ConsensusLoop

/-!
# The current leader

The consensus documents, which `MongoConsensusRepository.record` keeps by term, the query for the one
with the highest term, and the clusters whose endpoints report their terms.

* `currentLeader` is the query of `controllers/consensus.py` and `_leader_rpc_uri`;
* `lastReportOf` is the last report of a term, `currentLeader_project` the answer it makes;
* `LeaderHistory.step` starts and stops processes, each with a fresh elector, and lets them look at
  their members;
* `currentLeader_iff`: the answer does not depend on the order of the streams, and is right, exactly
  when the last reports of the highest term that was ever reported name the leader.
-/

namespace Axo.Projector

open Transition

/-! ### The query -/

/-- `consensus.find_one(sort=[("_id", -1)])`. -/
def highestTerm (consensus : Collection ℤ ConsensusDocument) : Option ConsensusDocument :=
  consensus.keys.max?.bind consensus.lookup

/-- `doc["leader_ids"][0]`, `none` without a document or a leader in it. -/
def currentLeader (consensus : Collection ℤ ConsensusDocument) : Option String :=
  match (highestTerm consensus).bind fun doc => doc.fields "leader_ids" with
  | some (.list (.str leaderId :: _)) => some leaderId
  | _ => none

/-! ### What events write -/

section Documents

variable {term : ℤ} {events : List DomainEvent} {event : DomainEvent}

/-- The term of a consensus event. -/
def consensusTerm? (event : DomainEvent) : Option ℤ :=
  match event.body with
  | .consensus term _ => some term
  | _ => none

/-- The leaders that an event reports for the term. -/
def reportOf? (term : ℤ) (event : DomainEvent) : Option (List String) :=
  match event.body with
  | .consensus t payload => if t = term then payload.leaderIds? else none
  | _ => none

/-- The leaders of the last report of the term. -/
def lastReportOf (term : ℤ) (events : List DomainEvent) : Option (List String) :=
  (events.filterMap (reportOf? term)).getLast?

/-- The event reports a leader for the term. -/
def reportsTerm (term : ℤ) (event : DomainEvent) : Bool := (reportOf? term event).isSome

theorem consensusTerm?_of_reportsTerm (h : reportsTerm term event = true) :
    consensusTerm? event = some term := by
  unfold reportsTerm reportOf? at h
  unfold consensusTerm?
  split at h
  · rename_i t payload hbody
    split_ifs at h with ht
    · exact congrArg some ht
    · cases h
  · cases h

theorem lastReportOf_append (term : ℤ) (before after : List DomainEvent) :
    lastReportOf term (before ++ after) = (lastReportOf term after).or (lastReportOf term before) := by
  unfold lastReportOf
  rw [List.filterMap_append, List.getLast?_append]

theorem lastReportOf_concat (term : ℤ) (events : List DomainEvent) (event : DomainEvent) :
    lastReportOf term (events ++ [event]) =
      (reportOf? term event).or (lastReportOf term events) := by
  rw [lastReportOf_append]
  congr 1
  unfold lastReportOf
  cases h : reportOf? term event with
  | none => simp [h]
  | some ids => simp [h]

theorem lastReportOf_isSome_iff :
    (lastReportOf term events).isSome = true ↔ ∃ event ∈ events, reportsTerm term event = true := by
  unfold lastReportOf reportsTerm
  rw [List.getLast?_isSome, Ne, List.filterMap_eq_nil_iff]
  push Not
  simp only [Option.ne_none_iff_isSome]

/-- What an event does to the document of a term. -/
def consensusStep (term : ℤ) (doc : Option ConsensusDocument) (event : DomainEvent) :
    Option ConsensusDocument :=
  match event.body with
  | .consensus t _ =>
    if t = term then some (ConsensusDocument.record event.envelope.endpointId event.data doc)
    else doc
  | _ => doc

theorem lookup_consensus_applyEvent (term : ℤ) (publishes : Bool) (stamp : EventStamp)
    (s : ReadModel) (event : DomainEvent) :
    (applyEvent publishes stamp s event).1.consensus.lookup term =
      consensusStep term (s.consensus.lookup term) event := by
  cases hbody : event.body with
  | consensus t payload =>
    have hdoc : (applyEvent publishes stamp s event).1.consensus =
        s.consensus.upsert t (ConsensusDocument.record event.envelope.endpointId event.data) := by
      simp only [applyEvent, handle, hbody, applyConsensus]
      cases payload.leaderIds? <;> rfl
    rw [hdoc]
    simp only [consensusStep, hbody]
    split_ifs with ht
    · rw [ht, Collection.lookup_upsert]
    · exact Collection.lookup_upsert_ne (Ne.symm ht)
  | data name payload =>
    simp only [applyEvent, handle, hbody, consensusStep]
    cases payload <;> rfl
  | _ => simp only [applyEvent, handle, hbody, consensusStep]

/-- The `leader_ids` of the document of a term. -/
def leaderIdsIn (consensus : Collection ℤ ConsensusDocument) (term : ℤ) : Option Value :=
  (consensus.lookup term).bind fun doc => doc.fields "leader_ids"

theorem lookup_data_leaderIds {t : ℤ} {payload : ConsensusPayload}
    (hbody : event.body = .consensus t payload) :
    event.data.lookup "leader_ids" =
      payload.leaderIds?.map fun leaderIds => .list (leaderIds.map .str) := by
  unfold DomainEvent.data
  rw [hbody, List.lookup_append]
  cases payload <;> rfl

/-- A report replaces the leaders of its term, and nothing else does. -/
theorem leaderIdsIn_applyEvent (term : ℤ) (publishes : Bool) (stamp : EventStamp)
    (s : ReadModel) (event : DomainEvent) :
    leaderIdsIn (applyEvent publishes stamp s event).1.consensus term =
      ((reportOf? term event).map fun leaderIds => .list (leaderIds.map .str)).or
        (leaderIdsIn s.consensus term) := by
  unfold leaderIdsIn reportOf?
  rw [lookup_consensus_applyEvent]
  unfold consensusStep
  cases hbody : event.body with
  | consensus t payload =>
    by_cases ht : t = term
    · simp only [ht, if_true, Option.bind_some, ConsensusDocument.record, Document.set]
      rw [lookup_data_leaderIds hbody]
      cases s.consensus.lookup term <;> rfl
    · simp only [ht, if_false, Option.map_none, Option.none_or]
  | _ => simp only [Option.map_none, Option.none_or]

/-- The document of a term has the leaders of the last report. -/
theorem leaderIdsIn_project (term : ℤ) (publishes : Bool) (stamp : DomainEvent → EventStamp)
    (events : List DomainEvent) :
    leaderIdsIn (project publishes stamp {} events).consensus term =
      (lastReportOf term events).map fun leaderIds => .list (leaderIds.map .str) := by
  induction events using List.reverseRecOn with
  | nil => rfl
  | append_singleton events event ih =>
    rw [project_concat, leaderIdsIn_applyEvent, ih, lastReportOf_concat]
    cases reportOf? term event <;> rfl

/-- There is a document for each term that some consensus event is about. -/
theorem mem_consensus_project (publishes : Bool) (stamp : DomainEvent → EventStamp)
    (events : List DomainEvent) (term : ℤ) :
    term ∈ (project publishes stamp {} events).consensus ↔
      ∃ event ∈ events, consensusTerm? event = some term := by
  rw [← AList.lookup_isSome]
  induction events using List.reverseRecOn with
  | nil =>
    refine iff_of_false Bool.false_ne_true ?_
    rintro ⟨event, hevent, -⟩
    cases hevent
  | append_singleton events event ih =>
    rw [project_concat, lookup_consensus_applyEvent]
    unfold consensusStep consensusTerm? at *
    cases hbody : event.body with
    | consensus t payload =>
      by_cases ht : t = term
      · simp [hbody, ht]
      · simp [hbody, ht, ih]
    | _ => simp [hbody, ih]

/-- The answer of the query once the highest term is known. -/
theorem currentLeader_project (publishes : Bool) (stamp : DomainEvent → EventStamp)
    (hterm : ∃ event ∈ events, consensusTerm? event = some term)
    (hmax : ∀ event ∈ events, ∀ t, consensusTerm? event = some t → t ≤ term) :
    currentLeader (project publishes stamp {} events).consensus =
      (lastReportOf term events).bind List.head? := by
  have hkeys : (project publishes stamp {} events).consensus.keys.max? = some term := by
    rw [List.max?_eq_some_iff]
    refine ⟨AList.mem_keys.1 ((mem_consensus_project ..).2 hterm), fun t ht => ?_⟩
    obtain ⟨event, hevent, h⟩ := (mem_consensus_project ..).1 (AList.mem_keys.2 ht)
    exact hmax event hevent t h
  have hleaders : ((highestTerm (project publishes stamp {} events).consensus).bind fun doc =>
      doc.fields "leader_ids") =
        (lastReportOf term events).map fun leaderIds => .list (leaderIds.map .str) := by
    unfold highestTerm
    rw [hkeys, Option.bind_some]
    exact leaderIdsIn_project term publishes stamp events
  unfold currentLeader
  rw [hleaders]
  cases lastReportOf term events with
  | none => rfl
  | some leaderIds => cases leaderIds <;> rfl

/-! ### Sequences of reports -/

/-- What is behind the events: each is sent by an endpoint, is about a term from 1 on when it reports
leaders, and otherwise about one that was reported or 0. -/
structure Reported (events : List DomainEvent) : Prop where
  sent : ∀ event ∈ events, ∃ e, event.envelope.endpointId = some e
  positive : ∀ event ∈ events, ∀ term, reportsTerm term event = true → 1 ≤ term
  terms : ∀ event ∈ events, ∀ term, consensusTerm? event = some term →
    term = 0 ∨ ∃ report ∈ events, reportsTerm term report = true

/-- Some term has been reported, and of the highest one the last report of each endpoint names the
leader. -/
def NamedAtTop (events : List DomainEvent) (leader : String) : Prop :=
  ∃ term, (∃ event ∈ events, reportsTerm term event = true) ∧
    (∀ event ∈ events, ∀ t, reportsTerm t event = true → t ≤ term) ∧
    ∀ e, ∀ leaderIds ∈ lastReportOf term (streamOf events e), leaderIds.head? = some leader

/-- It is enough that no report of the highest term names another. -/
theorem namedAtTop_of_all {leader : String}
    (hreport : ∃ event ∈ events, reportsTerm term event = true)
    (hmax : ∀ event ∈ events, ∀ t ∈ consensusTerm? event, t ≤ term)
    (hnamed : ∀ event ∈ events, ∀ leaderIds ∈ reportOf? term event,
      leaderIds.head? = some leader) : NamedAtTop events leader := by
  refine ⟨term, hreport, fun event hevent t hreports =>
    hmax event hevent t (consensusTerm?_of_reportsTerm hreports), fun e leaderIds hlast => ?_⟩
  obtain ⟨event, hevent, hids⟩ := List.mem_filterMap.1 (List.mem_of_getLast? hlast)
  exact hnamed event (mem_streamOf.1 hevent).1 leaderIds hids

/-- A highest reported term is a highest term. -/
theorem Reported.term_le (h : Reported events)
    (hreport : ∃ event ∈ events, reportsTerm term event = true)
    (hmax : ∀ event ∈ events, ∀ t, reportsTerm t event = true → t ≤ term) :
    ∀ event ∈ events, ∀ t, consensusTerm? event = some t → t ≤ term := by
  intro event hevent t ht
  obtain rfl | ⟨report, hmem, hreports⟩ := h.terms event hevent t ht
  · obtain ⟨report, hmem, hreports⟩ := hreport
    have hpos := h.positive report hmem term hreports
    omega
  · exact hmax report hmem t hreports

theorem Reported.interleaves (h : Reported events) {events' : List DomainEvent}
    (hevents : Interleaves (streamOf events) events') : Reported events' where
  sent event hevent := h.sent event ((hevents.mem_iff h.sent).1 hevent)
  positive event hevent := h.positive event ((hevents.mem_iff h.sent).1 hevent)
  terms event hevent term hterm := by
    obtain hzero | ⟨report, hmem, hreports⟩ :=
      h.terms event ((hevents.mem_iff h.sent).1 hevent) term hterm
    · exact .inl hzero
    · exact .inr ⟨report, (hevents.mem_iff h.sent).2 hmem, hreports⟩

/-- The last report of a term is the last one of some endpoint. -/
theorem exists_lastReportOf_streamOf (hsent : ∀ event ∈ events, ∃ e, event.envelope.endpointId = some e)
    {leaderIds : List String} (h : lastReportOf term events = some leaderIds) :
    ∃ e, lastReportOf term (streamOf events e) = some leaderIds := by
  induction events using List.reverseRecOn with
  | nil => cases h
  | append_singleton events event ih =>
    rw [lastReportOf_concat] at h
    cases hreport : reportOf? term event with
    | none =>
      rw [hreport, Option.none_or] at h
      obtain ⟨e, he⟩ := ih (fun event hevent => hsent event (List.mem_append_left _ hevent)) h
      refine ⟨e, ?_⟩
      rw [streamOf_append, lastReportOf_append, he]
      have hnone : lastReportOf term (streamOf [event] e) = none := by
        unfold lastReportOf
        rw [List.getLast?_eq_none_iff, List.filterMap_eq_nil_iff]
        intro event' hevent'
        obtain rfl := List.mem_singleton.1 (mem_streamOf.1 hevent').1
        exact hreport
      rw [hnone, Option.none_or]
    | some ids =>
      rw [hreport, Option.some_or] at h
      obtain ⟨e, he⟩ := hsent event (List.mem_append_right _ (List.mem_singleton_self _))
      refine ⟨e, ?_⟩
      have hown : streamOf [event] e = [event] :=
        List.filter_eq_self.2 fun event' hevent' => by
          rw [List.mem_singleton.1 hevent']
          exact decide_eq_true he
      rw [streamOf_append, hown, lastReportOf_concat, hreport, Option.some_or, h]

/-- An answer of the query comes from reports of the highest term. -/
theorem exists_top_of_currentLeader {publishes : Bool} {stamp : DomainEvent → EventStamp}
    {leader : String}
    (h : currentLeader (project publishes stamp {} events).consensus = some leader) :
    ∃ term, (∃ event ∈ events, reportsTerm term event = true) ∧
      ∀ event ∈ events, ∀ t, reportsTerm t event = true → t ≤ term := by
  unfold currentLeader highestTerm at h
  cases hkeys : (project publishes stamp {} events).consensus.keys.max? with
  | none =>
    rw [hkeys] at h
    cases h
  | some term =>
    have hleaders := leaderIdsIn_project term publishes stamp events
    unfold leaderIdsIn at hleaders
    rw [hkeys, Option.bind_some, hleaders] at h
    have hsome : (lastReportOf term events).isSome = true := by
      cases hlast : lastReportOf term events with
      | none =>
        rw [hlast] at h
        cases h
      | some leaderIds => rfl
    refine ⟨term, lastReportOf_isSome_iff.1 hsome, fun event hevent t hreports => ?_⟩
    exact (List.max?_eq_some_iff.1 hkeys).2 t (AList.mem_keys.1 ((mem_consensus_project ..).2
      ⟨event, hevent, consensusTerm?_of_reportsTerm hreports⟩))

/-- The query answers alike in whatever order the streams are projected, and right, exactly when the
last reports of the highest term name the leader. -/
theorem Reported.currentLeader_correct_iff (h : Reported events) (publishes : Bool)
    (stamp : DomainEvent → EventStamp) (leader : String) :
    (∀ events', Interleaves (streamOf events) events' →
        currentLeader (project publishes stamp {} events').consensus = some leader) ↔
      NamedAtTop events leader := by
  constructor
  · intro hall
    obtain ⟨term, hreport, hmax⟩ := exists_top_of_currentLeader (hall _ (interleaves_self h.sent))
    refine ⟨term, hreport, hmax, fun e leaderIds hlast => ?_⟩
    have hevents := interleaves_last h.sent e
    have hanswer := hall _ hevents
    obtain ⟨report, hmem, hreports⟩ := hreport
    rw [currentLeader_project publishes stamp
        ⟨report, (hevents.mem_iff h.sent).2 hmem, consensusTerm?_of_reportsTerm hreports⟩
        fun event hevent => h.term_le ⟨report, hmem, hreports⟩ hmax event
          ((hevents.mem_iff h.sent).1 hevent),
      lastReportOf_append, hlast, Option.some_or, Option.bind_some] at hanswer
    exact hanswer
  · rintro ⟨term, ⟨report, hmem, hreports⟩, hmax, hnamed⟩ events' hevents
    have hreport' : ∃ event ∈ events', reportsTerm term event = true :=
      ⟨report, (hevents.mem_iff h.sent).2 hmem, hreports⟩
    obtain ⟨leaderIds, hlast⟩ := Option.isSome_iff_exists.1 (lastReportOf_isSome_iff.2 hreport')
    obtain ⟨e, he⟩ := exists_lastReportOf_streamOf hevents.sent hlast
    rw [hevents.order e] at he
    rw [currentLeader_project publishes stamp
        ⟨report, (hevents.mem_iff h.sent).2 hmem, consensusTerm?_of_reportsTerm hreports⟩
        fun event hevent => h.term_le ⟨report, hmem, hreports⟩ hmax event
          ((hevents.mem_iff h.sent).1 hevent),
      hlast, Option.bind_some]
    exact hnamed e leaderIds he

end Documents

/-! ### Clusters -/

/-- A process of an endpoint, with what `App` keeps between two ticks. -/
structure ConsensusProcess where
  elector : BullyLeaderElector
  clusterHighWater : ℕ := 0
  clusterMemberIds : Option (List EndpointId) := none

/-- The processes that run, and what has been published so far. -/
structure LeaderHistory where
  processes : Dict EndpointId ConsensusProcess
  published : List DomainEvent

/-- What happens in a cluster. -/
inductive LeaderAction
  /-- an endpoint joins or comes back, with a new process -/
  | boot (endpointId : EndpointId)
  /-- its process ends -/
  | stop (endpointId : EndpointId)
  /-- it looks at the members that it has heard of -/
  | tick (endpointId : EndpointId) (members : List EndpointId)
      (virtualEnvironmentId : Option String) (stamp : ConsensusEvent → EventStamp)

/-- `on_leader_elected`, `on_consensus_view_changed` and `on_cluster_quorum_event`.  `listOf` is
`list` on sets of ids. -/
def onConsensusEvent (listOf : Finset EndpointId → List EndpointId) : ConsensusEvent → EventBody
  | .quorumLost term memberCount quorumSize =>
    .consensus term (.quorumLost memberCount quorumSize)
  | .quorumRestored term memberCount quorumSize =>
    .consensus term (.quorumRestored memberCount quorumSize)
  | .degraded term memberCount quorumSize evictedPeerId =>
    .consensus term (.degraded memberCount quorumSize evictedPeerId)
  | .leaderElected leaderIds term => .consensus term (.leaderElected (listOf leaderIds))
  | .consensusViewChanged term wasLeader isLeader leaderIds =>
    .consensus term (.viewChanged wasLeader isLeader (listOf leaderIds))

namespace LeaderHistory

/-- No endpoint runs yet. -/
def init : LeaderHistory where
  processes := ∅
  published := []

/-- The event that an endpoint publishes. -/
def publishedEvent (listOf : Finset EndpointId → List EndpointId) (endpointId : EndpointId)
    (virtualEnvironmentId : Option String) (stamp : ConsensusEvent → EventStamp)
    (event : ConsensusEvent) : DomainEvent where
  envelope :=
    { eventId := (stamp event).eventId
      createdAt := (stamp event).createdAt
      virtualEnvironmentId := virtualEnvironmentId
      endpointId := some endpointId }
  body := onConsensusEvent listOf event

/-- One step. -/
def step (listOf : Finset EndpointId → List EndpointId) (s : LeaderHistory) :
    LeaderAction → Option LeaderHistory
  | .boot e =>
    match s.processes.lookup e with
    | some _ => none
    | none => some { s with processes := s.processes.insert e { elector := .new e } }
  | .stop e =>
    match s.processes.lookup e with
    | some _ => some { s with processes := s.processes.erase e }
    | none => none
  | .tick e members virtualEnvironmentId stamp =>
    match s.processes.lookup e with
    | some process =>
      let tick := runConsensusTick process.elector members process.elector.selfId
        process.clusterHighWater process.clusterMemberIds
      some
        { processes := s.processes.insert e
            { elector := tick.elector
              clusterHighWater := tick.highWaterMark
              clusterMemberIds := some tick.memberIds }
          published := s.published ++
            tick.events.map (publishedEvent listOf e virtualEnvironmentId stamp) }
    | none => none

/-- Every running process has last heard of those that run, and has elected the leader. -/
def Quiet (s : LeaderHistory) (leader : EndpointId) : Prop :=
  leader ∈ s.processes ∧ ∀ entry ∈ s.processes.entries,
    entry.2.elector.view.leaderIds = {leader} ∧
      entry.2.clusterMemberIds.map List.toFinset = some s.processes.keys.toFinset

variable {listOf : Finset EndpointId → List EndpointId} {s t : LeaderHistory}
  {action : LeaderAction}

/-- What has been published, and that the term of each process is 0 or was reported. -/
structure LeaderInv (s : LeaderHistory) : Prop where
  published : Reported s.published
  processes : ∀ e process, s.processes.lookup e = some process →
    process.elector.view.term = 0 ∨
      ∃ report ∈ s.published, reportsTerm process.elector.view.term report = true

theorem leaderInv_init : LeaderInv init where
  published :=
    { sent := fun event hevent => by cases hevent
      positive := fun event hevent => by cases hevent
      terms := fun event hevent => by cases hevent }
  processes e process h := by cases h

/-! ### A tick -/

/-- The term of a bus event. -/
def busTerm : ConsensusEvent → ℕ
  | .quorumLost term _ _ | .quorumRestored term _ _ | .degraded term _ _ _
  | .leaderElected _ term | .consensusViewChanged term _ _ _ => term

/-- The bus event carries leaders. -/
def BearsLeaders : ConsensusEvent → Prop
  | .leaderElected _ _ | .consensusViewChanged .. => True
  | _ => False

theorem consensusTerm?_publishedEvent (e : EndpointId) (virtualEnvironmentId : Option String)
    (stamp : ConsensusEvent → EventStamp) (event : ConsensusEvent) :
    consensusTerm? (publishedEvent listOf e virtualEnvironmentId stamp event) =
      some (busTerm event : ℤ) := by
  cases event <;> rfl

theorem reportsTerm_publishedEvent_iff {e : EndpointId} {virtualEnvironmentId : Option String}
    {stamp : ConsensusEvent → EventStamp} {event : ConsensusEvent} {term : ℤ} :
    reportsTerm term (publishedEvent listOf e virtualEnvironmentId stamp event) = true ↔
      BearsLeaders event ∧ (busTerm event : ℤ) = term := by
  unfold reportsTerm reportOf?
  cases event <;> simp [publishedEvent, onConsensusEvent, BearsLeaders, busTerm,
    ConsensusPayload.leaderIds?]

theorem busTerm_of_quorumEvents {term highWater : ℕ} {previous : Option (List EndpointId)}
    {memberIds : List EndpointId} {event : ConsensusEvent}
    (h : event ∈ quorumEvents term highWater previous memberIds) :
    busTerm event = term ∧ ¬ BearsLeaders event := by
  unfold quorumEvents at h
  cases previous with
  | none => cases h
  | some previous =>
    dsimp only at h
    split_ifs at h
    · rw [List.mem_singleton.1 h]
      exact ⟨rfl, id⟩
    · rw [List.mem_singleton.1 h]
      exact ⟨rfl, id⟩
    · obtain ⟨peerId, -, rfl⟩ := List.mem_map.1 h
      exact ⟨rfl, id⟩
    · cases h

/-- All events of a tick are about the term that it ends in. -/
theorem busTerm_of_tick {elector : BullyLeaderElector} {members : List EndpointId} {e : EndpointId}
    {highWater : ℕ} {previous : Option (List EndpointId)} {event : ConsensusEvent}
    (h : event ∈ (runConsensusTick elector members e highWater previous).events) :
    busTerm event = (elector.recompute members).view.term := by
  obtain hquorum | hview := List.mem_append.1 h
  · exact (busTerm_of_quorumEvents hquorum).1
  · unfold viewEvents at hview
    obtain helected | hchanged := List.mem_append.1 hview
    · split_ifs at helected
      · rw [List.mem_singleton.1 helected]
        rfl
      · cases helected
    · dsimp only at hchanged
      split_ifs at hchanged
      · rw [List.mem_singleton.1 hchanged]
        rfl
      · cases hchanged

/-- A tick reports leaders when the leader has changed, and then counts a new term. -/
theorem term_of_tick (elector : BullyLeaderElector) (members : List EndpointId) (e : EndpointId)
    (highWater : ℕ) (previous : Option (List EndpointId)) :
    let tick := runConsensusTick elector members e highWater previous
    (tick.elector = elector ∧ ∀ event ∈ tick.events, ¬ BearsLeaders event) ∨
      (tick.elector.view.term = elector.view.term + 1 ∧
        ∃ event ∈ tick.events, BearsLeaders event) := by
  intro tick
  by_cases hwinner : elector.view.leaderIds = {elector.winner members}
  · have hsame : elector.recompute members = elector :=
      BullyLeaderElector.recompute_of_winner hwinner
    refine .inl ⟨hsame, fun event hevent => ?_⟩
    obtain hquorum | hview := List.mem_append.1 hevent
    · exact (busTerm_of_quorumEvents hquorum).2
    · rw [hsame] at hview
      unfold viewEvents at hview
      simp at hview
  · have hterm : (elector.recompute members).view.term = elector.view.term + 1 := by
      unfold BullyLeaderElector.recompute
      rw [if_pos hwinner]
    refine .inr ⟨hterm, .leaderElected (elector.recompute members).view.leaderIds
      (elector.recompute members).view.term, ?_, trivial⟩
    refine List.mem_append_right _ (List.mem_append_left _ ?_)
    rw [if_pos (by omega)]
    exact List.mem_singleton_self _

/-- The term that a tick ends in is 0 or was reported, if that was so before. -/
theorem termReported_tick {events : List DomainEvent} {elector : BullyLeaderElector}
    (hterm : elector.view.term = 0 ∨
      ∃ report ∈ events, reportsTerm elector.view.term report = true)
    (members : List EndpointId) (highWater : ℕ) (previous : Option (List EndpointId))
    (e : EndpointId) (virtualEnvironmentId : Option String)
    (stamp : ConsensusEvent → EventStamp) :
    let tick := runConsensusTick elector members elector.selfId highWater previous
    tick.elector.view.term = 0 ∨
      ∃ report ∈ events ++ tick.events.map (publishedEvent listOf e virtualEnvironmentId stamp),
        reportsTerm tick.elector.view.term report = true := by
  intro tick
  obtain ⟨hsame, -⟩ | ⟨-, event, hevent, hbears⟩ :=
    term_of_tick elector members elector.selfId highWater previous
  · rw [show tick.elector = elector from hsame]
    obtain hzero | ⟨report, hmem, hreports⟩ := hterm
    · exact .inl hzero
    · exact .inr ⟨report, List.mem_append_left _ hmem, hreports⟩
  · refine .inr ⟨_, List.mem_append_right _ (List.mem_map_of_mem hevent), ?_⟩
    rw [reportsTerm_publishedEvent_iff, busTerm_of_tick hevent]
    exact ⟨hbears, rfl⟩

theorem reported_tick {events : List DomainEvent} (h : Reported events)
    {elector : BullyLeaderElector}
    (hterm : elector.view.term = 0 ∨
      ∃ report ∈ events, reportsTerm elector.view.term report = true)
    (members : List EndpointId) (highWater : ℕ) (previous : Option (List EndpointId))
    (e : EndpointId) (virtualEnvironmentId : Option String)
    (stamp : ConsensusEvent → EventStamp) :
    Reported (events ++
      (runConsensusTick elector members elector.selfId highWater previous).events.map
        (publishedEvent listOf e virtualEnvironmentId stamp)) where
  sent event hevent := by
    obtain hold | hnew := List.mem_append.1 hevent
    · exact h.sent event hold
    · obtain ⟨bus, -, rfl⟩ := List.mem_map.1 hnew
      exact ⟨e, rfl⟩
  positive event hevent term hreports := by
    obtain hold | hnew := List.mem_append.1 hevent
    · exact h.positive event hold term hreports
    · obtain ⟨bus, hbus, rfl⟩ := List.mem_map.1 hnew
      obtain ⟨hbears, rfl⟩ := reportsTerm_publishedEvent_iff.1 hreports
      obtain ⟨-, hnone⟩ | ⟨hsucc, -⟩ :=
        term_of_tick elector members elector.selfId highWater previous
      · exact absurd hbears (hnone bus hbus)
      · rw [busTerm_of_tick hbus]
        change (elector.recompute members).view.term = _ at hsucc
        omega
  terms event hevent term hterm' := by
    obtain hold | hnew := List.mem_append.1 hevent
    · obtain hzero | ⟨report, hmem, hreports⟩ := h.terms event hold term hterm'
      · exact .inl hzero
      · exact .inr ⟨report, List.mem_append_left _ hmem, hreports⟩
    · obtain ⟨bus, hbus, rfl⟩ := List.mem_map.1 hnew
      rw [consensusTerm?_publishedEvent, busTerm_of_tick hbus] at hterm'
      obtain rfl := Option.some.inj hterm'
      obtain hzero | hreported := @termReported_tick listOf _ _ hterm members highWater
        previous e virtualEnvironmentId stamp
      · exact .inl (by exact_mod_cast hzero)
      · exact .inr hreported

/-! ### Runs -/

theorem LeaderInv.boot_or_stop (h : s.LeaderInv) {processes : Dict EndpointId ConsensusProcess}
    (hprocesses : ∀ e process, processes.lookup e = some process →
      s.processes.lookup e = some process ∨ process.elector.view.term = 0) :
    LeaderInv { s with processes := processes } where
  published := h.published
  processes e process hlookup := by
    obtain hold | hzero := hprocesses e process hlookup
    · exact h.processes e process hold
    · exact .inl hzero

theorem leaderInv_step (h : s.LeaderInv) (hstep : step listOf s action = some t) :
    t.LeaderInv := by
  cases action with
  | boot e =>
    unfold step at hstep
    cases hlookup : s.processes.lookup e with
    | some process =>
      simp only [hlookup] at hstep
      cases hstep
    | none =>
      simp only [hlookup] at hstep
      obtain rfl := Option.some.inj hstep
      refine h.boot_or_stop fun e' process hprocess => ?_
      by_cases he : e' = e
      · subst he
        rw [AList.lookup_insert] at hprocess
        exact .inr (by rw [← Option.some.inj hprocess]; rfl)
      · rw [AList.lookup_insert_ne he] at hprocess
        exact .inl hprocess
  | stop e =>
    unfold step at hstep
    cases hlookup : s.processes.lookup e with
    | none =>
      simp only [hlookup] at hstep
      cases hstep
    | some process =>
      simp only [hlookup] at hstep
      obtain rfl := Option.some.inj hstep
      refine h.boot_or_stop fun e' process hprocess => ?_
      by_cases he : e' = e
      · subst he
        rw [AList.lookup_erase] at hprocess
        cases hprocess
      · rw [AList.lookup_erase_ne he] at hprocess
        exact .inl hprocess
  | tick e members virtualEnvironmentId stamp =>
    unfold step at hstep
    cases hlookup : s.processes.lookup e with
    | none =>
      simp only [hlookup] at hstep
      cases hstep
    | some process =>
      simp only [hlookup] at hstep
      obtain rfl := Option.some.inj hstep
      have hterm := h.processes e process hlookup
      refine ⟨reported_tick h.published hterm _ _ _ _ _ _, fun e' process' hprocess => ?_⟩
      by_cases he : e' = e
      · subst he
        rw [AList.lookup_insert] at hprocess
        obtain rfl := Option.some.inj hprocess
        exact termReported_tick hterm ..
      · rw [AList.lookup_insert_ne he] at hprocess
        obtain hzero | ⟨report, hmem, hreports⟩ := h.processes e' process' hprocess
        · exact .inl hzero
        · exact .inr ⟨report, List.mem_append_left _ hmem, hreports⟩

theorem leaderInv_of_run {actions : List LeaderAction}
    (hrun : run (step listOf) init actions = some s) : s.LeaderInv :=
  Reach.invariant leaderInv_init (fun _ _ _ hs _ hstep => leaderInv_step hs hstep)
    (reach_of_run hrun)

/-- After whatever has happened in the cluster, the query names an endpoint in whatever order the
streams are projected exactly when the last reports of the highest term name it; this holds for the
leader of a quiet cluster in particular. -/
theorem currentLeader_iff (listOf : Finset EndpointId → List EndpointId) (publishes : Bool)
    (stamp : DomainEvent → EventStamp) {actions : List LeaderAction} {s : LeaderHistory}
    (hrun : run (step listOf) init actions = some s) (leader : EndpointId) :
    (∀ events, Interleaves (streamOf s.published) events →
        currentLeader (project publishes stamp {} events).consensus = some leader) ↔
      NamedAtTop s.published leader :=
  (leaderInv_of_run hrun).published.currentLeader_correct_iff publishes stamp leader

/-- `list` on a set of ids, the lowest first. -/
def sortedList (ids : Finset EndpointId) : List EndpointId := ids.sort (· ≤ ·)

/-- A look at the members, without a virtual environment. -/
def look (endpointId : EndpointId) (members : List EndpointId) : LeaderAction :=
  .tick endpointId members none fun _ => ⟨"e", "2024-01-01T00:00:00Z"⟩

/-- Two endpoints join and see each other. -/
def joined : List LeaderAction := [.boot "n1", .boot "n2", look "n1" ["n2"], look "n2" ["n1"]]

/-- `n1` sees `n3` come, go and come back. `n3` leaves for good and `n1` is restarted, then it and
`n2` see each other. -/
def restarted : List LeaderAction :=
  [.boot "n1", .boot "n2", .boot "n3", look "n1" ["n3", "n2"], look "n1" ["n2"],
    look "n1" ["n3", "n2"], .stop "n3", .stop "n1", .boot "n1", look "n1" ["n2"],
    look "n2" ["n1"]]

instance (s : LeaderHistory) (leader : EndpointId) : Decidable (s.Quiet leader) :=
  inferInstanceAs (Decidable (_ ∧ ∀ entry ∈ s.processes.entries, _ ∧ _))

/-- In the cluster that just formed, the query names the leader. -/
theorem currentLeader_joined : ∃ s, run (step sortedList) init joined = some s ∧ s.Quiet "n2" ∧
    ∀ events, Interleaves (streamOf s.published) events →
      currentLeader (project true (fun _ => ⟨"s", ""⟩) {} events).consensus = some "n2" := by
  obtain ⟨s, hs, htest⟩ : ∃ s, run (step sortedList) init joined = some s ∧
      (decide (s.Quiet "n2") &&
        s.published.any (reportsTerm 1) &&
        s.published.all fun event =>
          (consensusTerm? event).all (fun t => decide (t ≤ 1)) &&
            (reportOf? 1 event).all fun leaderIds => leaderIds.head? = some "n2") = true :=
    ⟨_, rfl, by decide +kernel⟩
  simp only [Bool.and_eq_true, decide_eq_true_eq, List.any_eq_true, List.all_eq_true,
    Option.all_eq_true] at htest
  obtain ⟨⟨hquiet, hreport⟩, hall⟩ := htest
  exact ⟨s, hs, hquiet, (currentLeader_iff sortedList true (fun _ => ⟨"s", ""⟩) hs "n2").2
    (namedAtTop_of_all hreport (fun event hevent t ht => (hall event hevent).1 t ht)
      fun event hevent ids hids => (hall event hevent).2 ids hids)⟩

/-- After the restart the elector of `n1` counts from 0, and the query goes on to name an endpoint
that has left. -/
theorem currentLeader_restarted : ∃ s, run (step sortedList) init restarted = some s ∧
    s.Quiet "n2" ∧ ∃ events, Interleaves (streamOf s.published) events ∧
      currentLeader (project true (fun _ => ⟨"s", ""⟩) {} events).consensus ≠ some "n2" := by
  obtain ⟨s, hs, hquiet, hleader⟩ : ∃ s, run (step sortedList) init restarted = some s ∧
      s.Quiet "n2" ∧
      currentLeader (project true (fun _ => ⟨"s", ""⟩) {} s.published).consensus ≠ some "n2" :=
    ⟨_, rfl, by decide +kernel, by decide +kernel⟩
  exact ⟨s, hs, hquiet, s.published,
    interleaves_self (leaderInv_of_run hs).published.sent, hleader⟩

end LeaderHistory

end Axo.Projector
