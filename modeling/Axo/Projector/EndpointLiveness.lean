import Axo.Projector.ReadModel

/-!
# What liveness events do to an endpoint document

`EndpointLivenessWorker` of `infrastructure/transport/zmq_command/endpoint_liveness_worker.py` and the
endpoint events of `compute_handler.apply`.

* `check` is `_check`: the event that a ping leads to;
* `EndpointFacts` are the four fields that an outage should leave alone, `EndpointFacts.step` what one
  event does to them;
* `facts_project_iff` says when they are as if no liveness event had been projected: each such event
  clears the virtual environment and takes the place of the time last seen, until the endpoint
  reports again.
-/

namespace Axo.Projector

variable {endpointId : String} {event : DomainEvent} {doc : Option (Document String Value)}

/-! ### The worker -/

/-- The event that `_check` publishes.  `reachable` is the answer of `_ping`, `none` when there is no
`router_bind` to ask at. -/
def check (stamp : EventStamp) (endpointId : String) (createdAt : Option String)
    (currentlyUnreachable : Bool) (reachable : Option Bool) : Option DomainEvent :=
  let envelope : EventEnvelope :=
    { eventId := stamp.eventId, createdAt := stamp.createdAt, endpointId := some endpointId }
  match currentlyUnreachable, reachable with
  | true, some true => some ⟨envelope, .endpoint .recovered⟩
  | false, some false => some ⟨envelope, .endpoint (.unreachable createdAt)⟩
  | _, _ => none

/-- An `EndpointUnreachable` or `EndpointRecovered`. -/
def DomainEvent.isLiveness (event : DomainEvent) : Bool :=
  match event.body with
  | .endpoint (.unreachable _) | .endpoint .recovered => true
  | _ => false

/-- The event is one that the worker has built. -/
def DomainEvent.FromWorker (event : DomainEvent) : Prop :=
  ∃ stamp endpointId createdAt currentlyUnreachable reachable,
    check stamp endpointId createdAt currentlyUnreachable reachable = some event

/-- The worker knows nothing of virtual environments. -/
theorem DomainEvent.FromWorker.virtualEnvironmentId (h : event.FromWorker) :
    event.envelope.virtualEnvironmentId = none := by
  obtain ⟨stamp, endpointId, createdAt, currentlyUnreachable, reachable, hcheck⟩ := h
  unfold check at hcheck
  split at hcheck
  · obtain rfl := Option.some.inj hcheck
    rfl
  · obtain rfl := Option.some.inj hcheck
    rfl
  · cases hcheck

/-! ### The document -/

/-- The event is an endpoint event about the endpoint. -/
def DomainEvent.concerns (endpointId : String) (event : DomainEvent) : Bool :=
  match event.body with
  | .endpoint _ => event.envelope.endpointId = some endpointId
  | _ => false

/-- `doc.get(key)`. -/
def getField (doc : Option (Document String Value)) (key : String) : Value :=
  (doc.bind fun doc => doc key).getD .none

/-- The fields that an outage should leave alone.  `created_at` is the time last seen. -/
structure EndpointFacts where
  virtualEnvironmentId : Value
  routerBind : Value
  metrics : Value
  createdAt : Value
  deriving DecidableEq

def facts (doc : Option (Document String Value)) : EndpointFacts where
  virtualEnvironmentId := getField doc "virtual_environment_id"
  routerBind := getField doc "router_bind"
  metrics := getField doc "metrics"
  createdAt := getField doc "created_at"

/-- What an endpoint event does to the four fields. -/
def EndpointFacts.apply (facts : EndpointFacts) (envelope : EventEnvelope)
    (payload : EndpointPayload) : EndpointFacts where
  virtualEnvironmentId := optional .str envelope.virtualEnvironmentId
  createdAt := .str envelope.createdAt
  routerBind :=
    match payload with
    | .started routerBind _ => .str routerBind
    | _ => facts.routerBind
  metrics :=
    match payload with
    | .metricsReported metrics => .dict metrics
    | _ => facts.metrics

/-- What any event does to the four fields of the endpoint. -/
def EndpointFacts.step (endpointId : String) (facts : EndpointFacts) (event : DomainEvent) :
    EndpointFacts :=
  match event.body with
  | .endpoint payload =>
    if event.envelope.endpointId = some endpointId then facts.apply event.envelope payload else facts
  | _ => facts

theorem facts_setEndpoint (envelope : EventEnvelope) (payload : EndpointPayload) :
    facts (some ((doc.getD fun _ => none).set
        (withField (payload.fields ++ envelope.fields) "status" payload.status?))) =
      (facts doc).apply envelope payload := by
  have hget (fields : Fields) (key : String) :
      getField (some ((doc.getD fun _ => none).set fields)) key =
        (fields.lookup key).getD (getField doc key) := by
    unfold getField Document.set
    cases hlookup : fields.lookup key <;> cases doc <;> simp [hlookup]
  unfold facts EndpointFacts.apply
  simp only [hget]
  cases payload <;> rfl

theorem facts_applyEvent (publishes : Bool) (stamp : EventStamp) (s : ReadModel)
    (event : DomainEvent) :
    facts ((applyEvent publishes stamp s event).1.endpoints.lookup (some endpointId)) =
      (facts (s.endpoints.lookup (some endpointId))).step endpointId event := by
  cases hbody : event.body with
  | endpoint payload =>
    simp only [applyEvent, handle, hbody, EndpointFacts.step, setEndpoint]
    split_ifs with hid
    · rw [← hid, Collection.lookup_upsert]
      have hdata : event.data = payload.fields ++ event.envelope.fields := by
        unfold DomainEvent.data
        rw [hbody]
        rfl
      rw [hdata]
      exact facts_setEndpoint _ _
    · rw [Collection.lookup_upsert_ne (Ne.symm hid)]
  | consensus term payload =>
    simp only [applyEvent, handle, hbody, applyConsensus, EndpointFacts.step]
    cases payload.leaderIds? <;> rfl
  | data name payload =>
    simp only [applyEvent, handle, hbody, EndpointFacts.step]
    cases payload <;> rfl
  | _ => simp only [applyEvent, handle, hbody, EndpointFacts.step]

/-- The four fields after a sequence of events. -/
theorem facts_project (publishes : Bool) (stamp : DomainEvent → EventStamp) (s : ReadModel)
    (events : List DomainEvent) :
    facts ((project publishes stamp s events).endpoints.lookup (some endpointId)) =
      events.foldl (EndpointFacts.step endpointId) (facts (s.endpoints.lookup (some endpointId))) :=
  (List.foldl_hom (fun s : ReadModel => facts (s.endpoints.lookup (some endpointId)))
    fun s event => (facts_applyEvent publishes (stamp event) s event).symm).symm

/-! ### With and without the liveness events -/

/-- The event as the endpoint's own reports leave the document: its virtual environment and its
time. -/
def reported (event : DomainEvent) : Value × Value :=
  (optional .str event.envelope.virtualEnvironmentId, .str event.envelope.createdAt)

/-- The virtual environment and the time of the last report of the endpoint itself, or those of the
document when it has not reported. -/
def lastReport (endpointId : String) (initial : EndpointFacts) (events : List DomainEvent) :
    Value × Value :=
  (((events.filter fun event => event.concerns endpointId && !event.isLiveness).getLast?).map
    reported).getD (initial.virtualEnvironmentId, initial.createdAt)

/-- Every liveness event about the endpoint is followed by a report of the endpoint itself; or else
the last report names no virtual environment and carries the very time of the last liveness event. -/
def Restored (endpointId : String) (initial : EndpointFacts) (events : List DomainEvent) : Prop :=
  ∀ event, (events.filter (DomainEvent.concerns endpointId)).getLast? = some event →
    event.isLiveness = true →
      lastReport endpointId initial events = (.none, .str event.envelope.createdAt)

variable {initial : EndpointFacts} {events : List DomainEvent}

theorem step_of_not_concerns (facts : EndpointFacts) (h : event.concerns endpointId = false) :
    facts.step endpointId event = facts := by
  unfold EndpointFacts.step
  unfold DomainEvent.concerns at h
  cases hbody : event.body with
  | endpoint payload =>
    simp only [hbody, decide_eq_false_iff_not] at h
    exact if_neg h
  | _ => rfl

/-- A liveness event leaves `router_bind` and `metrics`. -/
theorem step_of_liveness (facts : EndpointFacts) (h : event.concerns endpointId = true)
    (hlive : event.isLiveness = true) :
    facts.step endpointId event =
      { facts with
        virtualEnvironmentId := optional .str event.envelope.virtualEnvironmentId
        createdAt := .str event.envelope.createdAt } := by
  unfold EndpointFacts.step
  unfold DomainEvent.concerns at h
  unfold DomainEvent.isLiveness at hlive
  cases hbody : event.body with
  | endpoint payload =>
    simp only [hbody, decide_eq_true_eq] at h hlive ⊢
    rw [if_pos h]
    cases payload with
    | unreachable lastSeenAt => rfl
    | recovered => rfl
    | _ => cases hlive
  | _ => simp [hbody] at h

/-- Any other endpoint event sets the virtual environment and the time to its own. -/
theorem step_of_report (facts : EndpointFacts) (h : event.concerns endpointId = true) :
    ((facts.step endpointId event).virtualEnvironmentId, (facts.step endpointId event).createdAt) =
      reported event := by
  unfold EndpointFacts.step
  unfold DomainEvent.concerns at h
  cases hbody : event.body with
  | endpoint payload =>
    simp only [hbody, decide_eq_true_eq] at h ⊢
    rw [if_pos h]
    rfl
  | _ => simp [hbody] at h

/-- A report makes no difference between facts that have `router_bind` and `metrics` in common. -/
theorem step_congr {facts facts' : EndpointFacts} (h : event.concerns endpointId = true)
    (hbind : facts.routerBind = facts'.routerBind) (hmetrics : facts.metrics = facts'.metrics) :
    facts.step endpointId event = facts'.step endpointId event := by
  unfold EndpointFacts.step
  unfold DomainEvent.concerns at h
  cases hbody : event.body with
  | endpoint payload =>
    simp only [hbody, decide_eq_true_eq] at h ⊢
    rw [if_pos h, if_pos h]
    unfold EndpointFacts.apply
    rw [hbind, hmetrics]
  | _ => simp [hbody] at h

/-- How the facts with the liveness events compare with those without. -/
structure Compared (endpointId : String) (initial : EndpointFacts) (events : List DomainEvent)
    (all others : EndpointFacts) : Prop where
  routerBind : all.routerBind = others.routerBind
  metrics : all.metrics = others.metrics
  others : (others.virtualEnvironmentId, others.createdAt) = lastReport endpointId initial events
  all : (all.virtualEnvironmentId, all.createdAt) =
    match (events.filter (DomainEvent.concerns endpointId)).getLast? with
    | some event => reported event
    | none => (initial.virtualEnvironmentId, initial.createdAt)

theorem compared_project (endpointId : String) (initial : EndpointFacts)
    (events : List DomainEvent) :
    Compared endpointId initial events (events.foldl (EndpointFacts.step endpointId) initial)
      ((events.filter fun event => !event.isLiveness).foldl (EndpointFacts.step endpointId)
        initial) := by
  induction events using List.reverseRecOn with
  | nil => exact ⟨rfl, rfl, rfl, rfl⟩
  | append_singleton events event ih =>
    have hlast (p : DomainEvent → Bool) (h : p event = true) :
        ((events ++ [event]).filter p).getLast? = some event := by
      rw [List.filter_append, List.filter_singleton, h]
      exact List.getLast?_concat
    have hsame (p : DomainEvent → Bool) (h : p event = false) :
        (events ++ [event]).filter p = events.filter p := by
      rw [List.filter_append, List.filter_singleton, h]
      exact List.append_nil _
    rw [List.foldl_append, List.foldl_cons, List.foldl_nil]
    cases hconcerns : event.concerns endpointId with
    | false =>
      have hothers : ((events ++ [event]).filter fun event => !event.isLiveness).foldl
          (EndpointFacts.step endpointId) initial =
            (events.filter fun event => !event.isLiveness).foldl (EndpointFacts.step endpointId)
              initial := by
        rw [List.filter_append, List.foldl_append, List.filter_singleton]
        cases event.isLiveness
        · exact step_of_not_concerns _ hconcerns
        · rfl
      rw [step_of_not_concerns _ hconcerns, hothers]
      refine ⟨ih.routerBind, ih.metrics, ?_, ?_⟩
      · rw [ih.others, lastReport, lastReport, hsame _ (by rw [hconcerns, Bool.false_and])]
      · rw [ih.all, hsame _ hconcerns]
    | true =>
      cases hlive : event.isLiveness with
      | true =>
        rw [hsame _ (by rw [hlive]; rfl), step_of_liveness _ hconcerns hlive]
        refine ⟨ih.routerBind, ih.metrics, ?_, ?_⟩
        · rw [ih.others, lastReport, lastReport,
            hsame _ (by rw [hlive, Bool.not_true, Bool.and_false])]
        · rw [hlast _ hconcerns]
          rfl
      | false =>
        have hothers : ((events ++ [event]).filter fun event => !event.isLiveness).foldl
            (EndpointFacts.step endpointId) initial =
              ((events.filter fun event => !event.isLiveness).foldl
                (EndpointFacts.step endpointId) initial).step endpointId event := by
          rw [List.filter_append, List.foldl_append, List.filter_singleton, hlive]
          rfl
        rw [hothers, step_congr hconcerns ih.routerBind ih.metrics]
        refine ⟨rfl, rfl, ?_, ?_⟩
        · rw [step_of_report _ hconcerns, lastReport,
            hlast _ (by rw [hconcerns, hlive]; rfl)]
          rfl
        · rw [step_of_report _ hconcerns, hlast _ hconcerns]

/-- Without a liveness event at the end the last report is that of the last event. -/
theorem lastReport_eq {last : DomainEvent}
    (hlast : (events.filter (DomainEvent.concerns endpointId)).getLast? = some last)
    (hlive : last.isLiveness = false) : lastReport endpointId initial events = reported last := by
  obtain ⟨before, hsplit⟩ := List.getLast?_eq_some_iff.1 hlast
  have hfilter : (events.filter fun event => event.concerns endpointId && !event.isLiveness) =
      (before.filter fun event => !event.isLiveness) ++ [last] := by
    have hboth : (events.filter (DomainEvent.concerns endpointId)).filter
        (fun event => !event.isLiveness) =
          events.filter fun event => !event.isLiveness && event.concerns endpointId :=
      List.filter_filter
    rw [hsplit, List.filter_append, List.filter_singleton, hlive] at hboth
    have hcomm : (fun event : DomainEvent => !event.isLiveness && event.concerns endpointId) =
        fun event => event.concerns endpointId && !event.isLiveness :=
      funext fun event => Bool.and_comm _ _
    rw [hcomm] at hboth
    exact hboth.symm
  rw [lastReport, hfilter, List.getLast?_concat]
  rfl

theorem lastReport_of_none
    (hnone : (events.filter (DomainEvent.concerns endpointId)).getLast? = none) :
    lastReport endpointId initial events = (initial.virtualEnvironmentId, initial.createdAt) := by
  have hnil := List.getLast?_eq_none_iff.1 hnone
  have hfilter : (events.filter fun event => event.concerns endpointId && !event.isLiveness) = [] := by
    have hall := List.filter_eq_nil_iff.1 hnil
    refine List.filter_eq_nil_iff.2 fun event hevent => ?_
    rw [Bool.and_eq_true]
    exact fun h => hall event hevent h.1
  rw [lastReport, hfilter]
  rfl

/-- The four fields of an endpoint document are as if the liveness events had been left out exactly
when the endpoint has reported after the last of them, or has no virtual environment and was last
seen at the very time that event was made. -/
theorem facts_project_iff (publishes : Bool) (stamp : DomainEvent → EventStamp) (s : ReadModel)
    (endpointId : String) (events : List DomainEvent)
    (hworker : ∀ event ∈ events, event.isLiveness = true → event.FromWorker) :
    facts ((project publishes stamp s events).endpoints.lookup (some endpointId)) =
        facts ((project publishes stamp s
          (events.filter fun event => !event.isLiveness)).endpoints.lookup (some endpointId)) ↔
      Restored endpointId (facts (s.endpoints.lookup (some endpointId))) events := by
  rw [facts_project, facts_project]
  generalize facts (s.endpoints.lookup (some endpointId)) = initial
  obtain ⟨hbind, hmetrics, hothers, hall⟩ := compared_project endpointId initial events
  have hiff (a b : EndpointFacts) (hb : a.routerBind = b.routerBind) (hm : a.metrics = b.metrics) :
      a = b ↔ (a.virtualEnvironmentId, a.createdAt) = (b.virtualEnvironmentId, b.createdAt) := by
    obtain ⟨av, ab, am, ac⟩ := a
    obtain ⟨bv, bb, bm, bc⟩ := b
    obtain rfl : ab = bb := hb
    obtain rfl : am = bm := hm
    simp
  rw [hiff _ _ hbind hmetrics, hothers, hall]
  unfold Restored
  cases hlast : (events.filter (DomainEvent.concerns endpointId)).getLast? with
  | none => exact iff_of_true (lastReport_of_none hlast).symm fun _ h => by cases h
  | some last =>
    have hmem : last ∈ events := List.mem_of_mem_filter (List.mem_of_getLast? hlast)
    cases hlive : last.isLiveness with
    | false =>
      refine iff_of_true (lastReport_eq hlast hlive).symm fun event hevent htrue => ?_
      obtain rfl := Option.some.inj hevent
      rw [hlive] at htrue
      cases htrue
    | true =>
      have hreported : reported last = (.none, .str last.envelope.createdAt) := by
        unfold reported
        rw [(hworker last hmem hlive).virtualEnvironmentId]
        rfl
      constructor
      · intro heq event hevent _
        obtain rfl := Option.some.inj hevent
        rw [← heq]
        exact hreported
      · intro h
        exact hreported.trans (h last rfl hlive).symm

/-- An endpoint that was reachable again reports. -/
def outage : List DomainEvent :=
  [⟨{ eventId := "e1", createdAt := "2024-01-01T00:00:01Z", virtualEnvironmentId := some "v",
      endpointId := some "n" },
      .endpoint (.started "tcp://0.0.0.0:5555" "tcp://0.0.0.0:5556")⟩,
    ⟨{ eventId := "e2", createdAt := "2024-01-01T00:00:02Z", endpointId := some "n" },
      .endpoint (.unreachable (some "2024-01-01T00:00:01Z"))⟩,
    ⟨{ eventId := "e3", createdAt := "2024-01-01T00:00:03Z", endpointId := some "n" },
      .endpoint .recovered⟩]

/-- Its report. -/
def backAgain : DomainEvent :=
  ⟨{ eventId := "e4", createdAt := "2024-01-01T00:00:04Z", virtualEnvironmentId := some "v",
     endpointId := some "n" },
    .endpoint (.metricsReported [])⟩

theorem outage_fromWorker : ∀ event ∈ outage, event.isLiveness = true → event.FromWorker := by
  intro event hevent hlive
  rcases List.mem_cons.1 hevent with rfl | hevent
  · cases hlive
  · rcases List.mem_pair.1 hevent with rfl | rfl
    · exact ⟨⟨"e2", "2024-01-01T00:00:02Z"⟩, "n", some "2024-01-01T00:00:01Z", false, some false, rfl⟩
    · exact ⟨⟨"e3", "2024-01-01T00:00:03Z"⟩, "n", none, true, some true, rfl⟩

theorem facts_project_restored :
    facts ((project true (fun _ => ⟨"", ""⟩) {} (outage ++ [backAgain])).endpoints.lookup
        (some "n")) =
      facts ((project true (fun _ => ⟨"", ""⟩) {}
        ((outage ++ [backAgain]).filter fun event => !event.isLiveness)).endpoints.lookup
          (some "n")) := by
  refine (facts_project_iff true _ {} "n" (outage ++ [backAgain]) fun event hevent hlive => ?_).2 ?_
  · rcases List.mem_append.1 hevent with hmem | hmem
    · exact outage_fromWorker event hmem hlive
    · obtain rfl := List.mem_singleton.1 hmem
      cases hlive
  · intro event hevent hlive
    have hlast : ((outage ++ [backAgain]).filter (DomainEvent.concerns "n")).getLast? =
        some backAgain := rfl
    rw [hlast] at hevent
    obtain rfl := Option.some.inj hevent
    cases hlive

/-- Until then it has lost its virtual environment, and the time last seen is that of its recovery. -/
theorem detached_by_outage :
    (∀ event ∈ outage, event.isLiveness = true → event.FromWorker) ∧
      facts ((project true (fun _ => ⟨"", ""⟩) {} outage).endpoints.lookup (some "n")) ≠
        facts ((project true (fun _ => ⟨"", ""⟩) {}
          (outage.filter fun event => !event.isLiveness)).endpoints.lookup (some "n")) :=
  ⟨outage_fromWorker, by decide +kernel⟩

end Axo.Projector
