import Axo.Projector.EndpointLiveness
import Axo.Projector.EndpointPurge

/-!
# Where a job is sent

`SubmitFunctionJobUseCase` of `application/compute/submit_function_job.py`, over the read model that a
history of events has left.

* `shownLeader_project_iff` says when a workspace shows a leader: `_apply_leader_change` looks the
  leader's workspace up when the report of the leader is projected, and at no other time;
* `endpoint_of_submit`: a job is sent to that leader, if it is still in the workspace, otherwise to
  the endpoint of the workspace that was seen last.
-/

namespace Axo.Projector

/-! ### The use case -/

/-- `created_at` of an endpoint, the time that it was last seen. -/
def lastSeen (endpoints : Collection (Option String) (Document String Value))
    (endpointId : Option String) : String :=
  match getField (endpoints.lookup endpointId) "created_at" with
  | .str createdAt => createdAt
  | _ => ""

/-- `_id` is not greater; a missing one is the least. -/
def idLe : Option String → Option String → Bool
  | none, _ => true
  | some _, none => false
  | some a, some b => decide (a ≤ b)

/-- The order of `sort([("created_at", -1), ("_id", 1)])`. -/
def seenLater (endpoints : Collection (Option String) (Document String Value))
    (a b : Option String) : Bool :=
  decide (lastSeen endpoints b < lastSeen endpoints a) ||
    decide (lastSeen endpoints a = lastSeen endpoints b) && idLe a b

/-- `list_by_virtual_environment`. -/
def listByVirtualEnvironment (endpoints : Collection (Option String) (Document String Value))
    (virtualEnvironmentId : String) : List (Option String) :=
  ((endpoints.rows.filter fun e =>
    e.2 "virtual_environment_id" = some (.str virtualEnvironmentId)).map Prod.fst).insertionSort
      fun a b => seenLater endpoints a b = true

/-- `_resolve_endpoint_id`, none where it raises. -/
def resolveEndpointId (s : ReadModel) (virtualEnvironmentId : String) : Option (Option String) :=
  let listed := (listByVirtualEnvironment s.endpoints virtualEnvironmentId).head?
  match (VirtualEnvironment.get (s.virtualEnvironments.lookup virtualEnvironmentId)).bind
    VirtualEnvironment.leaderEndpointId with
  | none => listed
  | some leaderEndpointId =>
    if virtualEnvironmentOf s.endpoints leaderEndpointId = some virtualEnvironmentId then
      some leaderEndpointId
    else listed

/-- `resolve_rpc_uri`. -/
def resolveRpcUri (bindAddress endpointId : String) : String :=
  "tcp://" ++ endpointId ++ ":" ++ (rpartition bindAddress).2

/-- What is sent: `JOB_SUBMIT` for a version of a function. -/
structure JobSubmission where
  endpointId : Option String
  rpcUri : String
  functionId : String
  functionVersion : ℤ
  params : Fields

inductive SubmitError
  | notFound
  | conflict
  | keyError
  deriving DecidableEq

/-- `SubmitFunctionJobUseCase.execute`, up to the command. -/
def submitFunctionJob (s : ReadModel) (functionId : String) (version : ℤ) (params : Fields) :
    Except SubmitError JobSubmission :=
  match s.functions.lookup (functionKey functionId version) with
  | none => .error .notFound
  | some doc =>
    match doc.toFunction? with
    | none => .error .keyError
    | some _ =>
      if doc.deleted then .error .notFound
      else
        match doc.fields "virtual_environment_id" with
        | some (.str virtualEnvironmentId) =>
          match resolveEndpointId s virtualEnvironmentId with
          | none => .error .conflict
          | some endpointId =>
            match getField (s.endpoints.lookup endpointId) "router_bind" with
            | .str routerBind =>
              if routerBind = "" then .error .conflict
              else
                .ok
                  { endpointId := endpointId
                    rpcUri := resolveRpcUri routerBind (endpointId.getD "None")
                    functionId := functionId
                    functionVersion := version
                    params := params }
            | _ => .error .conflict
        | _ => .error .conflict

/-! ### The leader of a workspace -/

/-- The one leader that an event reports, if it reports one. -/
def leaderReport? (event : DomainEvent) : Option String :=
  match event.body with
  | .consensus _ payload =>
    match payload.leaderIds? with
    | some [leaderEndpointId] => some leaderEndpointId
    | _ => none
  | _ => none

/-- The leader that a workspace shows. -/
def shownLeader (s : ReadModel) (virtualEnvironmentId : String) : Option String :=
  (s.virtualEnvironments.lookup virtualEnvironmentId).bind VirtualEnvironment.leaderEndpointId

section Leader

variable {publishes : Bool} {stamp : DomainEvent → EventStamp} {s : ReadModel}
  {event : DomainEvent} {events : List DomainEvent} {virtualEnvironmentId leaderEndpointId : String}

theorem shownLeader_workspaceHandler (envelope : EventEnvelope) (id : String)
    (payload : VirtualEnvPayload) :
    ((workspaceHandler s.virtualEnvironments envelope id payload).lookup virtualEnvironmentId).bind
      VirtualEnvironment.leaderEndpointId = shownLeader s virtualEnvironmentId := by
  unfold shownLeader
  by_cases hid : virtualEnvironmentId = id
  · subst hid
    cases payload with
    | created name ownerUserId resourceQuota =>
      dsimp only [workspaceHandler]
      rw [Collection.lookup_upsert]
      rfl
    | updated name resourceQuota =>
      dsimp only [workspaceHandler]
      rw [Collection.lookup_upsert]
      rfl
    | deleted =>
      dsimp only [workspaceHandler]
      rw [Collection.lookup_updateOne]
      cases s.virtualEnvironments.lookup virtualEnvironmentId <;> rfl
    | leaderChanged => rfl
  · cases payload with
    | created name ownerUserId resourceQuota =>
      dsimp only [workspaceHandler]
      rw [Collection.lookup_upsert_ne hid]
    | updated name resourceQuota =>
      dsimp only [workspaceHandler]
      rw [Collection.lookup_upsert_ne hid]
    | deleted =>
      dsimp only [workspaceHandler]
      rw [Collection.lookup_updateOne_ne hid]
    | leaderChanged => rfl

/-- The report of a leader, on one workspace. -/
theorem shownLeader_applyLeaderChange (eventStamp : EventStamp)
    (endpoints : Collection (Option String) (Document String Value))
    (docs : Collection String VirtualEnvironment) (leader : String) :
    ((applyLeaderChange publishes eventStamp endpoints docs [leader]).1.lookup
        virtualEnvironmentId).bind VirtualEnvironment.leaderEndpointId =
      if virtualEnvironmentOf endpoints leader = some virtualEnvironmentId ∧
        (VirtualEnvironment.get (docs.lookup virtualEnvironmentId)).isSome = true then some leader
      else none := by
  unfold applyLeaderChange
  dsimp only [leaderIn]
  cases virtualEnvironmentOf endpoints (some leader) with
  | none =>
    dsimp only
    rw [if_neg (by simp), Collection.lookup_updateMany]
    cases docs.lookup virtualEnvironmentId <;> rfl
  | some assigned =>
    dsimp only
    by_cases hid : virtualEnvironmentId = assigned
    · subst hid
      rw [Collection.lookup_updateOne, Collection.lookup_updateMany]
      cases docs.lookup virtualEnvironmentId with
      | none => simp [VirtualEnvironment.get]
      | some doc =>
        by_cases hdeleted : doc.deletedAt = none <;>
          simp [VirtualEnvironment.get, VirtualEnvironment.setLeader, VirtualEnvironment.clearLeader,
            Option.filter, hdeleted]
    · rw [if_neg fun h => hid (Option.some.inj h.1).symm, Collection.lookup_updateOne_ne hid,
        Collection.lookup_updateMany]
      cases docs.lookup virtualEnvironmentId <;> rfl

/-- What an event does to the leader that a workspace shows. -/
theorem shownLeader_applyEvent (eventStamp : EventStamp) :
    shownLeader (applyEvent publishes eventStamp s event).1 virtualEnvironmentId =
      match leaderReport? event with
      | none => shownLeader s virtualEnvironmentId
      | some leader =>
        if virtualEnvironmentOf s.endpoints leader = some virtualEnvironmentId ∧
          (VirtualEnvironment.get (s.virtualEnvironments.lookup virtualEnvironmentId)).isSome = true
        then some leader
        else none := by
  obtain ⟨envelope, body⟩ := event
  cases body with
  | virtualEnv id payload => exact shownLeader_workspaceHandler envelope id payload
  | consensus term payload =>
    dsimp only [applyEvent, handle, applyConsensus, leaderReport?]
    cases payload.leaderIds? with
    | none => rfl
    | some leaderIds =>
      dsimp only
      match leaderIds with
      | [] => rfl
      | [leader] => exact shownLeader_applyLeaderChange eventStamp s.endpoints _ leader
      | _ :: _ :: _ => rfl
  | data name payload => cases payload <;> rfl
  | _ => rfl

/-- The last report of one leader is of this one, and at that moment the leader was in the workspace
and the workspace was there. -/
def LastReported (publishes : Bool) (stamp : DomainEvent → EventStamp) (events : List DomainEvent)
    (virtualEnvironmentId leaderEndpointId : String) : Prop :=
  ∃ before report after, events = before ++ report :: after ∧
    leaderReport? report = some leaderEndpointId ∧
    (∀ later ∈ after, leaderReport? later = none) ∧
    virtualEnvironmentOf (project publishes stamp {} before).endpoints leaderEndpointId =
      some virtualEnvironmentId ∧
    (VirtualEnvironment.get ((project publishes stamp {} before).virtualEnvironments.lookup
      virtualEnvironmentId)).isSome = true

/-- After any history, a workspace shows the leader that was last reported, if that was in it and it
was there when the report was projected, and otherwise none. -/
theorem shownLeader_project_iff :
    shownLeader (project publishes stamp {} events) virtualEnvironmentId = some leaderEndpointId ↔
      LastReported publishes stamp events virtualEnvironmentId leaderEndpointId := by
  induction events using List.reverseRecOn with
  | nil =>
    refine iff_of_false (fun h => by cases h) ?_
    rintro ⟨before, report, after, hevents, -⟩
    exact List.append_ne_nil_of_right_ne_nil before (List.cons_ne_nil report after) hevents.symm
  | append_singleton events event ih =>
    rw [project_concat, shownLeader_applyEvent]
    cases hreport : leaderReport? event with
    | none =>
      refine Iff.trans ih ⟨?_, ?_⟩
      · rintro ⟨before, report, after, rfl, hleader, hlater, hwhere⟩
        refine ⟨before, report, after ++ [event], by simp, hleader, fun later hmem => ?_, hwhere⟩
        rcases List.mem_append.1 hmem with hold | hlast
        · exact hlater later hold
        · rw [List.mem_singleton.1 hlast]
          exact hreport
      · rintro ⟨before, report, after, hevents, hleader, hlater, hwhere⟩
        rcases List.eq_nil_or_concat' after with rfl | ⟨after, last, rfl⟩
        · obtain ⟨-, hlast⟩ := List.append_inj' hevents rfl
          cases hlast
          cases hreport.symm.trans hleader
        · rw [← List.cons_append, ← List.append_assoc] at hevents
          obtain ⟨rfl, -⟩ := List.append_inj' hevents rfl
          exact ⟨before, report, after, rfl, hleader,
            fun later hmem => hlater later (List.mem_append_left _ hmem), hwhere⟩
    | some leader =>
      dsimp only
      constructor
      · intro h
        split_ifs at h with hwhere
        cases h
        exact ⟨events, event, [], rfl, hreport, fun later hmem => absurd hmem List.not_mem_nil,
          hwhere⟩
      · rintro ⟨before, report, after, hevents, hleader, hlater, hwhere⟩
        rcases List.eq_nil_or_concat' after with rfl | ⟨after, last, rfl⟩
        · obtain ⟨rfl, hlast⟩ := List.append_inj' hevents rfl
          cases hlast
          cases hreport.symm.trans hleader
          exact if_pos hwhere
        · rw [← List.cons_append, ← List.append_assoc] at hevents
          obtain ⟨-, hlast⟩ := List.append_inj' hevents rfl
          cases hlast
          have hnone := hlater event (List.mem_append_right _ List.mem_cons_self)
          cases hreport.symm.trans hnone

end Leader

/-! ### The endpoint of a job -/

section Endpoints

variable {endpoints : Collection (Option String) (Document String Value)} {a b c : Option String}
  {virtualEnvironmentId : String}

theorem idLe_total (a b : Option String) : idLe a b = true ∨ idLe b a = true := by
  cases a with
  | none => exact .inl rfl
  | some a =>
    cases b with
    | none => exact .inr rfl
    | some b => exact (le_total a b).imp decide_eq_true decide_eq_true

theorem idLe_trans (hab : idLe a b = true) (hbc : idLe b c = true) : idLe a c = true := by
  cases a with
  | none => rfl
  | some a =>
    cases b with
    | none => cases hab
    | some b =>
      cases c with
      | none => cases hbc
      | some c => exact decide_eq_true ((of_decide_eq_true hab).trans (of_decide_eq_true hbc))

theorem seenLater_iff : seenLater endpoints a b = true ↔ lastSeen endpoints b < lastSeen endpoints a ∨
    lastSeen endpoints a = lastSeen endpoints b ∧ idLe a b = true := by
  simp [seenLater]

theorem seenLater_total (a b : Option String) :
    seenLater endpoints a b = true ∨ seenLater endpoints b a = true := by
  rw [seenLater_iff, seenLater_iff]
  rcases lt_trichotomy (lastSeen endpoints a) (lastSeen endpoints b) with hlt | heq | hgt
  · exact .inr (.inl hlt)
  · exact (idLe_total a b).imp (fun h => .inr ⟨heq, h⟩) fun h => .inr ⟨heq.symm, h⟩
  · exact .inl (.inl hgt)

theorem seenLater_trans (hab : seenLater endpoints a b = true) (hbc : seenLater endpoints b c = true) :
    seenLater endpoints a c = true := by
  rw [seenLater_iff] at hab hbc ⊢
  rcases hab with hab | ⟨hab, hidab⟩
  · rcases hbc with hbc | ⟨hbc, -⟩
    · exact .inl (hbc.trans hab)
    · exact .inl (hbc ▸ hab)
  · rcases hbc with hbc | ⟨hbc, hidbc⟩
    · exact .inl (hab ▸ hbc)
    · exact .inr ⟨hab.trans hbc, idLe_trans hidab hidbc⟩

theorem virtualEnvironmentOf_eq_some : virtualEnvironmentOf endpoints a = some virtualEnvironmentId ↔
    ∃ doc, endpoints.lookup a = some doc ∧
      doc "virtual_environment_id" = some (.str virtualEnvironmentId) := by
  unfold virtualEnvironmentOf
  cases endpoints.lookup a with
  | none => simp
  | some doc =>
    simp only [Option.bind_some, Option.some.injEq, exists_eq_left']
    cases doc "virtual_environment_id" with
    | none => simp
    | some value => cases value <;> simp

theorem mem_listByVirtualEnvironment : a ∈ listByVirtualEnvironment endpoints virtualEnvironmentId ↔
    virtualEnvironmentOf endpoints a = some virtualEnvironmentId := by
  unfold listByVirtualEnvironment
  rw [List.mem_insertionSort, List.mem_map, virtualEnvironmentOf_eq_some]
  constructor
  · rintro ⟨e, he, rfl⟩
    obtain ⟨hrow, hvirtual⟩ := List.mem_filter.1 he
    exact ⟨e.2, Collection.mem_rows.1 hrow, of_decide_eq_true hvirtual⟩
  · rintro ⟨doc, hlookup, hvirtual⟩
    exact ⟨(a, doc), List.mem_filter.2 ⟨Collection.mem_rows.2 hlookup, decide_eq_true hvirtual⟩, rfl⟩

/-- The first of the list was seen last. -/
theorem lastSeen_le_of_head
    (h : (listByVirtualEnvironment endpoints virtualEnvironmentId).head? = some a) :
    virtualEnvironmentOf endpoints a = some virtualEnvironmentId ∧
      ∀ b, virtualEnvironmentOf endpoints b = some virtualEnvironmentId →
        lastSeen endpoints b ≤ lastSeen endpoints a := by
  have hsorted : (listByVirtualEnvironment endpoints virtualEnvironmentId).Pairwise
      fun a b => seenLater endpoints a b = true := by
    have : Std.Total fun a b : Option String => seenLater endpoints a b = true := ⟨seenLater_total⟩
    have : IsTrans (Option String) fun a b => seenLater endpoints a b = true :=
      ⟨fun _ _ _ => seenLater_trans⟩
    exact List.pairwise_insertionSort _ _
  refine ⟨mem_listByVirtualEnvironment.1 (List.mem_of_head? h), fun b hb => ?_⟩
  have hmem := mem_listByVirtualEnvironment.2 hb
  obtain ⟨rest, hlist⟩ := List.head?_eq_some_iff.1 h
  rw [hlist] at hsorted hmem
  rcases List.mem_cons.1 hmem with rfl | hrest
  · exact le_rfl
  · rcases seenLater_iff.1 ((List.pairwise_cons.1 hsorted).1 b hrest) with hlt | ⟨heq, -⟩
    · exact hlt.le
    · exact heq.symm.le

end Endpoints

section Submit

variable {publishes : Bool} {stamp : DomainEvent → EventStamp} {s : ReadModel}
  {events : List DomainEvent} {functionId virtualEnvironmentId : String} {version : ℤ}
  {endpointId : Option String}

/-- What `_resolve_endpoint_id` takes. -/
theorem resolveEndpointId_cases (h : resolveEndpointId s virtualEnvironmentId = some endpointId) :
    virtualEnvironmentOf s.endpoints endpointId = some virtualEnvironmentId ∧
      ((∃ leader, endpointId = some leader ∧ shownLeader s virtualEnvironmentId = some leader) ∨
        (∀ leader, shownLeader s virtualEnvironmentId = some leader →
            (VirtualEnvironment.get
              (s.virtualEnvironments.lookup virtualEnvironmentId)).isSome = true →
            virtualEnvironmentOf s.endpoints leader ≠ some virtualEnvironmentId) ∧
          ∀ other, virtualEnvironmentOf s.endpoints other = some virtualEnvironmentId →
            lastSeen s.endpoints other ≤ lastSeen s.endpoints endpointId) := by
  have hshown : ∀ {doc}, VirtualEnvironment.get (s.virtualEnvironments.lookup virtualEnvironmentId) =
      some doc → shownLeader s virtualEnvironmentId = doc.leaderEndpointId := by
    intro doc hdoc
    unfold shownLeader
    rw [(Option.filter_eq_some_iff.1 hdoc).1]
    rfl
  unfold resolveEndpointId at h
  dsimp only at h
  cases hget : VirtualEnvironment.get (s.virtualEnvironments.lookup virtualEnvironmentId) with
  | none =>
    rw [hget] at h
    obtain ⟨hin, hlast⟩ := lastSeen_le_of_head h
    exact ⟨hin, .inr ⟨fun leader _ hthere => absurd hthere Bool.false_ne_true, hlast⟩⟩
  | some doc =>
    rw [hget, Option.bind_some] at h
    cases hleader : doc.leaderEndpointId with
    | none =>
      rw [hleader] at h
      obtain ⟨hin, hlast⟩ := lastSeen_le_of_head h
      refine ⟨hin, .inr ⟨fun leader hshows => ?_, hlast⟩⟩
      rw [hshown hget, hleader] at hshows
      cases hshows
    | some leader =>
      rw [hleader] at h
      dsimp only at h
      split_ifs at h with hin
      · cases h
        exact ⟨hin, .inl ⟨leader, rfl, (hshown hget).trans hleader⟩⟩
      · obtain ⟨hlisted, hlast⟩ := lastSeen_le_of_head h
        refine ⟨hlisted, .inr ⟨fun other hshows _ => ?_, hlast⟩⟩
        rw [hshown hget, hleader] at hshows
        cases hshows
        exact hin

theorem submitFunctionJob_cases {params : Fields} {job : JobSubmission}
    (h : submitFunctionJob s functionId version params = .ok job) : ∃ virtualEnvironmentId,
      virtualEnvironmentIn s functionId version = some (.str virtualEnvironmentId) ∧
        deletedIn s functionId version = some false ∧
        resolveEndpointId s virtualEnvironmentId = some job.endpointId := by
  unfold submitFunctionJob at h
  split at h
  · cases h
  · rename_i doc hdoc
    split at h
    · cases h
    · split_ifs at h with hdeleted
      split at h
      · rename_i virtualEnvironmentId hvirtual
        split at h
        · cases h
        · rename_i endpointId hendpoint
          split at h
          · split_ifs at h
            cases h
            refine ⟨virtualEnvironmentId, ?_, ?_, hendpoint⟩
            · unfold virtualEnvironmentIn
              rw [hdoc]
              exact hvirtual
            · unfold deletedIn
              rw [hdoc, Option.map_some, Bool.eq_false_iff.2 hdeleted]
          · cases h
      · cases h

/-- After any history: a job goes to an endpoint that is in the virtual environment of the function.
That is the leader that was last reported, where this was in the virtual environment when the report
was projected, or else the one that was seen last; and the latter only when there is no such leader
in the virtual environment any more. -/
theorem endpoint_of_submit {params : Fields} {job : JobSubmission}
    (h : submitFunctionJob (project publishes stamp {} events) functionId version params = .ok job) :
    ∃ virtualEnvironmentId,
      virtualEnvironmentIn (project publishes stamp {} events) functionId version =
        some (.str virtualEnvironmentId) ∧
      deletedIn (project publishes stamp {} events) functionId version = some false ∧
      virtualEnvironmentOf (project publishes stamp {} events).endpoints job.endpointId =
        some virtualEnvironmentId ∧
      ((∃ leader, job.endpointId = some leader ∧
          LastReported publishes stamp events virtualEnvironmentId leader) ∨
        (∀ leader, LastReported publishes stamp events virtualEnvironmentId leader →
            (VirtualEnvironment.get ((project publishes stamp {} events).virtualEnvironments.lookup
              virtualEnvironmentId)).isSome = true →
            virtualEnvironmentOf (project publishes stamp {} events).endpoints leader ≠
              some virtualEnvironmentId) ∧
          ∀ other, virtualEnvironmentOf (project publishes stamp {} events).endpoints other =
              some virtualEnvironmentId →
            lastSeen (project publishes stamp {} events).endpoints other ≤
              lastSeen (project publishes stamp {} events).endpoints job.endpointId) := by
  obtain ⟨virtualEnvironmentId, hvirtual, hdeleted, hresolve⟩ := submitFunctionJob_cases h
  obtain ⟨hin, htarget⟩ := resolveEndpointId_cases hresolve
  simp only [shownLeader_project_iff] at htarget
  exact ⟨virtualEnvironmentId, hvirtual, hdeleted, hin, htarget⟩

/-- An event that an endpoint in `v` sends. -/
def sentIn (endpointId createdAt : String) (body : EventBody) : DomainEvent where
  envelope :=
    { eventId := "e"
      createdAt := createdAt
      endpointId := some endpointId
      virtualEnvironmentId := some "v" }
  body := body

/-- Two endpoints of a virtual environment, the first of which is elected. -/
def elected : List DomainEvent :=
  [{ envelope := { eventId := "e", createdAt := "2024-01-01T00:00:01Z" }
     body := .virtualEnv "v" (.created "lab" "u" ⟨"1.0", 1, 1⟩) },
    sentIn "n1" "2024-01-01T00:00:02Z"
      (.endpoint (.started "tcp://0.0.0.0:5555" "tcp://0.0.0.0:5556")),
    sentIn "n2" "2024-01-01T00:00:03Z"
      (.endpoint (.started "tcp://0.0.0.0:5555" "tcp://0.0.0.0:5556")),
    sentIn "n2" "2024-01-01T00:00:04Z" (.consensus 1 (.leaderElected ["n1"])),
    sentIn "n1" "2024-01-01T00:00:05Z" (.function "f" 1 (.registered none none none none))]

/-- The job goes to the leader, though the other was seen later. -/
theorem endpoint_of_submit_elected : ∃ job,
    submitFunctionJob (project true (fun _ => ⟨"s", ""⟩) {} elected) "f" 1 [] = .ok job ∧
      job.endpointId = some "n1" ∧ job.rpcUri = "tcp://n1:5555" ∧
      ∃ virtualEnvironmentId, virtualEnvironmentOf
        (project true (fun _ => ⟨"s", ""⟩) {} elected).endpoints job.endpointId =
          some virtualEnvironmentId := by
  obtain ⟨job, hjob, hendpoint, huri⟩ : ∃ job,
      submitFunctionJob (project true (fun _ => ⟨"s", ""⟩) {} elected) "f" 1 [] = .ok job ∧
        job.endpointId = some "n1" ∧ job.rpcUri = "tcp://n1:5555" := ⟨_, rfl, rfl, rfl⟩
  obtain ⟨virtualEnvironmentId, -, -, hin, -⟩ := endpoint_of_submit hjob
  exact ⟨job, hjob, hendpoint, huri, virtualEnvironmentId, hin⟩

end Submit

end Axo.Projector
