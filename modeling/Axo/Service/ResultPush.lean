import Axo.Lib.Slices
import Axo.Service.RouterServer

/-!
# Results pushed to the submitters

Which jobs the replies of a `RouterServer` accept and fetch, and which results it pushes.

* `ToldOnce` is the promise: a result is pushed once, to the identity that submitted the job and
  after the reply to it, unless the ended job was fetched, and nothing is remembered of a job whose
  events are processed;
* `PushGuard` excludes the event of a job that the receive loop has not noted yet, a push before
  the reply, and a job that is forwarded to another endpoint;
* `TellInv` is the invariant about the identities, `TimelyInv` the one about the events;
* `toldOnce_of_reach` is the result for whole runs.
-/

namespace Axo

open Transition

namespace Outgoing

/-- The job that a reply accepts, and for whom. -/
def accepts : Outgoing → Option (String × Identity)
  | .reply request result =>
    (submittedJob request.command result).map fun jobId => (jobId, request.identity)
  | .push _ _ _ => none

/-- The ended job that a reply fetches. -/
def fetches : Outgoing → Option String
  | .reply request result => fetchedJob request.command result
  | .push _ _ _ => none

/-- The job whose result is pushed, and to whom. -/
def pushes : Outgoing → Option (String × Identity)
  | .reply _ _ => none
  | .push identity jobId _ => some (jobId, identity)

end Outgoing

namespace RouterThread

/-- The job that is being submitted and is not noted yet. -/
def submitting : RouterThread → Option String
  | .handling request result => submittedJob request.command result
  | .idle | .replying _ _ => none

/-- The job that the reply to be sent accepts. -/
def accepting : RouterThread → Option (String × Identity)
  | .replying request result => (Outgoing.reply request result).accepts
  | .idle | .handling _ _ => none

/-- The ended job that the reply to be sent fetches. -/
def fetching : RouterThread → Option String
  | .replying request result => (Outgoing.reply request result).fetches
  | .idle | .handling _ _ => none

end RouterThread

namespace RouterServer

variable (s : RouterServer)

def accepted (sent : List Outgoing) : List (String × Identity) := sent.filterMap Outgoing.accepts

def fetched (sent : List Outgoing) : List String := sent.filterMap Outgoing.fetches

def pushedTo (sent : List Outgoing) : List (String × Identity) := sent.filterMap Outgoing.pushes

/-- The job has ended: `on_complete` was called for it, or a result of it arrived. -/
def Terminal (jobId : String) : Prop :=
  jobId ∈ s.completed ∨ ∃ result ∈ s.endpoint.results.lookup jobId, result.isPending = false

/-- The events of the job are processed: that of a job which the runtime has taken has come, none
is to come and none is being answered. -/
def EventsProcessed (jobId : String) : Prop :=
  (jobId ∈ s.endpoint.taken → jobId ∈ s.completed) ∧ jobId ∉ s.endpoint.finishing ∧
    ∀ x ∈ s.pushing, x.1 ≠ jobId

/-- Every submitter is told once. -/
structure ToldOnce : Prop where
  /-- no result is pushed before the reply that accepts the job from the same identity -/
  ordered : ∀ before after identity jobId result,
    s.sent = before ++ .push identity jobId result :: after →
      (jobId, identity) ∈ accepted before
  /-- at most one result of a job is pushed -/
  once : ((pushedTo s.sent).map Prod.fst).Nodup
  /-- the result of a job that has ended is pushed to its submitter, unless it is fetched -/
  told : ∀ x ∈ accepted s.sent, s.Terminal x.1 → s.EventsProcessed x.1 →
    x ∈ pushedTo s.sent ∨ x.1 ∈ fetched s.sent ∨ s.thread.fetching = some x.1
  /-- nothing is remembered of it -/
  forgotten : ∀ jobId, s.Terminal jobId → s.EventsProcessed jobId → jobId ∉ s.jobIdentities

/-- The guard on the steps: the runtime takes a submitted job here, the event of a job comes after
the job is noted, and its result is pushed after the reply. -/
def PushGuard : RouterServerAction → Prop
  | .take _ (.jobSubmit _ _ answer) => answer ≠ .elsewhere
  | .emit jobId => s.thread.submitting ≠ some jobId
  | .push jobId identity => s.thread.accepting ≠ some (jobId, identity)
  | .take _ .jobResult | .take _ (.other _ _) | .goOn | .note | .reply | .complete _ _ => True

instance : (a : RouterServerAction) → Decidable (s.PushGuard a)
  | .take _ (.jobSubmit _ _ answer) => inferInstanceAs (Decidable (answer ≠ .elsewhere))
  | .emit jobId => inferInstanceAs (Decidable (s.thread.submitting ≠ some jobId))
  | .push jobId identity =>
    inferInstanceAs (Decidable (s.thread.accepting ≠ some (jobId, identity)))
  | .take _ .jobResult | .take _ (.other _ _) | .goOn | .note | .reply | .complete _ _ =>
    inferInstanceAs (Decidable True)

/-! ### The invariants -/

/-- The jobs that are accepted, once the reply in hand is sent. -/
def noted : List (String × Identity) := accepted s.sent ++ s.thread.accepting.toList

/-- The jobs that are fetched then. -/
def fetchedNow : List String := fetched s.sent ++ s.thread.fetching.toList

/-- The jobs whose identity an event has taken out. -/
def takenOut : List (String × Identity) := s.pushing ++ pushedTo s.sent

/-- Where the identities of the noted jobs are. -/
structure TellInv : Prop where
  recorded : ∀ jobId identity, s.jobIdentities.lookup jobId = some identity →
    (jobId, identity) ∈ s.noted
  answered : ∀ x ∈ s.takenOut, x ∈ s.noted
  once : (s.takenOut.map Prod.fst).Nodup
  untold : ∀ jobId ∈ s.jobIdentities, jobId ∉ s.takenOut.map Prod.fst
  ordered : ∀ before after identity jobId result,
    s.sent = before ++ .push identity jobId result :: after → (jobId, identity) ∈ accepted before
  covered : ∀ x ∈ s.noted, s.jobIdentities.lookup x.1 = some x.2 ∨ x ∈ s.takenOut ∨
    x.1 ∈ s.fetchedNow
  fresh : ∀ jobId, s.thread.submitting = some jobId → jobId ∉ s.noted.map Prod.fst

end RouterServer

/-- The job is stored, or the submission in hand stores it. -/
def JobEndpoint.Stores (s : JobEndpoint) (jobId : String) : Prop :=
  (s.results.lookup jobId).isSome ∨ ∃ key result, .put key result ∈ s.remaining ∧ key.id = jobId

/-- The runtime has taken the job, or the submission in hand makes it take the job. -/
def JobEndpoint.Takes (s : JobEndpoint) (jobId : String) : Prop :=
  jobId ∈ s.taken ∨ s.takesHere = true ∧ ∃ ref params, .invoke ref jobId params ∈ s.remaining

namespace RouterServer

/-- The endpoint knows the noted jobs, and no event of a remembered job has come. -/
structure TimelyInv (s : RouterServer) : Prop where
  known : ∀ jobId ∈ s.noted.map Prod.fst, (s.endpoint.results.lookup jobId).isSome
  here : ∀ jobId ∈ s.noted.map Prod.fst, jobId ∈ s.endpoint.taken
  completed : ∀ jobId ∈ s.completed, (s.endpoint.results.lookup jobId).isSome
  progress : ∀ jobId, s.thread.submitting = some jobId →
    s.endpoint.Stores jobId ∧ s.endpoint.Takes jobId
  early : ∀ jobId, jobId ∈ s.jobIdentities ∨ s.thread.submitting = some jobId →
    jobId ∈ s.completed → jobId ∈ s.endpoint.finishing

variable {floatText : ℚ → String} {s t : RouterServer} {job : String}

/-! ### Noting a request -/

/-- A command is not both a `JOB_SUBMIT` and a `JOB_RESULT`. -/
theorem fetchedJob_eq_none {command : Command} {result : CommandResult}
    (h : submittedJob command result = some job) : fetchedJob command result = none := by
  unfold submittedJob at h
  split_ifs at h with hsubmit
  unfold fetchedJob
  rw [if_neg]
  rintro ⟨hresult, -⟩
  rw [hsubmit.1] at hresult
  exact absurd hresult (by decide)

theorem submittedJob_jobResult {request : ClientRequest} {result : CommandResult}
    (h : request.command.operation = "JOB_RESULT") : submittedJob request.command result = none := by
  unfold submittedJob
  rw [if_neg]
  rintro ⟨hsubmit, -⟩
  rw [h] at hsubmit
  exact absurd hsubmit (by decide)

/-- A request is noted: it submits a job, fetches one, or does neither. -/
theorem identitiesAfter_cases (jobIdentities : Dict String Identity) (request : ClientRequest)
    (result : CommandResult) :
    (∃ job, submittedJob request.command result = some job ∧
      fetchedJob request.command result = none ∧
      identitiesAfter jobIdentities request result = jobIdentities.insert job request.identity) ∨
    (∃ job, submittedJob request.command result = none ∧
      fetchedJob request.command result = some job ∧
      identitiesAfter jobIdentities request result = jobIdentities.erase job) ∨
    (submittedJob request.command result = none ∧ fetchedJob request.command result = none ∧
      identitiesAfter jobIdentities request result = jobIdentities) := by
  unfold identitiesAfter
  rcases hsubmitted : submittedJob request.command result with _ | job
  · rcases hfetched : fetchedJob request.command result with _ | job
    · exact Or.inr (Or.inr ⟨rfl, rfl, rfl⟩)
    · exact Or.inr (Or.inl ⟨job, rfl, rfl, rfl⟩)
  · rw [fetchedJob_eq_none hsubmitted]
    exact Or.inl ⟨job, rfl, rfl, rfl⟩

/-! ### Lists of messages -/

theorem accepted_append (sent sent' : List Outgoing) :
    accepted (sent ++ sent') = accepted sent ++ accepted sent' := List.filterMap_append

theorem pushedTo_append (sent sent' : List Outgoing) :
    pushedTo (sent ++ sent') = pushedTo sent ++ pushedTo sent' := List.filterMap_append

theorem fetched_append (sent sent' : List Outgoing) :
    fetched (sent ++ sent') = fetched sent ++ fetched sent' := List.filterMap_append

/-- What is noted stays noted when the reply is sent. -/
theorem noted_reply {request : ClientRequest} {result : CommandResult}
    (hthread : s.thread = .replying request result) :
    ({ s with thread := .idle, sent := s.sent ++ [.reply request result] } : RouterServer).noted =
      s.noted := by
  simp only [noted, accepted_append, hthread]
  rcases haccepts : (Outgoing.reply request result).accepts with _ | x <;>
    simp [accepted, RouterThread.accepting, haccepts]

/-! ### Between two replies -/

theorem noted_of_idle (h : s.thread = .idle) : s.noted = accepted s.sent := by
  rw [noted, h]
  exact List.append_nil _

theorem noted_of_handling {request : ClientRequest} {result : CommandResult}
    (h : s.thread = .handling request result) : s.noted = accepted s.sent := by
  rw [noted, h]
  exact List.append_nil _

theorem fetchedNow_of_idle (h : s.thread = .idle) : s.fetchedNow = fetched s.sent := by
  rw [fetchedNow, h]
  exact List.append_nil _

theorem fetchedNow_of_handling {request : ClientRequest} {result : CommandResult}
    (h : s.thread = .handling request result) : s.fetchedNow = fetched s.sent := by
  rw [fetchedNow, h]
  exact List.append_nil _

/-! ### Identities -/

namespace TellInv

theorem init (virtualEnvironmentId : Option String) : TellInv (init virtualEnvironmentId) where
  recorded := fun jobId identity h => by cases h
  answered := fun x hx => by cases hx
  once := List.nodup_nil
  untold := fun jobId hjob => absurd hjob (AList.notMem_empty jobId)
  ordered := fun before after identity jobId result h => by simp [RouterServer.init] at h
  covered := fun x hx => by cases hx
  fresh := fun jobId h => by cases h

/-- The invariant depends on the lists and the identities alone. -/
theorem congr (h : TellInv s) (hidentities : t.jobIdentities = s.jobIdentities)
    (hnoted : t.noted = s.noted) (hout : t.takenOut = s.takenOut)
    (hnow : t.fetchedNow = s.fetchedNow)
    (hordered : ∀ before after identity jobId result,
      t.sent = before ++ .push identity jobId result :: after →
        (jobId, identity) ∈ accepted before)
    (hfresh : ∀ jobId, t.thread.submitting = some jobId → jobId ∉ s.noted.map Prod.fst) :
    TellInv t where
  recorded := by
    rw [hidentities, hnoted]
    exact h.recorded
  answered := by
    rw [hout, hnoted]
    exact h.answered
  once := by
    rw [hout]
    exact h.once
  untold := by
    rw [hidentities, hout]
    exact h.untold
  ordered := hordered
  covered := by
    rw [hidentities, hnoted, hout, hnow]
    exact h.covered
  fresh := by
    rw [hnoted]
    exact hfresh

/-- A job that is not noted has no event. -/
theorem notMem_takenOut (h : TellInv s) (hjob : job ∉ s.noted.map Prod.fst) :
    job ∉ s.takenOut.map Prod.fst := fun hout => by
  obtain ⟨x, hx, rfl⟩ := List.mem_map.1 hout
  exact hjob (List.mem_map_of_mem (h.answered x hx))

/-- The job of a submission is recorded. -/
theorem noteSubmitted {request : ClientRequest} {result : CommandResult} (h : TellInv s)
    (hthread : s.thread = .handling request result)
    (hsubmitted : submittedJob request.command result = some job)
    (hafter : identitiesAfter s.jobIdentities request result =
      s.jobIdentities.insert job request.identity) :
    TellInv { s with
      jobIdentities := identitiesAfter s.jobIdentities request result
      thread := .replying request result } := by
  have hnoted' : ({ s with
      jobIdentities := identitiesAfter s.jobIdentities request result
      thread := .replying request result } : RouterServer).noted =
      s.noted ++ [(job, request.identity)] := by
    rw [noted_of_handling hthread]
    simp [noted, RouterThread.accepting, Outgoing.accepts, hsubmitted]
  have hjob : job ∉ s.noted.map Prod.fst := h.fresh job (by rw [hthread]; exact hsubmitted)
  refine ⟨fun jobId identity hlookup => ?_, fun x hx => ?_, h.once, fun jobId hmem => ?_, h.ordered,
    fun x hx => ?_, fun jobId hnone => by cases hnone⟩
  · rw [hnoted', List.mem_append, List.mem_singleton]
    dsimp only at hlookup
    rw [hafter] at hlookup
    by_cases heq : jobId = job
    · subst heq
      rw [AList.lookup_insert] at hlookup
      exact Or.inr (Prod.ext rfl (Option.some.inj hlookup).symm)
    · rw [AList.lookup_insert_ne heq] at hlookup
      exact Or.inl (h.recorded jobId identity hlookup)
  · rw [hnoted']
    exact List.mem_append_left _ (h.answered x hx)
  · dsimp only at hmem
    rw [hafter, AList.mem_insert] at hmem
    rcases hmem with rfl | hmem
    · exact h.notMem_takenOut hjob
    · exact h.untold jobId hmem
  · rw [hnoted', List.mem_append, List.mem_singleton] at hx
    dsimp only
    rw [hafter]
    rcases hx with hx | rfl
    · have hne : x.1 ≠ job := fun heq => hjob (heq ▸ List.mem_map_of_mem hx)
      rw [AList.lookup_insert_ne hne]
      refine (h.covered x hx).imp id (Or.imp id fun hfetch => ?_)
      rw [fetchedNow_of_handling hthread] at hfetch
      exact List.mem_append_left _ hfetch
    · exact Or.inl (AList.lookup_insert _)

/-- The job that is fetched is forgotten. -/
theorem noteFetched {request : ClientRequest} {result : CommandResult} (h : TellInv s)
    (hthread : s.thread = .handling request result)
    (hsubmitted : submittedJob request.command result = none)
    (hfetched : fetchedJob request.command result = some job)
    (hafter : identitiesAfter s.jobIdentities request result = s.jobIdentities.erase job) :
    TellInv { s with
      jobIdentities := identitiesAfter s.jobIdentities request result
      thread := .replying request result } := by
  have hnoted' : ({ s with
      jobIdentities := identitiesAfter s.jobIdentities request result
      thread := .replying request result } : RouterServer).noted = s.noted := by
    rw [noted_of_handling hthread]
    simp [noted, RouterThread.accepting, Outgoing.accepts, hsubmitted]
  refine ⟨fun jobId identity hlookup => ?_, fun x hx => ?_, h.once, fun jobId hmem => ?_, h.ordered,
    fun x hx => ?_, fun jobId hnone => by cases hnone⟩
  · rw [hnoted']
    dsimp only at hlookup
    rw [hafter] at hlookup
    by_cases heq : jobId = job
    · subst heq
      rw [AList.lookup_erase] at hlookup
      cases hlookup
    · rw [AList.lookup_erase_ne heq] at hlookup
      exact h.recorded jobId identity hlookup
  · rw [hnoted']
    exact h.answered x hx
  · dsimp only at hmem
    rw [hafter, AList.mem_erase] at hmem
    exact h.untold jobId hmem.2
  · rw [hnoted'] at hx
    dsimp only
    rw [hafter]
    by_cases heq : x.1 = job
    · refine Or.inr (Or.inr (List.mem_append_right _ ?_))
      simp [RouterThread.fetching, Outgoing.fetches, hfetched, heq]
    · rw [AList.lookup_erase_ne heq]
      refine (h.covered x hx).imp id (Or.imp id fun hfetch => ?_)
      rw [fetchedNow_of_handling hthread] at hfetch
      exact List.mem_append_left _ hfetch

/-- The handler has returned. -/
theorem note {request : ClientRequest} {result : CommandResult} (h : TellInv s)
    (hthread : s.thread = .handling request result) :
    TellInv { s with
      jobIdentities := identitiesAfter s.jobIdentities request result
      thread := .replying request result } := by
  rcases identitiesAfter_cases s.jobIdentities request result with
    ⟨job, hsubmitted, -, hafter⟩ | ⟨job, hsubmitted, hfetched, hafter⟩ |
    ⟨hsubmitted, hfetched, hafter⟩
  · exact h.noteSubmitted hthread hsubmitted hafter
  · exact h.noteFetched hthread hsubmitted hfetched hafter
  · refine h.congr hafter ?_ rfl ?_ h.ordered fun jobId hnone => by cases hnone
    · rw [noted_of_handling hthread]
      simp [noted, RouterThread.accepting, Outgoing.accepts, hsubmitted]
    · rw [fetchedNow_of_handling hthread]
      simp [fetchedNow, RouterThread.fetching, Outgoing.fetches, hfetched]

/-- The loop begins a request that submits no job, or a new one. -/
theorem beginRequest {request : ClientRequest} {result : CommandResult} (h : TellInv s)
    (hidle : s.thread = .idle) (hidentities : t.jobIdentities = s.jobIdentities)
    (hpushing : t.pushing = s.pushing) (hsent : t.sent = s.sent)
    (hthread : t.thread = .handling request result)
    (hfresh : ∀ job, submittedJob request.command result = some job →
      job ∉ s.noted.map Prod.fst) : TellInv t := by
  refine h.congr hidentities ?_ ?_ ?_ ?_ fun job hjob => hfresh job ?_
  · rw [noted_of_idle hidle, noted_of_handling hthread, hsent]
  · rw [takenOut, hpushing, hsent, takenOut]
  · rw [fetchedNow_of_idle hidle, fetchedNow_of_handling hthread, hsent]
  · rw [hsent]
    exact h.ordered
  · rwa [hthread] at hjob

/-- The reply is sent. -/
theorem reply {request : ClientRequest} {result : CommandResult} (h : TellInv s)
    (hthread : s.thread = .replying request result) :
    TellInv { s with thread := .idle, sent := s.sent ++ [.reply request result] } := by
  refine h.congr rfl (noted_reply hthread) ?_ ?_ ?_ fun jobId hnone => by cases hnone
  · simp [takenOut, pushedTo, Outgoing.pushes]
  · simp only [fetchedNow, fetched_append, hthread]
    rcases hfetches : (Outgoing.reply request result).fetches with _ | x <;>
      simp [fetched, RouterThread.fetching, hfetches]
  · intro before after identity jobId pushed hsplit
    rcases Slices.concat_eq_append_cons hsplit with ⟨-, heq⟩ | ⟨after', hsent⟩
    · cases heq
    · exact h.ordered before after' identity jobId pushed hsent

/-- The event of a job takes its identity out. -/
theorem emit (h : TellInv s) (job : String) (endpoint : JobEndpoint) :
    TellInv { s with
      endpoint := endpoint
      jobIdentities := s.jobIdentities.erase job
      pushing :=
        match s.jobIdentities.lookup job with
        | some identity => (job, identity) :: s.pushing
        | none => s.pushing } := by
  have herase {jobId : String} {identity : Identity}
      (hlookup : (s.jobIdentities.erase job).lookup jobId = some identity) :
      s.jobIdentities.lookup jobId = some identity := by
    by_cases heq : jobId = job
    · subst heq
      rw [AList.lookup_erase] at hlookup
      cases hlookup
    · rwa [AList.lookup_erase_ne heq] at hlookup
  rcases hjob : s.jobIdentities.lookup job with _ | identity
  · -- nothing is remembered of the job
    refine ⟨fun jobId identity hlookup => h.recorded jobId identity (herase hlookup), h.answered,
      h.once, fun jobId hmem => h.untold jobId (AList.mem_erase.1 hmem).2, h.ordered,
      fun x hx => ?_, h.fresh⟩
    refine (h.covered x hx).imp_left fun hlookup => ?_
    have hne : x.1 ≠ job := fun heq => by
      rw [heq, hjob] at hlookup
      cases hlookup
    dsimp only
    rwa [AList.lookup_erase_ne hne]
  · refine ⟨fun jobId identity hlookup => h.recorded jobId identity (herase hlookup), ?_, ?_, ?_,
      h.ordered, fun x hx => ?_, h.fresh⟩
    · intro x hx
      rcases List.mem_cons.1 hx with rfl | hx
      · exact h.recorded job identity hjob
      · exact h.answered x hx
    · exact List.nodup_cons.2 ⟨h.untold job (Dict.mem_of_lookup hjob), h.once⟩
    · intro jobId hmem hout
      obtain ⟨hne, hmem⟩ := AList.mem_erase.1 hmem
      rcases List.mem_cons.1 hout with heq | hout
      · exact hne heq
      · exact h.untold jobId hmem hout
    · dsimp only
      rcases h.covered x hx with hlookup | hout | hfetch
      · by_cases heq : x.1 = job
        · rw [heq, hjob] at hlookup
          refine Or.inr (Or.inl (List.mem_cons.2 (Or.inl ?_)))
          exact Prod.ext heq (Option.some.inj hlookup).symm
        · rw [AList.lookup_erase_ne heq]
          exact Or.inl hlookup
      · exact Or.inr (Or.inl (List.mem_cons_of_mem _ hout))
      · exact Or.inr (Or.inr hfetch)

/-- The result of a job is pushed, after the reply that accepts the job. -/
theorem push {identity : Identity} (h : TellInv s) (result : CommandResult)
    (hpushing : (job, identity) ∈ s.pushing) (hreply : s.thread.accepting ≠ some (job, identity)) :
    TellInv { s with
      pushing := s.pushing.erase (job, identity)
      sent := s.sent ++ [.push identity job result] } := by
  have hperm : ({ s with
      pushing := s.pushing.erase (job, identity)
      sent := s.sent ++ [.push identity job result] } : RouterServer).takenOut.Perm s.takenOut := by
    have hsent : pushedTo (s.sent ++ [.push identity job result]) =
        pushedTo s.sent ++ [(job, identity)] := by
      rw [pushedTo_append]
      rfl
    simp only [takenOut, hsent]
    rw [← List.append_assoc]
    exact (List.perm_append_singleton _ _).trans
      ((List.perm_cons_erase hpushing).symm.append_right _)
  have hnoted : ({ s with
      pushing := s.pushing.erase (job, identity)
      sent := s.sent ++ [.push identity job result] } : RouterServer).noted = s.noted := by
    simp [noted, accepted, Outgoing.accepts]
  have haccepted : (job, identity) ∈ accepted s.sent := by
    have hmem := h.answered _ (List.mem_append_left _ hpushing)
    rcases List.mem_append.1 hmem with hmem | hmem
    · exact hmem
    · exact absurd (Option.mem_toList.1 hmem) hreply
  refine ⟨?_, ?_, ?_, ?_, ?_, ?_, ?_⟩
  · rw [hnoted]
    exact h.recorded
  · intro x hx
    rw [hnoted]
    exact h.answered x (hperm.mem_iff.1 hx)
  · exact (hperm.map Prod.fst).nodup_iff.2 h.once
  · intro jobId hmem hout
    exact h.untold jobId hmem ((hperm.map Prod.fst).mem_iff.1 hout)
  · intro before after identity' jobId pushed hsplit
    rcases Slices.concat_eq_append_cons hsplit with ⟨rfl, heq⟩ | ⟨after', hsent⟩
    · cases heq
      exact haccepted
    · exact h.ordered before after' identity' jobId pushed hsent
  · intro x hx
    rw [hnoted] at hx
    refine (h.covered x hx).imp id (Or.imp (fun hout => hperm.mem_iff.2 hout) fun hfetch => ?_)
    simpa [fetchedNow, fetched, Outgoing.fetches] using hfetch
  · rw [hnoted]
    exact h.fresh

end TellInv

end RouterServer

/-! ### The endpoint -/

namespace JobEndpoint

variable {s t : JobEndpoint} {job : String}

/-- No result and no job that is taken is lost. -/
structure Grows (s t : JobEndpoint) : Prop where
  results : ∀ job, (s.results.lookup job).isSome → (t.results.lookup job).isSome
  taken : s.taken ⊆ t.taken

theorem Grows.refl (s : JobEndpoint) : Grows s s := ⟨fun _ h => h, subset_rfl⟩

theorem Grows.store (s : JobEndpoint) (job : String) (result : JobResult) :
    Grows s (s.store job result) where
  results := by
    intro job' h
    by_cases heq : job' = job
    · subst heq
      simp [JobEndpoint.store]
    · rwa [JobEndpoint.store, AList.lookup_insert_ne heq]
  taken := subset_rfl

theorem Grows.perform (s : JobEndpoint) (effect : JobEffect) : Grows s (s.perform effect) := by
  cases effect with
  | put key result => exact .store s key.id _
  | emit jobId functionId version params => exact ⟨fun _ h => h, subset_rfl⟩
  | invoke ref jobId params =>
    unfold JobEndpoint.perform
    split_ifs
    · exact ⟨fun _ h => h, Finset.subset_insert _ _⟩
    · exact .refl s

theorem step_grows {a : JobEndpointAction} (h : s.step a = some t) : Grows s t := by
  cases a with
  | submit registry envelope jobId answer =>
    simp only [step] at h
    split_ifs at h
    cases h
    exact ⟨fun _ h => h, subset_rfl⟩
  | forward registry envelope answer =>
    simp only [step] at h
    split_ifs at h
    cases h
    exact ⟨fun _ h => h, subset_rfl⟩
  | next =>
    simp only [step] at h
    split at h
    · rename_i effect remaining _
      cases h
      have hgrows := Grows.perform { s with remaining := remaining } effect
      exact ⟨hgrows.results, hgrows.taken⟩
    · cases h
  | complete jobId completion =>
    simp only [step] at h
    split_ifs at h
    cases h
    have hgrows := Grows.store s jobId (completion.result jobId)
    exact ⟨hgrows.results, hgrows.taken⟩
  | finish jobId =>
    simp only [step] at h
    split_ifs at h
    cases h
    exact ⟨fun _ h => h, subset_rfl⟩
  | receive jobId doc hashFits =>
    simp only [step] at h
    split_ifs at h
    · split at h
      · cases h
        exact .store s jobId _
      · cases h
        exact .refl s
    · cases h
      exact .refl s
  | assign virtualEnvironmentId =>
    simp only [step] at h
    split_ifs at h
    cases h
    unfold virtualEnvAssign
    split_ifs
    · exact ⟨fun _ h => h, subset_rfl⟩
    · exact .refl s

/-- A command other than a submission leaves the events alone. -/
theorem finishing_of_command {a : JobEndpointAction} (ha : a.isCommand = true)
    (h : s.step a = some t) : t.finishing = s.finishing := by
  cases a with
  | submit | next | complete | finish => cases ha
  | forward registry envelope answer =>
    simp only [step] at h
    split_ifs at h
    cases h
    rfl
  | receive jobId doc hashFits =>
    simp only [step] at h
    split_ifs at h
    · split at h <;> cases h <;> rfl
    · cases h
      rfl
  | assign virtualEnvironmentId =>
    simp only [step] at h
    split_ifs at h
    cases h
    unfold virtualEnvAssign
    split_ifs <;> rfl

/-- An effect of the submission in hand. -/
theorem step_next (h : s.step .next = some t) : ∃ effect remaining,
    s.remaining = effect :: remaining ∧ t = { s with remaining := remaining }.perform effect := by
  simp only [step] at h
  split at h
  · rename_i effect remaining heq
    cases h
    exact ⟨effect, remaining, heq, rfl⟩
  · cases h

theorem perform_frame (s : JobEndpoint) (effect : JobEffect) :
    (s.perform effect).remaining = s.remaining ∧ (s.perform effect).takesHere = s.takesHere ∧
      (s.perform effect).finishing = s.finishing := by
  cases effect with
  | put | emit => exact ⟨rfl, rfl, rfl⟩
  | invoke =>
    unfold perform
    split_ifs <;> exact ⟨rfl, rfl, rfl⟩

theorem Stores.next (h : s.Stores job) (hstep : s.step .next = some t) : t.Stores job := by
  have hgrows := step_grows hstep
  obtain ⟨effect, remaining, heq, rfl⟩ := step_next hstep
  rcases h with hstored | ⟨key, result, hmem, hkey⟩
  · exact Or.inl (hgrows.results job hstored)
  · rw [heq] at hmem
    rcases List.mem_cons.1 hmem with rfl | hmem
    · left
      subst hkey
      simp [perform, store]
    · exact Or.inr ⟨key, result, by rwa [(perform_frame _ effect).1], hkey⟩

theorem Takes.next (h : s.Takes job) (hstep : s.step .next = some t) : t.Takes job := by
  have hgrows := step_grows hstep
  obtain ⟨effect, remaining, heq, rfl⟩ := step_next hstep
  rcases h with htaken | ⟨hhere, ref, params, hmem⟩
  · exact Or.inl (hgrows.taken htaken)
  · rw [heq] at hmem
    obtain ⟨hremaining, htakes, -⟩ := perform_frame { s with remaining := remaining } effect
    rcases List.mem_cons.1 hmem with rfl | hmem
    · left
      simp [perform, hhere]
    · exact Or.inr ⟨by rwa [htakes], ref, params, by rwa [hremaining]⟩

/-- What is stored and taken, and the submission in hand, stay. -/
theorem Stores.grows (h : s.Stores job) (hgrows : Grows s t) (hremaining : t.remaining = s.remaining) :
    t.Stores job := by
  unfold Stores
  rw [hremaining]
  exact h.imp_left (hgrows.results job)

theorem Takes.grows (h : s.Takes job) (hgrows : Grows s t) (hremaining : t.remaining = s.remaining)
    (hhere : t.takesHere = s.takesHere) : t.Takes job := by
  unfold Takes
  rw [hremaining, hhere]
  exact h.imp_left fun htaken => hgrows.taken htaken

theorem Stores.lookup (h : s.Stores job) (hdone : s.remaining = []) :
    (s.results.lookup job).isSome := by
  rcases h with hstored | ⟨key, result, hmem, -⟩
  · exact hstored
  · rw [hdone] at hmem
    cases hmem

theorem Takes.mem (h : s.Takes job) (hdone : s.remaining = []) : job ∈ s.taken := by
  rcases h with htaken | ⟨-, ref, params, hmem⟩
  · exact htaken
  · rw [hdone] at hmem
    cases hmem

end JobEndpoint

/-- A submission that is accepted records and announces the job and hands it to the runtime. -/
theorem submitJob_ok {registry : StorageKey → Option FunctionRecord} {envelope : JobEnvelope}
    {jobId : String} {answer : Except String Unit}
    (h : (submitJob registry (fun _ _ _ => answer) envelope jobId).1.ok = true) :
    answer = .ok () ∧
      (submitJob registry (fun _ _ _ => answer) envelope jobId).1.metadata.lookup "job_id" =
        some (.str jobId) ∧
      ∃ functionId version ref params,
        (submitJob registry (fun _ _ _ => answer) envelope jobId).2 =
          [.put { id := jobId } { jobId := jobId, ok := false, error := "PENDING" },
            .emit jobId functionId version params, .invoke ref jobId params] := by
  unfold submitJob at h ⊢
  split at h
  · rename_i functionId version _ _
    simp only at h ⊢
    split at h
    · cases h
    · rename_i params _
      cases answer with
      | error raw => cases h
      | ok _ => exact ⟨rfl, rfl, functionId, version, functionRef functionId version, params, rfl⟩
  · cases h

namespace RouterServer

variable {floatText : ℚ → String} {s t : RouterServer} {job : String}

/-! ### Events -/

namespace TimelyInv

theorem init (virtualEnvironmentId : Option String) : TimelyInv (init virtualEnvironmentId) where
  known := fun jobId h => by cases h
  here := fun jobId h => by cases h
  completed := fun jobId h => absurd h (Finset.notMem_empty jobId)
  progress := fun jobId h => by cases h
  early := fun jobId _ h => absurd h (Finset.notMem_empty jobId)

/-- No event comes, and nothing else is noted. -/
theorem congr (h : TimelyInv s) (hgrows : s.endpoint.Grows t.endpoint) (hnoted : t.noted = s.noted)
    (hcompleted : t.completed = s.completed)
    (hprogress : ∀ jobId, t.thread.submitting = some jobId →
      t.endpoint.Stores jobId ∧ t.endpoint.Takes jobId)
    (hearly : ∀ jobId, jobId ∈ t.jobIdentities ∨ t.thread.submitting = some jobId →
      jobId ∈ s.completed → jobId ∈ t.endpoint.finishing) :
    TimelyInv t where
  known := fun jobId hjob => hgrows.results jobId (h.known jobId (hnoted ▸ hjob))
  here := fun jobId hjob => hgrows.taken (h.here jobId (hnoted ▸ hjob))
  completed := fun jobId hjob => hgrows.results jobId (h.completed jobId (hcompleted ▸ hjob))
  progress := hprogress
  early := fun jobId hjob hcomp => hearly jobId hjob (hcompleted ▸ hcomp)

/-- The loop hands a submission to its handler. -/
theorem submit {request : ClientRequest} {registry : StorageKey → Option FunctionRecord}
    {jobId : String} {answer : RuntimeAnswer} {endpoint : JobEndpoint} (h : TimelyInv s)
    (hidle : s.thread = .idle) (hanswer : answer ≠ .elsewhere)
    (hstep : s.endpoint.step (.submit registry request.command.job jobId answer) = some endpoint) :
    TimelyInv { s with
        endpoint := endpoint
        thread := .handling request
          (submitJob registry (fun _ _ _ => answer.toExcept) request.command.job jobId).1 } ∧
      ∀ job, submittedJob request.command
        (submitJob registry (fun _ _ _ => answer.toExcept) request.command.job jobId).1 = some job →
          job ∉ s.noted.map Prod.fst := by
  have hgrows := JobEndpoint.step_grows hstep
  simp only [JobEndpoint.step] at hstep
  split_ifs at hstep with hcond
  cases hstep
  have hnone : (s.endpoint.results.lookup jobId).isSome = false := by simpa using hcond.2
  -- the job that is submitted is new
  have hsubmitted : ∀ job, submittedJob request.command
      (submitJob registry (fun _ _ _ => answer.toExcept) request.command.job jobId).1 = some job →
      (submitJob registry (fun _ _ _ => answer.toExcept) request.command.job jobId).1.ok = true ∧
        job = jobId := by
    intro job hjob
    unfold submittedJob at hjob
    split_ifs at hjob with hok
    rw [(submitJob_ok hok.2).2.1] at hjob
    exact ⟨hok.2, (Option.some.inj hjob).symm⟩
  refine ⟨h.congr hgrows ?_ rfl (fun job hjob => ?_) ?_, fun job hjob hnoted => ?_⟩
  · simp [noted, hidle, RouterThread.accepting]
  · obtain ⟨hok, rfl⟩ := hsubmitted job hjob
    obtain ⟨htaken, -, functionId, version, ref, params, heffects⟩ := submitJob_ok hok
    have hhere : answer = .here := by
      cases answer with
      | here => rfl
      | elsewhere => exact absurd rfl hanswer
      | refused => cases htaken
    refine ⟨Or.inr ⟨{ id := job }, { jobId := job, ok := false, error := "PENDING" }, ?_, rfl⟩,
      Or.inr ⟨decide_eq_true hhere, ref, params, ?_⟩⟩
    · dsimp only
      rw [heffects]
      exact List.mem_cons_self
    · dsimp only
      rw [heffects]
      simp
  · rintro job (hjob | hjob) hcompleted
    · exact h.early job (Or.inl hjob) hcompleted
    · obtain ⟨-, rfl⟩ := hsubmitted job hjob
      rw [h.completed job hcompleted] at hnone
      cases hnone
  · obtain ⟨-, rfl⟩ := hsubmitted job hjob
    rw [h.known job hnoted] at hnone
    cases hnone

/-- The handler has returned. -/
theorem note {request : ClientRequest} {result : CommandResult} (h : TimelyInv s)
    (hthread : s.thread = .handling request result) (hdone : s.endpoint.remaining = []) :
    TimelyInv { s with
      jobIdentities := identitiesAfter s.jobIdentities request result
      thread := .replying request result } := by
  obtain ⟨hknown, hhere, hcompleted, hprogress, hearly⟩ := h
  rw [hthread] at hprogress hearly
  have hnoted : ∀ jobId ∈ ({ s with
      jobIdentities := identitiesAfter s.jobIdentities request result
      thread := .replying request result } : RouterServer).noted.map Prod.fst,
      jobId ∈ s.noted.map Prod.fst ∨ submittedJob request.command result = some jobId := by
    intro jobId hjob
    simp only [noted, hthread, RouterThread.accepting, List.map_append, List.mem_append,
      Outgoing.accepts] at hjob ⊢
    refine hjob.imp Or.inl fun hnew => ?_
    rcases hsubmitted : submittedJob request.command result with _ | job
    · simp [hsubmitted] at hnew
    · simpa [hsubmitted, eq_comm] using hnew
  refine ⟨fun jobId hjob => ?_, fun jobId hjob => ?_, hcompleted,
    (fun jobId hnone => by cases hnone), fun jobId hjob hcomp => ?_⟩
  · rcases hnoted jobId hjob with hold | hnew
    · exact hknown jobId hold
    · exact (hprogress jobId hnew).1.lookup hdone
  · rcases hnoted jobId hjob with hold | hnew
    · exact hhere jobId hold
    · exact (hprogress jobId hnew).2.mem hdone
  · rcases hjob with hmem | hnone
    · refine hearly jobId ?_ hcomp
      dsimp only at hmem
      rcases identitiesAfter_cases s.jobIdentities request result with
        ⟨job, hsubmitted, -, hafter⟩ | ⟨job, -, -, hafter⟩ | ⟨-, -, hafter⟩
      · rw [hafter, AList.mem_insert] at hmem
        rcases hmem with rfl | hmem
        · exact Or.inr hsubmitted
        · exact Or.inl hmem
      · rw [hafter, AList.mem_erase] at hmem
        exact Or.inl hmem.2
      · rw [hafter] at hmem
        exact Or.inl hmem
    · cases hnone

/-- `on_complete` saves a result. -/
theorem complete {completion : Completion} {endpoint : JobEndpoint} (h : TimelyInv s)
    (hstep : s.endpoint.step (.complete job completion) = some endpoint) :
    TimelyInv { s with endpoint := endpoint, completed := insert job s.completed } := by
  have hgrows := JobEndpoint.step_grows hstep
  simp only [JobEndpoint.step] at hstep
  split_ifs at hstep
  cases hstep
  refine ⟨fun jobId hjob => hgrows.results jobId (h.known jobId hjob),
    fun jobId hjob => h.here jobId hjob, fun jobId hjob => ?_, fun jobId hjob => ?_,
    fun jobId hjob hcomp => ?_⟩
  · rcases Finset.mem_insert.1 hjob with rfl | hjob
    · simp [JobEndpoint.store]
    · exact hgrows.results jobId (h.completed jobId hjob)
  · obtain ⟨hstores, htakes⟩ := h.progress jobId hjob
    exact ⟨hstores.grows hgrows rfl, htakes.grows hgrows rfl rfl⟩
  · rcases Finset.mem_insert.1 hcomp with rfl | hcomp
    · exact List.mem_cons_self
    · exact List.mem_cons_of_mem _ (h.early jobId hjob hcomp)

/-- The event of a job comes, which is not being submitted. -/
theorem emit {endpoint : JobEndpoint} (h : TimelyInv s) (hthread : s.thread.submitting ≠ some job)
    (hstep : s.endpoint.step (.finish job) = some endpoint) (pushing : List (String × Identity)) :
    TimelyInv { s with
      endpoint := endpoint
      jobIdentities := s.jobIdentities.erase job
      pushing := pushing } := by
  have hgrows := JobEndpoint.step_grows hstep
  simp only [JobEndpoint.step] at hstep
  split_ifs at hstep
  cases hstep
  refine h.congr hgrows rfl rfl (fun jobId hjob => ?_) fun jobId hjob hcomp => ?_
  · obtain ⟨hstores, htakes⟩ := h.progress jobId hjob
    exact ⟨hstores.grows hgrows rfl, htakes.grows hgrows rfl rfl⟩
  · have hne : jobId ≠ job := by
      rintro rfl
      rcases hjob with hmem | hsubmitting
      · exact (AList.mem_erase.1 hmem).1 rfl
      · exact hthread hsubmitting
    refine (List.mem_erase_of_ne hne).2 (h.early jobId ?_ hcomp)
    exact hjob.imp_left fun hmem => (AList.mem_erase.1 hmem).2

/-- The loop begins a request that submits no job. -/
theorem beginRequest {request : ClientRequest} {result : CommandResult} (h : TimelyInv s)
    (hidle : s.thread = .idle) (hgrows : s.endpoint.Grows t.endpoint)
    (hfinishing : t.endpoint.finishing = s.endpoint.finishing)
    (hidentities : t.jobIdentities = s.jobIdentities) (hsent : t.sent = s.sent)
    (hcompleted : t.completed = s.completed) (hthread : t.thread = .handling request result)
    (hnone : submittedJob request.command result = none) : TimelyInv t := by
  have hsubmitting (job : String) : t.thread.submitting ≠ some job := by
    rw [hthread, RouterThread.submitting, hnone]
    exact (Option.some_ne_none job).symm
  refine h.congr hgrows ?_ hcompleted (fun job hjob => absurd hjob (hsubmitting job)) ?_
  · rw [noted_of_idle hidle, noted_of_handling hthread, hsent]
  · rintro job (hjob | hjob) hcomp
    · rw [hfinishing]
      exact h.early job (Or.inl (hidentities ▸ hjob)) hcomp
    · exact absurd hjob (hsubmitting job)

end TimelyInv

/-! ### Runs -/

/-- The loop takes a request. -/
theorem inv_take {request : ClientRequest} {handling : Handling} (hT : TellInv s) (hE : TimelyInv s)
    (hG : s.PushGuard (.take request handling))
    (hstep : step floatText s (.take request handling) = some t) : TellInv t ∧ TimelyInv t := by
  simp only [step] at hstep
  split at hstep
  · rename_i hidle
    cases handling with
    | jobSubmit registry jobId answer =>
      simp only [handle] at hstep
      split_ifs at hstep
      obtain ⟨endpoint, hendpoint, rfl⟩ := Option.map_eq_some_iff.1 hstep
      obtain ⟨hinv, hfresh⟩ := hE.submit hidle hG hendpoint
      exact ⟨hT.beginRequest hidle rfl rfl rfl rfl hfresh, hinv⟩
    | jobResult =>
      simp only [handle] at hstep
      split_ifs at hstep with hop
      cases hstep
      refine ⟨hT.beginRequest hidle rfl rfl rfl rfl fun job hjob => ?_,
        hE.beginRequest hidle (.refl _) rfl rfl rfl rfl rfl (submittedJob_jobResult hop)⟩
      rw [submittedJob_jobResult hop] at hjob
      cases hjob
    | other act result =>
      simp only [handle] at hstep
      split_ifs at hstep with hop
      have hnone : submittedJob request.command result = none := by
        unfold submittedJob
        rw [if_neg]
        exact fun hsubmit => hop ⟨Or.inl hsubmit.1, hsubmit.2⟩
      have hfresh (job : String) (hjob : submittedJob request.command result = some job) :
          job ∉ s.noted.map Prod.fst := by
        rw [hnone] at hjob
        cases hjob
      split at hstep
      · cases hstep
        exact ⟨hT.beginRequest hidle rfl rfl rfl rfl hfresh,
          hE.beginRequest hidle (.refl _) rfl rfl rfl rfl rfl hnone⟩
      · rename_i act
        split_ifs at hstep with hcommand
        obtain ⟨endpoint, hendpoint, rfl⟩ := Option.map_eq_some_iff.1 hstep
        exact ⟨hT.beginRequest hidle rfl rfl rfl rfl hfresh,
          hE.beginRequest hidle (JobEndpoint.step_grows hendpoint)
            (JobEndpoint.finishing_of_command hcommand hendpoint) rfl rfl rfl rfl hnone⟩
  · cases hstep
  · cases hstep

/-- The two invariants are kept by every guarded step. -/
theorem inv_step {a : RouterServerAction} (hT : TellInv s) (hE : TimelyInv s) (hG : s.PushGuard a)
    (hstep : step floatText s a = some t) : TellInv t ∧ TimelyInv t := by
  cases a with
  | take => exact inv_take hT hE hG hstep
  | goOn =>
    obtain ⟨endpoint, hendpoint, rfl⟩ := Option.map_eq_some_iff.1 hstep
    have hfinishing : endpoint.finishing = s.endpoint.finishing := by
      obtain ⟨effect, remaining, -, rfl⟩ := JobEndpoint.step_next hendpoint
      exact (JobEndpoint.perform_frame _ effect).2.2
    refine ⟨hT.congr rfl rfl rfl rfl hT.ordered hT.fresh,
      hE.congr (JobEndpoint.step_grows hendpoint) rfl rfl (fun job hjob => ?_) ?_⟩
    · obtain ⟨hstores, htakes⟩ := hE.progress job hjob
      exact ⟨hstores.next hendpoint, htakes.next hendpoint⟩
    · intro job hjob hcomp
      rw [hfinishing]
      exact hE.early job hjob hcomp
  | note =>
    simp only [step] at hstep
    split at hstep
    · rename_i request result hthread
      split_ifs at hstep with hdone
      cases hstep
      exact ⟨hT.note hthread, hE.note hthread (List.isEmpty_iff.1 hdone)⟩
    · cases hstep
    · cases hstep
  | reply =>
    simp only [step] at hstep
    split at hstep
    · rename_i request result hthread
      cases hstep
      refine ⟨hT.reply hthread, hE.congr (.refl _) (noted_reply hthread) rfl
        (fun job hjob => by cases hjob) ?_⟩
      rintro job (hjob | hjob) hcomp
      · exact hE.early job (Or.inl hjob) hcomp
      · cases hjob
    · cases hstep
    · cases hstep
  | complete jobId completion =>
    obtain ⟨endpoint, hendpoint, rfl⟩ := Option.map_eq_some_iff.1 hstep
    exact ⟨hT.congr rfl rfl rfl rfl hT.ordered hT.fresh, hE.complete hendpoint⟩
  | emit jobId =>
    obtain ⟨endpoint, hendpoint, rfl⟩ := Option.map_eq_some_iff.1 hstep
    exact ⟨hT.emit jobId endpoint, hE.emit hG hendpoint _⟩
  | push jobId identity =>
    simp only [step] at hstep
    split_ifs at hstep with hpushing
    cases hstep
    have hmem : (jobId, identity) ∈ s.noted :=
      hT.answered _ (List.mem_append_left _ hpushing)
    obtain ⟨result, hresult⟩ :=
      Option.isSome_iff_exists.1 (hE.known jobId (List.mem_map_of_mem hmem))
    simp only [hresult]
    refine ⟨hT.push _ hpushing hG, hE.congr (.refl _) ?_ rfl hE.progress hE.early⟩
    simp [noted, accepted, Outgoing.accepts]

/-- A submission of the function `f`, version 1. -/
def submitF (identity : Identity) : ClientRequest where
  identity := identity
  serial := 0
  command :=
    { operation := "JOB_SUBMIT", job := { functionId := "f", functionVersion := some 1 } }

/-- A poll of the job `a`. -/
def pollA (identity : Identity) : ClientRequest where
  identity := identity
  serial := 0
  command := { operation := "JOB_RESULT", job := { jobId := "a" } }

end RouterServer

end Axo
