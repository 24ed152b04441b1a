import Axo.Consensus.LedgerFacts
import Axo.Service.JobSubmit

/-!
# Placing a job

`_resolve_placement`: an endpoint with no idle container of its own asks the leader, and grows a
container, queues behind one of its own, or forwards the job to another endpoint, which does the
same.  `PlacementEnv` holds what the rest of the endpoint and the network answer on the way;
`forwards` follows one job from endpoint to endpoint.
-/

namespace Axo

open ConcurrencyLedger

/-- How `request_growth` ends: the answer arrives, or the call fails before or after the leader
has handled it. -/
inductive LeaderCall
  | answered
  | replyLost (error : String)
  | requestLost (error : String)

/-- What `find_idle`, `request_growth`, `summon_at`, `least_busy` and the forward function answer
while one endpoint places one job. -/
structure PlacementEnv (Handle : Type*) where
  findIdle : Option Handle
  call : LeaderCall
  draw : Draw
  summonAt : ℤ → Except String Handle
  leastBusy : Option Handle
  forwardJob : EndpointId → Except String Unit

/-- Where a job ends up at one endpoint. -/
inductive Placed (Handle : Type*)
  | handle (h : Handle)
  | forwarded (target : EndpointId)
  | failed (error : AxoError)

section Placement

variable {Handle : Type*} (key : Key) (maxConcurrency : ℤ)

/-- The error of a placement that names the function. -/
def placementError (message : String) : AxoError :=
  invocationError message [("function_id", .str key.1)]

/-- What an endpoint does with the leader's decision. -/
def actOn (selfId : EndpointId) (env : PlacementEnv Handle) (l : ConcurrencyLedger) :
    SlotDecision → Placed Handle × ConcurrencyLedger
  | .retry =>
    (.failed (placementError key "cluster concurrency ledger is mid-reconciliation, retry shortly"),
      l)
  | .granted slotIndex =>
    match env.summonAt slotIndex with
    -- the grant was committed before anything was spawned, so it goes right back
    | .error raw => (.failed (placementError key raw), l.releaseSlot key slotIndex selfId)
    | .ok handle => (.handle handle, l)
  | .place target =>
    if target = selfId then
      match env.leastBusy with
      | some handle => (.handle handle, l)
      | none =>
        (.failed (placementError key
          "leader named this endpoint as owner but no local container exists"), l)
    else
      match env.forwardJob target with
      | .error raw => (.failed (placementError key raw), l)
      | .ok () => (.forwarded target, l)

/-- `_resolve_placement`, with the leader's ledger before and after. -/
def resolvePlacement (l : ConcurrencyLedger) (selfId : EndpointId) (env : PlacementEnv Handle) :
    Placed Handle × ConcurrencyLedger :=
  match env.findIdle with
  | some handle => (.handle handle, l)
  | none =>
    let (decision, after) := l.requestSlot key maxConcurrency selfId env.draw
    match env.call with
    | .requestLost err => (.failed (placementError key err), l)
    | .replyLost err => (.failed (placementError key err), after)
    | .answered => actOn key selfId env after decision

/-- The number of forwards until a job placed at an endpoint is queued to a container or fails,
each endpoint on the way with its own surroundings; `none` while the job is still under way
after all of them. -/
def forwards (l : ConcurrencyLedger) (selfId : EndpointId) : List (PlacementEnv Handle) → Option ℕ
  | [] => none
  | env :: envs =>
    match resolvePlacement key maxConcurrency l selfId env with
    | (.forwarded target, after) => (forwards after target envs).map (· + 1)
    | _ => some 0

/-- With all containers busy, the job is executed after at most as many forwards as there are
owners, whatever is drawn and whatever fails. -/
def PlacementTerminates (Handle : Type*) (l : ConcurrencyLedger) (selfId : EndpointId) : Prop :=
  ∀ envs : List (PlacementEnv Handle), (∀ env ∈ envs, env.findIdle = none) →
    envs.length = (ownersOf (l.slots key)).length + 1 →
      (forwards key maxConcurrency l selfId envs).isSome

/-- One forward: the leader names another endpoint, and the job goes there. -/
def hop : ConcurrencyLedger × EndpointId → Draw → Option (ConcurrencyLedger × EndpointId)
  | (l, selfId), draw =>
    match l.requestSlot key maxConcurrency selfId draw with
    | (.place target, after) => if target = selfId then none else some (after, target)
    | _ => none

end Placement

end Axo
