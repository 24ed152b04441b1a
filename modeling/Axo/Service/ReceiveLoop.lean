import Axo.Consensus.LedgerRuns

/-!
# The receive loops of a cluster

Each endpoint has one `RouterServer` loop, which takes the next request when the current one is
answered: direct handlers run on it, and a dispatched one is awaited in `dispatcher.submit`.  A
handler may send a blocking request to another endpoint (`_forward_command`), and then the loop is
occupied until the reply comes or the call times out.

* `Operation`, `Request`, `Reply`: the commands that matter here and their answers;
* `Stage` is what the current handler does next, `Resume` what it does when a reply comes;
* `handle` is the next piece of the current handler: it goes on, replies, or sends a blocking
  request;
* `Routers`, `RouterAction` and `Routers.step` are the system.

The leader is fixed.  What a handler finds out locally (is a container idle, which containers are
stale, does a container start, are the parameters valid) is a parameter of the step (`Choice`).
-/

namespace Axo

open ConcurrencyLedger

/-- What a command asks for. -/
inductive Operation
  /-- a leader-only command that the leader answers at once, such as `FUNCTION_REGISTER` -/
  | leaderCommand
  | slotRequest (key : Key) (maxConcurrency : ℤ) (requesterId : EndpointId)
  | slotRelease (key : Key) (slotIndex : ℤ) (endpointId : EndpointId)
  | jobResultSync
  | jobResultReplicate
  | jobSubmit (key : Key)
  | jobForward (key : Key)
  | jobCancel
  /-- a command that every endpoint answers at once, such as `PING` -/
  | localCommand
  deriving DecidableEq

/-- A request, with the loop and the call that wait for its reply.  Clients and other threads of
an endpoint wait too, but occupy no loop. -/
structure Request where
  operation : Operation
  /-- `__forwarded__` -/
  forwarded : Bool
  replyTo : Option (EndpointId × ℕ)
  deriving DecidableEq

/-- A `CommandResult`. -/
structure Reply where
  ok : Bool
  decision : Option SlotDecision
  deriving DecidableEq

def Reply.done (ok : Bool) : Reply := { ok := ok, decision := none }

/-- `ConcurrencySlotRequestHandler` answers a `retry` with an error. -/
def Reply.ofDecision (decision : SlotDecision) : Reply :=
  { ok := decision ≠ .retry, decision := some decision }

/-- What the current handler does next. -/
inductive Stage
  | start
  /-- `find_idle` looks for a container -/
  | finding (key : Key)
  /-- `request_growth` -/
  | asking (key : Key)
  /-- `_resolve_placement` acts on the leader's decision -/
  | placing (key : Key) (decision : SlotDecision)
  /-- slots are released, one after the other -/
  | releasing (slots : List (Key × ℤ)) (next : Stage)
  /-- `fanout_result_to_peers`, with the attempts left for the first peer -/
  | fanningOut (peers : List EndpointId) (attempts : ℕ)
  | replying (reply : Reply)
  deriving DecidableEq

/-- What the current handler does when the reply comes. -/
inductive Resume
  /-- `LeaderProxyHandler` relays the leader's reply -/
  | relay
  | placing (key : Key)
  /-- the job has been forwarded -/
  | forwarding
  | releasing (slots : List (Key × ℤ)) (next : Stage)
  /-- `push_with_retry` for the first peer -/
  | pushing (peers : List EndpointId) (attempts : ℕ)
  deriving DecidableEq

/-- A receive loop. -/
inductive Loop
  | idle
  | running (request : Request) (stage : Stage)
  /-- the handler of the request awaits the reply of the target to a call -/
  | waiting (request : Request) (target : EndpointId) (call : ℕ) (resume : Resume)
  deriving DecidableEq

/-- What a piece of a handler comes to. -/
inductive Outcome
  | goOn (stage : Stage)
  | reply (reply : Reply)
  | call (target : EndpointId) (operation : Operation) (forwarded : Bool) (resume : Resume)
  deriving DecidableEq

/-- What a handler finds out locally. -/
structure Choice where
  /-- nothing fails: the command is valid, the address known, the container there -/
  ok : Bool
  /-- a container is idle, or the job runs in a process -/
  idle : Bool
  /-- the slots of the containers that `_dismiss_stale` removes -/
  stale : List ℤ
  /-- the slots that `cancel` releases -/
  cancelled : List (Key × ℤ)
  peers : List EndpointId
  draw : Draw
  deriving DecidableEq

/-- Nothing fails, and no container is idle. -/
instance : Inhabited Choice := ⟨true, false, [], [], [], default⟩

/-- What is fixed in a run. -/
structure Setup where
  leader : EndpointId
  maxConcurrency : Key → ℤ
  /-- `AXO_ENDPOINT_RESULT_REPLICATION_MAX_RETRIES` -/
  maxRetries : ℕ

namespace Setup

/-- The attempts of `push_with_retry`. -/
def attempts (c : Setup) : ℕ := max 1 c.maxRetries

/-- `LeaderProxyHandler.handle`: the inner handler at the leader, else one hop to the leader. -/
def leaderProxy (c : Setup) (e : EndpointId) (operation : Operation) (forwarded known : Bool)
    (resume : Resume) (failure : Stage) (ledger : ConcurrencyLedger)
    (inner : Outcome × ConcurrencyLedger) : Outcome × ConcurrencyLedger :=
  if e = c.leader then inner
  else if forwarded = true ∨ known = false then (.goOn failure, ledger)
  else (.call c.leader operation true resume, ledger)

/-- The next piece of the handler of a request, at the endpoint `e`. -/
def handle (c : Setup) (e : EndpointId) (ledger : ConcurrencyLedger) (r : Request)
    (choice : Choice) : Stage → Outcome × ConcurrencyLedger
  | .start =>
    let proxied := c.leaderProxy e r.operation r.forwarded choice.ok .relay
      (.replying (.done false)) ledger
    match r.operation with
    | .leaderCommand => proxied (.goOn (.replying (.done choice.ok)), ledger)
    | .slotRequest key maxConcurrency requesterId =>
      let (decision, ledger) := ledger.requestSlot key maxConcurrency requesterId choice.draw
      proxied (.goOn (.replying (.ofDecision decision)), ledger)
    | .slotRelease key slotIndex endpointId =>
      proxied (.goOn (.replying (.done true)), ledger.releaseSlot key slotIndex endpointId)
    | .jobResultSync =>
      proxied (.goOn (if choice.ok = true then .fanningOut choice.peers c.attempts
        else .replying (.done false)), ledger)
    | .jobResultReplicate | .localCommand => (.goOn (.replying (.done choice.ok)), ledger)
    | .jobSubmit key | .jobForward key =>
      if choice.ok = true then
        (.goOn (.releasing (choice.stale.map fun i => (key, i)) (.finding key)), ledger)
      else (.goOn (.replying (.done false)), ledger)
    | .jobCancel => (.goOn (.releasing choice.cancelled (.replying (.done choice.ok))), ledger)
  | .finding key =>
    (.goOn (if choice.idle = true then .replying (.done true) else .asking key), ledger)
  | .asking key =>
    let (decision, ledger') := ledger.requestSlot key (c.maxConcurrency key) e choice.draw
    c.leaderProxy e (.slotRequest key (c.maxConcurrency key) e) false choice.ok (.placing key)
      (.replying (.done false)) ledger (.goOn (.placing key decision), ledger')
  | .placing key (.granted slotIndex) =>
    if choice.ok = true then
      (.goOn (.releasing (choice.stale.map fun i => (key, i)) (.replying (.done true))), ledger)
    else (.goOn (.releasing [(key, slotIndex)] (.replying (.done false))), ledger)
  | .placing key (.place target) =>
    if target = e then (.goOn (.replying (.done choice.ok)), ledger)
    else if choice.ok = true then (.call target (.jobForward key) false .forwarding, ledger)
    else (.goOn (.replying (.done false)), ledger)
  | .placing _ .retry => (.goOn (.replying (.done false)), ledger)
  | .releasing [] next => (.goOn next, ledger)
  | .releasing ((key, slotIndex) :: slots) next =>
    c.leaderProxy e (.slotRelease key slotIndex e) false choice.ok (.releasing slots next)
      (.releasing slots next) ledger
      (.goOn (.releasing slots next), ledger.releaseSlot key slotIndex e)
  | .fanningOut [] _ => (.goOn (.replying (.done true)), ledger)
  | .fanningOut (peer :: peers) attempts =>
    (.call peer .jobResultReplicate false (.pushing (peer :: peers) attempts), ledger)
  | .replying reply => (.reply reply, ledger)

/-- The handler goes on with a reply; a call that times out counts as an error reply. -/
def resume (c : Setup) (reply : Reply) : Resume → Stage
  | .relay => .replying reply
  | .placing key =>
    match reply.ok, reply.decision with
    | true, some decision => .placing key decision
    | _, _ => .replying (.done false)
  | .forwarding => .replying (.done reply.ok)
  | .releasing slots next => .releasing slots next
  | .pushing peers attempts =>
    if reply.ok = false ∧ 1 < attempts then .fanningOut peers (attempts - 1)
    else .fanningOut peers.tail c.attempts

end Setup

/-- The receive loops, and the messages between them. -/
structure Routers where
  loop : EndpointId → Loop
  inbox : EndpointId → List Request
  /-- blocking requests on their way -/
  sent : List (EndpointId × Request)
  /-- replies on their way, with the loop and the call that they are for -/
  replies : List (EndpointId × ℕ × Reply)
  /-- the leader's ledger -/
  ledger : ConcurrencyLedger
  calls : ℕ

/-- One step of the system. -/
inductive RouterAction
  /-- a client, or another thread of some endpoint, sends a request -/
  | arrive (endpointId : EndpointId) (operation : Operation) (forwarded : Bool)
  | deliver (endpointId : EndpointId) (request : Request)
  | take (endpointId : EndpointId)
  | work (endpointId : EndpointId) (choice : Choice)
  | receive (endpointId : EndpointId) (reply : Reply)
  | timeout (endpointId : EndpointId)
  /-- another thread of the leader uses the ledger -/
  | background (op : LedgerOp)

/-- The endpoint whose messages or whose loop a step moves on; requests from outside and timeouts
move nothing on. -/
def RouterAction.movesOn : RouterAction → Option EndpointId
  | .deliver e _ | .take e | .work e _ | .receive e _ => some e
  | .arrive _ _ _ | .timeout _ | .background _ => none

namespace Routers

variable (c : Setup)

/-- All loops are idle. -/
def init (strategy : String) : Routers where
  loop := fun _ => .idle
  inbox := fun _ => []
  sent := []
  replies := []
  ledger := new strategy
  calls := 0

def setLoop (s : Routers) (e : EndpointId) (l : Loop) : Routers :=
  { s with loop := Function.update s.loop e l }

/-- The reply goes to the loop that waits for it. -/
def reply (s : Routers) (r : Request) (reply : Reply) : Routers :=
  match r.replyTo with
  | some (caller, call) => { s with replies := (caller, call, reply) :: s.replies }
  | none => s

/-- The loop of `e`, handling `r`, comes to an outcome. -/
def apply (s : Routers) (e : EndpointId) (r : Request) (ledger : ConcurrencyLedger) :
    Outcome → Routers
  | .goOn stage => { s.setLoop e (.running r stage) with ledger := ledger }
  | .reply reply => { (s.setLoop e .idle).reply r reply with ledger := ledger }
  | .call target operation forwarded resume =>
    { s.setLoop e (.waiting r target s.calls resume) with
      ledger := ledger
      sent := (target, ⟨operation, forwarded, some (e, s.calls)⟩) :: s.sent
      calls := s.calls + 1 }

/-- One step, where it is possible. -/
def step (s : Routers) : RouterAction → Option Routers
  | .arrive e operation forwarded =>
    some { s with
      inbox := Function.update s.inbox e (s.inbox e ++ [⟨operation, forwarded, none⟩]) }
  | .deliver e r =>
    if (e, r) ∈ s.sent then
      some { s with
        sent := s.sent.erase (e, r)
        inbox := Function.update s.inbox e (s.inbox e ++ [r]) }
    else none
  | .take e =>
    match s.loop e, s.inbox e with
    | .idle, r :: rest =>
      some { s.setLoop e (.running r .start) with inbox := Function.update s.inbox e rest }
    | _, _ => none
  | .work e choice =>
    match s.loop e with
    | .running r stage =>
      let (outcome, ledger) := c.handle e s.ledger r choice stage
      some (s.apply e r ledger outcome)
    | _ => none
  | .receive e reply =>
    match s.loop e with
    | .waiting r _ call resume =>
      if (e, call, reply) ∈ s.replies then
        some { s.setLoop e (.running r (c.resume reply resume)) with
          replies := s.replies.erase (e, call, reply) }
      else none
    | _ => none
  | .timeout e =>
    match s.loop e with
    | .waiting r _ _ resume => some (s.setLoop e (.running r (c.resume (.done false) resume)))
    | _ => none
  | .background op => some { s with ledger := op.apply c.maxConcurrency s.ledger }

/-- The endpoint to which a step sends a blocking request. -/
def callee (s : Routers) : RouterAction → Option EndpointId
  | .work e choice =>
    match s.loop e with
    | .running r stage =>
      match (c.handle e s.ledger r choice stage).1 with
      | .call target _ _ _ => some target
      | .goOn _ | .reply _ => none
    | _ => none
  | _ => none

/-- The endpoint whose reply the loop awaits. -/
def waitsFor (s : Routers) (e : EndpointId) : Option EndpointId :=
  match s.loop e with
  | .waiting _ target _ _ => some target
  | _ => none

end Routers

end Axo
