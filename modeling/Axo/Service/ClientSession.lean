import Axo.Data.ClientUpload
import Axo.Service.RouterServer

/-!
# The session of a client with its server

`AxoEndpointClient` of `axo_shared/client.py`: each method is a chain of `_send`s, and `_send` takes
the next message that arrives for the reply to its command.

* `ClientCall` is such a chain; `ClientCall.run`, `ClientCall.uploadData` and the others are the
  methods;
* `ClientSession` is one client beside a `RouterServer` that has other clients too, with reliable
  and ordered delivery both ways;
* `SessionGuard` excludes a command that is sent while an earlier one is unanswered or a message is
  unread, and a push to the client while a command of its is unanswered;
* `ownReplies_of_reach` is the result for whole runs.
-/

namespace Axo

open Transition

/-! ### Calls -/

/-- What a method does: it sends a command, goes on with the result that comes, and in the end
returns the last result or raises. -/
inductive ClientCall
  | send (command : Command) (next : CommandResult → ClientCall)
  | finish
  /-- the method raises, or goes on with a client of its own -/
  | leave

namespace ClientCall

/-- A method of one command. -/
def once (command : Command) : ClientCall := .send command fun _ => .finish

/-- `ping`. -/
def ping : ClientCall := once { operation := "PING" }

/-- The command of `submit_job`. -/
def submitCommand (functionId functionName : String) (version : ℤ) (params : Params) : Command where
  operation := "JOB_SUBMIT"
  job :=
    { functionId := some functionId
      functionName := some functionName
      functionVersion := some version
      params := params }

/-- `submit_job`. -/
def submitJob (functionId functionName : String) (version : ℤ) (params : Params) : ClientCall :=
  once (submitCommand functionId functionName version params)

/-- The command of `get_job_result`. -/
def resultCommand (jobId : String) : Command where
  operation := "JOB_RESULT"
  job := { jobId := some jobId }

/-- `get_job_result`. -/
def getJobResult (jobId : String) : ClientCall := once (resultCommand jobId)

/-- The loop of `run`; the deadline has passed after so many polls more. -/
def pollJob (jobId : String) : ℕ → ClientCall
  | 0 => .send (resultCommand jobId) fun poll =>
    if poll.ok = true ∧ poll.metadata.lookup "status" ≠ some (.str "PENDING") then .finish
    else .leave
  | polls + 1 => .send (resultCommand jobId) fun poll =>
    if poll.ok = true ∧ poll.metadata.lookup "status" ≠ some (.str "PENDING") then .finish
    else pollJob jobId polls

/-- `run`. -/
def run (functionId functionName : String) (version : ℤ) (params : Params) (polls : ℕ) :
    ClientCall :=
  .send (submitCommand functionId functionName version params) fun submit =>
    if submit.ok = true then
      match submit.metadata.lookup "job_id" with
      | some (.str jobId) => pollJob jobId polls
      | _ => .leave
    else .finish

/-- The command of `data_status`. -/
def statusCommand (key : RecordKey) : Command where
  operation := "DATA_STATUS"
  data := AxoEndpointClient.statusEnvelope key

/-- The command of `put_data_chunk`. -/
def chunkCommand (key : RecordKey) (chunkIndex : ℕ) (chunk : List UInt8) : Command where
  operation := "DATA_CHUNK_PUT"
  data := AxoEndpointClient.chunkEnvelope key chunkIndex
  payload := chunk

/-- The loop of `upload_data` over the missing chunks. -/
def putChunks (key : RecordKey) (data : List UInt8) (chunkBytes : ℕ) : List ℕ → ClientCall
  | [] => .finish
  | i :: missing =>
    .send (chunkCommand key i (readChunkOf data i chunkBytes data.length)) fun result =>
      if result.ok = true then putChunks key data chunkBytes missing else .finish

/-- `upload_data` once it is known which chunks the leader has. -/
def sendMissing (key : RecordKey) (data : List UInt8) (chunkBytes : ℕ) (totalChunks : ℤ)
    (present : List Value) : ClientCall :=
  let missing := (chunkRange totalChunks).filter fun i : ℕ => Value.int i ∉ present
  if missing = [] then once (statusCommand key) else putChunks key data chunkBytes missing

/-- `upload_data` at the leader, once the dataset is registered. -/
def sendChunks (key : RecordKey) (data : List UInt8) (chunkBytes : ℕ) (resume : Bool)
    (totalChunks : ℤ) : ClientCall :=
  if resume = true then
    .send (statusCommand key) fun status =>
      sendMissing key data chunkBytes totalChunks (AxoEndpointClient.presentIn status)
  else sendMissing key data chunkBytes totalChunks []

/-- `upload_data` of a client with this address.  At another leader `sendChunks` is a call of the
client that is made for it. -/
def uploadData (address : String) (key : RecordKey) (data : List UInt8) (format kind : String)
    (chunkBytes : ℕ) (resume : Bool) : ClientCall :=
  .send
    { operation := "DATA_REGISTER"
      data := AxoEndpointClient.registerEnvelope key data.length chunkBytes format kind }
    fun registerResult =>
      if registerResult.ok = true then
        match registerResult.metadata.lookup "total_chunks" with
        | some (.int totalChunks) =>
          match registerResult.metadata.lookup "leader_rpc_uri" with
          | none | some .none => sendChunks key data chunkBytes resume totalChunks
          | some leaderRpcUri =>
            if leaderRpcUri = .str address then sendChunks key data chunkBytes resume totalChunks
            else .leave
        | _ => .leave
      else .finish

end ClientCall

/-! ### Sessions -/

/-- Where the client is in its call. -/
inductive ClientStage
  | idle
  /-- the next command of the call is to be sent; these were sent for it -/
  | sending (command : Command) (next : CommandResult → ClientCall) (sent : List ClientRequest)
  /-- `_send` waits for a message -/
  | waiting (request : ClientRequest) (next : CommandResult → ClientCall)
      (sent : List ClientRequest)

/-- A client and its server. -/
structure ClientSession where
  server : RouterServer
  /-- the commands on their way to the server -/
  requests : List ClientRequest
  /-- the messages that have come to the client and that it has not read -/
  inbox : List Outgoing
  serial : ℕ
  stage : ClientStage
  /-- what `_send` took for the reply to each command -/
  replies : List (ClientRequest × Outgoing)
  /-- what the calls returned, beside the commands they had sent -/
  returned : List (List ClientRequest × Outgoing)

/-- The steps of a session. -/
inductive SessionAction
  /-- the client calls a method -/
  | call (call : ClientCall)
  /-- `_send` sends its command -/
  | send
  /-- `_send` receives a message -/
  | receive
  /-- `AxoClientTimeout` -/
  | timeout
  /-- the server takes the client's next command -/
  | serve (handling : Handling)
  /-- another step of the server -/
  | server (action : RouterServerAction)

namespace ClientSession

variable (floatText : ℚ → String) (me : Identity)

def init (virtualEnvironmentId : Option String) : ClientSession where
  server := .init virtualEnvironmentId
  requests := []
  inbox := []
  serial := 0
  stage := .idle
  replies := []
  returned := []

/-- The server has come to a state, and what it sent to the client is delivered. -/
def advance (s : ClientSession) (server : RouterServer) : ClientSession :=
  { s with
    server := server
    inbox := s.inbox ++
      (server.sent.drop s.server.sent.length).filter fun message => message.identity = me }

/-- `_send` has received a message for the request. -/
def received (s : ClientSession) (request : ClientRequest) (next : CommandResult → ClientCall)
    (sent : List ClientRequest) (message : Outgoing) : ClientSession :=
  let s := { s with replies := (request, message) :: s.replies }
  match next message.result with
  | .send command next => { s with stage := .sending command next sent }
  | .finish => { s with stage := .idle, returned := (sent, message) :: s.returned }
  | .leave => { s with stage := .idle }

/-- One step. -/
def step (s : ClientSession) : SessionAction → Option ClientSession
  | .call call =>
    match s.stage, call with
    | .idle, .send command next => some { s with stage := .sending command next [] }
    | _, _ => none
  | .send =>
    match s.stage with
    | .sending command next sent =>
      let request : ClientRequest := { identity := me, serial := s.serial, command := command }
      some { s with
        requests := s.requests ++ [request]
        serial := s.serial + 1
        stage := .waiting request next (request :: sent) }
    | .idle | .waiting _ _ _ => none
  | .receive =>
    match s.stage, s.inbox with
    | .waiting request next sent, message :: inbox =>
      some ({ s with inbox := inbox }.received request next sent message)
    | _, _ => none
  | .timeout =>
    match s.stage, s.inbox with
    | .waiting _ _ _, [] => some { s with stage := .idle }
    | _, _ => none
  | .serve handling =>
    match s.requests with
    | request :: requests =>
      (s.server.step floatText (.take request handling)).map fun server =>
        { s with requests := requests }.advance me server
    | [] => none
  | .server action =>
    if action.takesFrom = some me then none
    else (s.server.step floatText action).map fun server => s.advance me server

/-- A command of the client is not answered yet. -/
def unanswered (s : ClientSession) : Bool :=
  !s.requests.isEmpty || s.server.thread.request.any fun request => request.identity = me

/-- The guard on the steps: the client sends a command when the earlier ones are answered and it has
read all that came, and nothing is pushed to it while a command of its is unanswered. -/
def SessionGuard (s : ClientSession) : SessionAction → Prop
  | .send => s.unanswered me = false ∧ s.inbox.isEmpty = true
  | .server (.push _ identity) => identity = me → s.unanswered me = false
  | _ => True

instance (s : ClientSession) : (a : SessionAction) → Decidable (s.SessionGuard me a)
  | .send => inferInstanceAs (Decidable (s.unanswered me = false ∧ s.inbox.isEmpty = true))
  | .server (.push _ identity) =>
    inferInstanceAs (Decidable (identity = me → s.unanswered me = false))
  | .call _ | .receive | .timeout | .serve _ | .server (.take _ _) | .server .goOn
  | .server .note | .server .reply | .server (.complete _ _) | .server (.emit _) =>
    inferInstanceAs (Decidable True)

/-- Every command got its own reply, and every call returned the reply to a command of its own. -/
structure OwnReplies (s : ClientSession) : Prop where
  replies : ∀ x ∈ s.replies, ∃ result, x.2 = .reply x.1 result
  returned : ∀ x ∈ s.returned, ∃ request ∈ x.1, ∃ result, x.2 = .reply request result

/-! ### The invariant -/

variable {floatText me} {s t : ClientSession} {request : ClientRequest}

/-- Where the one command that the client waits for is. -/
inductive Awaited (me : Identity) (s : ClientSession) (request : ClientRequest) : Prop
  | sent (hrequests : s.requests = [request])
      (hothers : ∀ other, s.server.thread.request = some other → other.identity ≠ me)
      (hinbox : s.inbox = [])
  | inHand (hrequests : s.requests = []) (hrequest : s.server.thread.request = some request)
      (hinbox : s.inbox = [])
  | replied {result : CommandResult} {rest : List Outgoing} (hrequests : s.requests = [])
      (hothers : ∀ other, s.server.thread.request = some other → other.identity ≠ me)
      (hinbox : s.inbox = .reply request result :: rest)

/-- What a waiting client waits for is under way, and all replies so far are its own. -/
structure SessionInv (me : Identity) (s : ClientSession) : Prop extends OwnReplies s where
  awaited : ∀ request next sent, s.stage = .waiting request next sent →
    request.identity = me ∧ request ∈ sent ∧ Awaited me s request

/-- Nothing of the client is unanswered. -/
theorem unanswered_eq_false (h : s.unanswered me = false) : s.requests = [] ∧
    ∀ other, s.server.thread.request = some other → other.identity ≠ me := by
  unfold unanswered at h
  rw [Bool.or_eq_false_iff] at h
  refine ⟨by simpa using h.1, fun other hother heq => ?_⟩
  have hany := h.2
  rw [hother] at hany
  simp [heq] at hany

/-! ### The server goes on -/

theorem inbox_advance_of_same {u : RouterServer} (h : u.sent = s.server.sent) :
    (s.advance me u).inbox = s.inbox := by
  simp [advance, h]

/-- A message comes to the client if it is sent to it. -/
theorem inbox_advance_of_append {u : RouterServer} {message : Outgoing}
    (h : u.sent = s.server.sent ++ [message]) : (s.advance me u).inbox =
      s.inbox ++ if message.identity = me then [message] else [] := by
  by_cases heq : message.identity = me <;> simp [advance, h, heq]

/-- What is awaited stays under way, whatever the server does for others. -/
theorem Awaited.advance {a : RouterServerAction} {u : RouterServer} (h : Awaited me s request)
    (hme : request.identity = me) (hsends : RouterServer.Sends s.server u a)
    (htakes : a.takesFrom ≠ some me) (hguard : s.SessionGuard me (.server a)) :
    Awaited me (s.advance me u) request := by
  cases hsends with
  | @take other handling hidle hrequest hsent =>
    have hothers : ∀ other', u.thread.request = some other' → other'.identity ≠ me := by
      intro other' hother heq
      obtain rfl := Option.some.inj (hrequest.symm.trans hother)
      exact htakes (congrArg some heq)
    cases h with
    | sent hrequests _ hinbox =>
      exact .sent hrequests hothers ((inbox_advance_of_same hsent).trans hinbox)
    | inHand _ hrequest' _ =>
      rw [hidle] at hrequest'
      cases hrequest'
    | replied hrequests _ hinbox =>
      exact .replied hrequests hothers ((inbox_advance_of_same hsent).trans hinbox)
  | @reply other result hrequest hidle hsent =>
    have hothers : ∀ other', u.thread.request = some other' → other'.identity ≠ me := by
      intro other' hother
      rw [hidle] at hother
      cases hother
    have hinbox : (s.advance me u).inbox =
        s.inbox ++ if other.identity = me then [.reply other result] else [] :=
      inbox_advance_of_append hsent
    cases h with
    | sent hrequests hothers' hempty =>
      refine .sent hrequests hothers ?_
      rw [hinbox, if_neg (hothers' other hrequest), List.append_nil, hempty]
    | inHand hrequests hrequest' hempty =>
      -- the reply of the request itself
      obtain rfl := Option.some.inj (hrequest.symm.trans hrequest')
      rw [if_pos hme, hempty, List.nil_append] at hinbox
      exact .replied hrequests hothers hinbox
    | replied hrequests hothers' hreplied =>
      rw [if_neg (hothers' other hrequest), List.append_nil, hreplied] at hinbox
      exact .replied hrequests hothers hinbox
  | @push jobId identity result hrequest hsent =>
    have hinbox : (s.advance me u).inbox =
        s.inbox ++ if identity = me then [.push identity jobId result] else [] :=
      inbox_advance_of_append hsent
    by_cases heq : identity = me
    · obtain ⟨hrequests, hothers⟩ := unanswered_eq_false (hguard heq)
      cases h with
      | sent hrequests' _ _ =>
        rw [hrequests] at hrequests'
        cases hrequests'
      | inHand _ hrequest' _ => exact absurd hme (hothers request hrequest')
      | replied _ _ hreplied =>
        rw [hreplied, List.cons_append] at hinbox
        exact .replied hrequests (hrequest ▸ hothers) hinbox
    · have hsame : (s.advance me u).inbox = s.inbox := by
        rw [hinbox, if_neg heq, List.append_nil]
      cases h with
      | sent hrequests hothers hempty =>
        exact .sent hrequests (hrequest ▸ hothers) (hsame.trans hempty)
      | inHand hrequests hrequest' hempty =>
        exact .inHand hrequests (hrequest.trans hrequest') (hsame.trans hempty)
      | replied hrequests hothers hreplied =>
        exact .replied hrequests (hrequest ▸ hothers) (hsame.trans hreplied)
  | quiet _ hrequest hsent =>
    have hsame : (s.advance me u).inbox = s.inbox := inbox_advance_of_same hsent
    cases h with
    | sent hrequests hothers hempty =>
      exact .sent hrequests (hrequest ▸ hothers) (hsame.trans hempty)
    | inHand hrequests hrequest' hempty =>
      exact .inHand hrequests (hrequest.trans hrequest') (hsame.trans hempty)
    | replied hrequests hothers hreplied =>
      exact .replied hrequests (hrequest ▸ hothers) (hsame.trans hreplied)

/-! ### Runs -/

theorem sessionInv_init (virtualEnvironmentId : Option String) :
    SessionInv me (init virtualEnvironmentId) where
  replies := fun x hx => by cases hx
  returned := fun x hx => by cases hx
  awaited := fun request next sent h => by cases h

/-- The awaited reply is received. -/
theorem SessionInv.received {next : CommandResult → ClientCall} {sent : List ClientRequest}
    {message : Outgoing} {inbox : List Outgoing} (h : SessionInv me s)
    (hstage : s.stage = .waiting request next sent) (hinbox : s.inbox = message :: inbox) :
    SessionInv me (received { s with inbox := inbox } request next sent message) := by
  obtain ⟨-, hsent, hawaited⟩ := h.awaited request next sent hstage
  obtain ⟨result, rfl⟩ : ∃ result, message = .reply request result := by
    cases hawaited with
    | sent _ _ hempty | inHand _ _ hempty =>
      rw [hempty] at hinbox
      cases hinbox
    | @replied result _ _ _ hreplied =>
      rw [hreplied] at hinbox
      exact ⟨result, (List.cons.inj hinbox).1.symm⟩
  have hreplies : ∀ x ∈ (request, Outgoing.reply request result) :: s.replies,
      ∃ result, x.2 = .reply x.1 result := by
    intro x hx
    rcases List.mem_cons.1 hx with rfl | hx
    · exact ⟨result, rfl⟩
    · exact h.replies x hx
  unfold ClientSession.received
  rcases next (Outgoing.reply request result).result with ⟨command, next'⟩ | - | -
  · exact ⟨⟨hreplies, h.returned⟩, fun _ _ _ hwaiting => by cases hwaiting⟩
  · refine ⟨⟨hreplies, fun x hx => ?_⟩, fun _ _ _ hwaiting => by cases hwaiting⟩
    rcases List.mem_cons.1 hx with rfl | hx
    · exact ⟨request, hsent, result, rfl⟩
    · exact h.returned x hx
  · exact ⟨⟨hreplies, h.returned⟩, fun _ _ _ hwaiting => by cases hwaiting⟩

theorem SessionInv.step {a : SessionAction} (h : SessionInv me s) (hG : s.SessionGuard me a)
    (hstep : step floatText me s a = some t) : SessionInv me t := by
  cases a with
  | call call =>
    simp only [ClientSession.step] at hstep
    split at hstep
    · cases hstep
      exact ⟨⟨h.replies, h.returned⟩, fun _ _ _ hwaiting => by cases hwaiting⟩
    · cases hstep
  | send =>
    simp only [ClientSession.step] at hstep
    split at hstep
    · rename_i command next sent hstage
      cases hstep
      obtain ⟨hrequests, hothers⟩ := unanswered_eq_false hG.1
      refine ⟨⟨h.replies, h.returned⟩, fun request' next' sent' hwaiting => ?_⟩
      cases hwaiting
      refine ⟨rfl, List.mem_cons_self, .sent ?_ hothers (List.isEmpty_iff.1 hG.2)⟩
      dsimp only
      rw [hrequests, List.nil_append]
    · cases hstep
    · cases hstep
  | receive =>
    simp only [ClientSession.step] at hstep
    split at hstep
    · rename_i request next sent message inbox hstage hinbox
      cases hstep
      exact h.received hstage hinbox
    · cases hstep
  | timeout =>
    simp only [ClientSession.step] at hstep
    split at hstep
    · cases hstep
      exact ⟨⟨h.replies, h.returned⟩, fun _ _ _ hwaiting => by cases hwaiting⟩
    · cases hstep
  | serve handling =>
    simp only [ClientSession.step] at hstep
    split at hstep
    · rename_i request requests hrequests
      obtain ⟨server, hserver, rfl⟩ := Option.map_eq_some_iff.1 hstep
      refine ⟨⟨h.replies, h.returned⟩, fun request' next sent hwaiting => ?_⟩
      obtain ⟨hme, hsent, hawaited⟩ := h.awaited request' next sent hwaiting
      refine ⟨hme, hsent, ?_⟩
      cases hawaited with
      | sent hrequests' _ hempty =>
        -- the one request of the client is taken
        rw [hrequests] at hrequests'
        obtain ⟨rfl, rfl⟩ := List.cons.inj hrequests'
        cases RouterServer.step_sends hserver with
        | take hidle hrequest hsame =>
          exact .inHand rfl hrequest ((inbox_advance_of_same hsame).trans hempty)
        | quiet htakes _ _ => cases htakes
      | inHand hrequests' _ _ | replied hrequests' _ _ =>
        rw [hrequests] at hrequests'
        cases hrequests'
    · cases hstep
  | server action =>
    simp only [ClientSession.step] at hstep
    split_ifs at hstep with htakes
    obtain ⟨server, hserver, rfl⟩ := Option.map_eq_some_iff.1 hstep
    refine ⟨⟨h.replies, h.returned⟩, fun request next sent hwaiting => ?_⟩
    obtain ⟨hme, hsent, hawaited⟩ := h.awaited request next sent hwaiting
    exact ⟨hme, hsent, hawaited.advance hme (RouterServer.step_sends hserver) htakes hG⟩

/-- In a guarded session every command gets its own reply. -/
theorem ownReplies_of_reach {virtualEnvironmentId : Option String}
    (h : Reach (step floatText me) (SessionGuard me) (init virtualEnvironmentId) s) :
    s.OwnReplies := by
  have hinv : SessionInv me s := Reach.invariant (sessionInv_init virtualEnvironmentId)
    (fun _ _ _ hs hG hstep => hs.step hG hstep) h
  exact hinv.toOwnReplies

/-- Which request a message replies to. -/
def serialOf : Outgoing → Option ℕ
  | .reply request _ => some request.serial
  | .push _ _ _ => none

/-- A job is run, fetched by its second poll and completed by then, and the server is pinged. -/
theorem ownReplies_run : ∃ s, Reach (step (fun _ => "0.0") [1]) (SessionGuard [1]) (init none) s ∧
    s.replies.map (fun x => (x.1.serial, serialOf x.2)) =
      [(3, some 3), (2, some 2), (1, some 1), (0, some 0)] ∧
    s.returned.length = 2 ∧ s.OwnReplies := by
  obtain ⟨s, hs, htest⟩ := exists_reach_of_guarded_run (step (fun _ => "0.0") [1])
    (SessionGuard [1]) (init none)
    (fun s => decide (s.replies.map (fun x => (x.1.serial, serialOf x.2)) =
      [(3, some 3), (2, some 2), (1, some 1), (0, some 0)]) && decide (s.returned.length = 2))
    [.call (.run "f" "f" 1 ∅ 5), .send, .serve (.jobSubmit (fun _ => none) "a" .here),
      .server .goOn, .server .goOn, .server .goOn, .server .note, .server .reply, .receive,
      .send, .serve .jobResult, .server .note, .server .reply, .receive,
      .server (.complete "a" ⟨.ok (.json "5"), none, []⟩),
      .send, .serve .jobResult, .server .note, .server (.emit "a"), .server .reply, .receive,
      .call .ping, .send, .serve (.other none { ok := true }), .server .note, .server .reply,
      .receive] (by decide +kernel)
  simp only [Bool.and_eq_true, decide_eq_true_eq] at htest
  exact ⟨s, hs, htest.1, htest.2, ownReplies_of_reach hs⟩

/-- A job ends while the server is pinged: the ping returns the result that is pushed, and the call
after it the reply to the ping. -/
theorem otherReplies_pushed : ∃ s, Reach (step (fun _ => "0.0") [1]) Always (init none) s ∧
    s.replies.map (fun x => (x.1.serial, serialOf x.2)) = [(2, some 1), (1, none), (0, some 0)] ∧
    ¬ s.OwnReplies := by
  obtain ⟨s, hs, htest⟩ := exists_reach_of_run (step (fun _ => "0.0") [1]) (init none)
    (fun s => decide (s.replies.map (fun x => (x.1.serial, serialOf x.2)) =
      [(2, some 1), (1, none), (0, some 0)]))
    [.call (.submitJob "f" "f" 1 ∅), .send, .serve (.jobSubmit (fun _ => none) "a" .here),
      .server .goOn, .server .goOn, .server .goOn, .server .note, .server .reply, .receive,
      .call .ping, .send, .server (.complete "a" ⟨.ok (.json "5"), none, []⟩),
      .server (.emit "a"), .server (.push "a" [1]), .receive,
      .serve (.other none { ok := true }), .server .note, .server .reply,
      .call (.getJobResult "a"), .send, .receive] (by decide +kernel)
  have htags := of_decide_eq_true htest
  refine ⟨s, hs, htags, fun hown => ?_⟩
  -- the second command has no serial for an answer
  have hmem : ((1, none) : ℕ × Option ℕ) ∈ s.replies.map fun x => (x.1.serial, serialOf x.2) := by
    rw [htags]
    simp
  obtain ⟨x, hx, heq⟩ := List.mem_map.1 hmem
  obtain ⟨result, hreply⟩ := hown.replies x hx
  have hnone := (Prod.mk.inj heq).2
  rw [hreply] at hnone
  cases hnone

end ClientSession

end Axo
