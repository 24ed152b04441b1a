import Axo.Service.RunnerJobs

/-!
# Each answer is to its own request

The session of a pump thread and a runner is one of the protocol of `Interaction`, whatever the
order of the steps and whenever the function is out of patience: `encodes_step`.

* `JobPlay` is a job played from its first request to its result, `JobUnderway` one that is not over;
* `plays_of_reach` says that what the pump thread reports, and what is done to the data at the
  endpoint, is that of plays, one after the other, then that of the job in flight, and of the jobs that
  are given up;
* `goes_on_of_reach` says that no thread waits for ever, but for a runner whose thread has crashed.
-/

namespace Axo

open Interaction Transition

section Frames

variable {Ω : Type} {lib : RunnerLib Ω}

@[simp] theorem decodeReplacing_encode (text : String) :
    decodeReplacing lib (utf8Encode text) = text := by
  rw [decodeReplacing, utf8Decode_encode]
  rfl

theorem loadBlob_dump {v : Value} (h : lib.json.Faithful v) :
    loadBlob lib.json (dumpBlob lib.json v) = .ok v := by
  have hloads : lib.json.loads (lib.json.dumps v) = .value v := h
  simp only [loadBlob, dumpBlob, utf8Decode_encode, hloads]

/-- `from_dict` reads what `to_dict` has written. -/
theorem ChunkRef.ofDocument_document (ref : ChunkRef) :
    ChunkRef.ofDocument ref.document = .ok ref := by
  obtain ⟨⟨kind, location, format⟩, - | i⟩ := ref <;> rfl

theorem dispatchTag_ne : dispatchTag ≠ ioReplyTag := by decide

theorem resultTag_ne : ioRequestTag ≠ resultTag := by decide

theorem errTag_ne : errTag ≠ okTag := by decide

theorem utf8Decode_statusTag (ok : Bool) :
    ∃ status, utf8Decode (if ok then okTag else errTag) = some status ∧
      decide (status = "ok") = ok := by
  cases ok with
  | true => exact ⟨"ok", utf8Decode_encode "ok", rfl⟩
  | false => exact ⟨"err", utf8Decode_encode "err", rfl⟩

end Frames

namespace JobSession

variable {Ω : Type} (R : RunnerSetup Ω)

/-- What a function makes of the answer to its request, or of none. -/
def seenReply : Option IoAnswer → Except ChannelError Frame
  | none => .error (.timedOut (timeoutText R))
  | some (.error text) => .error (.refused text)
  | some (.ok data) => .ok data

/-- The pump thread as a host, the runner as a guest. -/
def protocol :
    Protocol RunnerJob Frame IoCall IoAnswer RunnerReply (FileStore × ℚ) JobFault PumpLoss where
  script job := (R.fn job.params job.jobId job.scratchDir).translate (seenReply R)
    fun e => (conclude R.lib e).2
  fresh := R.ids
  answer := answer R
  failed := retryOrFinalize R

/-- The state of the protocol. -/
abbrev Plain := Session RunnerJob Frame IoCall IoAnswer RunnerReply (FileStore × ℚ) JobFault

/-- The report of a job that is given up. -/
def faultReport (f : RunnerJob × JobFault) : String × JobCompletion Ω :=
  (f.1.jobId, { result := .error f.2, warnings := .list [] })

/-- The frames of what the pump thread sends. -/
def downFrames : Down RunnerJob Frame IoAnswer → Message
  | .job job => dispatchFrames R.lib job
  | .reply id a => replyFrames id a

/-- The frames of what the runner sends. -/
def upFrames : Up RunnerJob Frame IoCall RunnerReply → Message
  | .request id call => requestFrames R.lib id call
  | .result job reply => resultFrames (utf8Encode job.jobId) reply

/-- The pump thread, as a host. -/
def pumpOf : Host RunnerJob → PumpThread
  | .free => .between
  | .engaged job => .awaiting job
  | .gone => .left

/-- A request that the pump thread reads as it was sent. -/
def Readable (call : IoCall) : Prop := R.lib.json.Faithful call.ref.document

/-- A job that the runner reads as it was sent, and the pump thread its requests. -/
structure Sendable (job : RunnerJob) : Prop where
  params : R.lib.json.Faithful job.params
  asks : (R.fn job.params job.jobId job.scratchDir).Asks (Readable R)

/-- The runner, as a guest. -/
inductive RunnerOf : RunnerThread Ω → Guest RunnerJob Frame IoCall IoAnswer RunnerReply → Prop
  | idle : RunnerOf .receiving .idle
  | waiting (job : RunnerJob) (id : Frame)
      (next : Except ChannelError Frame → FunctionScript Ω)
      (hnext : ∀ reply, (next reply).Asks (Readable R)) :
      RunnerOf (.waiting (utf8Encode job.jobId) job.jobId id next)
        (.waiting job id fun a =>
          (next (seenReply R a)).translate (seenReply R) fun e => (conclude R.lib e).2)
  | stopped : RunnerOf .crashed .stopped

/-- The session, and what it is as one of the protocol. -/
structure Encodes (s : JobSession Ω) (a : Plain) : Prop where
  queue : s.queue = a.queue
  pump : s.pump = pumpOf a.host
  runner : RunnerOf R s.runner a.guest
  down : s.down = a.down.map (downFrames R)
  up : s.up = a.up.map (upFrames R)
  requests : s.requests = a.asked
  store : (s.store, s.now) = a.store
  reports : s.reports = a.reports.map (fun r =>
    (r.1.jobId, jobCompletion R.lib r.2.ok r.2.payload r.2.warnings)) ++ a.failures.map faultReport
  queued : ∀ job ∈ a.queue, Sendable R job
  given : ∀ job, .job job ∈ a.down → Sendable R job
  asked : ∀ id call, .request id call ∈ a.up → Readable R call
  failures : a.host ≠ .gone → a.failures = []

variable {R} {s s' : JobSession Ω} {a : Plain} {job : RunnerJob}

/-- The runner goes on. -/
theorem encodes_goOn (h : Encodes R s a) (entries : AList fun _ : String => JobEntry Ω)
    {script : FunctionScript Ω} (hscript : script.Asks (Readable R)) :
    Encodes R (goOn R { s with entries := entries } (utf8Encode job.jobId) job.jobId script)
      (speak (protocol R) a job (script.translate (seenReply R) fun e => (conclude R.lib e).2)) := by
  cases script with
  | done e =>
    rw [Script.translate]
    rcases hreply : (conclude R.lib e).2 with - | reply
    · refine ⟨h.queue, h.pump, ?_, h.down, ?_, h.requests, h.store, h.reports, h.queued, h.given,
        h.asked, h.failures⟩
      · simp only [goOn, hreply]
        exact .stopped
      · simp only [goOn, hreply, Option.toList_none, List.map_nil, List.append_nil]
        exact h.up
    · refine ⟨h.queue, h.pump, ?_, h.down, ?_, h.requests, h.store, h.reports, h.queued, h.given,
        fun id call hcall => ?_, h.failures⟩
      · simp only [goOn, hreply]
        exact .idle
      · simp only [goOn, hreply, speak, Option.toList_some, List.map_append, h.up]
        rfl
      · refine h.asked id call ((List.mem_append.1 hcall).resolve_right fun hnew => ?_)
        cases List.mem_singleton.1 hnew
  | ask call next =>
    rw [Script.translate, speak]
    refine ⟨h.queue, h.pump, ?_, h.down, ?_, ?_, h.store, h.reports, h.queued, h.given,
      fun id call' hcall => ?_, h.failures⟩
    · simp only [goOn, h.requests]
      exact .waiting job _ next hscript.2
    · simp only [goOn, h.requests, h.up, List.map_append]
      rfl
    · simp only [goOn, h.requests]
    · rcases List.mem_append.1 hcall with hold | hnew
      · exact h.asked id call' hold
      · cases List.mem_singleton.1 hnew
        exact hscript.1

/-- The parameters are read as they were sent. -/
theorem scriptOf_dump (h : R.lib.json.Faithful job.params) :
    scriptOf R job.jobId job.scratchDir (dumpBlob R.lib.json job.params) =
      R.fn job.params job.jobId job.scratchDir := by
  have hloads : R.lib.json.loads (R.lib.json.dumps job.params) = .value job.params := h
  simp only [scriptOf, dumpBlob, utf8Decode_encode, hloads]

/-- The runner takes a job. -/
theorem runnerTakes_dispatch (h : R.lib.json.Faithful job.params) :
    runnerTakes R s (dispatchFrames R.lib job) =
      goOn R { s with entries := s.entries.insert job.jobId {} } (utf8Encode job.jobId) job.jobId
        (R.fn job.params job.jobId job.scratchDir) := by
  simp only [runnerTakes, dispatchFrames, if_true, utf8Decode_encode, scriptOf_dump h]

/-- The loop of `_run_zmq` skips an answer. -/
theorem runnerTakes_reply (id : Frame) (answer : IoAnswer) :
    runnerTakes R s (replyFrames id answer) = s := by
  cases answer <;> simp [runnerTakes, replyFrames, dispatchTag_ne.symm]

/-- The loop of `channel.request` takes the answer that it waits for, and skips others. -/
theorem channelTakes_reply (id requestId jobFrame : Frame) (jobId : String) (answer : IoAnswer)
    (next : Except ChannelError Frame → FunctionScript Ω) :
    channelTakes R s (replyFrames id answer) jobFrame jobId requestId next =
      if id = requestId then goOn R s jobFrame jobId (next (seenReply R (some answer))) else s := by
  cases answer with
  | ok data => simp [channelTakes, replyFrames, seenReply]
  | error text => simp [channelTakes, replyFrames, seenReply, errTag_ne]

/-- The loop of `channel.request` skips a job. -/
theorem channelTakes_dispatch (requestId jobFrame : Frame) (jobId : String)
    (next : Except ChannelError Frame → FunctionScript Ω) :
    channelTakes R s (dispatchFrames R.lib job) jobFrame jobId requestId next = s := by
  simp [channelTakes, dispatchFrames, dispatchTag_ne]

/-- The data of a request may as well be empty as missing. -/
theorem answer_data (t : FileStore × ℚ) (call : IoCall) :
    answer R t
      { call with data := if call.data.getD [] = [] then none else some (call.data.getD []) } =
      answer R t call := by
  have hdata : (if call.data.getD [] = [] then none else some (call.data.getD [])).getD [] =
      call.data.getD [] := by
    split_ifs with h
    · exact h.symm
    · rfl
  unfold answer
  cases hop : IoOp.ofText call.op <;> simp only [answerIoRequest, hdata]

/-- The pump thread reads a request as it was sent. -/
theorem readCall_request {call : IoCall} (h : Readable R call) :
    readCall R (utf8Encode call.op) (dumpBlob R.lib.json call.ref.document) (call.data.getD []) =
      .ok { call with
        data := if call.data.getD [] = [] then none else some (call.data.getD []) } := by
  simp only [readCall, decodeText_encode, ok_bind, loadBlob_dump h,
    ChunkRef.ofDocument_document]
  rfl

theorem pumpTakes_request (id : Frame) {call : IoCall} (h : Readable R call) :
    pumpTakes R s job (requestFrames R.lib id call) =
      match answer R (s.store, s.now) call with
      | none => { s with pump := .left }
      | some ((store, _), reply) =>
        { s with store := store, down := s.down ++ [replyFrames id reply] } := by
  rcases hanswer : answer R (s.store, s.now) call with - | ⟨⟨store, now⟩, reply⟩ <;>
    simp only [pumpTakes, requestFrames, if_neg resultTag_ne, if_true, readCall_request h,
      answer_data, hanswer]

/-- The pump thread does not look at the job that a result is for. -/
theorem pumpTakes_result (jobFrame : Frame) (reply : RunnerReply) :
    pumpTakes R s job (resultFrames jobFrame reply) =
      { s with
        pump := .between
        reports := s.reports ++
          [(job.jobId, jobCompletion R.lib reply.ok reply.payload reply.warnings)] } := by
  obtain ⟨status, hstatus, hok⟩ := utf8Decode_statusTag reply.ok
  simp only [pumpTakes, resultFrames, if_true, hstatus, hok]

theorem clock_of_answer {t u : FileStore × ℚ} {call : IoCall} {reply : IoAnswer}
    (h : answer R t call = some (u, reply)) : u.2 = t.2 := by
  obtain ⟨r, -, heq⟩ := Option.map_eq_some_iff.1 h
  cases heq
  rfl

theorem encodes_dispatch (h : Encodes R s a) :
    Option.Rel (Encodes R) (step R s .dispatch) (dispatch a) := by
  rcases hhost : a.host with - | job | -
  · rcases hqueue : a.queue with - | ⟨job, rest⟩
    · simp only [step, dispatch, h.pump, h.queue, hhost, hqueue, pumpOf]
      exact .none
    · simp only [step, dispatch, h.pump, h.queue, hhost, hqueue, pumpOf]
      have hsendable := h.queued job (hqueue ▸ List.mem_cons_self)
      refine .some ⟨rfl, rfl, h.runner, ?_, h.up, h.requests, h.store, h.reports, ?_, ?_, h.asked,
        fun _ => h.failures (by rw [hhost]; rintro ⟨⟩)⟩
      · show s.down ++ _ = (a.down ++ _).map _
        rw [h.down, List.map_append]
        rfl
      · exact fun job' hjob' => h.queued job' (hqueue ▸ List.mem_cons_of_mem job hjob')
      · intro job' hjob'
        rcases List.mem_append.1 hjob' with hold | hnew
        · exact h.given job' hold
        · cases List.mem_singleton.1 hnew
          exact hsendable
  · simp only [step, dispatch, h.pump, hhost, pumpOf]
    exact .none
  · simp only [step, dispatch, h.pump, hhost, pumpOf]
    exact .none

/-- A message is taken off the channel. -/
theorem encodes_tail {m : Down RunnerJob Frame IoAnswer} {rest : List (Down RunnerJob Frame IoAnswer)}
    (h : Encodes R s a) (hdown : a.down = m :: rest) :
    Encodes R { s with down := rest.map (downFrames R) } { a with down := rest } :=
  ⟨h.queue, h.pump, h.runner, rfl, h.up, h.requests, h.store, h.reports, h.queued,
    fun job hjob => h.given job (hdown ▸ List.mem_cons_of_mem m hjob), h.asked, h.failures⟩

theorem encodes_receive (h : Encodes R s a) :
    Option.Rel (Encodes R) (step R s .receive) (receive (protocol R) a) := by
  have hrunner := h.runner
  have hdown := h.down
  rcases hlist : a.down with - | ⟨m, rest⟩
  · rw [hlist, List.map_nil] at hdown
    have hnone : receive (protocol R) a = none := by
      unfold receive
      rw [hlist]
      cases a.guest <;> rfl
    rw [hnone]
    simp only [step, hdown]
    cases s.runner <;> exact .none
  · rw [hlist, List.map_cons] at hdown
    have htail := encodes_tail h hlist
    generalize hr : s.runner = runner at hrunner
    generalize hg : a.guest = guest at hrunner
    cases hrunner with
    | idle =>
      cases m with
      | job job =>
        have hsendable := h.given job (hlist ▸ List.mem_cons_self)
        simp only [step, receive, hr, hg, hdown, hlist, downFrames,
          runnerTakes_dispatch hsendable.params]
        exact .some (encodes_goOn htail _ hsendable.asks)
      | reply id answer =>
        simp only [hr, hg] at htail
        simp only [step, receive, hr, hg, hdown, hlist, downFrames, runnerTakes_reply]
        exact .some htail
    | waiting job id next hnext =>
      cases m with
      | job job' =>
        simp only [hr, hg] at htail
        simp only [step, receive, hr, hg, hdown, hlist, downFrames, channelTakes_dispatch]
        exact .some htail
      | reply id' answer =>
        simp only [step, receive, hr, hg, hdown, hlist, downFrames, channelTakes_reply]
        split_ifs with hid
        · exact .some (encodes_goOn htail s.entries (hnext _))
        · simp only [hr, hg] at htail
          exact .some htail
    | stopped =>
      simp only [step, receive, hr, hg]
      exact .none

theorem encodes_timeOut (h : Encodes R s a) :
    Option.Rel (Encodes R) (step R s .timeOut) (timeOut (protocol R) a) := by
  have hrunner := h.runner
  generalize hr : s.runner = runner at hrunner
  generalize hg : a.guest = guest at hrunner
  cases hrunner with
  | idle =>
    simp only [step, timeOut, hr, hg]
    exact .none
  | waiting job id next hnext =>
    simp only [step, timeOut, hr, hg]
    exact .some (encodes_goOn h s.entries (hnext _))
  | stopped =>
    simp only [step, timeOut, hr, hg]
    exact .none

theorem encodes_serve (h : Encodes R s a) :
    Option.Rel (Encodes R) (step R s .serve) (serve (protocol R) a) := by
  have hup := h.up
  have hpump := h.pump
  rcases hhost : a.host with - | job | -
  · simp only [step, serve, hpump, hhost, pumpOf]
    exact .none
  · rcases hlist : a.up with - | ⟨m, rest⟩
    · rw [hlist, List.map_nil] at hup
      simp only [step, serve, hpump, hhost, pumpOf, hup, hlist]
      exact .none
    · rw [hlist, List.map_cons] at hup
      have hasked : ∀ id call, .request id call ∈ rest → Readable R call := fun id call hcall =>
        h.asked id call (hlist ▸ List.mem_cons_of_mem m hcall)
      have hfailures : a.failures = [] := h.failures (by rw [hhost]; rintro ⟨⟩)
      cases m with
      | request id call =>
        have hreadable := h.asked id call (hlist ▸ List.mem_cons_self)
        have hprotocol : (protocol R).answer a.store call = answer R a.store call := rfl
        rcases hanswer : answer R a.store call with - | ⟨⟨store, now⟩, reply⟩
        · simp only [step, serve, hpump, hhost, pumpOf, hup, hlist, upFrames,
            pumpTakes_request id hreadable, h.store, hprotocol, hanswer]
          exact .some ⟨h.queue, rfl, h.runner, h.down, rfl, h.requests, h.store, h.reports, h.queued,
            h.given, hasked, absurd rfl⟩
        · have hclock : now = a.store.2 := clock_of_answer hanswer
          simp only [step, serve, hpump, hhost, pumpOf, hup, hlist, upFrames,
            pumpTakes_request id hreadable, h.store, hprotocol, hanswer]
          refine .some ⟨h.queue, ?_, h.runner, ?_, rfl, h.requests, ?_, h.reports, h.queued, ?_,
            hasked, fun _ => hfailures⟩
          · rfl
          · show s.down ++ _ = (a.down ++ _).map _
            rw [h.down, List.map_append]
            rfl
          · show (store, s.now) = (store, now)
            rw [hclock, ← h.store]
          · intro job' hjob'
            refine h.given job' ((List.mem_append.1 hjob').resolve_right fun hnew => ?_)
            cases List.mem_singleton.1 hnew
      | result job' reply =>
        simp only [step, serve, hpump, hhost, pumpOf, hup, hlist, upFrames, pumpTakes_result]
        refine .some ⟨h.queue, rfl, h.runner, h.down, rfl, h.requests, h.store, ?_, h.queued, h.given,
          hasked, fun _ => hfailures⟩
        show s.reports ++ _ = (a.reports ++ _).map _ ++ a.failures.map faultReport
        rw [h.reports, hfailures, List.map_append, List.map_nil, List.append_nil, List.append_nil]
        rfl
  · simp only [step, serve, hpump, hhost, pumpOf]
    exact .none

/-- The reports of `_handle_crash` and `_handle_timeout` are those of the protocol. -/
theorem lossReports_eq (loss : PumpLoss) (job : RunnerJob) (queue : List RunnerJob) :
    lossReports R loss job queue = (givenUp (protocol R) loss job queue).map faultReport := by
  unfold lossReports givenUp
  rw [List.map_append, List.map_filterMap, ← Option.toList_map, Option.map_map]
  simp only [Option.map_map]
  rfl

theorem encodes_giveUp {loss : PumpLoss} (h : Encodes R s a)
    (hstep : step R s (.giveUp loss) = some s') :
    ∃ b, Interaction.giveUp (protocol R) a loss = some b ∧ Encodes R s' b := by
  have hgone : ∀ {job rest}, s' = JobSession.giveUp R s loss job rest →
      (a.host = .engaged job ∧ a.queue = rest ∨ a.host = .free ∧ a.queue = job :: rest) →
      ∃ b, Interaction.giveUp (protocol R) a loss = some b ∧ Encodes R s' b := by
    rintro job rest rfl hcases
    refine ⟨{ a with
      host := .gone
      queue := []
      failures := a.failures ++ givenUp (protocol R) loss job rest }, ?_, ?_⟩
    · unfold Interaction.giveUp
      rcases hcases with ⟨hhost, rfl⟩ | ⟨hhost, hqueue⟩
      · rw [hhost]
      · rw [hhost, hqueue]
    · refine ⟨rfl, rfl, h.runner, h.down, h.up, h.requests, h.store, ?_,
        fun _ hjob => absurd hjob List.not_mem_nil, h.given, h.asked, absurd rfl⟩
      show s.reports ++ lossReports R loss job rest = _
      rw [h.reports, lossReports_eq, List.map_append, List.append_assoc]
  have hpump := h.pump
  have hqueue := h.queue
  simp only [step] at hstep
  rcases hhost : a.host with - | job | - <;> rw [hhost] at hpump
  · rcases hlist : a.queue with - | ⟨job, rest⟩ <;> rw [hlist] at hqueue <;>
      rw [hpump, hqueue] at hstep <;> rcases hfailure : loss.failure with reason | - <;>
      rw [hfailure] at hstep <;> cases hstep
    exact hgone rfl (.inr ⟨hhost, hlist⟩)
  · rcases hfailure : loss.failure with reason | - <;> rw [hpump, hfailure] at hstep
    · cases hstep
      exact hgone rfl (.inl ⟨hhost, hqueue.symm⟩)
    · simp only [pumpOf] at hstep
      split_ifs at hstep
      cases hstep
      exact hgone rfl (.inl ⟨hhost, hqueue.symm⟩)
  · rcases hfailure : loss.failure with reason | - <;> rw [hpump, hfailure] at hstep <;> cases hstep

theorem exists_right_of_rel {α β : Type*} {r : α → β → Prop} {x : Option α} {y : Option β} {u : α}
    (h : Option.Rel r x y) (hx : x = some u) : ∃ v, y = some v ∧ r u v := by
  cases h with
  | some hr =>
    cases hx
    exact ⟨_, rfl, hr⟩
  | none => cases hx

theorem exists_left_of_rel {α β : Type*} {r : α → β → Prop} {x : Option α} {y : Option β} {v : β}
    (h : Option.Rel r x y) (hy : y = some v) : ∃ u, x = some u := by
  cases h with
  | some => exact ⟨_, rfl⟩
  | none => cases hy

/-- The two threads do what the protocol does. -/
theorem encodes_step {act : Act (FileStore × ℚ) PumpLoss} (h : Encodes R s a)
    (hstep : step R s act = some s') :
    ∃ b, Interaction.step (protocol R) a act = some b ∧ Encodes R s' b := by
  cases act with
  | dispatch => exact exists_right_of_rel (encodes_dispatch h) hstep
  | receive => exact exists_right_of_rel (encodes_receive h) hstep
  | timeOut => exact exists_right_of_rel (encodes_timeOut h) hstep
  | serve => exact exists_right_of_rel (encodes_serve h) hstep
  | leave =>
    cases hstep
    exact ⟨_, rfl, h.queue, rfl, h.runner, h.down, h.up, h.requests, h.store, h.reports, h.queued,
      h.given, h.asked, absurd rfl⟩
  | giveUp loss => exact encodes_giveUp h hstep
  | others store =>
    cases hstep
    exact ⟨_, rfl, h.queue, h.pump, h.runner, h.down, h.up, h.requests, rfl, h.reports, h.queued,
      h.given, h.asked, h.failures⟩

/-! ### Whole sessions -/

/-- The guard on the steps: others change the data and the clock so only, and a function may be out
of patience only if that may happen. -/
def Allowed (mayTimeOut : Prop) (rely : FileStore × ℚ → FileStore × ℚ → Prop) (s : JobSession Ω) :
    Act (FileStore × ℚ) PumpLoss → Prop
  | .timeOut => mayTimeOut
  | .others t => rely (s.store, s.now) t
  | _ => True

/-- Where a session is reached, and where that of the protocol has come. -/
theorem exists_encodes_of_reach {mayTimeOut : Prop} {rely : FileStore × ℚ → FileStore × ℚ → Prop}
    (h : Encodes R s a) (hreach : Reach (step R) (Allowed mayTimeOut rely) s s') :
    ∃ a', Reach (Interaction.step (protocol R)) (Interaction.Allowed mayTimeOut rely) a a' ∧
      Encodes R s' a' := by
  induction hreach with
  | refl => exact ⟨a, .refl, h⟩
  | @tail t u act _ hallowed hstep ih =>
    obtain ⟨b, hb, hencodes⟩ := ih
    obtain ⟨c, hnext, hc⟩ := encodes_step hencodes hstep
    refine ⟨c, .tail hb ?_ hnext, hc⟩
    cases act with
    | others t' =>
      have hrely : rely (t.store, t.now) t' := hallowed
      rwa [hencodes.store] at hrely
    | timeOut => exact hallowed
    | _ => trivial

theorem encodes_start {queue : List RunnerJob} {store : FileStore} {now : ℚ}
    (hqueue : ∀ job ∈ queue, Sendable R job) :
    Encodes R (start queue store now) (Interaction.start queue (store, now)) :=
  ⟨rfl, rfl, .idle, rfl, rfl, rfl, rfl, rfl, hqueue, fun _ hjob => absurd hjob List.not_mem_nil,
    fun _ _ hcall => absurd hcall List.not_mem_nil, fun _ => rfl⟩

variable (R) in
/-- A job played from its first request to its result. -/
structure JobPlay (mayTimeOut : Prop) where
  job : RunnerJob
  exchanges : List (Exchange mayTimeOut IoCall IoAnswer)
  ending : FunctionEnd Ω
  reply : RunnerReply
  leads : (R.fn job.params job.jobId job.scratchDir).Leads
    (exchanges.map fun e => (e.question, seenReply R e.seen)) (.done ending)
  concluded : (conclude R.lib ending).2 = some reply

namespace JobPlay

variable {mayTimeOut : Prop}

/-- The requests of a play with their answers. -/
def answers (p : JobPlay R mayTimeOut) : List (IoCall × IoAnswer) :=
  p.exchanges.map fun e => (e.question, e.answer)

/-- What `on_complete` is called with for a play. -/
def report (p : JobPlay R mayTimeOut) : String × JobCompletion Ω :=
  (p.job.jobId, jobCompletion R.lib p.reply.ok p.reply.payload p.reply.warnings)

end JobPlay

/-- What is played in the protocol is played by the function. -/
theorem exists_jobPlays {mayTimeOut : Prop} (plays : List (Play (protocol R) mayTimeOut)) :
    ∃ qs : List (JobPlay R mayTimeOut), qs.map (fun q => (q.job, q.exchanges, q.reply)) =
      plays.map fun p => (p.job, p.exchanges, p.result) := by
  induction plays with
  | nil => exact ⟨[], rfl⟩
  | cons p plays ih =>
    obtain ⟨qs, hqs⟩ := ih
    obtain ⟨ending, hleads, hreply⟩ := Script.Leads.of_translate p.leads
    rw [List.map_map] at hleads
    exact ⟨⟨p.job, p.exchanges, ending, p.result, hleads, hreply⟩ :: qs, by simp [hqs]⟩

variable (R) in
/-- A job that is not over, with the answers to its requests so far. -/
inductive JobUnderway (mayTimeOut : Prop) (job : RunnerJob) : List (IoCall × IoAnswer) → Prop
  /-- the function has seen them, or not waited for them, nor for some more -/
  | asking (exchanges : List (Exchange mayTimeOut IoCall IoAnswer)) (unserved : List IoCall)
      (there : FunctionScript Ω) (hpatience : unserved ≠ [] → mayTimeOut)
      (hleads : (R.fn job.params job.jobId job.scratchDir).Leads
        (exchanges.map (fun e => (e.question, seenReply R e.seen)) ++
          unserved.map fun call => (call, seenReply R none)) there) :
      JobUnderway mayTimeOut job (exchanges.map fun e => (e.question, e.answer))
  /-- the function waits for the last of them -/
  | answered (exchanges : List (Exchange mayTimeOut IoCall IoAnswer)) (call : IoCall)
      (answer : IoAnswer) (next : Except ChannelError Frame → FunctionScript Ω)
      (hleads : (R.fn job.params job.jobId job.scratchDir).Leads
        (exchanges.map fun e => (e.question, seenReply R e.seen)) (.ask call next)) :
      JobUnderway mayTimeOut job (exchanges.map (fun e => (e.question, e.answer)) ++ [(call, answer)])

theorem jobUnderway_of_underway {mayTimeOut : Prop} {current : List (IoCall × IoAnswer)}
    (h : Underway (protocol R) mayTimeOut job current) : JobUnderway R mayTimeOut job current := by
  cases h with
  | asking exchanges unserved there hpatience hleads =>
    obtain ⟨t, ht, -⟩ := hleads.exists_of_translate
    rw [List.map_append, List.map_map, List.map_map] at ht
    exact .asking exchanges unserved t hpatience ht
  | answered exchanges call reply next hleads =>
    obtain ⟨next', ht⟩ := hleads.ask_of_translate
    rw [List.map_map] at ht
    exact .answered exchanges call reply next' ht

variable (R) in
/-- How the pump thread has left: between two jobs, or with one in its hands, of which it reports what
it gives up, or nothing. -/
inductive JobsLeft {mayTimeOut : Prop} (queue : List RunnerJob) (plays : List (JobPlay R mayTimeOut)) :
    List (IoCall × IoAnswer) → List (String × JobCompletion Ω) → Prop
  | between (hjobs : plays.map JobPlay.job <+: queue) : JobsLeft queue plays [] []
  | silent {job : RunnerJob} {rest : List RunnerJob} {current : List (IoCall × IoAnswer)}
      (hjobs : plays.map JobPlay.job ++ job :: rest = queue)
      (hunderway : JobUnderway R mayTimeOut job current) : JobsLeft queue plays current []
  | givenUp {job : RunnerJob} {rest : List RunnerJob} {current : List (IoCall × IoAnswer)}
      (loss : PumpLoss) (hjobs : plays.map JobPlay.job ++ job :: rest = queue)
      (hunderway : JobUnderway R mayTimeOut job current) :
      JobsLeft queue plays current (lossReports R loss job rest)

variable (R) in
/-- Where the pump thread is in its queue after these plays: which job has been given the answers that
are no play's, and what else has been reported. -/
def Stands {mayTimeOut : Prop} (queue : List RunnerJob) (s : JobSession Ω)
    (plays : List (JobPlay R mayTimeOut)) (current : List (IoCall × IoAnswer))
    (failures : List (String × JobCompletion Ω)) : Prop :=
  match s.pump with
  | .between => current = [] ∧ failures = [] ∧ plays.map JobPlay.job ++ s.queue = queue
  | .awaiting job => JobUnderway R mayTimeOut job current ∧ failures = [] ∧
    plays.map JobPlay.job ++ job :: s.queue = queue
  | .failing _ _ => False
  | .left => JobsLeft R queue plays current failures

/-- Whatever the order of the steps: what the pump thread has reported is what the function makes of
the jobs, one after the other, where each answer that it has seen is the one to that very request, and
in the end what it gives up; and what has been done at the endpoint are the requests of these jobs, in
order, with those of the job in flight. -/
theorem plays_of_reach (hids : Function.Injective R.ids)
    {mayTimeOut : Prop} {rely : FileStore × ℚ → FileStore × ℚ → Prop} {queue : List RunnerJob}
    {store : FileStore} {now : ℚ} (hqueue : ∀ job ∈ queue, Sendable R job)
    (hreach : Reach (step R) (Allowed mayTimeOut rely) (start queue store now) s) :
    ∃ (plays : List (JobPlay R mayTimeOut)) (current : List (IoCall × IoAnswer))
      (failures : List (String × JobCompletion Ω)),
      s.reports = plays.map JobPlay.report ++ failures ∧
        Serves (answer R) rely (store, now) (plays.flatMap JobPlay.answers ++ current)
          (s.store, s.now) ∧
        Stands R queue s plays current failures := by
  obtain ⟨a, ha, hencodes⟩ := exists_encodes_of_reach (encodes_start hqueue) hreach
  obtain ⟨plays, current, failures, htold, hserves, hstands⟩ :=
    Interaction.exists_plays_of_reach hids ha
  obtain ⟨qs, hqs⟩ := exists_jobPlays plays
  have hjobs : qs.map JobPlay.job = plays.map Play.job := by
    have := congrArg (List.map Prod.fst) hqs
    rw [List.map_map, List.map_map] at this
    exact this
  have hanswers : qs.flatMap JobPlay.answers = plays.flatMap Play.answers := by
    have := congrArg (List.flatMap fun r => r.2.1.map fun e => (e.question, e.answer)) hqs
    rw [List.flatMap_map, List.flatMap_map] at this
    exact this
  have hreports : s.reports = qs.map JobPlay.report ++ failures.map faultReport := by
    have := congrArg (List.map fun r => (r.1.jobId,
      jobCompletion R.lib r.2.2.ok r.2.2.payload r.2.2.warnings)) hqs
    rw [List.map_map, List.map_map] at this
    rw [hencodes.reports, htold.reports, htold.failures, List.map_map]
    exact congrArg (· ++ failures.map faultReport) this.symm
  refine ⟨qs, current, failures.map faultReport, hreports, ?_, ?_⟩
  · rw [hencodes.store, hanswers, ← htold.served]
    exact hserves
  · unfold Stands
    rw [hencodes.pump, hencodes.queue, hjobs]
    cases hhost : a.host with
    | free =>
      rw [hhost] at hstands
      obtain ⟨hcurrent, rfl, hjobs⟩ := hstands
      exact ⟨hcurrent, rfl, hjobs⟩
    | engaged job =>
      rw [hhost] at hstands
      obtain ⟨hunderway, rfl, hjobs⟩ := hstands
      exact ⟨jobUnderway_of_underway hunderway, rfl, hjobs⟩
    | gone =>
      rw [hhost] at hstands
      cases hstands with
      | between hprefix => exact .between (hjobs ▸ hprefix)
      | silent hqueue hunderway =>
        exact .silent (hjobs ▸ hqueue) (jobUnderway_of_underway hunderway)
      | givenUp loss hqueue hunderway =>
        rw [← lossReports_eq]
        exact .givenUp loss (hjobs ▸ hqueue) (jobUnderway_of_underway hunderway)

/-! ### A function that asks twice -/

/-- The blob that the function reads. -/
def inputRef : ChunkRef := { kind := "fs", location := "in" }

/-- The function reads a blob, and reads it again when there is no answer; it returns its length. -/
def readsTwice : HostedFunction Unit := fun _ _ _ =>
  let call : IoCall := { op := "read", ref := inputRef, data := none }
  .ask call fun
    | .ok data => .done { outcome := .returned (.int data.length) }
    | .error (.refused text) => .done { outcome := .raised text }
    | .error (.timedOut _) => .ask call fun
      | .ok data => .done { outcome := .returned (.int data.length) }
      | .error _ => .done { outcome := .textless }

/-- The documents on the way of the job. -/
def readsTwiceJson : JsonLib :=
  jsonTable [(.dict [], "\x7b\x7d"), (.list [], "[]"), (.int 3, "3"),
    (inputRef.document, "\x7b\"kind\": \"fs\", \"location\": \"in\", \"format\": \"raw\", " ++
      "\"chunk_index\": null\x7d")]

/-- A runner that hosts a function; warnings that are no texts cannot be encoded. -/
def runnerOf (fn : HostedFunction Unit) : RunnerSetup Unit where
  lib :=
    { json := readsTwiceJson
      floats := default
      pickle := pairPickle
      pickleError := fun _ => none
      warningsDocument := fun warnings =>
        if warnings.isEmpty then .ok (.list [])
        else .error "Object of type bytes is not JSON serializable"
      exceptionText := fun _ => "maximum recursion depth exceeded"
      replaced := fun _ => "\uFFFD"
      bytesRepr := fun _ => "b''" }
  fn := fn
  ids := fun n => List.replicate (32 + n) 48
  timeoutMs := 30000
  backends := DataHistory.plainBackends

theorem ids_injective (fn : HostedFunction Unit) : Function.Injective (runnerOf fn).ids := by
  intro m n h
  have := congrArg List.length h
  simp only [runnerOf, List.length_replicate] at this
  omega

/-- A job without parameters. -/
def firstJob : RunnerJob := { jobId := "j1", scratchDir := "/tmp/j1", params := .dict [] }

/-- The data of the endpoint: one blob. -/
def inputStore : FileStore :=
  (FileStore.init ["srv"] id).performOther DataHistory.plainBackends (.write "in" [1, 2, 3])

theorem sendable_readsTwice : Sendable (runnerOf readsTwice) firstJob := by
  have href : Readable (runnerOf readsTwice) { op := "read", ref := inputRef, data := none } :=
    jsonTable_faithful (by decide +kernel)
  refine ⟨jsonTable_faithful (by decide +kernel), href, fun a => ?_⟩
  rcases a with (text | text) | data
  · exact ⟨href, fun b => by rcases b with (text | text) | data <;> trivial⟩
  · trivial
  · trivial

/-- The answer to the first request comes when the function has asked again. -/
theorem plays_of_reach_readsTwice : ∃ s,
    Reach (step (runnerOf readsTwice)) (Allowed True fun _ _ => True)
      (start [firstJob] inputStore 0) s ∧ s.reports.length = 1 ∧
    ∃ (plays : List (JobPlay (runnerOf readsTwice) True)) (current : List (IoCall × IoAnswer))
      (failures : List (String × JobCompletion Unit)),
      s.reports = plays.map JobPlay.report ++ failures ∧
        Serves (answer (runnerOf readsTwice)) (fun _ _ => True) (inputStore, 0)
          (plays.flatMap JobPlay.answers ++ current) (s.store, s.now) ∧
        Stands (runnerOf readsTwice) [firstJob] s plays current failures := by
  obtain ⟨s, hreach, hreports⟩ := exists_reach_of_run (step (runnerOf readsTwice))
    (start [firstJob] inputStore 0) (fun s => s.reports.length = 1)
    [.dispatch, .receive, .timeOut, .serve, .serve, .receive, .receive, .serve]
    (by decide +kernel)
  have hallowed := hreach.mono (H := Allowed True fun _ _ => True) fun s act _ => by
    cases act <;> trivial
  refine ⟨s, hallowed, by simpa using hreports, ?_⟩
  exact plays_of_reach (ids_injective readsTwice)
    (fun job hjob => List.mem_singleton.1 hjob ▸ sendable_readsTwice) hallowed

/-- While the pump thread is there: all the jobs are reported, or one of the threads goes on without
giving up, or the function has ended a job so that the runner can send nothing, and then no job is
reported any more but those that the pump thread gives up. -/
theorem goes_on_of_reach (hids : Function.Injective R.ids)
    {mayTimeOut : Prop} {rely : FileStore × ℚ → FileStore × ℚ → Prop} {queue : List RunnerJob}
    {store : FileStore} {now : ℚ} (hqueue : ∀ job ∈ queue, Sendable R job)
    (hreach : Reach (step R) (Allowed mayTimeOut rely) (start queue store now) s)
    (hpump : s.pump ≠ .left) :
    s.reports.map Prod.fst = queue.map RunnerJob.jobId ∨
      (∃ act ∈ [Act.dispatch, .receive, .serve], ∃ t, step R s act = some t) ∨
      ∃ job past ending, s.pump = .awaiting job ∧
        (R.fn job.params job.jobId job.scratchDir).Leads past (.done ending) ∧
        (conclude R.lib ending).2 = none ∧
        ∀ t, Reach (step R) (Allowed mayTimeOut rely) s t → t.reports = s.reports ∨
          t.pump = .left ∧ ∃ loss, t.reports = s.reports ++ lossReports R loss job s.queue := by
  obtain ⟨a, ha, hencodes⟩ := exists_encodes_of_reach (encodes_start hqueue) hreach
  have hinv := inv_of_reach hids ha
  have hhost : a.host ≠ .gone := by
    intro hgone
    rw [hencodes.pump, hgone] at hpump
    exact hpump rfl
  by_cases hguest : a.guest = .stopped
  · right
    right
    obtain ⟨job, past, hengaged, hleads⟩ := exists_leads_of_stopped hinv hhost hguest
    obtain ⟨ending, hend, hnone⟩ := Script.Leads.of_translate hleads
    refine ⟨job, _, ending, by rw [hencodes.pump, hengaged]; rfl, hend, hnone, fun t ht => ?_⟩
    obtain ⟨b, hb, hencodes'⟩ := exists_encodes_of_reach hencodes ht
    obtain ⟨hreports, hgives⟩ := reports_of_stopped hids hinv hguest hengaged hb
    rw [hencodes'.reports, hencodes.reports, hreports, hencodes.failures hhost, hencodes'.pump,
      hencodes.queue]
    rcases hgives with ⟨hnone, -⟩ | ⟨hgone, loss, hfailures⟩
    · rw [hnone]
      exact .inl rfl
    · rw [hgone, hfailures]
      refine .inr ⟨rfl, loss, ?_⟩
      rw [lossReports_eq, List.map_nil, List.append_nil]
  · rcases exists_step_of_inv hinv hhost hguest with hall | ⟨act, hact, b, hb⟩
    · left
      rw [← hall, hencodes.reports, hencodes.failures hhost, List.map_nil, List.append_nil,
        List.map_map, List.map_map]
      rfl
    · right
      left
      refine ⟨act, hact, ?_⟩
      simp only [List.mem_cons, List.not_mem_nil, or_false] at hact
      rcases hact with rfl | rfl | rfl
      · exact exists_left_of_rel (encodes_dispatch hencodes) hb
      · exact exists_left_of_rel (encodes_receive hencodes) hb
      · exact exists_left_of_rel (encodes_serve hencodes) hb

/-- A function that returns nothing, and warns with bytes. -/
def warnsBytes : HostedFunction Unit := fun _ _ _ =>
  .done { outcome := .returned .none, warnings := [.bytes [1]] }

/-- The thread of the runner has crashed. -/
theorem goes_on_of_reach_warnsBytes : ∃ s,
    Reach (step (runnerOf warnsBytes)) (Allowed False Eq) (start [firstJob] inputStore 0) s ∧
    (s.reports.map Prod.fst = ["j1"] ∨
      (∃ act ∈ [Act.dispatch, .receive, .serve], ∃ t, step (runnerOf warnsBytes) s act = some t) ∨
      ∃ job past ending, s.pump = .awaiting job ∧
        (warnsBytes job.params job.jobId job.scratchDir).Leads past (.done ending) ∧
        (conclude (runnerOf warnsBytes).lib ending).2 = none ∧
        ∀ t, Reach (step (runnerOf warnsBytes)) (Allowed False Eq) s t → t.reports = s.reports ∨
          t.pump = .left ∧ ∃ loss,
            t.reports = s.reports ++ lossReports (runnerOf warnsBytes) loss job s.queue) :=
  ⟨_, .tail (.tail .refl (a := .dispatch) trivial rfl) (a := .receive) trivial rfl,
    goes_on_of_reach (ids_injective warnsBytes)
      (fun job hjob => List.mem_singleton.1 hjob ▸ ⟨jsonTable_faithful (by decide +kernel), trivial⟩)
      (.tail (.tail .refl (a := .dispatch) trivial rfl) (a := .receive) trivial rfl)
      (by rintro ⟨⟩)⟩

end JobSession

end Axo
