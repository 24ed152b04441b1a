import Axo.Service.JobCluster

/-!
# How often a job is handed to a container

Each endpoint counts the retries of a job for itself, so that a job that a retry sends elsewhere
starts afresh there (`freshCounter`).  As long as retries stay where they are, `RetryInv` ties the
number of times the job was handed to a container to the counter of the endpoint that has it, and
`dispatches_le` bounds it by the retries of the `RuntimeSpec`.
-/

namespace Axo

open Function Transition

/-- The command of the forward is on its way. -/
def ForwardCall.travels (c : ForwardCall) : Bool := c.phase = .sent

namespace JobCluster

variable {η : Type} {job : Uuid} {s t : JobCluster η} {e : EndpointId} {maxRetries : ℤ}

/-- The number of forwards whose command is on its way. -/
def travelling (s : JobCluster η) : ℕ := s.calls.countP ForwardCall.travels

/-- No call of `_perform_retry` awaits a forward. -/
def RetriesStay (s : JobCluster η) : Prop := ∀ c ∈ s.calls, c.caller ≠ .retry

/-! ### What does not count -/

section Settle

variable (caller : ForwardCaller) (answer : Except String Unit)

@[simp] theorem settle_copies : (s.settle job e caller answer).copies = s.copies := by
  cases caller <;> cases answer <;> rfl

@[simp] theorem settle_dispatches :
    (s.settle job e caller answer).dispatches = s.dispatches := by
  cases caller <;> cases answer <;> rfl

@[simp] theorem settle_failures : (s.settle job e caller answer).failures = s.failures := by
  cases caller <;> cases answer <;> rfl

theorem settle_attempts (h : caller ≠ .retry) :
    (s.settle job e caller answer).attempts = s.attempts := by
  cases caller with
  | retry => exact absurd rfl h
  | submit | forwarded call => cases answer <;> rfl

theorem settle_ok_attempts :
    (s.settle job e caller (.ok ())).attempts = s.attempts := by
  cases caller <;> rfl

theorem settle_attempts_le (e' : EndpointId) :
    (s.settle job e caller answer).attempts e' ≤ s.attempts e' := by
  by_cases h : caller = .retry ∧ ∃ error, answer = .error error
  · obtain ⟨rfl, error, rfl⟩ := h
    show update s.attempts e 0 e' ≤ s.attempts e'
    rcases eq_or_ne e' e with rfl | hne
    · rw [update_self]
      exact Nat.zero_le _
    · rw [update_of_ne hne]
  · cases caller <;> cases answer <;> first | exact le_rfl | exact absurd ⟨rfl, _, rfl⟩ h

theorem settle_reports {r : JobResult} (hr : r ∈ s.reports) :
    r ∈ (s.settle job e caller answer).reports := by
  cases caller <;> cases answer <;> first | exact hr | exact List.mem_append_left _ hr

theorem setPhase_travelling_le (i : ℕ) {phase : ForwardPhase} (h : phase ≠ .sent) :
    (s.setPhase i phase).travelling ≤ s.travelling :=
  countP_modify_le _ fun c hc => by simp [ForwardCall.travels, h] at hc

theorem stopWaiting_travelling_le (i : ℕ) : (s.stopWaiting i).travelling ≤ s.travelling :=
  countP_modify_le _ fun _ hc => hc

theorem settle_travelling_le : (s.settle job e caller answer).travelling ≤ s.travelling := by
  cases caller <;> cases answer <;>
    first | exact le_rfl | exact setPhase_travelling_le _ (by simp)

theorem RetriesStay.modify (h : s.RetriesStay) (i : ℕ) (f : ForwardCall → ForwardCall)
    (hf : ∀ c, (f c).caller = c.caller) :
    RetriesStay { s with calls := s.calls.modify i f } := by
  intro c hc
  rcases mem_modify hc with hc | ⟨d, hd, rfl⟩
  · exact h c hc
  · rw [hf]
    exact h d hd

theorem RetriesStay.settle (h : s.RetriesStay) : (s.settle job e caller answer).RetriesStay := by
  cases caller <;> cases answer <;> first | exact h | exact h.modify _ _ fun _ => rfl

end Settle

/-! ### The invariant -/

/-- The job is at one place at most: on its way, before anything was tried, or at an endpoint whose
counter says how often it failed. -/
structure RetryInv (maxRetries : ℤ) (s : JobCluster η) : Prop where
  single : s.copies.length + s.travelling ≤ 1
  stays : s.RetriesStay
  untried : 0 < s.travelling → s.dispatches = 0 ∧ s.failures = 0 ∧ ∀ e, s.attempts e = 0
  counted : ∀ e stage, (e, stage) ∈ s.copies → s.failures = s.attempts e ∧
    s.dispatches = s.attempts e + if stage = .handed then 1 else 0
  attempts_le : ∀ e, s.attempts e ≤ maxRetries.toNat
  dispatches_le : s.dispatches ≤ maxRetries.toNat + 1
  exhausted : s.failures = maxRetries.toNat + 1 →
    s.copies = [] ∧ s.travelling = 0 ∧ ∃ r ∈ s.reports, r.ok = false

namespace RetryInv

theorem init : RetryInv maxRetries (init : JobCluster η) where
  single := Nat.zero_le _
  stays := fun c hc => by cases hc
  untried := fun h => absurd h (lt_irrefl 0)
  counted := fun e stage h => by cases h
  attempts_le := fun e => Nat.zero_le _
  dispatches_le := Nat.zero_le _
  exhausted := fun h => by cases h

/-- A step that touches neither the copies nor the counters. -/
theorem frame (h : RetryInv maxRetries s) (hcopies : t.copies = s.copies)
    (hattempts : t.attempts = s.attempts) (hdispatches : t.dispatches = s.dispatches)
    (hfailures : t.failures = s.failures) (htravelling : t.travelling ≤ s.travelling)
    (hstays : t.RetriesStay) (hreports : ∀ r ∈ s.reports, r ∈ t.reports) :
    RetryInv maxRetries t where
  single := by
    rw [hcopies]
    exact (Nat.add_le_add_left htravelling _).trans h.single
  stays := hstays
  untried := fun hpos => by
    rw [hdispatches, hfailures, hattempts]
    exact h.untried (hpos.trans_le htravelling)
  counted := fun e stage hcopy => by
    rw [hdispatches, hfailures, hattempts]
    exact h.counted e stage (hcopies ▸ hcopy)
  attempts_le := fun e => by
    rw [hattempts]
    exact h.attempts_le e
  dispatches_le := by
    rw [hdispatches]
    exact h.dispatches_le
  exhausted := fun hfail => by
    obtain ⟨hnil, hzero, r, hr, hok⟩ := h.exhausted (hfailures ▸ hfail)
    exact ⟨hcopies.trans hnil, Nat.eq_zero_of_le_zero (hzero ▸ htravelling), r, hreports r hr, hok⟩

/-- The job is nowhere any more. -/
theorem gone (hcopies : s.copies = []) (htravelling : s.travelling = 0) (hstays : s.RetriesStay)
    (hattempts : ∀ e, s.attempts e ≤ maxRetries.toNat)
    (hdispatches : s.dispatches ≤ maxRetries.toNat + 1)
    (hexhausted : s.failures = maxRetries.toNat + 1 → ∃ r ∈ s.reports, r.ok = false) :
    RetryInv maxRetries s where
  single := by
    rw [hcopies, htravelling]
    exact Nat.zero_le _
  stays := hstays
  untried := fun hpos => by omega
  counted := fun e stage hcopy => by
    rw [hcopies] at hcopy
    cases hcopy
  attempts_le := hattempts
  dispatches_le := hdispatches
  exhausted := fun hfail => ⟨hcopies, htravelling, hexhausted hfail⟩

/-- The job is in the runtime of one endpoint. -/
theorem at_endpoint (e : EndpointId) (stage : CopyStage) (hcopies : s.copies = [(e, stage)])
    (htravelling : s.travelling = 0) (hstays : s.RetriesStay)
    (hattempts : ∀ e, s.attempts e ≤ maxRetries.toNat) (hfailures : s.failures = s.attempts e)
    (hdispatches : s.dispatches = s.attempts e + if stage = .handed then 1 else 0) :
    RetryInv maxRetries s where
  single := by
    rw [hcopies, htravelling]
    exact le_rfl
  stays := hstays
  untried := fun hpos => by omega
  counted := fun e' stage' hcopy => by
    rw [hcopies, List.mem_singleton] at hcopy
    cases hcopy
    exact ⟨hfailures, hdispatches⟩
  attempts_le := hattempts
  dispatches_le := by
    have := hattempts e
    split_ifs at hdispatches <;> omega
  exhausted := fun hfail => by
    have := hattempts e
    omega

theorem dropCopy {stage : CopyStage} (h : RetryInv maxRetries s)
    (hcopy : (e, stage) ∈ s.copies) :
    (s.dropCopy e stage).copies = [] ∧ s.travelling = 0 := by
  have hsingle := h.single
  have hpos := List.length_pos_of_mem hcopy
  obtain ⟨x, hx⟩ := List.length_eq_one_iff.1 (show s.copies.length = 1 by omega)
  refine ⟨?_, by omega⟩
  rw [hx, List.mem_singleton] at hcopy
  rw [JobCluster.dropCopy, hx, hcopy]
  simp

/-- A command that arrives is not on its way any more, and nothing has been tried. -/
theorem arrive {i : ℕ} {call : ForwardCall} (h : RetryInv maxRetries s)
    (hcall : s.calls[i]? = some call) (hphase : call.phase = .sent) :
    s.copies = [] ∧ (s.setPhase i .handling).travelling = 0 ∧ s.dispatches = 0 ∧
      s.failures = 0 ∧ ∀ e, s.attempts e = 0 := by
  have hsingle := h.single
  have hcount := countP_modify (f := fun c => { c with phase := .handling }) ForwardCall.travels
    hcall
  have hbefore : call.travels = true := by simp [ForwardCall.travels, hphase]
  have hafter : ({ call with phase := .handling } : ForwardCall).travels = false := rfl
  rw [hbefore, hafter, Bool.toNat_true, Bool.toNat_false] at hcount
  have htravelling : s.travelling = s.calls.countP ForwardCall.travels := rfl
  have hsome : 0 < s.travelling := by omega
  refine ⟨List.eq_nil_of_length_eq_zero (by omega), ?_, h.untried hsome⟩
  have hdef : (s.setPhase i .handling).travelling = (s.calls.modify i
    fun c => { c with phase := .handling }).countP ForwardCall.travels := rfl
  omega

theorem settle_ok (h : RetryInv maxRetries s) (caller : ForwardCaller) :
    RetryInv maxRetries (s.settle job e caller (.ok ())) :=
  h.frame (settle_copies _ _) (settle_ok_attempts _) (settle_dispatches _ _) (settle_failures _ _)
    (settle_travelling_le _ _) (h.stays.settle _ _) fun _ hr => settle_reports _ _ hr

/-- The counter of an endpoint is dropped. -/
theorem update_attempts_le (hattempts : ∀ e, s.attempts e ≤ maxRetries.toNat)
    (e e' : EndpointId) : update s.attempts e 0 e' ≤ maxRetries.toNat := by
  rcases eq_or_ne e' e with rfl | hne
  · rw [update_self]
    exact Nat.zero_le _
  · rw [update_of_ne hne]
    exact hattempts e'

/-- A job that is nowhere is placed. -/
theorem invokeAt {caller : ForwardCaller} {answer : InvokeAnswer} (hcopies : s.copies = [])
    (htravelling : s.travelling = 0) (hstays : s.RetriesStay)
    (hattempts : ∀ e, s.attempts e ≤ maxRetries.toNat) (hfailures : s.failures = s.attempts e)
    (hdispatches : s.dispatches = s.attempts e)
    (helsewhere : ∀ target, answer = .elsewhere target →
      caller ≠ .retry ∧ s.dispatches = 0 ∧ s.failures = 0 ∧ ∀ e, s.attempts e = 0) :
    RetryInv maxRetries (s.invokeAt job e caller answer) := by
  cases answer with
  | here cold =>
    cases cold with
    | true =>
      have hplaced : RetryInv maxRetries ({ s with taken := e :: s.taken }.addCopy e .starting) :=
        at_endpoint e .starting (by rw [addCopy, hcopies]) htravelling hstays
          hattempts hfailures hdispatches
      exact hplaced.settle_ok caller
    | false =>
      have hplaced : RetryInv maxRetries ({ s with taken := e :: s.taken }.handOver e) :=
        at_endpoint e .handed (by rw [handOver, addCopy, hcopies]) htravelling
          hstays hattempts hfailures (congrArg (· + 1) hdispatches)
      exact hplaced.settle_ok caller
  | refused error =>
    show RetryInv maxRetries (s.settle job e caller (.error error))
    have hle : (s.settle job e caller (.error error)).travelling ≤ s.travelling :=
      settle_travelling_le caller _
    have hatt := hattempts e
    refine gone ?_ (by omega) (RetriesStay.settle caller _ hstays) (fun e' => ?_) ?_ fun hfail => ?_
    · rw [settle_copies, hcopies]
    · exact (settle_attempts_le caller _ e').trans (hattempts e')
    · rw [settle_dispatches]
      omega
    · rw [settle_failures] at hfail
      omega
  | elsewhere target =>
    obtain ⟨hcaller, hd, hf, ha⟩ := helsewhere target rfl
    have hone : (JobCluster.invokeAt job s e caller (.elsewhere target)).travelling = 1 := by
      have hcount : s.calls.countP ForwardCall.travels = 0 := htravelling
      rw [travelling, JobCluster.invokeAt, List.countP_append, hcount]
      rfl
    refine ⟨?_, ?_, fun _ => ⟨hd, hf, ha⟩, fun e' stage hcopy => ?_, hattempts, ?_, fun hfail => ?_⟩
    · rw [hone]
      show s.copies.length + 1 ≤ 1
      rw [hcopies]
      exact le_rfl
    · intro c hc
      rcases List.mem_append.1 hc with hc | hc
      · exact hstays c hc
      · rw [List.mem_singleton.1 hc]
        exact hcaller
    · replace hcopy : (e', stage) ∈ s.copies := hcopy
      rw [hcopies] at hcopy
      cases hcopy
    · show s.dispatches ≤ _
      omega
    · replace hfail : s.failures = _ := hfail
      omega

/-- The origin of a forward has its answer, or gives up. -/
theorem answer {i : ℕ} {call : ForwardCall} (h : RetryInv maxRetries s)
    (hcall : s.calls[i]? = some call) (answer : Except String Unit) :
    RetryInv maxRetries ((s.stopWaiting i).settle job call.origin call.caller answer) := by
  have hcaller := h.stays call (List.mem_of_getElem? hcall)
  refine h.frame ?_ ?_ ?_ ?_ ?_ ?_ ?_
  · rw [settle_copies]
    rfl
  · rw [settle_attempts call.caller answer hcaller]
    rfl
  · rw [settle_dispatches]
    rfl
  · rw [settle_failures]
    rfl
  · exact (settle_travelling_le _ _).trans (stopWaiting_travelling_le i)
  · exact RetriesStay.settle _ _ (h.stays.modify i _ fun _ => rfl)
  · exact fun r hr => settle_reports _ _ hr

/-- The command of a forward is refused or lost. -/
theorem setPhase (h : RetryInv maxRetries s) (i : ℕ) {phase : ForwardPhase}
    (hphase : phase ≠ .sent) : RetryInv maxRetries (s.setPhase i phase) :=
  h.frame rfl rfl rfl rfl (setPhase_travelling_le i hphase) (h.stays.modify i _ fun _ => rfl)
    fun _ hr => hr

end RetryInv

/-! ### The steps -/

/-- The guard on the steps: a retry does not send the job elsewhere, and a job is reported a second
time only when no runtime has it any more. -/
def RetryGuard (s : JobCluster η) : JobClusterAction → Prop
  | .retry _ (.elsewhere _) => False
  | .reportAgain _ _ => s.copies = []
  | _ => True

instance (s : JobCluster η) : (a : JobClusterAction) → Decidable (s.RetryGuard a)
  | .retry _ (.elsewhere _) => inferInstanceAs (Decidable False)
  | .retry _ (.here _) | .retry _ (.refused _) => inferInstanceAs (Decidable True)
  | .reportAgain _ _ => inferInstanceAs (Decidable (s.copies = []))
  | .submit .. | .deliver .. | .reject .. | .lose .. | .reply .. | .timeout .. | .ready ..
  | .report .. | .fail .. | .sync .. | .replicate .. | .reverify _ =>
    inferInstanceAs (Decidable True)

section Step

variable [DecidableEq η] {sha256 : ResultDoc → η} {a : JobClusterAction}

theorem receive_frame (s : JobCluster η) (sha256 : ResultDoc → η) (e : EndpointId)
    (doc : ResultDoc) (hash : η) :
    (s.receive sha256 e doc hash).copies = s.copies ∧
      (s.receive sha256 e doc hash).attempts = s.attempts ∧
      (s.receive sha256 e doc hash).dispatches = s.dispatches ∧
      (s.receive sha256 e doc hash).failures = s.failures ∧
      (s.receive sha256 e doc hash).calls = s.calls ∧
      (s.receive sha256 e doc hash).reports = s.reports := by
  unfold receive
  split_ifs
  · split <;> exact ⟨rfl, rfl, rfl, rfl, rfl, rfl⟩
  · exact ⟨rfl, rfl, rfl, rfl, rfl, rfl⟩

theorem RetryInv.receive (h : RetryInv maxRetries s) (doc : ResultDoc) (hash : η) :
    RetryInv maxRetries (s.receive sha256 e doc hash) := by
  obtain ⟨hcopies, hattempts, hdispatches, hfailures, hcalls, hreports⟩ :=
    receive_frame s sha256 e doc hash
  refine h.frame hcopies hattempts hdispatches hfailures ?_ ?_ ?_
  · rw [travelling, travelling, hcalls]
  · unfold RetriesStay
    rw [hcalls]
    exact h.stays
  · rw [hreports]
    exact fun r hr => hr

theorem RetryInv.step (h : RetryInv maxRetries s)
    (hfresh : s.submitted = false → s = JobCluster.init) (hG : s.RetryGuard a)
    (hstep : s.StepTo job sha256 maxRetries a t) : RetryInv maxRetries t := by
  cases hstep with
  | @submit e answer hsub =>
    obtain rfl := hfresh hsub
    exact invokeAt rfl rfl (fun c hc => by cases hc) (fun _ => Nat.zero_le _) rfl rfl
      fun _ _ => ⟨by simp, rfl, rfl, fun _ => rfl⟩
  | @deliver i answer call hcall hphase =>
    obtain ⟨hcopies, hzero, hd, hf, ha⟩ := h.arrive hcall hphase
    refine invokeAt hcopies hzero (h.stays.modify i _ fun _ => rfl) h.attempts_le ?_ ?_ fun _ _ => ?_
    · exact hf.trans (ha _).symm
    · exact hd.trans (ha _).symm
    · exact ⟨by simp, hd, hf, ha⟩
  | @reject i error call hcall hphase => exact h.setPhase i (by simp)
  | @lose i call hcall hphase => exact h.setPhase i (by simp)
  | @accepted i call hcall hwaiting hphase => exact h.answer hcall _
  | @refused i error call hcall hwaiting hphase => exact h.answer hcall _
  | @timeout i error call hcall hwaiting => exact h.answer hcall _
  | @ready e hcopy =>
    obtain ⟨hcopies, hzero⟩ := h.dropCopy hcopy
    obtain ⟨hfailures, hdispatches⟩ := h.counted e _ hcopy
    refine at_endpoint e .handed ?_ hzero h.stays h.attempts_le hfailures ?_
    · rw [handOver, addCopy, hcopies]
    · rw [if_pos rfl]
      exact congrArg (· + 1) hdispatches
  | @report e stage pops completion hcopy hstage =>
    obtain ⟨hcopies, hzero⟩ := h.dropCopy hcopy
    obtain ⟨hfailures, hdispatches⟩ := h.counted e _ hcopy
    have hatt := h.attempts_le e
    cases pops with
    | true =>
      have hpop := update_attempts_le h.attempts_le e
      exact gone hcopies hzero h.stays hpop h.dispatches_le fun hfail => by
        replace hfail : s.failures = _ := hfail
        omega
    | false =>
      exact gone hcopies hzero h.stays h.attempts_le h.dispatches_le fun hfail => by
        replace hfail : s.failures = _ := hfail
        omega
  | @reportAgain e completion htaken =>
    have hcopies : s.copies = [] := hG
    refine ⟨h.single, h.stays, fun hpos => ?_, fun e' stage hcopy => ?_,
      update_attempts_le h.attempts_le e, h.dispatches_le, fun hfail => ?_⟩
    · obtain ⟨hd, hf, ha⟩ := h.untried hpos
      refine ⟨hd, hf, fun e' => ?_⟩
      show update s.attempts e 0 e' = 0
      rcases eq_or_ne e' e with rfl | hne
      · exact update_self ..
      · rw [update_of_ne hne, ha]
    · replace hcopy : (e', stage) ∈ s.copies := hcopy
      rw [hcopies] at hcopy
      cases hcopy
    · obtain ⟨hnil, hzero, r, hr, hok⟩ := h.exhausted hfail
      exact ⟨hnil, hzero, r, List.mem_append_left _ hr, hok⟩
  | @fail e known error durationMs hcopy =>
    obtain ⟨hcopies, hzero⟩ := h.dropCopy hcopy
    obtain ⟨hfailures, hdispatches⟩ := h.counted e _ hcopy
    rw [if_pos rfl] at hdispatches
    have hmax : maxRetriesFor maxRetries known ≤ maxRetries.toNat := by
      unfold maxRetriesFor
      split_ifs
      · exact le_rfl
      · exact Nat.zero_le _
    unfold retryOrFinalize
    split_ifs with hlt
    · replace hlt : s.attempts e < maxRetriesFor maxRetries known := hlt
      refine at_endpoint e .retrying ?_ hzero h.stays (fun e' => ?_) ?_ ?_
      · rw [addCopy]
        exact congrArg _ hcopies
      · show update s.attempts e (s.attempts e + 1) e' ≤ _
        rcases eq_or_ne e' e with rfl | hne
        · rw [update_self]
          omega
        · rw [update_of_ne hne]
          exact h.attempts_le e'
      · show s.failures + 1 = update s.attempts e (s.attempts e + 1) e
        rw [update_self, hfailures]
      · show s.dispatches = update s.attempts e (s.attempts e + 1) e + 0
        rw [update_self, hdispatches]
    · exact gone hcopies hzero h.stays (update_attempts_le h.attempts_le e) h.dispatches_le
        fun _ => ⟨_, List.mem_append_right _ (List.mem_singleton_self _), rfl⟩
  | @retry e answer hcopy =>
    obtain ⟨hcopies, hzero⟩ := h.dropCopy hcopy
    obtain ⟨hfailures, hdispatches⟩ := h.counted e _ hcopy
    refine invokeAt hcopies hzero h.stays h.attempts_le hfailures hdispatches fun target heq => ?_
    subst heq
    exact absurd hG id
  | sync hreport =>
    exact (h.receive _ _).frame rfl rfl rfl rfl le_rfl (h.receive _ _).stays fun _ hr => hr
  | syncRaises hreport hdecode => exact h
  | replicate hpush => exact h.receive _ _
  | reverify hresult => exact h.frame rfl rfl rfl rfl le_rfl h.stays fun _ hr => hr

theorem retryInv_of_reach
    (h : Reach (JobCluster.step job sha256 maxRetries) RetryGuard JobCluster.init s) :
    RetryInv maxRetries s := by
  have hinv : RetryInv maxRetries s ∧ (s.submitted = false → s = JobCluster.init) := by
    refine Reach.invariant (I := fun s => RetryInv maxRetries s ∧
      (s.submitted = false → s = JobCluster.init)) ⟨.init, fun _ => rfl⟩ ?_ h
    rintro s a t ⟨hs, hfresh⟩ hG hstep
    have hto := stepTo_of_step hstep
    have hsub := submitted_of_stepTo hfresh hto
    exact ⟨hs.step hfresh hG hto, fun hfalse => by rw [hsub] at hfalse; cases hfalse⟩
  exact hinv.1

/-- The job is handed to a container as often as its retries allow, and once it has failed that
often it is nowhere any more and has been reported with an error. -/
def RetriesBounded (maxRetries : ℤ) (s : JobCluster η) : Prop :=
  (s.dispatches : ℤ) ≤ 1 + maxRetries ∧
    ((s.failures : ℤ) = 1 + maxRetries →
      s.copies = [] ∧ s.travelling = 0 ∧ ∃ r ∈ s.reports, r.ok = false)

/-- The bound on retries in guarded runs. -/
theorem retriesBounded_of_reach (hmax : 0 ≤ maxRetries)
    (h : Reach (JobCluster.step job sha256 maxRetries) RetryGuard JobCluster.init s) :
    RetriesBounded maxRetries s := by
  have hinv := retryInv_of_reach h
  have hle := hinv.dispatches_le
  have hcast := Int.toNat_of_nonneg hmax
  exact ⟨by omega, fun hfail => hinv.exhausted (by omega)⟩

end Step

/-- A job of a function with one retry is forwarded before it is tried, fails twice, and is
reported. -/
theorem retriesBounded_twice : ∃ s : JobCluster ResultDoc,
    Reach (step ⟨"a", by simp⟩ id 1) RetryGuard init s ∧ s.failures = 2 ∧
      RetriesBounded 1 s := by
  obtain ⟨s, hs, htest⟩ := exists_reach_of_guarded_run (step ⟨"a", by simp⟩ id 1) RetryGuard init
    (fun s : JobCluster ResultDoc => decide (s.failures = 2))
    [.submit "origin" (.elsewhere "target"), .deliver 0 (.here true), .ready "target",
      .fail "target" true "container disconnected" none, .retry "target" (.here false),
      .fail "target" true "container disconnected" none] (by decide +kernel)
  exact ⟨s, hs, of_decide_eq_true htest, retriesBounded_of_reach (by decide) hs⟩

/-- A retry sends the job to an endpoint that has not counted its failure. -/
theorem freshCounter : ∃ s : JobCluster ResultDoc,
    Reach (step ⟨"a", by simp⟩ id 1) Always init s ∧ ¬ RetriesBounded 1 s := by
  obtain ⟨s, hs, htest⟩ := exists_reach_of_run (step ⟨"a", by simp⟩ id 1) init
    (fun s : JobCluster ResultDoc => decide (s.dispatches = 3))
    [.submit "origin" (.here false), .fail "origin" true "container disconnected" none,
      .retry "origin" (.elsewhere "target"), .deliver 0 (.here false),
      .fail "target" true "container disconnected" none, .retry "target" (.here false)]
    (by decide +kernel)
  have hthree : s.dispatches = 3 := of_decide_eq_true htest
  refine ⟨s, hs, fun hbounded => ?_⟩
  have hle := hbounded.1
  omega

end JobCluster

end Axo
