import Axo.Service.JobCluster

/-!
# A terminal result is written once

When a forward is given up although its command has arrived, or may still do so, its origin stores
an error and the target runs the job: the endpoints then store one outcome after the other
(`twoOutcomes`).  `Orderly` excludes that, the second report of a job by its runtime, and the
re-push of a result that was never synced.  Under it there is at most one outcome of a job,
the *verdict* of `WriteOnceInv`, and `written_once` says that a terminal result stays.
-/

namespace Axo

open Function Transition

/-- The forward can still bring the job, or an error, to somebody. -/
def ForwardCall.busy (c : ForwardCall) : Bool :=
  match c.phase with
  | .sent => true
  | .lost | .refused _ => c.waiting
  | .handling | .accepted => false

/-- Nothing has been decided by the forward yet. -/
def ForwardCall.undecided (c : ForwardCall) : Bool :=
  match c.phase with
  | .sent => true
  | .lost => c.waiting
  | .handling | .accepted | .refused _ => false

theorem ForwardCall.busy_of_undecided {c : ForwardCall} (h : c.undecided = true) :
    c.busy = true := by
  unfold ForwardCall.undecided at h
  unfold ForwardCall.busy
  split at h <;> simp_all

namespace JobCluster

variable {η : Type} {job : Uuid} {sha256 : ResultDoc → η} {s t : JobCluster η}
  {verdict verdict' : Option JobResult} {e : EndpointId} {r : JobResult}

/-! ### The verdict -/

/-- Whatever is stored, reported or pushed is the verdict, if there is one. -/
structure Agreed (sha256 : ResultDoc → η) (s : JobCluster η) (verdict : Option JobResult) :
    Prop where
  stored : ∀ e r, s.results e = some r → r.isPending = false → verdict = some r
  reported : ∀ r ∈ s.reports, verdict = some r
  pushed : ∀ push ∈ s.pushes, ∃ r, verdict = some r ∧ push = (r.encode, sha256 r.encode)
  hashed : ∀ e hash, s.hashes e = some hash →
    ∃ r, verdict = some r ∧ s.results e = some r ∧ hash = sha256 r.encode
  travels : ∀ r, verdict = some r → r.Travels

/-- No runtime has the job, and no forward can bring it or an error to anybody. -/
def Quiet (s : JobCluster η) : Prop :=
  s.copies = [] ∧ ∀ c ∈ s.calls, c.busy = false

theorem Quiet.countP_busy (h : s.Quiet) : s.calls.countP ForwardCall.busy = 0 :=
  List.countP_eq_zero.2 fun c hc => by simp [h.2 c hc]

/-- The job is at one place at most, and as long as it is at one there is no verdict; a refusal on
its way back is the verdict. -/
structure WriteOnceInv (job : Uuid) (sha256 : ResultDoc → η) (s : JobCluster η)
    (verdict : Option JobResult) : Prop extends Agreed sha256 s verdict where
  refused : ∀ c ∈ s.calls, c.waiting = true → ∀ error, c.phase = .refused error →
    verdict = some (failedResult job.hex error)
  undecided : ∀ c ∈ s.calls, c.undecided = true → verdict = none
  held : s.copies ≠ [] → verdict = none
  single : s.copies.length + s.calls.countP ForwardCall.busy ≤ 1

namespace Agreed

theorem init : Agreed sha256 (init : JobCluster η) none where
  stored := fun _ _ h => by cases h
  reported := fun _ h => by cases h
  pushed := fun _ h => by cases h
  hashed := fun _ _ h => by cases h
  travels := fun _ h => by cases h

/-- Without a verdict any result can become it. -/
theorem decide (h : Agreed sha256 s none) (hr : r.Travels) : Agreed sha256 s (some r) where
  stored := fun e' r' hres hterm => by cases h.stored e' r' hres hterm
  reported := fun r' hr' => by cases h.reported r' hr'
  pushed := fun push hpush => by
    obtain ⟨r', hr', -⟩ := h.pushed push hpush
    cases hr'
  hashed := fun e' hash hhash => by
    obtain ⟨r', hr', -⟩ := h.hashed e' hash hhash
    cases hr'
  travels := fun r' hr' => by
    cases hr'
    exact hr

/-- A result is stored that is the verdict, or becomes it. -/
theorem store (h : Agreed sha256 s verdict) (hv : ∀ r', verdict = some r' → r' = r)
    (hr : r.Travels) : Agreed sha256 (s.store e r) (some r) where
  stored := by
    intro e' r' hres hterm
    rcases eq_or_ne e' e with rfl | hne
    · rw [store_results_self] at hres
      exact hres
    · rw [store_results_ne _ _ hne] at hres
      rw [hv r' (h.stored e' r' hres hterm)]
  reported := fun r' hr' => by rw [hv r' (h.reported r' hr')]
  pushed := by
    intro push hpush
    obtain ⟨r', hr', hdoc⟩ := h.pushed push hpush
    exact ⟨r', by rw [hv r' hr'], hdoc⟩
  hashed := by
    intro e' hash hhash
    obtain ⟨r', hr', hres, heq⟩ := h.hashed e' hash hhash
    obtain rfl := hv r' hr'
    refine ⟨r', rfl, ?_, heq⟩
    rcases eq_or_ne e' e with rfl | hne
    · exact store_results_self ..
    · rw [store_results_ne _ _ hne, hres]
  travels := fun r' hr' => by
    cases hr'
    exact hr

/-- The verdict is reported. -/
theorem complete (h : Agreed sha256 s verdict) (hv : ∀ r', verdict = some r' → r' = r)
    (hr : r.Travels) : Agreed sha256 (s.complete e r) (some r) :=
  have hstore := h.store (e := e) hv hr
  { hstore with
    reported := by
      intro r' hr'
      rcases List.mem_append.1 hr' with hr' | hr'
      · exact hstore.reported r' hr'
      · rw [List.mem_singleton.1 hr'] }

/-- As long as there is no verdict, the job can be recorded as pending. -/
theorem pending (h : Agreed sha256 s none) :
    Agreed sha256 (s.store e (pendingResult job.hex)) none where
  stored := by
    intro e' r' hres hterm
    rcases eq_or_ne e' e with rfl | hne
    · rw [store_results_self] at hres
      cases hres
      exact absurd hterm (by simp [pendingResult, JobResult.isPending])
    · rw [store_results_ne _ _ hne] at hres
      exact h.stored e' r' hres hterm
  reported := h.reported
  pushed := h.pushed
  hashed := fun e' hash hhash => by
    obtain ⟨r', hr', -⟩ := h.hashed e' hash hhash
    cases hr'
  travels := h.travels

end Agreed

namespace WriteOnceInv

theorem of_quiet (h : Agreed sha256 s verdict) (hq : s.Quiet) :
    WriteOnceInv job sha256 s verdict where
  toAgreed := h
  refused := fun c hc hwaiting error hphase =>
    absurd (hq.2 c hc) (by simp [ForwardCall.busy, hphase, hwaiting])
  undecided := fun c hc hundecided =>
    absurd (hq.2 c hc) (by simp [ForwardCall.busy_of_undecided hundecided])
  held := fun hcopies => absurd hq.1 hcopies
  single := by
    rw [hq.1, hq.countP_busy]
    exact Nat.zero_le _

/-! ### Taking the job from where it is -/

/-- Once a copy leaves its runtime, the job is nowhere. -/
theorem quiet_dropCopy {stage : CopyStage} (h : WriteOnceInv job sha256 s verdict)
    (hcopy : (e, stage) ∈ s.copies) : (s.dropCopy e stage).Quiet := by
  have hsingle := h.single
  have hpos := List.length_pos_of_mem hcopy
  constructor
  · obtain ⟨x, hx⟩ := List.length_eq_one_iff.1 (show s.copies.length = 1 by omega)
    rw [dropCopy, hx]
    rw [hx, List.mem_singleton] at hcopy
    rw [hcopy]
    simp
  · intro c hc
    have hzero : s.calls.countP ForwardCall.busy = 0 := by omega
    simpa using List.countP_eq_zero.1 hzero c hc

/-- Once a forward can bring nothing to anybody any more, the job is nowhere. -/
theorem quiet_modify {i : ℕ} {call : ForwardCall} {f : ForwardCall → ForwardCall}
    (h : WriteOnceInv job sha256 s verdict) (hcall : s.calls[i]? = some call)
    (hbusy : call.busy = true) (hf : (f call).busy = false) :
    Quiet { s with calls := s.calls.modify i f } := by
  have hsingle := h.single
  have hcount := countP_modify (f := f) ForwardCall.busy hcall
  rw [hbusy, hf, Bool.toNat_true, Bool.toNat_false] at hcount
  refine ⟨List.eq_nil_of_length_eq_zero (show s.copies.length = 0 by omega), fun c hc => ?_⟩
  have hzero : (s.calls.modify i f).countP ForwardCall.busy = 0 := by omega
  simpa using List.countP_eq_zero.1 hzero c hc

/-! ### Answers -/

theorem setPhase_accepted (h : WriteOnceInv job sha256 s verdict) (i : ℕ) :
    WriteOnceInv job sha256 (s.setPhase i .accepted) verdict where
  toAgreed := ⟨h.stored, h.reported, h.pushed, h.hashed, h.travels⟩
  refused := by
    intro c hc hwaiting error hphase
    rcases mem_modify hc with hc | ⟨d, -, rfl⟩
    · exact h.refused c hc hwaiting error hphase
    · cases hphase
  undecided := by
    intro c hc hundecided
    rcases mem_modify hc with hc | ⟨d, -, rfl⟩
    · exact h.undecided c hc hundecided
    · cases hundecided
  held := h.held
  single := (Nat.add_le_add_left (countP_modify_le _ fun c hc => by cases hc) _).trans h.single

theorem setPhase_refused {error : String} (i : ℕ)
    (h : Agreed sha256 s (some (failedResult job.hex error))) (hq : s.Quiet) :
    WriteOnceInv job sha256 (s.setPhase i (.refused error))
      (some (failedResult job.hex error)) where
  toAgreed := ⟨h.stored, h.reported, h.pushed, h.hashed, h.travels⟩
  refused := by
    intro c hc hwaiting error' hphase
    rcases mem_modify hc with hc | ⟨d, -, rfl⟩
    · exact (of_quiet h hq).refused c hc hwaiting error' hphase
    · cases hphase
      rfl
  undecided := by
    intro c hc hundecided
    rcases mem_modify hc with hc | ⟨d, -, rfl⟩
    · have hbase : WriteOnceInv job sha256 s (some (failedResult job.hex error)) := of_quiet h hq
      exact hbase.undecided c hc hundecided
    · cases hundecided
  held := fun hcopies => absurd hq.1 hcopies
  single := by
    have hle := countP_modify_le_succ (l := s.calls) (i := i)
      (f := fun c => { c with phase := .refused error }) ForwardCall.busy
    rw [hq.countP_busy] at hle
    have hcopies : (s.setPhase i (.refused error)).copies.length = 0 := by
      rw [setPhase, hq.1, List.length_nil]
    rw [hcopies, Nat.zero_add]
    exact hle

theorem settle_ok (h : WriteOnceInv job sha256 s verdict) (caller : ForwardCaller) :
    WriteOnceInv job sha256 (s.settle job e caller (.ok ())) verdict := by
  cases caller with
  | submit => exact h
  | forwarded call => exact h.setPhase_accepted call
  | retry => exact h

/-- An error that nothing contradicts becomes the verdict. -/
theorem settle_error (e : EndpointId) {error : String} (h : Agreed sha256 s verdict) (hq : s.Quiet)
    (hv : ∀ r, verdict = some r → r = failedResult job.hex error) (caller : ForwardCaller) :
    WriteOnceInv job sha256 (s.settle job e caller (.error error))
      (some (failedResult job.hex error)) := by
  have hr := JobResult.travels_failed job.hex error
  cases caller with
  | submit => exact of_quiet (h.store hv hr) hq
  | forwarded call => exact setPhase_refused call (h.store hv hr) hq
  | retry =>
    have hpop : Agreed sha256 (s.popAttempts e) verdict :=
      ⟨h.stored, h.reported, h.pushed, h.hashed, h.travels⟩
    exact of_quiet (hpop.complete hv hr) hq

/-- A job that is nowhere and has no verdict is placed. -/
theorem invokeAt (job : Uuid) (e : EndpointId) (h : Agreed sha256 s none) (hq : s.Quiet)
    (caller : ForwardCaller) (answer : InvokeAnswer) :
    ∃ verdict, WriteOnceInv job sha256 (s.invokeAt job e caller answer) verdict := by
  have hbase : WriteOnceInv job sha256 s none := of_quiet h hq
  cases answer with
  | here cold =>
    refine ⟨none, settle_ok ?_ caller⟩
    have hcopies (stage : CopyStage) : ((e, stage) :: s.copies).length +
        s.calls.countP ForwardCall.busy ≤ 1 := by
      rw [hq.1, hq.countP_busy]
      exact le_rfl
    cases cold with
    | false =>
      exact ⟨⟨h.stored, h.reported, h.pushed, h.hashed, h.travels⟩, hbase.refused,
        hbase.undecided, fun _ => rfl, hcopies .handed⟩
    | true =>
      exact ⟨⟨h.stored, h.reported, h.pushed, h.hashed, h.travels⟩, hbase.refused,
        hbase.undecided, fun _ => rfl, hcopies .starting⟩
  | refused error =>
    exact ⟨_, settle_error e h hq (fun r hr => by cases hr) caller⟩
  | elsewhere target =>
    refine ⟨none, ⟨h.stored, h.reported, h.pushed, h.hashed, h.travels⟩, ?_, fun _ _ _ => rfl,
      fun _ => rfl, ?_⟩
    · intro c hc hwaiting error hphase
      rcases List.mem_append.1 hc with hc | hc
      · exact hbase.refused c hc hwaiting error hphase
      · rw [List.mem_singleton.1 hc] at hphase
        cases hphase
    · simp only [JobCluster.invokeAt]
      rw [List.countP_append, hq.countP_busy, hq.1]
      exact le_rfl

theorem submitJobAt (job : Uuid) (e : EndpointId) (h : Agreed sha256 s none) (hq : s.Quiet)
    (caller : ForwardCaller) (answer : InvokeAnswer) :
    ∃ verdict, WriteOnceInv job sha256 (s.submitJobAt job e caller answer) verdict :=
  invokeAt job e h.pending hq caller answer

end WriteOnceInv

/-! ### The steps -/

/-- The guard on the steps: a forward is given up only when its command is lost, the runtime reports
a job that it holds, and what is pushed again has been synced. -/
def WriteGuard (s : JobCluster η) : JobClusterAction → Prop
  | .timeout i _ => (s.calls[i]?.all fun call => call.phase = .lost) = true
  | .reportAgain _ _ => False
  | .reverify e => (s.hashes e).isSome = true
  | _ => True

instance (s : JobCluster η) : (a : JobClusterAction) → Decidable (s.WriteGuard a)
  | .timeout i _ =>
    inferInstanceAs (Decidable ((s.calls[i]?.all fun call => call.phase = .lost) = true))
  | .reportAgain _ _ => inferInstanceAs (Decidable False)
  | .reverify e => inferInstanceAs (Decidable ((s.hashes e).isSome = true))
  | .submit .. | .deliver .. | .reject .. | .lose .. | .reply .. | .ready .. | .report .. | .fail ..
  | .retry .. | .sync .. | .replicate .. => inferInstanceAs (Decidable True)

/-- A verdict stands, and whoever has stored it keeps it. -/
def Keeps (s t : JobCluster η) (verdict verdict' : Option JobResult) : Prop :=
  ∀ r, verdict = some r → verdict' = some r ∧ ∀ e, s.results e = some r → t.results e = some r

theorem Keeps.of_none (h : verdict = none) : Keeps s t verdict verdict' := fun r hr => by
  rw [h] at hr
  cases hr

theorem Keeps.of_results (h : t.results = s.results) : Keeps s t verdict verdict := fun r hr =>
  ⟨hr, fun e he => by rw [h, he]⟩

/-- Storing the verdict once more changes nothing for those who have it. -/
theorem Keeps.store (hres : t.results = update s.results e (some r)) :
    Keeps s t (some r) (some r) := by
  intro r' hr'
  cases hr'
  refine ⟨rfl, fun e' he' => ?_⟩
  rcases eq_or_ne e' e with rfl | hne
  · rw [hres, update_self]
  · rw [hres, update_of_ne hne, he']

theorem settle_ok_results (caller : ForwardCaller) :
    (s.settle job e caller (.ok ())).results = s.results := by
  cases caller <;> rfl

theorem settle_error_results (caller : ForwardCaller) (error : String) :
    (s.settle job e caller (.error error)).results =
      update s.results e (some (failedResult job.hex error)) := by
  cases caller <;> rfl

namespace WriteOnceInv

theorem verdict_eq_none {i : ℕ} {call : ForwardCall} (h : WriteOnceInv job sha256 s verdict)
    (hcall : s.calls[i]? = some call) (hundecided : call.undecided = true) : verdict = none :=
  h.undecided call (List.mem_of_getElem? hcall) hundecided

theorem verdict_eq_none_of_copy {stage : CopyStage} (h : WriteOnceInv job sha256 s verdict)
    (hcopy : (e, stage) ∈ s.copies) : verdict = none :=
  h.held (List.ne_nil_of_mem hcopy)

/-- A waiting thread gives up, or has its answer. -/
theorem stopWaiting (h : WriteOnceInv job sha256 s verdict) (i : ℕ) :
    WriteOnceInv job sha256 (s.stopWaiting i) verdict where
  toAgreed := ⟨h.stored, h.reported, h.pushed, h.hashed, h.travels⟩
  refused := by
    intro c hc hwaiting error hphase
    rcases mem_modify hc with hc | ⟨d, -, rfl⟩
    · exact h.refused c hc hwaiting error hphase
    · cases hwaiting
  undecided := by
    intro c hc hundecided
    rcases mem_modify hc with hc | ⟨d, hd, rfl⟩
    · exact h.undecided c hc hundecided
    · refine h.undecided d hd ?_
      unfold ForwardCall.undecided at hundecided ⊢
      split at hundecided <;> simp_all
  held := h.held
  single := by
    refine (Nat.add_le_add_left (countP_modify_le _ fun c hc => ?_) _).trans h.single
    unfold ForwardCall.busy at hc ⊢
    split at hc <;> simp_all

/-- The command of a forward is lost. -/
theorem setPhase_lost {i : ℕ} {call : ForwardCall} (h : WriteOnceInv job sha256 s verdict)
    (hcall : s.calls[i]? = some call) (hphase : call.phase = .sent) :
    WriteOnceInv job sha256 (s.setPhase i .lost) verdict where
  toAgreed := ⟨h.stored, h.reported, h.pushed, h.hashed, h.travels⟩
  refused := by
    intro c hc hwaiting error hrefused
    rcases mem_modify hc with hc | ⟨d, -, rfl⟩
    · exact h.refused c hc hwaiting error hrefused
    · cases hrefused
  undecided := fun _ _ _ => h.verdict_eq_none hcall (by simp [ForwardCall.undecided, hphase])
  held := h.held
  single := by
    have hsingle := h.single
    have hcount := countP_modify (f := fun c => { c with phase := .lost }) ForwardCall.busy hcall
    rw [show call.busy = true by simp [ForwardCall.busy, hphase], Bool.toNat_true] at hcount
    have hle := Bool.toNat_le ({ call with phase := .lost } : ForwardCall).busy
    rw [setPhase]
    dsimp only
    omega

/-- A command that has arrived is refused. -/
theorem refuse {i : ℕ} {call : ForwardCall} {error : String}
    (h : WriteOnceInv job sha256 s verdict) (hcall : s.calls[i]? = some call)
    (hphase : call.phase = .sent) :
    WriteOnceInv job sha256 (s.setPhase i (.refused error))
      (some (failedResult job.hex error)) := by
  obtain rfl := h.verdict_eq_none hcall (by simp [ForwardCall.undecided, hphase])
  have hquiet := h.quiet_modify (f := fun c => { c with phase := .handling }) hcall
    (by simp [ForwardCall.busy, hphase]) rfl
  rw [← setPhase_setPhase s i .handling]
  have hagreed := h.toAgreed.decide (JobResult.travels_failed job.hex error)
  exact setPhase_refused i ⟨hagreed.stored, hagreed.reported, hagreed.pushed, hagreed.hashed,
    hagreed.travels⟩ hquiet

/-- A copy moves on in its runtime. -/
theorem replaceCopy {stage : CopyStage} (h : WriteOnceInv job sha256 s verdict)
    (stage' : CopyStage) (hcopy : (e, stage) ∈ s.copies) :
    WriteOnceInv job sha256 ((s.dropCopy e stage).addCopy e stage') none := by
  obtain rfl := h.verdict_eq_none_of_copy hcopy
  have hquiet := h.quiet_dropCopy hcopy
  have hbase : WriteOnceInv job sha256 (s.dropCopy e stage) none :=
    of_quiet ⟨h.stored, h.reported, h.pushed, h.hashed, h.travels⟩ hquiet
  refine ⟨⟨h.stored, h.reported, h.pushed, h.hashed, h.travels⟩, hbase.refused, hbase.undecided,
    fun _ => rfl, ?_⟩
  rw [addCopy, List.length_cons, hquiet.1, hquiet.countP_busy]
  exact le_rfl

/-- A copy leaves its runtime with a result. -/
theorem completeCopy {stage : CopyStage} {u : JobCluster η}
    (h : WriteOnceInv job sha256 s verdict) (hcopy : (e, stage) ∈ s.copies) (hr : r.Travels)
    (hu : u = { s.dropCopy e stage with attempts := u.attempts, failures := u.failures }) :
    WriteOnceInv job sha256 (u.complete e r) (some r) := by
  obtain rfl := h.verdict_eq_none_of_copy hcopy
  have hquiet := h.quiet_dropCopy hcopy
  have hagreed : Agreed sha256 u none := by
    rw [hu]
    exact ⟨h.stored, h.reported, h.pushed, h.hashed, h.travels⟩
  have hquiet' : (u.complete e r).Quiet := by
    rw [hu]
    exact hquiet
  exact of_quiet (hagreed.complete (fun r hr => by cases hr) hr) hquiet'

/-- The verdict arrives at an endpoint. -/
theorem receive [DecidableEq η] (h : WriteOnceInv job sha256 s (some r)) :
    WriteOnceInv job sha256 (s.receive sha256 e r.encode (sha256 r.encode)) (some r) := by
  rw [receive_encode (h.travels r rfl)]
  have hstore := h.toAgreed.store (e := e) (r := r) (fun r' hr' => (Option.some.inj hr').symm)
    (h.travels r rfl)
  refine ⟨{ hstore with hashed := ?_ }, h.refused, h.undecided, h.held, h.single⟩
  intro e' hash hhash
  rcases eq_or_ne e' e with rfl | hne
  · replace hhash : update s.hashes e' (some (sha256 r.encode)) e' = some hash := hhash
    rw [update_self] at hhash
    exact ⟨r, rfl, store_results_self .., (Option.some.inj hhash).symm⟩
  · replace hhash : update s.hashes e (some (sha256 r.encode)) e' = some hash := hhash
    rw [update_of_ne hne] at hhash
    exact hstore.hashed e' hash hhash

/-- The verdict is pushed. -/
theorem push (h : WriteOnceInv job sha256 s (some r)) :
    WriteOnceInv job sha256 (s.push r.encode (sha256 r.encode)) (some r) where
  toAgreed :=
    { h.toAgreed with
      pushed := by
        intro p hp
        rcases List.mem_append.1 hp with hp | hp
        · exact h.pushed p hp
        · exact ⟨r, rfl, List.mem_singleton.1 hp⟩ }
  refused := h.refused
  undecided := h.undecided
  held := h.held
  single := h.single

end WriteOnceInv

/-- The invariant of a run, with the state before the submission. -/
def Decided (job : Uuid) (sha256 : ResultDoc → η) (s : JobCluster η)
    (verdict : Option JobResult) : Prop :=
  WriteOnceInv job sha256 s verdict ∧
    (s.submitted = false → s = JobCluster.init ∧ verdict = none)

theorem Decided.init : Decided job sha256 (JobCluster.init : JobCluster η) none :=
  ⟨.of_quiet .init ⟨rfl, fun c hc => by cases hc⟩, fun _ => ⟨rfl, rfl⟩⟩

theorem receive_results [DecidableEq η] (hr : r.Travels) :
    (s.receive sha256 e r.encode (sha256 r.encode)).results = update s.results e (some r) := by
  rw [receive_encode hr]
  rfl

section Step

variable [DecidableEq η] {maxRetries : ℤ} {a : JobClusterAction}

/-- One step keeps the invariant and whatever has been decided. -/
theorem WriteOnceInv.step (h : WriteOnceInv job sha256 s verdict)
    (hfresh : s.submitted = false → s = JobCluster.init ∧ verdict = none) (hG : s.WriteGuard a)
    (hstep : s.StepTo job sha256 maxRetries a t) :
    ∃ verdict', WriteOnceInv job sha256 t verdict' ∧ Keeps s t verdict verdict' := by
  cases hstep with
  | submit hsub =>
    obtain ⟨rfl, rfl⟩ := hfresh hsub
    obtain ⟨verdict', h'⟩ := submitJobAt job _
      (⟨h.stored, h.reported, h.pushed, h.hashed, h.travels⟩ :
        Agreed sha256 { JobCluster.init with submitted := true } none)
      ⟨rfl, fun c hc => by cases hc⟩ .submit _
    exact ⟨verdict', h', .of_none rfl⟩
  | @deliver i answer call hcall hphase =>
    have hnone := h.verdict_eq_none hcall (by simp [ForwardCall.undecided, hphase])
    have hquiet := h.quiet_modify (f := fun c => { c with phase := .handling }) hcall
      (by simp [ForwardCall.busy, hphase]) rfl
    subst hnone
    obtain ⟨verdict', h'⟩ := submitJobAt job call.target
      (⟨h.stored, h.reported, h.pushed, h.hashed, h.travels⟩ :
        Agreed sha256 (s.setPhase i .handling) none) hquiet (.forwarded i) answer
    exact ⟨verdict', h', .of_none rfl⟩
  | @reject i error call hcall hphase =>
    have hnone := h.verdict_eq_none hcall (by simp [ForwardCall.undecided, hphase])
    exact ⟨_, h.refuse hcall hphase, .of_none hnone⟩
  | @lose i call hcall hphase =>
    exact ⟨_, h.setPhase_lost hcall hphase, .of_results rfl⟩
  | @accepted i call hcall hwaiting hphase =>
    exact ⟨verdict, (h.stopWaiting i).settle_ok _, .of_results (settle_ok_results _)⟩
  | @refused i error call hcall hwaiting hphase =>
    obtain rfl := h.refused call (List.mem_of_getElem? hcall) hwaiting error hphase
    have hquiet := h.quiet_modify (f := fun c => { c with waiting := false }) hcall
      (by simp [ForwardCall.busy, hphase, hwaiting]) (by simp [ForwardCall.busy, hphase])
    have h' := settle_error call.origin
      (⟨h.stored, h.reported, h.pushed, h.hashed, h.travels⟩ :
        Agreed sha256 (s.stopWaiting i) (some (failedResult job.hex error))) hquiet
      (fun r hr => (Option.some.inj hr).symm) call.caller
    exact ⟨_, h', .store (settle_error_results _ _)⟩
  | @timeout i error call hcall hwaiting =>
    have hphase : call.phase = .lost := by simpa [WriteGuard, hcall] using hG
    have hnone := h.verdict_eq_none hcall (by simp [ForwardCall.undecided, hphase, hwaiting])
    have hquiet := h.quiet_modify (f := fun c => { c with waiting := false }) hcall
      (by simp [ForwardCall.busy, hphase, hwaiting]) (by simp [ForwardCall.busy, hphase])
    subst hnone
    have h' : WriteOnceInv job sha256 _ (some (failedResult job.hex error)) :=
      settle_error call.origin
      (⟨h.stored, h.reported, h.pushed, h.hashed, h.travels⟩ :
        Agreed sha256 (s.stopWaiting i) none) hquiet (fun r hr => by cases hr) call.caller
    exact ⟨_, h', .of_none rfl⟩
  | ready hcopy =>
    have h' := h.replaceCopy .handed hcopy
    exact ⟨none, ⟨⟨h'.stored, h'.reported, h'.pushed, h'.hashed, h'.travels⟩, h'.refused,
      h'.undecided, h'.held, h'.single⟩, .of_none (h.verdict_eq_none_of_copy hcopy)⟩
  | @report e stage pops completion hcopy hstage =>
    have hnone := h.verdict_eq_none_of_copy hcopy
    exact ⟨_, h.completeCopy hcopy (completion.travels_result job) (by cases pops <;> rfl),
      .of_none hnone⟩
  | reportAgain htaken => exact absurd hG id
  | @fail e known error durationMs hcopy =>
    have hnone := h.verdict_eq_none_of_copy hcopy
    unfold retryOrFinalize
    split_ifs
    · have h' := h.replaceCopy .retrying hcopy
      exact ⟨none, ⟨⟨h'.stored, h'.reported, h'.pushed, h'.hashed, h'.travels⟩, h'.refused,
        h'.undecided, h'.held, h'.single⟩, .of_none hnone⟩
    · exact ⟨_, h.completeCopy hcopy (Completion.travels_result job _) rfl, .of_none hnone⟩
  | @retry e answer hcopy =>
    obtain rfl := h.verdict_eq_none_of_copy hcopy
    obtain ⟨verdict', h'⟩ := invokeAt job e
      (⟨h.stored, h.reported, h.pushed, h.hashed, h.travels⟩ :
        Agreed sha256 (s.dropCopy e .retrying) none) (h.quiet_dropCopy hcopy) .retry answer
    exact ⟨verdict', h', .of_none rfl⟩
  | @sync e i result hreport =>
    obtain rfl := h.reported result (List.mem_of_getElem? hreport)
    exact ⟨_, h.receive.push, .store (receive_results (h.travels result rfl))⟩
  | syncRaises hreport hdecode => exact ⟨verdict, h, .of_results rfl⟩
  | @replicate e i doc hash hpush =>
    obtain ⟨r, rfl, hdoc⟩ := h.pushed (doc, hash) (List.mem_of_getElem? hpush)
    cases hdoc
    exact ⟨_, h.receive, .store (receive_results (h.travels r rfl))⟩
  | @reverify e result hresult =>
    obtain ⟨hash, hhash⟩ := Option.isSome_iff_exists.1 hG
    obtain ⟨r, rfl, hres, rfl⟩ := h.hashed e hash hhash
    obtain rfl : r = result := Option.some.inj (hres.symm.trans hresult)
    rw [hhash, Option.getD_some]
    exact ⟨_, h.push, .of_results rfl⟩

/-! ### Runs -/

theorem Decided.step (h : Decided job sha256 s verdict) (hG : s.WriteGuard a)
    (hstep : s.step job sha256 maxRetries a = some t) :
    ∃ verdict', Decided job sha256 t verdict' ∧ Keeps s t verdict verdict' := by
  have hto := stepTo_of_step hstep
  obtain ⟨verdict', h', hkeeps⟩ := h.1.step h.2 hG hto
  have hsub : t.submitted = true := submitted_of_stepTo (fun hs => (h.2 hs).1) hto
  exact ⟨verdict', ⟨h', fun hfalse => by rw [hsub] at hfalse; cases hfalse⟩, hkeeps⟩

theorem decided_of_reach
    (h : Reach (JobCluster.step job sha256 maxRetries) WriteGuard JobCluster.init s) :
    ∃ verdict, Decided job sha256 s verdict :=
  Reach.invariant (I := fun s => ∃ verdict, Decided job sha256 s verdict) ⟨none, .init⟩
    (fun _ _ _ ⟨_, hs⟩ hG hstep => (hs.step hG hstep).imp fun _ ht => ht.1) h

/-- Every terminal result is still there later on. -/
def TerminalsKept (s t : JobCluster η) : Prop :=
  ∀ e r, s.results e = some r → r.isPending = false → t.results e = some r

/-- In guarded runs a terminal result is written once. -/
theorem written_once
    (hs : Reach (JobCluster.step job sha256 maxRetries) WriteGuard JobCluster.init s)
    (ht : Reach (JobCluster.step job sha256 maxRetries) WriteGuard s t) : s.TerminalsKept t := by
  intro e r hres hterm
  obtain ⟨verdict, hdecided⟩ := decided_of_reach hs
  obtain rfl := hdecided.1.stored e r hres hterm
  have hlater : Decided job sha256 t (some r) ∧ t.results e = some r := by
    refine Reach.invariant (I := fun u => Decided job sha256 u (some r) ∧ u.results e = some r)
      ⟨hdecided, hres⟩ ?_ ht
    rintro u a u' ⟨hu, hur⟩ hG hstep
    obtain ⟨verdict', hu', hkeeps⟩ := hu.step hG hstep
    obtain ⟨rfl, hkept⟩ := hkeeps r rfl
    exact ⟨hu', hkept e hur⟩
  exact hlater.2

end Step

/-- A job whose id is one digit. -/
def jobA : Uuid := ⟨"a", by simp⟩

/-- A forwarded job fails once and is retried; its result reaches the origin, and is pushed there
again. -/
theorem written_once_forwarded : ∃ s t : JobCluster ResultDoc,
    Reach (step jobA id 1) WriteGuard init s ∧ Reach (step jobA id 1) WriteGuard s t ∧
      s.results "origin" = some ((⟨.ok (.json "1"), none, []⟩ : Completion).result "a") ∧
      s.TerminalsKept t := by
  obtain ⟨s, t, hs, ht, hres, -⟩ := exists_reach_reach_of_guarded_run (step jobA id 1) WriteGuard
    init
    (fun s => decide
      (s.results "origin" = some ((⟨.ok (.json "1"), none, []⟩ : Completion).result "a")))
    (fun _ _ => true)
    [.submit "origin" (.elsewhere "target"), .deliver 0 (.here true), .reply 0, .ready "target",
      .fail "target" true "container disconnected" none, .retry "target" (.here false),
      .report "target" .handed true ⟨.ok (.json "1"), none, []⟩, .sync "target" 0,
      .replicate "origin" 0]
    [.reverify "target", .replicate "origin" 1] (by decide +kernel)
  exact ⟨s, t, hs, ht, by simpa using hres, written_once hs ht⟩

/-- The origin gives up on a forward that has been accepted, and stores an error; then the result
of the job arrives. -/
theorem twoOutcomes : ∃ s t : JobCluster ResultDoc,
    Reach (step jobA id 0) Always init s ∧ Reach (step jobA id 0) Always s t ∧
      ¬ s.TerminalsKept t := by
  obtain ⟨s, t, hs, ht, hres, hres'⟩ := exists_reach_reach_of_run (step jobA id 0) init
    (fun s => decide (s.results "origin" = some (failedResult "a" "timed out")))
    (fun _ t => decide (t.results "origin" ≠ some (failedResult "a" "timed out")))
    [.submit "origin" (.elsewhere "target"), .deliver 0 (.here false), .timeout 0 "timed out"]
    [.report "target" .handed true ⟨.ok (.json "1"), none, []⟩, .sync "target" 0,
      .replicate "origin" 0] (by decide +kernel)
  refine ⟨s, t, hs, ht, fun hkept => ?_⟩
  exact of_decide_eq_true hres' (hkept "origin" _ (of_decide_eq_true hres) (by decide))

end JobCluster

end Axo
