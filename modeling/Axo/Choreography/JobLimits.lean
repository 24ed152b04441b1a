import Axo.Choreography.JobsInFlight

/-!
# Jobs within their limits

When the waves of a graph fit, and nothing is submitted while a stray of the same version is in
flight, no run has more jobs of a version in flight than the limit of the version.

* `dispatchStep_spec`, `start_spec`, `takeItem_spec`, `closePool_spec`: what one step does to the
  jobs of a thread;
* `WithinLimits` is the invariant, `withinLimits_step` its step;
* `inFlight_le_of_reach` is the result for whole runs, and `overload_twins` the run of a graph that
  passes the check.
-/

namespace Axo

open Transition

variable {functions : FunctionReads} {graph : ChoreographyGraph} {s t : RunJobs}

/-! ### Sums over a list with one entry replaced -/

section Sums

variable {α : Type*} (f : α → ℕ) {l : List α} {i : ℕ} {x : α}

theorem sum_map_set (y : α) (h : l[i]? = some x) :
    ((l.set i y).map f).sum + f x = (l.map f).sum + f y := by
  induction l generalizing i with
  | nil => simp at h
  | cons a l ih =>
    cases i with
    | zero =>
      rw [List.getElem?_cons_zero, Option.some.injEq] at h
      subst h
      simp only [List.set_cons_zero, List.map_cons, List.sum_cons]
      omega
    | succ i =>
      have hrest := ih (i := i) (by simpa using h)
      simp only [List.set_cons_succ, List.map_cons, List.sum_cons]
      omega

theorem sum_map_eraseIdx (h : l[i]? = some x) :
    ((l.eraseIdx i).map f).sum + f x = (l.map f).sum := by
  induction l generalizing i with
  | nil => simp at h
  | cons a l ih =>
    cases i with
    | zero =>
      rw [List.getElem?_cons_zero, Option.some.injEq] at h
      subst h
      simp only [List.eraseIdx_cons_zero, List.map_cons, List.sum_cons]
      omega
    | succ i =>
      have hrest := ih (i := i) (by simpa using h)
      simp only [List.eraseIdx_cons_succ, List.map_cons, List.sum_cons]
      omega

end Sums

/-! ### One thread -/

theorem JobSlot.jobs_le_one (slot : JobSlot) : slot.jobs ≤ 1 := by
  unfold JobSlot.jobs
  split <;> omega

theorem sum_jobs_le_length (slots : List JobSlot) : (slots.map JobSlot.jobs).sum ≤ slots.length := by
  induction slots with
  | nil => exact le_rfl
  | cons slot slots ih =>
    have hslot := slot.jobs_le_one
    simp only [List.map_cons, List.sum_cons, List.length_cons]
    omega

/-- The jobs that an action may add. -/
def SlotAction.submissions : SlotAction → ℕ
  | .submit _ => 1
  | _ => 0

/-- The jobs that are left of a dispatch, with the one it may have left behind. -/
def SlotResult.jobs (result : SlotResult) : ℕ :=
  (result.slot.elim 0 JobSlot.jobs) + result.stray.toNat

theorem retry_jobs (node : ChoreographyNode) (attempt : ℕ) (stray : Bool) :
    (retry node attempt stray).jobs = stray.toNat := by
  unfold retry SlotResult.jobs
  split_ifs <;> simp [JobSlot.jobs]

/-- A dispatch that submits had no job before. -/
theorem JobSlot.step_jobs {slot : JobSlot} {node : ChoreographyNode} {stopped : Bool}
    {action : SlotAction} {result : SlotResult}
    (h : slot.step node stopped action = some result) :
    result.jobs ≤ slot.jobs + action.submissions ∧ (action.submissions = 1 → slot.jobs = 0) := by
  unfold JobSlot.step at h
  split at h
  · split_ifs at h <;> cases h <;> simp [SlotResult.jobs, JobSlot.jobs, SlotAction.submissions]
  · split_ifs at h
    cases h
    simp [SlotResult.jobs, JobSlot.jobs, SlotAction.submissions]
  · cases h
    simp [retry_jobs, JobSlot.jobs, SlotAction.submissions]
  · split_ifs at h
    cases h
    simp [retry_jobs, JobSlot.jobs, SlotAction.submissions]
  · cases h
    simp [SlotResult.jobs, JobSlot.jobs, SlotAction.submissions]
  · split_ifs at h <;> cases h
    · simp [SlotResult.jobs, JobSlot.jobs, SlotAction.submissions]
    · rw [retry_jobs]
      simp [JobSlot.jobs, SlotAction.submissions]
  · cases h
    rename_i inFlight
    cases inFlight <;> simp [retry_jobs, JobSlot.jobs, SlotAction.submissions]
  · cases h

namespace NodeThread

variable {thread thread' : NodeThread}

theorem replace_length_le (slots : List JobSlot) (slotNo : ℕ) (slot : Option JobSlot) :
    (replace slots slotNo slot).length ≤ slots.length := by
  cases slot with
  | some slot => exact (List.length_set).le
  | none => exact List.length_eraseIdx_le slots slotNo

theorem replace_jobs {slots : List JobSlot} {slotNo : ℕ} {slot : JobSlot}
    (h : slots[slotNo]? = some slot) (slot' : Option JobSlot) :
    ((replace slots slotNo slot').map JobSlot.jobs).sum + slot.jobs =
      (slots.map JobSlot.jobs).sum + slot'.elim 0 JobSlot.jobs := by
  cases slot' with
  | some slot' => exact sum_map_set JobSlot.jobs slot' h
  | none => exact sum_map_eraseIdx JobSlot.jobs h

/-- A dispatch without a job leaves room in its thread. -/
theorem sum_jobs_lt_length {slots : List JobSlot} {slotNo : ℕ} {slot : JobSlot}
    (h : slots[slotNo]? = some slot) (hjobs : slot.jobs = 0) :
    (slots.map JobSlot.jobs).sum < slots.length := by
  have herase := sum_map_eraseIdx JobSlot.jobs h
  have hle := sum_jobs_le_length (slots.eraseIdx slotNo)
  obtain ⟨hlt, -⟩ := List.getElem?_eq_some_iff.1 h
  rw [List.length_eraseIdx_of_lt hlt] at hle
  omega

/-- The step of a dispatch. -/
theorem dispatchStep_spec {stopped stray : Bool} {slotNo : ℕ} {action : SlotAction}
    (h : thread.dispatchStep stopped slotNo action = some (thread', stray)) :
    thread'.node = thread.node ∧ thread'.slots.length ≤ thread.slots.length ∧
      thread'.jobs + stray.toNat ≤ thread.jobs + action.submissions ∧
      (action.submissions = 1 → thread.jobs < thread.slots.length) := by
  unfold dispatchStep at h
  split at h
  · rename_i edgeNo pending slots allOk hphase
    obtain ⟨slot, hslot, hstep⟩ := Option.bind_eq_some_iff.1 h
    obtain ⟨result, hresult, heq⟩ := Option.map_eq_some_iff.1 hstep
    cases heq
    obtain ⟨hjobs, hsubmit⟩ := JobSlot.step_jobs hresult
    have hreplace := replace_jobs hslot result.slot
    have hslots : thread.slots = slots := by rw [NodeThread.slots, hphase]
    refine ⟨rfl, ?_, ?_, fun hone => ?_⟩
    · rw [hslots]
      exact replace_length_le slots slotNo result.slot
    · rw [NodeThread.jobs, NodeThread.jobs, hslots]
      simp only [NodeThread.slots]
      unfold SlotResult.jobs at hjobs
      omega
    · rw [NodeThread.jobs, hslots]
      exact sum_jobs_lt_length hslot (hsubmit hone)
  · cases h

theorem edgeWidth_le_width {edgeNo : ℕ} (hkind : thread.node.kind = .function) :
    thread.poolWidth graph edgeNo ≤ width graph thread.node := by
  unfold poolWidth
  split
  · rename_i edge hedge
    have hmem := List.mem_of_getElem? hedge
    have hne : graph.bucketEdges thread.node.nodeId ≠ [] := List.ne_nil_of_mem hmem
    rw [width, hkind]
    simp only [if_neg hne]
    exact List.le_max_of_le' 0 (List.mem_map_of_mem hmem) le_rfl
  · exact Nat.zero_le _

/-- The threads of a node keep to its width. -/
structure Fits (graph : ChoreographyGraph) (thread : NodeThread) : Prop where
  slots : thread.slots.length ≤ width graph thread.node
  /-- Only the threads of function nodes have dispatches. -/
  function : ∀ edgeNo pending slots allOk, thread.phase = .running edgeNo pending slots allOk →
    thread.node.kind = .function

/-- A step of a thread that starts no job. -/
structure Quiet (graph : ChoreographyGraph) (thread thread' : NodeThread) : Prop where
  node : thread'.node = thread.node
  fits : Fits graph thread'
  jobs : thread'.jobs ≤ thread.jobs

theorem quiet_atEdge (hkind : thread.node.kind = .function) (edgeNo items : ℕ) (allOk : Bool) :
    Quiet graph thread (thread.atEdge graph edgeNo items allOk) where
  node := rfl
  fits := ⟨Nat.zero_le _, fun _ _ _ _ _ => hkind⟩
  jobs := Nat.zero_le _

theorem quiet_ended (ok : Bool) : Quiet graph thread { thread with phase := .ended ok } where
  node := rfl
  fits := ⟨Nat.zero_le _, fun _ _ _ _ hphase => by cases hphase⟩
  jobs := Nat.zero_le _

theorem start_spec {items : ℕ} (h : thread.start graph items = some thread') :
    Quiet graph thread thread' := by
  unfold start at h
  split at h
  · cases h
    exact quiet_ended true
  · rename_i hphase hkind
    split_ifs at h with hnone
    · cases h
      refine ⟨rfl, ⟨?_, fun _ _ _ _ _ => hkind⟩, Nat.zero_le _⟩
      rw [width, hkind]
      simp only [if_pos hnone]
      exact le_rfl
    · cases h
      exact quiet_atEdge hkind 0 items true
  · cases h

theorem takeItem_spec (hfits : Fits graph thread) (h : thread.takeItem graph = some thread') :
    Quiet graph thread thread' := by
  unfold takeItem at h
  split at h
  · rename_i edgeNo pending slots allOk hphase
    split_ifs at h with hroom
    cases h
    have hkind := hfits.function _ _ _ _ hphase
    refine ⟨rfl, ⟨?_, fun _ _ _ _ _ => hkind⟩, ?_⟩
    · have hwidth := @edgeWidth_le_width graph thread edgeNo hkind
      simp only [NodeThread.slots, List.length_append, List.length_singleton]
      omega
    · simp only [NodeThread.jobs, NodeThread.slots, hphase, List.map_append, List.sum_append,
        List.map_cons, List.map_nil, JobSlot.jobs, List.sum_singleton]
      exact le_rfl
  · cases h

theorem closePool_spec {items : ℕ} (hfits : Fits graph thread)
    (h : thread.closePool graph items = some thread') : Quiet graph thread thread' := by
  unfold closePool at h
  split at h
  · rename_i edgeNo allOk hphase
    split_ifs at h with hmore
    · cases h
      exact quiet_atEdge (hfits.function _ _ _ _ hphase) (edgeNo + 1) items allOk
    · cases h
      exact quiet_ended allOk
  · cases h

theorem dispatchStep_fits {stopped stray : Bool} {slotNo : ℕ} {action : SlotAction}
    (hfits : Fits graph thread)
    (h : thread.dispatchStep stopped slotNo action = some (thread', stray)) :
    Fits graph thread' := by
  obtain ⟨hnode, hlength, -, -⟩ := dispatchStep_spec h
  refine ⟨by rw [hnode]; exact hlength.trans hfits.slots, fun _ _ _ _ _ => ?_⟩
  rw [hnode]
  unfold dispatchStep at h
  split at h
  · rename_i hphase
    exact hfits.function _ _ _ _ hphase
  · cases h

end NodeThread

/-! ### The run -/

namespace RunJobs

open NodeThread

/-- The widths of the threads that run a version. -/
def threadsWidth (graph : ChoreographyGraph) (threads : List NodeThread)
    (v : FunctionVersionId) : ℕ :=
  (threads.map fun thread =>
    if thread.node.version? = some v then width graph thread.node else 0).sum

/-- The jobs of a version that the threads wait for. -/
def threadsJobs (threads : List NodeThread) (v : FunctionVersionId) : ℕ :=
  (threads.map fun thread => if thread.node.version? = some v then thread.jobs else 0).sum

/-- The invariant of a run. -/
structure WithinLimits (functions : FunctionReads) (graph : ChoreographyGraph) (s : RunJobs) :
    Prop where
  waves : ∀ wave ∈ s.waves, ∀ v, waveWidth graph wave v ≤ functions.limit v
  fits : ∀ thread ∈ s.threads, Fits graph thread
  width : ∀ v, threadsWidth graph s.threads v ≤ functions.limit v
  bound : ∀ v, s.inFlight v ≤ functions.limit v

theorem inFlight_eq (s : RunJobs) (v : FunctionVersionId) :
    s.inFlight v = s.strays.count v + threadsJobs s.threads v := rfl

theorem withinLimits_initial (hfit : WavesFit functions graph) :
    WithinLimits functions graph (initial graph) where
  waves wave hwave v := by
    unfold initial at hwave
    split at hwave
    · rename_i waves hwaves
      exact hfit waves hwaves wave hwave v
    · exact absurd hwave List.not_mem_nil
  fits thread hthread := absurd hthread List.not_mem_nil
  width v := Nat.zero_le _
  bound v := Nat.zero_le _

/-- What replacing a thread does to the two sums. -/
theorem sums_set {threads : List NodeThread} {threadNo : ℕ} {thread thread' : NodeThread}
    (hthread : threads[threadNo]? = some thread) (hnode : thread'.node = thread.node)
    (v : FunctionVersionId) :
    threadsWidth graph (threads.set threadNo thread') v = threadsWidth graph threads v ∧
      threadsJobs (threads.set threadNo thread') v +
          (if thread.node.version? = some v then thread.jobs else 0) =
        threadsJobs threads v + (if thread.node.version? = some v then thread'.jobs else 0) := by
  constructor
  · have hsum := sum_map_set
      (fun thread => if thread.node.version? = some v then width graph thread.node else 0)
      thread' hthread
    simp only [hnode] at hsum
    exact Nat.add_right_cancel hsum
  · have hsum := sum_map_set
      (fun thread => if thread.node.version? = some v then thread.jobs else 0) thread' hthread
    simp only [hnode] at hsum
    exact hsum

theorem fits_set {threadNo : ℕ} {thread' : NodeThread}
    (h : ∀ thread ∈ s.threads, Fits graph thread) (hfits : Fits graph thread') :
    ∀ thread ∈ s.threads.set threadNo thread', Fits graph thread := by
  intro thread hthread
  rcases List.mem_or_eq_of_mem_set hthread with hthread | rfl
  · exact h thread hthread
  · exact hfits

/-- A step of a thread that starts no job keeps the limits. -/
theorem withinLimits_stepThread {threadNo : ℕ} {next : NodeThread → Option NodeThread}
    (h : WithinLimits functions graph s) (hs : s.stepThread threadNo next = some t)
    (hnext : ∀ thread thread', Fits graph thread → next thread = some thread' →
      Quiet graph thread thread') : WithinLimits functions graph t := by
  obtain ⟨thread, hthread, hrest⟩ := Option.bind_eq_some_iff.1 hs
  obtain ⟨thread', hthread', rfl⟩ := Option.map_eq_some_iff.1 hrest
  have hquiet := hnext thread thread' (h.fits thread (List.mem_of_getElem? hthread)) hthread'
  refine ⟨h.waves, fits_set h.fits hquiet.fits, fun v => ?_, fun v => ?_⟩
  · rw [(sums_set hthread hquiet.node v).1]
    exact h.width v
  · have hsum := (@sums_set graph _ _ _ _ hthread hquiet.node v).2
    have hbound := h.bound v
    have hjobs := hquiet.jobs
    rw [inFlight_eq] at hbound
    show s.strays.count v + threadsJobs (s.threads.set threadNo thread') v ≤ functions.limit v
    split_ifs at hsum <;> omega

/-- A dispatch of a version adds at most the job that it submits. -/
theorem inFlight_dispatch_le {threadNo slotNo : ℕ} {action : SlotAction}
    (hs : step graph s (.dispatch threadNo slotNo action) = some t) (v : FunctionVersionId) :
    t.inFlight v ≤ s.inFlight v +
      if s.versionOf threadNo = some v then action.submissions else 0 := by
  obtain ⟨thread, hthread, hrest⟩ := Option.bind_eq_some_iff.1 hs
  obtain ⟨⟨thread', stray⟩, hstep, hnext⟩ := Option.map_eq_some_iff.1 hrest
  obtain ⟨hnode, -, hjobs, -⟩ := dispatchStep_spec hstep
  have hsum := (@sums_set graph _ _ _ _ hthread hnode v).2
  have hversion : s.versionOf threadNo = thread.node.version? := by
    rw [versionOf, hthread, Option.bind_some]
  have hstray : ((if stray then thread.node.version?.toList else []).count v) =
      if thread.node.version? = some v then stray.toNat else 0 := by
    cases stray with
    | false => simp
    | true =>
      cases thread.node.version? with
      | none => simp
      | some w => rcases eq_or_ne w v with rfl | hne <;> simp [*]
  have hcount : t.strays.count v = (if thread.node.version? = some v then stray.toNat else 0) +
      s.strays.count v := by
    rw [← hstray, ← List.count_append, ← hnext]
  rw [inFlight_eq t, inFlight_eq s, hversion, hcount]
  have hthreads : t.threads = s.threads.set threadNo thread' := by rw [← hnext]
  rw [hthreads]
  split_ifs at hsum ⊢ <;> omega

/-- Where something is submitted, the threads of the version have room. -/
theorem threadsJobs_lt_of_submit {threadNo slotNo : ℕ} {action : SlotAction}
    (h : WithinLimits functions graph s)
    (hs : step graph s (.dispatch threadNo slotNo action) = some t)
    (haction : action.submissions = 1) {v : FunctionVersionId}
    (hv : s.versionOf threadNo = some v) : threadsJobs s.threads v < threadsWidth graph s.threads v := by
  obtain ⟨thread, hthread, hrest⟩ := Option.bind_eq_some_iff.1 hs
  obtain ⟨⟨thread', stray⟩, hstep, rfl⟩ := Option.map_eq_some_iff.1 hrest
  obtain ⟨-, -, -, hroom⟩ := dispatchStep_spec hstep
  have hmem := List.mem_of_getElem? hthread
  rw [versionOf, hthread, Option.bind_some] at hv
  refine List.sum_lt_sum _ _ (fun other hother => ?_) ⟨thread, hmem, ?_⟩
  · split_ifs
    · exact (sum_jobs_le_length other.slots).trans (h.fits other hother).slots
    · exact le_rfl
  · rw [if_pos hv, if_pos hv]
    exact (hroom haction).trans_le (h.fits thread hmem).slots

theorem withinLimits_dispatch {threadNo slotNo : ℕ} {action : SlotAction}
    (h : WithinLimits functions graph s) (hguard : s.NoStray (.dispatch threadNo slotNo action))
    (hs : step graph s (.dispatch threadNo slotNo action) = some t) :
    WithinLimits functions graph t := by
  have hbound : ∀ v, t.inFlight v ≤ functions.limit v := by
    intro v
    have hle := inFlight_dispatch_le hs v
    have hold := h.bound v
    split_ifs at hle with hv
    · by_cases haction : action.submissions = 1
      · -- no stray of the version is in flight, and its threads have room for one job more
        have hnoStray : v ∉ s.strays := by
          cases action with
          | submit reply => exact fun hmem => hguard v hmem hv
          | look | jobEnds | fetch _ | giveUp => cases haction
        have hroom := threadsJobs_lt_of_submit h hs haction hv
        have hwidth := h.width v
        rw [inFlight_eq s, List.count_eq_zero_of_not_mem hnoStray] at hle
        omega
      · have hzero : action.submissions = 0 := by
          cases action with
          | submit reply => exact absurd rfl haction
          | look | jobEnds | fetch _ | giveUp => rfl
        omega
    · omega
  obtain ⟨thread, hthread, hrest⟩ := Option.bind_eq_some_iff.1 hs
  obtain ⟨⟨thread', stray⟩, hstep, rfl⟩ := Option.map_eq_some_iff.1 hrest
  have hfits := dispatchStep_fits (h.fits thread (List.mem_of_getElem? hthread)) hstep
  refine ⟨h.waves, fits_set h.fits hfits, fun v => ?_, hbound⟩
  exact ((sums_set hthread (dispatchStep_spec hstep).1 v).1).trans_le (h.width v)

/-- The threads of a wave add up to no more than the wave. -/
theorem waveThreads_width (cancelled : Finset String) (wave : List String)
    (v : FunctionVersionId) :
    (((waveThreads graph cancelled wave).map fun thread =>
      if thread.node.version? = some v then width graph thread.node else 0).sum) ≤
        waveWidth graph wave v := by
  unfold waveThreads waveWidth
  rw [List.map_map]
  exact ((List.filter_sublist.filterMap _).map _).sum_le_sum fun _ _ => Nat.zero_le _

theorem withinLimits_nextWave (h : WithinLimits functions graph s)
    (hs : step graph s .nextWave = some t) : WithinLimits functions graph t := by
  simp only [step] at hs
  split at hs
  · cases hs
  · rename_i wave waves hwaves
    split_ifs at hs with hended
    cases hs
    have hqueued : ∀ thread ∈ waveThreads graph (s.cancelledAfter graph) wave,
        thread.phase = .queued := by
      intro thread hthread
      obtain ⟨node, -, rfl⟩ := List.mem_map.1 hthread
      rfl
    refine ⟨fun w hw => h.waves w (by rw [hwaves]; exact List.mem_cons_of_mem wave hw),
      fun thread hthread => ?_, fun v => ?_, fun v => ?_⟩
    · refine ⟨?_, fun _ _ _ _ hphase => ?_⟩
      · rw [NodeThread.slots, hqueued thread hthread]
        exact Nat.zero_le _
      · rw [hqueued thread hthread] at hphase
        cases hphase
    · exact (waveThreads_width _ wave v).trans
        (h.waves wave (by rw [hwaves]; exact List.mem_cons_self) v)
    · -- the new threads have no jobs yet
      have hzero : (((waveThreads graph (s.cancelledAfter graph) wave).map fun thread =>
          if thread.node.version? = some v then thread.jobs else 0).sum) = 0 := by
        refine List.sum_eq_zero fun n hn => ?_
        obtain ⟨thread, hthread, rfl⟩ := List.mem_map.1 hn
        rw [NodeThread.jobs, NodeThread.slots, hqueued thread hthread]
        exact ite_self 0
      have hbound := h.bound v
      rw [inFlight_eq] at hbound
      unfold inFlight
      simp only [hzero]
      omega

/-- One step of a run. -/
theorem withinLimits_step {action : RunJobsAction} (h : WithinLimits functions graph s)
    (hguard : s.NoStray action) (hs : step graph s action = some t) :
    WithinLimits functions graph t := by
  cases action with
  | nextWave => exact withinLimits_nextWave h hs
  | start threadNo items =>
    exact withinLimits_stepThread h hs fun _ _ _ hstart => start_spec hstart
  | takeItem threadNo =>
    exact withinLimits_stepThread h hs fun _ _ hfits htake => takeItem_spec hfits htake
  | closePool threadNo items =>
    exact withinLimits_stepThread h hs fun _ _ hfits hclose => closePool_spec hfits hclose
  | dispatch threadNo slotNo action => exact withinLimits_dispatch h hguard hs
  | strayEnds strayNo =>
    simp only [step] at hs
    split_ifs at hs
    cases hs
    refine ⟨h.waves, h.fits, h.width, fun v => ?_⟩
    have hcount := (List.eraseIdx_sublist s.strays strayNo).count_le v
    have hbound := h.bound v
    unfold inFlight at hbound ⊢
    simp only
    omega
  | stop =>
    cases hs
    exact ⟨h.waves, h.fits, h.width, h.bound⟩

/-- In every run no more jobs of a version are in flight than its limit. -/
theorem inFlight_le_of_reach (functions : FunctionReads) (graph : ChoreographyGraph)
    (hfit : WavesFit functions graph) {s : RunJobs}
    (h : Reach (step graph) NoStray (initial graph) s) (v : FunctionVersionId) :
    s.inFlight v ≤ functions.limit v :=
  (h.invariant (withinLimits_initial hfit) fun _ _ _ hs hguard hstep =>
    withinLimits_step hs hguard hstep).bound v

/-- A function that goes through a bucket two items at a time. -/
def pooled : ChoreographyGraph where
  nodes := [⟨"items", .bucket, none, none, 3, .constant, some "items", none⟩,
    ⟨"f", .function, some "f", some 1, 3, .constant, none, none⟩]
  edges := [⟨"e1", "items", "f", .bucketToFn, some "item", 2⟩]

/-- Every function has the one limit. -/
def readsOf (limit : ℤ) : FunctionReads := fun _ => some ⟨some limit⟩

/-- Both items are in flight, and there are no more. -/
theorem inFlight_pooled :
    ∃ s, Reach (step pooled) NoStray (initial pooled) s ∧ s.inFlight ⟨"f", some 1⟩ = 2 ∧
      s.inFlight ⟨"f", some 1⟩ ≤ (readsOf 2).limit ⟨"f", some 1⟩ := by
  obtain ⟨s, hs, htwo⟩ := exists_reach_of_guarded_run (step pooled) NoStray (initial pooled)
    (fun s => s.inFlight ⟨"f", some 1⟩ = 2)
    [.nextWave, .start 0 0, .nextWave, .start 0 3, .takeItem 0, .takeItem 0, .dispatch 0 0 .look,
      .dispatch 0 1 .look, .dispatch 0 0 (.submit .accepted), .dispatch 0 1 (.submit .accepted)]
    (by decide +kernel)
  have hfit : WavesFit (readsOf 2) pooled :=
    wavesFit_of_validate (by decide) ⟨by decide, by decide⟩ (by decide +kernel)
  exact ⟨s, hs, of_decide_eq_true htwo, inFlight_le_of_reach (readsOf 2) pooled hfit hs _⟩

/-- Two nodes with one function, side by side. -/
def twins : ChoreographyGraph where
  nodes := [⟨"a", .function, some "f", some 1, 3, .constant, none, none⟩,
    ⟨"b", .function, some "f", some 1, 3, .constant, none, none⟩]

/-- The check passes, and both are in flight where one may be. -/
theorem overload_twins :
    validate (readsOf 1) twins = [] ∧ topologicalWaves twins = .ok [["a", "b"]] ∧
      ∃ s, Reach (step twins) Always (initial twins) s ∧
        (readsOf 1).limit ⟨"f", some 1⟩ < s.inFlight ⟨"f", some 1⟩ := by
  refine ⟨by decide +kernel, by decide +kernel, ?_⟩
  obtain ⟨s, hs, hmore⟩ := exists_reach_of_run (step twins) (initial twins)
    (fun s => (readsOf 1).limit ⟨"f", some 1⟩ < s.inFlight ⟨"f", some 1⟩)
    [.nextWave, .start 0 0, .start 1 0, .dispatch 0 0 .look, .dispatch 1 0 .look,
      .dispatch 0 0 (.submit .accepted), .dispatch 1 0 (.submit .accepted)]
    (by decide +kernel)
  exact ⟨s, hs, of_decide_eq_true hmore⟩

end RunJobs

end Axo
