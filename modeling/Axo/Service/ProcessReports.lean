import Axo.Lib.Transition
import Axo.Service.ProcessRuntime
import Mathlib.Data.List.ReduceOption

/-!
# Every job is reported once

Where a job is between the return of `invoke` and the call of `on_complete`: with the pump thread
of a worker (`Worker.holds`) or with a call of `cancel` (`Cancel.holds`).

* `WorkerInv` is the invariant of a worker, `pumpStep_spec` what the pump thread does to it and to
  the jobs it holds, and `onWorker_spec` the same for a call of `cancel`;
* `Orderly` is the guard on the steps of the runtime, `RuntimeInv` the invariant under it, and
  `reported_of_reach` the result for whole runs.
-/

namespace Axo

open Custody Transition

/-! ### A worker and its pump thread -/

namespace Pump

/-- The jobs in the hands of the pump thread.  The job in flight is with `cancel` once that has set
`cancelled`. -/
def inHand (cancelled : Bool) : Pump → List JobId
  | .taken job | .completing job _ => [job]
  | .inFlight job => if cancelled = true then [] else [job]
  | .failing _ job pending => job :: pending
  | .reporting reports => reports.map Prod.fst
  | .waiting | .clearing _ | .ended | .died => []

/-- The pump thread will come back to its queue. -/
def reads : Pump → Bool
  | .reporting _ | .clearing false | .ended | .died => false
  | .waiting | .taken _ | .inFlight _ | .completing _ _ | .failing _ _ _ | .clearing true => true

/-- The pump thread has a job without a result. -/
def engaged : Pump → Bool
  | .taken _ | .inFlight _ | .failing _ _ _ => true
  | .waiting | .completing _ _ | .reporting _ | .clearing _ | .ended | .died => false

/-- What the place of the pump thread says about the worker: where it does not come back to the
queue, there is no job in it. -/
def Fits (cancelled : Bool) (jobs : List JobId) : Pump → Prop
  | .waiting | .taken _ | .completing _ _ | .clearing true | .failing _ _ _ => cancelled = false
  | .inFlight _ => cancelled = true → jobs = []
  | .reporting _ | .clearing false | .ended => jobs = []
  | .died => False

variable {q : Pump} {cancelled : Bool} {jobs jobs' : List JobId}

theorem Fits.mono (h : q.Fits cancelled jobs) (hjobs : jobs = [] → jobs' = []) :
    q.Fits cancelled jobs' := by
  cases q with
  | waiting => exact h
  | taken job => exact h
  | inFlight job => exact fun hcancelled => hjobs (h hcancelled)
  | completing job ok => exact h
  | failing timedOut job pending => exact h
  | reporting reports => exact hjobs h
  | clearing again =>
    cases again with
    | true => exact h
    | false => exact hjobs h
  | ended => exact hjobs h
  | died => exact h

/-- The pump thread comes back to a queue with a job in it. -/
theorem Fits.reads_of_jobs (h : q.Fits cancelled jobs) (hjobs : jobs ≠ []) :
    q.reads = true ∧ cancelled = false := by
  cases q with
  | waiting => exact ⟨rfl, h⟩
  | taken job => exact ⟨rfl, h⟩
  | inFlight job => exact ⟨rfl, Bool.eq_false_iff.2 fun hcancelled => hjobs (h hcancelled)⟩
  | completing job ok => exact ⟨rfl, h⟩
  | failing timedOut job pending => exact ⟨rfl, h⟩
  | reporting reports => exact absurd h hjobs
  | clearing again =>
    cases again with
    | true => exact ⟨rfl, h⟩
    | false => exact absurd h hjobs
  | ended => exact absurd h hjobs
  | died => exact absurd h id

/-- A pump thread that comes back to its queue may find any jobs there. -/
theorem fits_of_reads (h : q.reads = true) (hcancelled : cancelled = false) :
    q.Fits cancelled jobs := by
  cases q with
  | inFlight job => exact fun h => absurd h (by simp [hcancelled])
  | clearing again =>
    cases again with
    | true => exact hcancelled
    | false => cases h
  | reporting reports => cases h
  | ended => cases h
  | died => cases h
  | _ => exact hcancelled

end Pump

namespace Worker

/-- The jobs in the queue. -/
def jobs (w : Worker) : List JobId := w.queue.reduceOption

/-- The jobs that the pump thread has to report. -/
def holds (w : Worker) : List JobId := w.pump.inHand w.cancelled ++ w.jobs

/-- A job put on the queue now will be read: the pump thread comes back to the queue, and finds no
sentinel there. -/
def Reads (w : Worker) : Prop := w.pump.reads = true ∧ w.cancelled = false ∧ none ∉ w.queue

instance (w : Worker) : Decidable w.Reads := inferInstanceAs (Decidable (_ ∧ _ ∧ _))

end Worker

/-- The invariant of a worker: a sentinel is alone in its queue, and the pump thread has no job
without a result then. -/
structure WorkerInv (w : Worker) : Prop where
  fits : w.pump.Fits w.cancelled w.jobs
  sentinel : none ∈ w.queue → w.jobs = [] ∧ w.pump.engaged = false

section Worker

variable {w w' : Worker} {p : PumpStep} {reports : List Report} {rest : List (Option JobId)}
  {job : JobId}

@[simp] theorem map_fst_failureReports (job : JobId) (outcome : JobOutcome) (pending : List JobId) :
    (failureReports job outcome pending).map Prod.fst = job :: pending := by
  simp [failureReports, Function.comp_def]

theorem jobs_of_queue (h : w.queue = some job :: rest) : w.jobs = job :: rest.reduceOption := by
  rw [Worker.jobs, h, List.reduceOption_cons_of_some]

/-- A queue with a job in it holds no sentinel. -/
theorem WorkerInv.notMem_of_jobs (hw : WorkerInv w) (h : w.jobs ≠ []) : none ∉ w.queue :=
  fun hmem => h (hw.sentinel hmem).1

theorem WorkerInv.notMem_of_engaged (hw : WorkerInv w) (h : w.pump.engaged = true) :
    none ∉ w.queue := fun hmem => by
  rw [(hw.sentinel hmem).2] at h
  cases h

/-- No job is left where nobody will read it. -/
theorem WorkerInv.reads (hw : WorkerInv w) (h : w.jobs ≠ []) : w.Reads :=
  ⟨(hw.fits.reads_of_jobs h).1, (hw.fits.reads_of_jobs h).2, hw.notMem_of_jobs h⟩

theorem workerInv_fresh (maxDurationSeconds : ℤ) : WorkerInv (.fresh maxDurationSeconds) where
  fits := rfl
  sentinel := by simp [Worker.fresh]

/-- What a piece of the pump thread does: it keeps the invariant, and reports what it no longer
holds. -/
structure PumpSpec (w w' : Worker) (reports : List Report) : Prop where
  inv : WorkerInv w'
  sentinel : none ∈ w'.queue → none ∈ w.queue
  count : ∀ a, w.holds.count a = (reports.map Prod.fst).count a + w'.holds.count a

/-- A step that takes from the front of the queue at most. -/
theorem PumpSpec.of_suffix (hw : WorkerInv w) (hqueue : w'.queue <:+ w.queue)
    (hfits : w'.pump.Fits w'.cancelled w'.jobs)
    (hengaged : w.pump.engaged = false → w'.pump.engaged = false)
    (hcount : ∀ a, w.holds.count a = (reports.map Prod.fst).count a + w'.holds.count a) :
    PumpSpec w w' reports := by
  refine ⟨⟨hfits, fun h => ?_⟩, fun h => hqueue.subset h, hcount⟩
  obtain ⟨hjobs, hrest⟩ := hw.sentinel (hqueue.subset h)
  obtain ⟨front, hfront⟩ := hqueue
  rw [Worker.jobs, ← hfront, List.reduceOption_append] at hjobs
  exact ⟨(List.append_eq_nil_iff.1 hjobs).2, hengaged hrest⟩

theorem take_spec (hw : WorkerInv w) (h : w.pumpStep .take = some (w', reports)) :
    PumpSpec w w' reports := by
  simp only [Worker.pumpStep] at h
  split at h
  · rename_i job rest hpump hqueue
    cases h
    have hjobs := jobs_of_queue hqueue
    have hne : w.jobs ≠ [] := by simp [hjobs]
    have hnone : none ∉ rest := fun h => hw.notMem_of_jobs hne (by simp [hqueue, h])
    refine ⟨⟨(hw.fits.reads_of_jobs hne).2, fun h => absurd h hnone⟩, fun h => absurd h hnone,
      fun a => ?_⟩
    rw [Worker.holds, hpump, hjobs]
    simp [Worker.holds, Pump.inHand, Worker.jobs]
  · rename_i rest hpump hqueue
    cases h
    have hjobs := (hw.sentinel (by simp [hqueue])).1
    have hrest : rest.reduceOption = [] := by
      rwa [Worker.jobs, hqueue, List.reduceOption_cons_of_none] at hjobs
    refine .of_suffix hw ?_ hrest (fun _ => rfl) fun a => ?_
    · rw [hqueue]
      exact List.suffix_cons _ _
    · rw [Worker.holds, hpump, hjobs]
      simp [Worker.holds, Pump.inHand, Worker.jobs, hrest]
  · cases h

/-- `_handle_crash` and `_handle_timeout` begin. -/
theorem giveUp_spec (hw : WorkerInv w) (hpump : w.pump = .inFlight job) (timedOut : Bool) :
    PumpSpec w (w.giveUp timedOut job) [] := by
  unfold Worker.giveUp
  split_ifs with hcancelled
  · have hjobs : w.jobs = [] := by
      have hfits := hw.fits
      rw [hpump] at hfits
      exact hfits hcancelled
    refine .of_suffix hw List.suffix_rfl hjobs (fun _ => rfl) fun a => ?_
    simp [Worker.holds, hpump, Pump.inHand, hcancelled, Worker.jobs]
  · refine .of_suffix hw List.suffix_rfl (Bool.eq_false_iff.2 hcancelled) (by simp [hpump, Pump.engaged])
      fun a => ?_
    simp [Worker.holds, hpump, Pump.inHand, hcancelled, Worker.jobs]

theorem drain_spec (hw : WorkerInv w) (h : w.pumpStep .drain = some (w', reports)) :
    PumpSpec w w' reports := by
  have hcancelled : ∀ {timedOut job pending}, w.pump = .failing timedOut job pending →
      w.cancelled = false := by
    intro timedOut job pending hpump
    have hfits := hw.fits
    rwa [hpump] at hfits
  have hempty : w.queue = [] → w.jobs = [] := by
    intro hqueue
    rw [Worker.jobs, hqueue, List.reduceOption_nil]
  simp only [Worker.pumpStep] at h
  split at h
  · rename_i timedOut job pending j rest hpump hqueue
    cases h
    refine .of_suffix hw ?_ (hcancelled hpump) (by simp [hpump, Pump.engaged]) fun a => ?_
    · rw [hqueue]
      exact List.suffix_cons _ _
    · rw [Worker.holds, hpump, jobs_of_queue hqueue]
      simp [Worker.holds, Pump.inHand, Worker.jobs]
  · rename_i timedOut job pending rest hpump hqueue
    have := hw.notMem_of_engaged (by simp [hpump, Pump.engaged])
    simp [hqueue] at this
  · rename_i job pending hpump hqueue
    cases h
    refine .of_suffix hw List.suffix_rfl (hempty hqueue) (fun _ => rfl) fun a => ?_
    rw [Worker.holds, hpump, hempty hqueue]
    simp [Worker.holds, Pump.inHand, Worker.jobs, hqueue]
  · rename_i job pending hpump hqueue
    cases h
    refine .of_suffix hw List.suffix_rfl (hempty hqueue) (fun _ => rfl) fun a => ?_
    rw [Worker.holds, hpump, hempty hqueue]
    simp [Worker.holds, Pump.inHand, Worker.jobs, hqueue]
  · cases h

theorem report_spec (hw : WorkerInv w) (h : w.pumpStep .report = some (w', reports)) :
    PumpSpec w w' reports := by
  have hfits := hw.fits
  simp only [Worker.pumpStep] at h
  split at h
  · rename_i job ok hpump
    cases h
    rw [hpump] at hfits
    refine .of_suffix hw List.suffix_rfl hfits (fun _ => rfl) fun a => ?_
    simp only [Worker.holds, hpump, Pump.inHand, Worker.jobs, List.map_cons, List.map_nil,
      List.count_append, List.count_nil]
    omega
  · rename_i r rs hpump
    cases h
    rw [hpump] at hfits
    refine .of_suffix hw List.suffix_rfl hfits (fun _ => rfl) fun a => ?_
    simp only [Worker.holds, hpump, Pump.inHand, Worker.jobs, List.map_cons, List.map_nil,
      List.count_append, List.count_cons, List.count_nil]
    omega
  · rename_i hpump
    cases h
    rw [hpump] at hfits
    refine .of_suffix hw List.suffix_rfl hfits (fun _ => rfl) fun a => ?_
    simp [Worker.holds, hpump, Pump.inHand, Worker.jobs]
  · cases h

theorem clear_spec (hw : WorkerInv w) (h : w.pumpStep .clear = some (w', reports)) :
    PumpSpec w w' reports := by
  have hfits := hw.fits
  simp only [Worker.pumpStep] at h
  split at h
  · rename_i hpump
    cases h
    rw [hpump] at hfits
    refine .of_suffix hw List.suffix_rfl hfits (fun _ => rfl) fun a => ?_
    simp [Worker.holds, hpump, Pump.inHand, Worker.jobs]
  · rename_i hpump
    cases h
    rw [hpump] at hfits
    refine .of_suffix hw List.suffix_rfl hfits (fun _ => rfl) fun a => ?_
    simp [Worker.holds, hpump, Pump.inHand, Worker.jobs]
  · cases h

/-- The guard on the pump thread: no result comes after `cancelled` is set, every job can be sent, what
the worker sends can be read, and its requests for data are answered. -/
def Worker.PumpOrderly (w : Worker) : PumpStep → Prop
  | .result _ => w.cancelled = false
  | .fault _ => False
  | .take | .begin | .io | .crash | .timeout | .drain | .report | .clear => True

instance Worker.decidablePumpOrderly (w : Worker) : (p : PumpStep) → Decidable (w.PumpOrderly p)
  | .result _ => inferInstanceAs (Decidable (w.cancelled = false))
  | .fault _ => inferInstanceAs (Decidable False)
  | .take | .begin | .io | .crash | .timeout | .drain | .report | .clear =>
    inferInstanceAs (Decidable True)

/-- What the pump thread does, piece by piece. -/
theorem pumpStep_spec (hw : WorkerInv w) (hG : w.PumpOrderly p)
    (h : w.pumpStep p = some (w', reports)) : PumpSpec w w' reports := by
  cases p with
  | take => exact take_spec hw h
  | drain => exact drain_spec hw h
  | report => exact report_spec hw h
  | clear => exact clear_spec hw h
  | begin =>
    have hfits := hw.fits
    simp only [Worker.pumpStep] at h
    split at h
    · rename_i job hpump
      cases h
      rw [hpump] at hfits
      have hcancelled : w.cancelled = false := hfits
      refine .of_suffix hw List.suffix_rfl (Pump.fits_of_reads rfl hcancelled)
        (by simp [hpump, Pump.engaged]) fun a => ?_
      simp [Worker.holds, hpump, Pump.inHand, hcancelled, Worker.jobs]
    · cases h
  | io =>
    simp only [Worker.pumpStep] at h
    split at h
    · cases h
      exact .of_suffix hw List.suffix_rfl hw.fits id fun a => by simp
    · cases h
  | fault f => exact absurd hG id
  | result ok =>
    have hcancelled : w.cancelled = false := hG
    simp only [Worker.pumpStep] at h
    split at h
    · rename_i job hpump
      cases h
      refine .of_suffix hw List.suffix_rfl hcancelled (by simp [hpump, Pump.engaged]) fun a => ?_
      simp [Worker.holds, hpump, Pump.inHand, hcancelled, Worker.jobs]
    · cases h
  | crash =>
    simp only [Worker.pumpStep] at h
    split at h
    · rename_i job hpump
      split_ifs at h
      cases h
      exact giveUp_spec hw hpump false
    · cases h
  | timeout =>
    simp only [Worker.pumpStep] at h
    split at h
    · rename_i job hpump
      split_ifs at h
      cases h
      exact giveUp_spec hw hpump true
    · cases h

/-- A pump thread with a job in its hands or in its queue can go on. -/
theorem pumpStep_of_holds (hw : WorkerInv w) (h : w.holds ≠ []) :
    ∃ p, w.pumpStep p ≠ none := by
  have hfits := hw.fits
  cases hpump : w.pump with
  | waiting =>
    refine ⟨.take, ?_⟩
    have hjobs : w.jobs ≠ [] := by simpa [Worker.holds, hpump, Pump.inHand] using h
    cases hqueue : w.queue with
    | nil => exact absurd (by rw [Worker.jobs, hqueue, List.reduceOption_nil]) hjobs
    | cons x rest => cases x <;> simp [Worker.pumpStep, hpump, hqueue]
  | taken job => exact ⟨.begin, by simp [Worker.pumpStep, hpump]⟩
  | inFlight job => exact ⟨.result true, by simp [Worker.pumpStep, hpump]⟩
  | completing job ok => exact ⟨.report, by simp [Worker.pumpStep, hpump]⟩
  | failing timedOut job pending =>
    refine ⟨.drain, ?_⟩
    cases hqueue : w.queue with
    | nil => cases timedOut <;> simp [Worker.pumpStep, hpump, hqueue]
    | cons x rest => cases x <;> simp [Worker.pumpStep, hpump, hqueue]
  | reporting reports => exact ⟨.report, by cases reports <;> simp [Worker.pumpStep, hpump]⟩
  | clearing again => exact ⟨.clear, by cases again <;> simp [Worker.pumpStep, hpump]⟩
  | ended =>
    rw [hpump] at hfits
    have hjobs : w.jobs = [] := hfits
    exact absurd (by simp [Worker.holds, hpump, Pump.inHand, hjobs]) h
  | died =>
    rw [hpump] at hfits
    exact absurd hfits id

/-! ### Other threads at a worker's queue -/

/-- `get_nowait` takes the first entry of the queue. -/
theorem pop_inv (hw : WorkerInv w) {x : Option JobId} (hqueue : w.queue = x :: rest) :
    WorkerInv { w with queue := rest } := by
  have hjobs : w.jobs = [] → rest.reduceOption = [] := by
    intro h
    rw [Worker.jobs, hqueue] at h
    cases x with
    | none => rwa [List.reduceOption_cons_of_none] at h
    | some j => cases h
  refine ⟨hw.fits.mono hjobs, fun h => ?_⟩
  exact (hw.sentinel (by rw [hqueue]; exact List.mem_cons_of_mem _ h)).imp_left hjobs

/-- A job taken from a queue was held by the pump thread. -/
theorem pop_count (hqueue : w.queue = some job :: rest) (a : JobId) :
    w.holds.count a = [job].count a + ({ w with queue := rest } : Worker).holds.count a := by
  show (w.pump.inHand w.cancelled ++ w.jobs).count a =
    [job].count a + (w.pump.inHand w.cancelled ++ rest.reduceOption).count a
  rw [jobs_of_queue hqueue]
  simp only [List.count_append, List.count_cons, List.count_nil]
  omega

/-- A sentinel is no job. -/
theorem popSentinel_holds (hqueue : w.queue = none :: rest) :
    ({ w with queue := rest } : Worker).holds = w.holds := by
  simp only [Worker.holds, Worker.jobs, hqueue, List.reduceOption_cons_of_none]

/-- A job put on a queue that will be read. -/
theorem push_inv (h : w.Reads) (job : JobId) :
    WorkerInv { w with queue := w.queue ++ [some job] } := by
  obtain ⟨hreads, hcancelled, hnone⟩ := h
  exact ⟨Pump.fits_of_reads hreads hcancelled, fun hmem => absurd (by simpa using hmem) hnone⟩

theorem push_count (job a : JobId) :
    ({ w with queue := w.queue ++ [some job] } : Worker).holds.count a =
      [job].count a + w.holds.count a := by
  show (w.pump.inHand w.cancelled ++ (w.queue ++ [some job]).reduceOption).count a =
    [job].count a + (w.pump.inHand w.cancelled ++ w.queue.reduceOption).count a
  rw [List.reduceOption_append, List.reduceOption_singleton, Option.toList_some]
  simp only [List.count_append]
  omega

/-- A sentinel put behind no job. -/
theorem pushSentinel_jobs (w : Worker) :
    ({ w with queue := w.queue ++ [none] } : Worker).jobs = w.jobs := by
  show (w.queue ++ [none]).reduceOption = w.queue.reduceOption
  rw [List.reduceOption_append, List.reduceOption_singleton, Option.toList_none, List.append_nil]

end Worker

/-! ### A call of `cancel` -/

namespace Cancel

/-- The jobs that the call has to report or to put back.  The job in flight is among them once
`cancelled` is set. -/
def holds : Cancel → List JobId
  | .found _ _ | .scanning _ _ => []
  | .draining _ _ pending => pending
  | .flagged _ job pending => job :: pending
  | .reporting reports => reports.map Prod.fst
  | .rebuilding _ job isFound remaining _ | .restoring _ job isFound remaining _ =>
    (if isFound = true then [job] else []) ++ remaining

/-- The worker whose queue the call is at with jobs in its hands. -/
def holdsFrom : Cancel → Option ℕ
  | .draining i _ pending => if pending = [] then none else some i
  | .rebuilding i _ isFound remaining _ | .restoring i _ isFound remaining _ =>
    if isFound = false ∧ remaining = [] then none else some i
  | .found _ _ | .flagged _ _ _ | .reporting _ | .scanning _ _ => none

/-- The workers that the call names. -/
def names : Cancel → List ℕ
  | .found i _ | .draining i _ _ | .flagged i _ _ => [i]
  | .rebuilding i _ _ _ candidates | .restoring i _ _ _ candidates => i :: candidates
  | .scanning _ candidates => candidates
  | .reporting _ => []

/-- The guard on a call of `cancel`: it finalizes a worker that still runs the job and that no other
call has finalized, and puts jobs back on a queue that will be read. -/
def Orderly (w : Worker) : Cancel → Prop
  | .draining _ job _ => w.queue = [] → w.pump = .inFlight job ∧ w.cancelled = false
  | .restoring _ _ _ (_ :: _) _ => w.Reads
  | _ => True

instance (w : Worker) : (c : Cancel) → Decidable (c.Orderly w)
  | .draining _ job _ =>
    inferInstanceAs (Decidable (w.queue = [] → w.pump = .inFlight job ∧ w.cancelled = false))
  | .restoring _ _ _ (_ :: _) _ => inferInstanceAs (Decidable w.Reads)
  | .restoring _ _ _ [] _ | .found _ _ | .flagged _ _ _ | .reporting _ | .scanning _ _
  | .rebuilding _ _ _ _ _ => inferInstanceAs (Decidable True)

theorem worker_of_holdsFrom {c : Cancel} {i : ℕ} (h : c.holdsFrom = some i) : c.worker = some i := by
  cases c with
  | draining k job pending =>
    simp only [holdsFrom] at h
    split_ifs at h
    exact h
  | rebuilding k job isFound remaining candidates =>
    simp only [holdsFrom] at h
    split_ifs at h
    exact h
  | restoring k job isFound remaining candidates =>
    simp only [holdsFrom] at h
    split_ifs at h
    exact h
  | _ => cases h

theorem mem_names_of_worker {c : Cancel} {i : ℕ} (h : c.worker = some i) : i ∈ c.names := by
  cases c with
  | reporting reports => cases h
  | scanning job candidates => cases h
  | found k job => exact List.mem_singleton.2 (Option.some.inj h).symm
  | draining k job pending => exact List.mem_singleton.2 (Option.some.inj h).symm
  | flagged k job pending => exact List.mem_singleton.2 (Option.some.inj h).symm
  | rebuilding k job isFound remaining candidates =>
    exact List.mem_cons.2 (Or.inl (Option.some.inj h).symm)
  | restoring k job isFound remaining candidates =>
    exact List.mem_cons.2 (Or.inl (Option.some.inj h).symm)

end Cancel

/-- What a piece of a call of `cancel` does at a worker. -/
structure CancelSpec (c : Cancel) (w : Worker) (c' : Option Cancel) (w' : Worker) : Prop where
  inv : WorkerInv w'
  sentinel : none ∈ w'.queue → none ∈ w.queue
  count : ∀ a, c.holds.count a + w.holds.count a =
    (held Cancel.holds c'.toList).count a + w'.holds.count a
  next : ∀ d ∈ c', d.names ⊆ c.names ∧ (∀ i, d.worker = some i → c.worker = some i) ∧
    (d.holdsFrom ≠ none → none ∉ w'.queue)

section Cancel

variable {w : Worker} {c : Cancel} {rest : List (Option JobId)} {job : JobId}

/-- What a call of `cancel` does away from the workers: it reports what it no longer holds. -/
theorem alone_spec (c : Cancel) (hworker : c.worker = none) :
    (∀ d ∈ c.alone.1, d.names ⊆ c.names ∧ d.holdsFrom = none) ∧
      ∀ a, c.holds.count a =
        (c.alone.2.map Prod.fst).count a + (held Cancel.holds c.alone.1.toList).count a := by
  cases c with
  | reporting reports =>
    cases reports with
    | nil => exact ⟨fun d hd => (by cases hd), fun a => rfl⟩
    | cons r rs =>
      refine ⟨fun d hd => ?_, fun a => ?_⟩
      · cases hd
        exact ⟨List.Subset.refl _, rfl⟩
      · simp only [Cancel.alone, Cancel.holds, List.map_cons, List.map_nil, Option.toList_some,
          held_cons, held_nil, List.append_nil, List.count_cons, List.count_nil]
        omega
  | scanning job candidates =>
    cases candidates with
    | nil => exact ⟨fun d hd => (by cases hd), fun a => rfl⟩
    | cons i candidates =>
      refine ⟨fun d hd => ?_, fun a => ?_⟩
      · cases hd
        exact ⟨List.Subset.refl _, rfl⟩
      · simp [Cancel.alone, Cancel.holds]
  | found i job => cases hworker
  | draining i job pending => cases hworker
  | flagged i job pending => cases hworker
  | rebuilding i job isFound remaining candidates => cases hworker
  | restoring i job isFound remaining candidates => cases hworker

/-- A job is popped: what is left of the queue holds no sentinel. -/
theorem pop_notMem (hw : WorkerInv w) (hqueue : w.queue = some job :: rest) : none ∉ rest :=
  fun h => hw.notMem_of_jobs (by simp [jobs_of_queue hqueue]) (by simp [hqueue, h])

theorem draining_spec {i : ℕ} {pending : List JobId} (hw : WorkerInv w)
    (hhands : (Cancel.draining i job pending).holdsFrom ≠ none → none ∉ w.queue)
    (hG : (Cancel.draining i job pending).Orderly w) :
    CancelSpec (.draining i job pending) w ((Cancel.draining i job pending).onWorker w).1
      ((Cancel.draining i job pending).onWorker w).2 := by
  simp only [Cancel.onWorker]
  split
  · rename_i j rest hqueue
    refine ⟨pop_inv hw hqueue, fun h => absurd h (pop_notMem hw hqueue), fun a => ?_, ?_⟩
    · have := pop_count hqueue a
      simp only [Cancel.holds, Option.toList_some, held_cons, held_nil, List.append_nil,
        List.count_append] at this ⊢
      omega
    · rintro d ⟨⟩
      exact ⟨List.Subset.refl _, fun _ => id, fun _ => pop_notMem hw hqueue⟩
  · rename_i rest hqueue
    -- the exception ends a call with empty hands
    have hempty : pending = [] := by
      by_contra hne
      exact hhands (by simp [Cancel.holdsFrom, hne]) (by simp [hqueue])
    refine ⟨pop_inv hw hqueue, fun h => ?_, fun a => ?_, fun d hd => by cases hd⟩
    · rw [hqueue]
      exact List.mem_cons_of_mem _ h
    · rw [popSentinel_holds hqueue]
      simp [Cancel.holds, hempty]
  · rename_i hqueue
    obtain ⟨hpump, hcancelled⟩ := hG hqueue
    have hjobs : w.jobs = [] := by rw [Worker.jobs, hqueue, List.reduceOption_nil]
    refine ⟨⟨?_, hw.sentinel⟩, id, fun a => ?_, ?_⟩
    · show w.pump.Fits true w.jobs
      rw [hpump]
      exact fun _ => hjobs
    · simp [Cancel.holds, Worker.holds, hpump, Pump.inHand, hcancelled, Worker.jobs, List.count_cons]
      omega
    · rintro d ⟨⟩
      exact ⟨List.Subset.refl _, fun _ => id, fun h => absurd rfl h⟩

theorem rebuilding_spec {i : ℕ} {isFound : Bool} {remaining : List JobId} {candidates : List ℕ}
    (hw : WorkerInv w)
    (hhands : (Cancel.rebuilding i job isFound remaining candidates).holdsFrom ≠ none →
      none ∉ w.queue)
    (honce : ∀ a, (Cancel.rebuilding i job isFound remaining candidates).holds.count a +
      w.holds.count a ≤ 1) :
    CancelSpec (.rebuilding i job isFound remaining candidates) w
      ((Cancel.rebuilding i job isFound remaining candidates).onWorker w).1
      ((Cancel.rebuilding i job isFound remaining candidates).onWorker w).2 := by
  simp only [Cancel.onWorker]
  split
  · rename_i j rest hqueue
    have hpop := pop_count hqueue
    split_ifs with hj
    · subst hj
      refine ⟨pop_inv hw hqueue, fun h => absurd h (pop_notMem hw hqueue), fun a => ?_, ?_⟩
      · -- the job is not found twice
        have hfirst : isFound = false := by
          by_contra hfound
          have := honce j
          have hpop := hpop j
          simp only [Cancel.holds, Bool.of_not_eq_false hfound, if_true, List.count_append,
            List.count_singleton_self] at this hpop
          omega
        have := hpop a
        simp only [Cancel.holds, hfirst, Option.toList_some, held_cons, held_nil, List.append_nil,
          List.count_append, if_true, Bool.false_eq_true, if_false, List.count_nil] at this ⊢
        omega
      · rintro d ⟨⟩
        exact ⟨List.Subset.refl _, fun _ => id, fun _ => pop_notMem hw hqueue⟩
    · refine ⟨pop_inv hw hqueue, fun h => absurd h (pop_notMem hw hqueue), fun a => ?_, ?_⟩
      · have := hpop a
        simp only [Cancel.holds, Option.toList_some, held_cons, held_nil, List.append_nil,
          List.count_append] at this ⊢
        omega
      · rintro d ⟨⟩
        exact ⟨List.Subset.refl _, fun _ => id, fun _ => pop_notMem hw hqueue⟩
  · rename_i rest hqueue
    -- the exception ends a call with empty hands
    have hempty : isFound = false ∧ remaining = [] := by
      by_contra hne
      exact hhands (by simp [Cancel.holdsFrom, hne]) (by simp [hqueue])
    refine ⟨pop_inv hw hqueue, fun h => ?_, fun a => ?_, fun d hd => by cases hd⟩
    · rw [hqueue]
      exact List.mem_cons_of_mem _ h
    · rw [popSentinel_holds hqueue]
      simp [Cancel.holds, hempty]
  · refine ⟨hw, id, fun a => ?_, ?_⟩
    · simp [Cancel.holds]
    · rintro d ⟨⟩
      exact ⟨List.Subset.refl _, fun _ => id, fun h => hhands h⟩

theorem restoring_spec {i : ℕ} {isFound : Bool} {remaining : List JobId} {candidates : List ℕ}
    (hw : WorkerInv w) (hG : (Cancel.restoring i job isFound remaining candidates).Orderly w) :
    CancelSpec (.restoring i job isFound remaining candidates) w
      ((Cancel.restoring i job isFound remaining candidates).onWorker w).1
      ((Cancel.restoring i job isFound remaining candidates).onWorker w).2 := by
  cases remaining with
  | cons j rest =>
    have hreads : w.Reads := hG
    have hmem : none ∈ w.queue ++ [some j] → none ∈ w.queue := by simp
    refine ⟨push_inv hreads j, hmem, fun a => ?_, ?_⟩
    · have := push_count (w := w) j a
      simp only [Cancel.onWorker, Cancel.holds, Option.toList_some, held_cons, held_nil,
        List.append_nil, List.count_append, List.count_cons, List.count_nil] at this ⊢
      omega
    · rintro d ⟨⟩
      exact ⟨List.Subset.refl _, fun _ => id, fun _ h => hreads.2.2 (hmem h)⟩
  | nil =>
    cases isFound with
    | true =>
      refine ⟨hw, id, fun a => ?_, ?_⟩
      · simp [Cancel.onWorker, Cancel.holds]
      · rintro d ⟨⟩
        exact ⟨List.nil_subset _, fun _ h => (Option.some_ne_none _ h.symm).elim,
          fun h => absurd rfl h⟩
    | false =>
      refine ⟨hw, id, fun a => ?_, ?_⟩
      · simp [Cancel.onWorker, Cancel.holds]
      · rintro d ⟨⟩
        exact ⟨List.subset_cons_self _ _, fun _ h => (Option.some_ne_none _ h.symm).elim,
          fun h => absurd rfl h⟩

/-- What a call of `cancel` does at a worker, piece by piece. -/
theorem onWorker_spec (hw : WorkerInv w) (hhands : c.holdsFrom ≠ none → none ∉ w.queue)
    (hG : c.Orderly w) (honce : ∀ a, c.holds.count a + w.holds.count a ≤ 1) :
    CancelSpec c w (c.onWorker w).1 (c.onWorker w).2 := by
  cases c with
  | draining i job pending => exact draining_spec hw hhands hG
  | rebuilding i job isFound remaining candidates => exact rebuilding_spec hw hhands honce
  | restoring i job isFound remaining candidates => exact restoring_spec hw hG
  | found i job =>
    refine ⟨⟨hw.fits, hw.sentinel⟩, id, fun a => ?_, ?_⟩
    · rfl
    · rintro d ⟨⟩
      exact ⟨List.Subset.refl _, fun _ => id, fun h => absurd rfl h⟩
  | flagged i job pending =>
    refine ⟨⟨hw.fits, hw.sentinel⟩, id, fun a => ?_, ?_⟩
    · show (job :: pending).count a + w.holds.count a =
        ((failureReports job .cancelled pending).map Prod.fst ++ []).count a + w.holds.count a
      rw [map_fst_failureReports, List.append_nil]
    · rintro d ⟨⟩
      exact ⟨List.nil_subset _, fun _ h => (Option.some_ne_none _ h.symm).elim,
        fun h => absurd rfl h⟩
  | reporting reports =>
    refine ⟨hw, id, fun a => by simp [Cancel.onWorker], ?_⟩
    rintro d ⟨⟩
    exact ⟨List.Subset.refl _, fun _ => id, fun h => absurd rfl h⟩
  | scanning job candidates =>
    refine ⟨hw, id, fun a => by simp [Cancel.onWorker], ?_⟩
    rintro d ⟨⟩
    exact ⟨List.Subset.refl _, fun _ => id, fun h => absurd rfl h⟩

end Cancel

/-! ### The runtime -/

/-- The steps that a thread takes by itself: nobody has to submit or cancel a job for it, or to begin
a sweep. -/
def ProcessAction.GoesOn : ProcessAction → Prop
  | .put _ _ | .pump _ _ | .sweepKill _ | .sweepSentinel _ | .cancelStep _ => True
  | .spawn _ _ | .pick _ _ | .die _ | .sweepEvict _ _ | .cancel _ => False

namespace ProcessRuntime

variable {maxInvocations : ℕ} {s t : ProcessRuntime} {a : ProcessAction}

/-- The jobs that some thread has still to report. -/
def held (s : ProcessRuntime) : List JobId :=
  Custody.held Worker.holds s.workers ++ Custody.held Cancel.holds s.cancels

/-- The guard on the steps.  A job is put on a queue that will be read; the pump threads keep to their
guard; a sweep puts the sentinel on a queue without jobs, while the pump thread there has no job
without a result and no call of `cancel` holds jobs from it; and the calls of `cancel` keep to their
guard. -/
def Orderly (s : ProcessRuntime) : ProcessAction → Prop
  | .put _ i => ∀ w ∈ s.workers[i]?, w.Reads
  | .pump i p => ∀ w ∈ s.workers[i]?, w.PumpOrderly p
  | .sweepSentinel i =>
    (∀ w ∈ s.workers[i]?, w.jobs = [] ∧ w.pump.engaged = false) ∧
      ∀ c ∈ s.cancels, c.holdsFrom ≠ some i
  | .cancelStep c => ∀ i ∈ c.worker, ∀ w ∈ s.workers[i]?, c.Orderly w
  | _ => True

instance (s : ProcessRuntime) : (a : ProcessAction) → Decidable (s.Orderly a)
  | .put _ i => inferInstanceAs (Decidable (∀ w ∈ s.workers[i]?, w.Reads))
  | .pump i p => inferInstanceAs (Decidable (∀ w ∈ s.workers[i]?, w.PumpOrderly p))
  | .sweepSentinel i =>
    inferInstanceAs (Decidable ((∀ w ∈ s.workers[i]?, w.jobs = [] ∧ w.pump.engaged = false) ∧
      ∀ c ∈ s.cancels, c.holdsFrom ≠ some i))
  | .cancelStep c => inferInstanceAs (Decidable (∀ i ∈ c.worker, ∀ w ∈ s.workers[i]?, c.Orderly w))
  | .spawn _ _ | .pick _ _ | .die _ | .sweepEvict _ _ | .sweepKill _ | .cancel _ =>
    inferInstanceAs (Decidable True)

/-- The invariant of the runs under the guard. -/
structure RuntimeInv (s : ProcessRuntime) : Prop where
  workers : ∀ w ∈ s.workers, WorkerInv w
  hands : ∀ c ∈ s.cancels, ∀ i, c.holdsFrom = some i → ∀ w, s.workers[i]? = some w →
    none ∉ w.queue
  named : ∀ c ∈ s.cancels, ∀ i ∈ c.names, i < s.workers.length
  fresh : (s.invokes.map Prod.fst ++ s.accepted).Nodup
  invoked : ∀ j ∈ s.invokes.map Prod.fst ++ s.accepted, j ∈ s.invoked
  balanced : Balanced s.accepted (s.reported.map Prod.fst) s.held

theorem runtimeInv_init : RuntimeInv init where
  workers := by simp [init]
  hands := by simp [init]
  named := by simp [init]
  fresh := by simp [init]
  invoked := by simp [init]
  balanced := by
    intro a
    simp [init, held]

section Steps

variable {i : ℕ} {w w' : Worker}

theorem RuntimeInv.worker (h : RuntimeInv s) (hw : s.workers[i]? = some w) : WorkerInv w :=
  h.workers w (List.mem_of_getElem? hw)

theorem RuntimeInv.accepted_nodup (h : RuntimeInv s) : s.accepted.Nodup :=
  (List.nodup_append.1 h.fresh).2.1

/-- What a worker and a call of `cancel` hold is held once. -/
theorem RuntimeInv.count_le_one (h : RuntimeInv s) {c : Cancel} (hc : c ∈ s.cancels)
    (hw : s.workers[i]? = some w) (a : JobId) : c.holds.count a + w.holds.count a ≤ 1 := by
  have haccepted : s.accepted.count a ≤ 1 := List.nodup_iff_count_le_one.1 h.accepted_nodup a
  have hbalanced := h.balanced a
  have hworker := count_le_held Worker.holds (List.mem_of_getElem? hw) a
  have hcancel := count_le_held Cancel.holds hc a
  rw [held, List.count_append] at hbalanced
  omega

theorem workers_set (h : RuntimeInv s) (hw' : WorkerInv w') :
    ∀ x ∈ s.workers.set i w', WorkerInv x := by
  intro x hx
  rcases List.mem_or_eq_of_mem_set hx with hx | rfl
  · exact h.workers x hx
  · exact hw'

theorem hands_set (h : RuntimeInv s) (hw : s.workers[i]? = some w)
    (hsentinel : none ∈ w'.queue → none ∈ w.queue) :
    ∀ c ∈ s.cancels, ∀ k, c.holdsFrom = some k → ∀ x, (s.workers.set i w')[k]? = some x →
      none ∉ x.queue := by
  intro c hc k hk x hx
  rcases getElem?_set_cases hw hx with ⟨rfl, rfl⟩ | ⟨-, hx⟩
  · exact fun hmem => h.hands c hc k hk w hw (hsentinel hmem)
  · exact h.hands c hc k hk x hx

theorem named_set (h : RuntimeInv s) (i : ℕ) (w' : Worker) :
    ∀ c ∈ s.cancels, ∀ k ∈ c.names, k < (s.workers.set i w').length := by
  intro c hc k hk
  rw [List.length_set]
  exact h.named c hc k hk

/-- A worker changes, with reports of what it no longer holds. -/
theorem balanced_set (h : RuntimeInv s) (reports : List Report) (hw : s.workers[i]? = some w)
    (hcount : ∀ a, w.holds.count a = (reports.map Prod.fst).count a + w'.holds.count a) :
    Balanced s.accepted ((reports ++ s.reported).map Prod.fst)
      (Custody.held Worker.holds (s.workers.set i w') ++ Custody.held Cancel.holds s.cancels) := by
  intro a
  have hbalanced := h.balanced a
  have hset := count_held_set Worker.holds hw w' a
  have := hcount a
  rw [held, List.count_append] at hbalanced
  rw [List.map_append, List.count_append, List.count_append]
  omega

theorem RuntimeInv.setWorker (h : RuntimeInv s) (reports : List Report) (sweeps : List Sweep)
    (hw : s.workers[i]? = some w) (hw' : WorkerInv w')
    (hsentinel : none ∈ w'.queue → none ∈ w.queue)
    (hcount : ∀ a, w.holds.count a = (reports.map Prod.fst).count a + w'.holds.count a) :
    RuntimeInv { s with
      workers := s.workers.set i w'
      sweeps := sweeps
      reported := reports ++ s.reported } where
  workers := workers_set h hw'
  hands := hands_set h hw hsentinel
  named := named_set h i w'
  fresh := h.fresh
  invoked := h.invoked
  balanced := balanced_set h reports hw hcount

/-- A worker changes that keeps its queue and its pump thread. -/
theorem RuntimeInv.touchWorker (h : RuntimeInv s) (sweeps : List Sweep)
    (hw : s.workers[i]? = some w) (hpump : w'.pump = w.pump) (hqueue : w'.queue = w.queue)
    (hcancelled : w'.cancelled = w.cancelled) :
    RuntimeInv { s with workers := s.workers.set i w', sweeps := sweeps } := by
  have hinv := h.worker hw
  have hjobs : w'.jobs = w.jobs := by rw [Worker.jobs, hqueue, Worker.jobs]
  refine h.setWorker [] sweeps hw ⟨?_, ?_⟩ (hqueue ▸ id) fun a => ?_
  · rw [hpump, hcancelled, hjobs]
    exact hinv.fits
  · rw [hqueue, hpump, hjobs]
    exact hinv.sentinel
  · rw [Worker.holds, Worker.holds, hpump, hcancelled, hjobs]
    simp

theorem inv_pump (h : RuntimeInv s) {p : PumpStep} (hG : Orderly s (.pump i p))
    (hstep : s.step maxInvocations (.pump i p) = some t) : RuntimeInv t := by
  obtain ⟨w, hw, hstep⟩ := Option.bind_eq_some_iff.1 hstep
  obtain ⟨⟨w', reports⟩, hp, rfl⟩ := Option.map_eq_some_iff.1 hstep
  have hspec := pumpStep_spec (h.worker hw) (hG w hw) hp
  exact h.setWorker reports s.sweeps hw hspec.inv hspec.sentinel hspec.count

theorem inv_put (h : RuntimeInv s) {job : JobId} (hG : Orderly s (.put job i))
    (hstep : s.step maxInvocations (.put job i) = some t) : RuntimeInv t := by
  obtain ⟨w, hw, hstep⟩ := Option.bind_eq_some_iff.1 hstep
  split_ifs at hstep with hmem
  cases hstep
  have hperm : ((s.invokes.erase (job, i)).map Prod.fst ++ job :: s.accepted).Perm
      (s.invokes.map Prod.fst ++ s.accepted) := by
    refine List.perm_middle.trans ?_
    exact ((List.perm_cons_erase hmem).map Prod.fst).symm.append_right s.accepted
  have hsentinel : none ∈ w.queue ++ [some job] → none ∈ w.queue := by simp
  refine ⟨workers_set h (push_inv (hG w hw) job), hands_set h hw hsentinel, named_set h i _,
    hperm.nodup_iff.2 h.fresh, fun j hj => h.invoked j (hperm.subset hj), fun a => ?_⟩
  have hbalanced := h.balanced a
  have hset := count_held_set Worker.holds hw { w with queue := w.queue ++ [some job] } a
  have hpush := push_count (w := w) job a
  rw [held, List.count_append] at hbalanced ⊢
  simp only [List.count_cons, List.count_nil] at hpush ⊢
  omega

theorem inv_sweepSentinel (h : RuntimeInv s) (hG : Orderly s (.sweepSentinel i))
    (hstep : s.step maxInvocations (.sweepSentinel i) = some t) : RuntimeInv t := by
  obtain ⟨w, hw, hstep⟩ := Option.bind_eq_some_iff.1 hstep
  split_ifs at hstep with hmem
  cases hstep
  obtain ⟨hrest, hhands⟩ := hG
  have hjobs := pushSentinel_jobs w
  have hinv : WorkerInv { w with queue := w.queue ++ [none] } := by
    refine ⟨?_, fun _ => ?_⟩
    · rw [hjobs]
      exact (h.worker hw).fits
    · rw [hjobs]
      exact hrest w hw
  refine ⟨workers_set h hinv, fun c hc k hk x hx => ?_, named_set h i _, h.fresh, h.invoked,
    balanced_set h [] hw fun a => ?_⟩
  · rcases getElem?_set_cases hw hx with ⟨rfl, rfl⟩ | ⟨-, hx⟩
    · exact absurd hk (hhands c hc)
    · exact h.hands c hc k hk x hx
  · rw [Worker.holds, Worker.holds, hjobs]
    simp

theorem startCancel_spec (s : ProcessRuntime) (job : JobId) :
    (s.startCancel job).holds = [] ∧ (s.startCancel job).holdsFrom = none ∧
      ∀ i ∈ (s.startCancel job).names, i < s.workers.length := by
  unfold startCancel
  split
  · rename_i k hfind
    refine ⟨rfl, rfl, fun i hi => ?_⟩
    obtain rfl := List.mem_singleton.1 hi
    exact (List.findIdx?_eq_some_iff_getElem.1 hfind).1
  · refine ⟨rfl, rfl, fun i hi => ?_⟩
    exact List.mem_range.1 (List.mem_filter.1 hi).1

theorem inv_cancel (h : RuntimeInv s) {job : JobId}
    (hstep : s.step maxInvocations (.cancel job) = some t) : RuntimeInv t := by
  cases hstep
  obtain ⟨hholds, hfrom, hnames⟩ := s.startCancel_spec job
  refine ⟨h.workers, fun c hc i hi => ?_, fun c hc => ?_, h.fresh, h.invoked, fun a => ?_⟩
  · rcases List.mem_cons.1 hc with rfl | hc
    · rw [hfrom] at hi
      cases hi
    · exact h.hands c hc i hi
  · rcases List.mem_cons.1 hc with rfl | hc
    · exact hnames
    · exact h.named c hc
  · have hbalanced := h.balanced a
    rw [held, List.count_append] at hbalanced ⊢
    rw [held_cons, hholds]
    exact hbalanced

/-- A call of `cancel` goes on at a worker. -/
theorem inv_cancelAt (h : RuntimeInv s) {c : Cancel} (hmem : c ∈ s.cancels)
    (hworker : c.worker = some i) (hw : s.workers[i]? = some w) (hG : c.Orderly w) :
    RuntimeInv { s with
      workers := s.workers.set i (c.onWorker w).2
      cancels := (c.onWorker w).1.toList ++ s.cancels.erase c } := by
  have hhands : c.holdsFrom ≠ none → none ∉ w.queue := by
    intro hne
    obtain ⟨k, hk⟩ := Option.ne_none_iff_exists'.1 hne
    obtain rfl : k = i := Option.some.inj ((Cancel.worker_of_holdsFrom hk).symm.trans hworker)
    exact h.hands c hmem k hk w hw
  have hspec := onWorker_spec (h.worker hw) hhands hG (h.count_le_one hmem hw)
  refine ⟨workers_set h hspec.inv, fun d hd k hk x hx => ?_, fun d hd => ?_, h.fresh, h.invoked,
    fun a => ?_⟩
  · rcases List.mem_append.1 hd with hd | hd
    · obtain ⟨-, hsame, hfrom⟩ := hspec.next d (Option.mem_toList.1 hd)
      obtain rfl : i = k := Option.some.inj
        (hworker.symm.trans (hsame k (Cancel.worker_of_holdsFrom hk)))
      rw [getElem?_set_of_some hw] at hx
      cases hx
      exact hfrom (by simp [hk])
    · exact hands_set h hw hspec.sentinel d (List.mem_of_mem_erase hd) k hk x hx
  · rcases List.mem_append.1 hd with hd | hd
    · intro k hk
      exact named_set h i _ c hmem k ((hspec.next d (Option.mem_toList.1 hd)).1 hk)
    · exact named_set h i _ d (List.mem_of_mem_erase hd)
  · have hbalanced := h.balanced a
    have hset := count_held_set Worker.holds hw (c.onWorker w).2 a
    have herase := count_held_erase Cancel.holds hmem a
    have hcount := hspec.count a
    show s.accepted.count a = (s.reported.map Prod.fst).count a +
      (Custody.held Worker.holds (s.workers.set i (c.onWorker w).2) ++
        Custody.held Cancel.holds ((c.onWorker w).1.toList ++ s.cancels.erase c)).count a
    rw [held, List.count_append] at hbalanced
    rw [List.count_append, held_append, List.count_append]
    omega

/-- A call of `cancel` goes on away from the workers. -/
theorem inv_cancelAlone (h : RuntimeInv s) {c : Cancel} (hmem : c ∈ s.cancels)
    (hworker : c.worker = none) :
    RuntimeInv { s with
      cancels := c.alone.1.toList ++ s.cancels.erase c
      reported := c.alone.2 ++ s.reported } := by
  obtain ⟨hnext, hcount⟩ := alone_spec c hworker
  refine ⟨h.workers, fun d hd k hk => ?_, fun d hd => ?_, h.fresh, h.invoked, fun a => ?_⟩
  · rcases List.mem_append.1 hd with hd | hd
    · rw [(hnext d (Option.mem_toList.1 hd)).2] at hk
      cases hk
    · exact h.hands d (List.mem_of_mem_erase hd) k hk
  · rcases List.mem_append.1 hd with hd | hd
    · intro k hk
      exact h.named c hmem k ((hnext d (Option.mem_toList.1 hd)).1 hk)
    · exact h.named d (List.mem_of_mem_erase hd)
  · have hbalanced := h.balanced a
    have herase := count_held_erase Cancel.holds hmem a
    have := hcount a
    show s.accepted.count a = ((c.alone.2 ++ s.reported).map Prod.fst).count a +
      (Custody.held Worker.holds s.workers ++
        Custody.held Cancel.holds (c.alone.1.toList ++ s.cancels.erase c)).count a
    rw [held, List.count_append] at hbalanced
    rw [List.count_append, held_append, List.count_append, List.map_append, List.count_append]
    omega

end Steps

/-- One step under the guard keeps the invariant. -/
theorem RuntimeInv.step (h : RuntimeInv s) (hG : Orderly s a)
    (hstep : s.step maxInvocations a = some t) : RuntimeInv t := by
  cases a with
  | spawn job maxDurationSeconds =>
    simp only [ProcessRuntime.step] at hstep
    split_ifs at hstep with hused
    cases hstep
    refine ⟨fun x hx => ?_, fun c hc k hk x hx => ?_, fun c hc k hk => ?_, ?_, ?_, fun a => ?_⟩
    · rcases List.mem_append.1 hx with hx | hx
      · exact h.workers x hx
      · rw [List.mem_singleton.1 hx]
        exact workerInv_fresh _
    · rcases getElem?_append_cases hx with hx | rfl
      · exact h.hands c hc k hk x hx
      · simp [Worker.fresh]
    · have := h.named c hc k hk
      rw [List.length_append]
      omega
    · exact List.nodup_cons.2 ⟨fun hj => hused (h.invoked job hj), h.fresh⟩
    · exact fun j hj => (List.mem_cons.1 hj).elim (fun heq => heq ▸ List.mem_cons_self)
        fun hj => List.mem_cons_of_mem _ (h.invoked j hj)
    · have hbalanced := h.balanced a
      rw [held, List.count_append] at hbalanced ⊢
      simpa [Worker.holds, Worker.fresh, Pump.inHand, Worker.jobs] using hbalanced
  | pick job i =>
    obtain ⟨w, hw, hstep⟩ := Option.bind_eq_some_iff.1 hstep
    split_ifs at hstep with hpick
    cases hstep
    refine ⟨h.workers, h.hands, h.named, ?_, ?_, h.balanced⟩
    · exact List.nodup_cons.2 ⟨fun hj => hpick.2 (h.invoked job hj), h.fresh⟩
    · exact fun j hj => (List.mem_cons.1 hj).elim (fun heq => heq ▸ List.mem_cons_self)
        fun hj => List.mem_cons_of_mem _ (h.invoked j hj)
  | put job i => exact inv_put h hG hstep
  | pump i p => exact inv_pump h hG hstep
  | die i =>
    obtain ⟨w, hw, rfl⟩ := Option.map_eq_some_iff.1 hstep
    exact h.touchWorker s.sweeps hw rfl rfl rfl
  | sweepEvict i idle =>
    obtain ⟨w, hw, hstep⟩ := Option.bind_eq_some_iff.1 hstep
    obtain ⟨-, hstep⟩ := Option.ite_none_right_eq_some.1 hstep
    cases hstep
    exact h.touchWorker _ hw rfl rfl rfl
  | sweepKill i =>
    obtain ⟨w, hw, hstep⟩ := Option.bind_eq_some_iff.1 hstep
    split_ifs at hstep
    cases hstep
    exact h.touchWorker _ hw rfl rfl rfl
  | sweepSentinel i => exact inv_sweepSentinel h hG hstep
  | cancel job => exact inv_cancel h hstep
  | cancelStep c =>
    simp only [ProcessRuntime.step] at hstep
    split_ifs at hstep with hmem
    cases hworker : c.worker with
    | some i =>
      rw [hworker] at hstep
      obtain ⟨w, hw, rfl⟩ := Option.map_eq_some_iff.1 hstep
      exact inv_cancelAt h hmem hworker hw (hG i hworker w hw)
    | none =>
      rw [hworker] at hstep
      cases hstep
      exact inv_cancelAlone h hmem hworker

/-- The invariant of a whole run. -/
theorem runtimeInv_of_reach (h : Reach (step maxInvocations) Orderly init s) : RuntimeInv s :=
  h.invariant runtimeInv_init fun _ _ _ hs hG hstep => hs.step hG hstep

/-! ### When nothing goes on any more -/

/-- No thread can go on. -/
def Quiescent (maxInvocations : ℕ) (s : ProcessRuntime) : Prop :=
  ∀ a : ProcessAction, a.GoesOn → s.step maxInvocations a = none

/-- When no thread can go on, none has a job. -/
theorem held_of_quiescent (h : RuntimeInv s) (hquiet : s.Quiescent maxInvocations) :
    s.held = [] := by
  refine List.eq_nil_iff_forall_not_mem.2 fun j hj => ?_
  rcases List.mem_append.1 hj with hj | hj
  · obtain ⟨w, hw, hjw⟩ := mem_held.1 hj
    obtain ⟨i, hi⟩ := List.mem_iff_getElem?.1 hw
    obtain ⟨p, hp⟩ := pumpStep_of_holds (h.workers w hw) (List.ne_nil_of_mem hjw)
    have hstuck := hquiet (.pump i p) trivial
    simp only [step, hi, Option.bind_some, Option.map_eq_none_iff] at hstuck
    exact hp hstuck
  · obtain ⟨c, hc, -⟩ := mem_held.1 hj
    have hstuck := hquiet (.cancelStep c) trivial
    simp only [step, if_pos hc] at hstuck
    cases hworker : c.worker with
    | none =>
      rw [hworker] at hstuck
      cases hstuck
    | some i =>
      have hi := h.named c hc i (Cancel.mem_names_of_worker hworker)
      rw [hworker] at hstuck
      simp [List.getElem?_eq_getElem hi] at hstuck

/-- How often `on_complete` has been called for a job. -/
def reportCount (s : ProcessRuntime) (job : JobId) : ℕ := (s.reported.map Prod.fst).count job

/-- Every job is reported once: never twice, and never without having been accepted; until then some
thread has it, no pump thread has died, and no queue with a job in it is one that nobody will read;
so that in the end each accepted job has been reported. -/
structure ReportsOnce (maxInvocations : ℕ) (s : ProcessRuntime) : Prop where
  atMostOnce : ∀ j, s.reportCount j ≤ 1
  accepted : ∀ j, s.reportCount j ≠ 0 → j ∈ s.accepted
  kept : ∀ j ∈ s.accepted, s.reportCount j = 0 → j ∈ s.held
  alive : ∀ w ∈ s.workers, w.pump ≠ .died
  read : ∀ w ∈ s.workers, w.jobs ≠ [] → w.Reads
  complete : s.Quiescent maxInvocations → ∀ j ∈ s.accepted, s.reportCount j = 1

/-- A state where nothing goes on: the pump threads wait at empty queues or have ended. -/
theorem quiescent_of_idle (hinvokes : s.invokes = []) (hsweeps : s.sweeps = [])
    (hcancels : s.cancels = [])
    (hworkers : ∀ w ∈ s.workers, w.pump = .ended ∨ w.pump = .died ∨ w.pump = .waiting ∧ w.queue = []) :
    s.Quiescent maxInvocations := by
  intro a ha
  cases a with
  | put job i => simp [step, hinvokes]
  | sweepKill i => simp [step, hsweeps]
  | sweepSentinel i => simp [step, hsweeps]
  | cancelStep c => simp [step, hcancels]
  | pump i p =>
    simp only [step, Option.bind_eq_none_iff, Option.map_eq_none_iff]
    intro w hw
    rcases hworkers w (List.mem_of_getElem? hw) with hpump | hpump | ⟨hpump, hqueue⟩
    · cases p <;> simp [Worker.pumpStep, hpump]
    · cases p <;> simp [Worker.pumpStep, hpump]
    · cases p <;> simp [Worker.pumpStep, hpump, hqueue]
  | _ => exact absurd ha id

/-- Three jobs on one worker: the first gets a result, the second is cancelled in flight, and the
third with it. -/
def runThenCancel : List ProcessAction :=
  [.spawn "j1" 0, .put "j1" 0, .pump 0 .take, .pump 0 .begin, .pick "j2" 0, .put "j2" 0,
    .pick "j3" 0, .put "j3" 0, .pump 0 .io, .pump 0 (.result true), .pump 0 .report, .pump 0 .clear,
    .pump 0 .take, .pump 0 .begin, .cancel "j2", .cancelStep (.found 0 "j2"),
    .cancelStep (.draining 0 "j2" []), .cancelStep (.draining 0 "j2" ["j3"]),
    .cancelStep (.flagged 0 "j2" ["j3"]), .pump 0 .crash, .pump 0 .clear,
    .cancelStep (.reporting [("j2", .cancelled), ("j3", .crashed)]),
    .cancelStep (.reporting [("j3", .crashed)]), .cancelStep (.reporting [])]

/-- A worker that has had its number of jobs is swept while it runs another: the pump thread meets
the sentinel when it drains the queue, and dies with the job in its hands. -/
def sweepInFlight : List ProcessAction :=
  [.spawn "j1" 0, .put "j1" 0, .pump 0 .take, .pump 0 .begin, .pump 0 (.result true),
    .pump 0 .report, .pump 0 .clear, .pick "j2" 0, .put "j2" 0, .pump 0 .take, .pump 0 .begin,
    .sweepEvict 0 false, .sweepKill 0, .sweepSentinel 0, .pump 0 .crash, .pump 0 .drain]

end ProcessRuntime

end Axo
