import Axo.Lib.Custody
import Axo.Lib.Transition
import Axo.Service.ContainerRuntime

/-!
# Every container job is reported once

Where a job is between the return of `invoke` and the call of `on_complete`: with a handle, in its
queue or with its pump thread (`ContainerHandle.holds`), with the thread of `_dispatch_once_ready`
(`Dispatch.holds`), or with a call of `cancel` (`ContainerCancel.holds`).

* `HandleInv` is the invariant of a handle; `pumpStep_handleSpec`, `bootStep_handleSpec`,
  `dispatch_spec` and `cancel_spec` say what each thread does to it and to the jobs it holds;
* `Orderly` is the guard on the steps of the runtime, `ContainerInv` the invariant under it, and
  `outcome_of_reach` the result for whole runs.
-/

namespace Axo

open Custody Transition

/-! ### A handle and its pump thread -/

namespace ContainerPump

/-- The jobs in the hands of the pump thread.  The job in flight on a dead handle is not among them:
`cancel`, which has set the status, reports that one. -/
def inHand (dead : Bool) : ContainerPump → List JobId
  | .taken job | .completing job _ | .failing _ job | .stopping _ job | .settling _ job => [job]
  | .inFlight job => if dead = true then [] else [job]
  | .draining _ pending => pending
  | .reporting reports => reports.map Prod.fst
  | .starting | .creating | .looping | .getting _ | .finishing | .emptying | .leaving | .ended => []

/-- The pump thread has a job without a result. -/
def engaged : ContainerPump → Bool
  | .taken _ | .inFlight _ => true
  | _ => false

/-- The pump thread will drain the queue. -/
def fails : ContainerPump → Bool
  | .failing _ _ | .stopping _ _ | .settling _ _ | .emptying | .draining _ _ => true
  | _ => false

/-- The pump thread comes back to the queue, as long as the handle is not dead. -/
def loops : ContainerPump → Bool
  | .starting | .creating | .looping | .getting _ | .taken _ | .inFlight _ | .completing _ _
  | .finishing => true
  | _ => false

/-- The queue that the pump thread has in its hands. -/
def queue : ContainerPump → Option ℕ
  | .getting q | .draining q _ => some q
  | _ => none

/-- What the place of the pump thread says about the handle: jobs in the queue of a dead handle, or
of one whose pump thread does not come back, are covered by a call of `cancel`. -/
def Fits (dead : Bool) (jobs : List JobId) (covered : Prop) : ContainerPump → Prop
  | .taken _ => dead = false
  | .getting _ | .completing _ _ | .finishing => dead = true → jobs = []
  | .starting | .creating | .looping | .inFlight _ => dead = true → jobs = [] ∨ covered
  | .failing _ _ | .stopping _ _ | .settling _ _ | .emptying | .draining _ _ => True
  | .reporting _ | .leaving | .ended => jobs = [] ∨ covered

variable {p : ContainerPump} {dead : Bool} {jobs jobs' : List JobId} {covered covered' : Prop}

theorem Fits.mono (h : p.Fits dead jobs covered) (hjobs : jobs = [] → jobs' = [])
    (hcovered : covered → covered') : p.Fits dead jobs' covered' := by
  have hor : jobs = [] ∨ covered → jobs' = [] ∨ covered' := Or.imp hjobs hcovered
  cases p with
  | taken job => exact h
  | getting q => exact fun hd => hjobs (h hd)
  | completing job ok => exact fun hd => hjobs (h hd)
  | finishing => exact fun hd => hjobs (h hd)
  | starting => exact fun hd => hor (h hd)
  | creating => exact fun hd => hor (h hd)
  | looping => exact fun hd => hor (h hd)
  | inFlight job => exact fun hd => hor (h hd)
  | reporting reports => exact hor h
  | leaving => exact hor h
  | ended => exact hor h
  | _ => trivial

/-- A handle that comes back to life. -/
theorem Fits.revive (h : p.Fits dead jobs covered) : p.Fits false jobs covered := by
  cases p with
  | taken job => rfl
  | getting q => exact fun hd => by cases hd
  | completing job ok => exact fun hd => by cases hd
  | finishing => exact fun hd => by cases hd
  | starting => exact fun hd => by cases hd
  | creating => exact fun hd => by cases hd
  | looping => exact fun hd => by cases hd
  | inFlight job => exact fun hd => by cases hd
  | reporting reports => exact h
  | leaving => exact h
  | ended => exact h
  | _ => trivial

/-- A queue without jobs fits any place but that of a job without a result. -/
theorem fits_of_empty (hjobs : jobs = []) (hengaged : p.engaged = false) :
    p.Fits dead jobs covered := by
  cases p with
  | taken job => cases hengaged
  | getting q => exact fun _ => hjobs
  | completing job ok => exact fun _ => hjobs
  | finishing => exact fun _ => hjobs
  | starting => exact fun _ => Or.inl hjobs
  | creating => exact fun _ => Or.inl hjobs
  | looping => exact fun _ => Or.inl hjobs
  | inFlight job => exact fun _ => Or.inl hjobs
  | reporting reports => exact Or.inl hjobs
  | leaving => exact Or.inl hjobs
  | ended => exact Or.inl hjobs
  | _ => trivial

theorem fits_of_fails (hfails : p.fails = true) : p.Fits dead jobs covered := by
  cases p <;> trivial

/-- The pump thread of a live handle comes back to its queue, whatever is in it. -/
theorem fits_of_loops (hloops : p.loops = true) (hdead : dead = false) :
    p.Fits dead jobs covered := by
  subst hdead
  cases p with
  | taken job => rfl
  | reporting reports => cases hloops
  | leaving => cases hloops
  | ended => cases hloops
  | failing timedOut job => trivial
  | stopping timedOut job => trivial
  | settling timedOut job => trivial
  | emptying => trivial
  | draining q pending => trivial
  | _ => exact fun hd => by cases hd

/-- What is in the hands of the pump thread does not depend on the status, but for the job in
flight. -/
theorem inHand_eq (hp : ∀ job, p ≠ .inFlight job) (dead dead' : Bool) :
    p.inHand dead = p.inHand dead' := by
  cases p with
  | inFlight job => exact absurd rfl (hp job)
  | _ => rfl

end ContainerPump

namespace ContainerHandle

def dead (h : ContainerHandle) : Bool := h.status.dead

/-- The jobs in the queue. -/
def jobs (h : ContainerHandle) : List JobId := h.jobQueues.flatten

/-- The jobs in the queue and with the pump thread. -/
def holds (h : ContainerHandle) : List JobId := h.pump.inHand h.dead ++ h.jobs

/-- A job put on the queue now will be read. -/
def Reads (h : ContainerHandle) : Prop :=
  h.dead = false ∧ h.pump.loops = true ∨ h.pump.fails = true

/-- Nothing is lost if the handle is dismissed now: it is dead already, its pump thread will drain
the queue, or it has no job without a result. -/
def Spared (h : ContainerHandle) : Prop :=
  h.dead = true ∨ h.pump.fails = true ∨ h.jobs = [] ∧ h.pump.engaged = false

instance (h : ContainerHandle) : Decidable h.Reads := inferInstanceAs (Decidable (_ ∧ _ ∨ _))

instance (h : ContainerHandle) : Decidable h.Spared := inferInstanceAs (Decidable (_ ∨ _ ∨ _ ∧ _))

end ContainerHandle

/-- The invariant of a handle.  It has one queue at most, and before it is ready neither that nor a
pump thread. -/
structure HandleInv (covered : Prop) (h : ContainerHandle) : Prop where
  fits : h.pump.Fits h.dead h.jobs covered
  queues : h.jobQueues.length ≤ 1
  inQueue : ∀ q ∈ h.pump.queue, q = 0
  unready : h.isReady = false → h.pump = .ended ∧ h.jobQueues = []
  booting : h.bootstrap ≠ .done → h.isReady = false

/-- What a step leaves as it is. -/
structure Keeps (h h' : ContainerHandle) : Prop where
  made : h.jobQueues ≠ [] → h'.jobQueues ≠ []
  ready : h.isReady = true → h'.isReady = true

section Handle

variable {h h' : ContainerHandle} {covered covered' : Prop} {job : JobId} {reports : List Report}

theorem HandleInv.mono (hh : HandleInv covered h) (hcovered : covered → covered') :
    HandleInv covered' h :=
  ⟨hh.fits.mono id hcovered, hh.queues, hh.inQueue, hh.unready, hh.booting⟩

theorem HandleInv.jobQueue (hh : HandleInv covered h) : h.jobQueue = 0 := by
  have := hh.queues
  unfold ContainerHandle.jobQueue
  omega

theorem handleInv_fresh (serviceName : String) (maxDurationSeconds : ℤ) :
    HandleInv covered (.fresh serviceName maxDurationSeconds) where
  fits := Or.inl rfl
  queues := Nat.zero_le _
  inQueue := fun q hq => by cases hq
  unready := fun _ => ⟨rfl, rfl⟩
  booting := fun _ => rfl

/-- The one queue of a handle. -/
theorem queues_cases (hqueues : h.jobQueues.length ≤ 1) :
    h.jobQueues = [] ∨ ∃ jobs, h.jobQueues = [jobs] := by
  rcases hlist : h.jobQueues with - | ⟨jobs, - | ⟨other, rest⟩⟩
  · exact Or.inl rfl
  · exact Or.inr ⟨jobs, rfl⟩
  · rw [hlist] at hqueues
    simp at hqueues

/-- `get_nowait` takes the first job. -/
theorem pop_eq_some (hqueues : h.jobQueues.length ≤ 1) (hpop : h.pop 0 = some (job, h')) :
    ∃ rest, h.jobs = job :: rest ∧ h'.jobs = rest ∧ h.jobQueues ≠ [] ∧ h'.jobQueues ≠ [] ∧
      h'.jobQueues.length ≤ 1 ∧ h' = { h with jobQueues := h'.jobQueues } := by
  rcases queues_cases hqueues with hlist | ⟨jobs, hlist⟩
  · simp [ContainerHandle.pop, hlist] at hpop
  · cases jobs with
    | nil => simp [ContainerHandle.pop, hlist] at hpop
    | cons j rest =>
      simp only [ContainerHandle.pop, hlist, List.getElem?_cons_zero, List.set_cons_zero,
        Option.some.injEq, Prod.mk.injEq] at hpop
      obtain ⟨rfl, rfl⟩ := hpop
      exact ⟨rest, by simp [ContainerHandle.jobs, hlist], by simp [ContainerHandle.jobs], by simp [hlist],
        by simp, by simp, rfl⟩

/-- `get_nowait` finds nothing in an empty queue only. -/
theorem pop_eq_none (hqueues : h.jobQueues.length ≤ 1) (hpop : h.pop 0 = none) : h.jobs = [] := by
  rcases queues_cases hqueues with hlist | ⟨jobs, hlist⟩
  · simp [ContainerHandle.jobs, hlist]
  · cases jobs with
    | nil => simp [ContainerHandle.jobs, hlist]
    | cons j rest => simp [ContainerHandle.pop, hlist] at hpop

theorem push_jobs (hqueues : h.jobQueues.length ≤ 1) (hmade : h.jobQueues ≠ []) (job : JobId) :
    (h.push 0 job).jobs = h.jobs ++ [job] ∧ (h.push 0 job).jobQueues.length ≤ 1 ∧
      (h.push 0 job).jobQueues ≠ [] := by
  rcases queues_cases hqueues with hlist | ⟨jobs, hlist⟩
  · exact absurd hlist hmade
  · simp [ContainerHandle.push, ContainerHandle.jobs, hlist]

/-- What a step of a thread does to a handle, with reports of what it no longer holds. -/
structure HandleSpec (covered : Prop) (h h' : ContainerHandle) (reports : List Report) : Prop where
  inv : HandleInv covered h'
  keeps : Keeps h h'
  count : ∀ a, h.holds.count a = (reports.map Prod.fst).count a + h'.holds.count a

theorem HandleInv.ready_of_pump (hh : HandleInv covered h) (hpump : h.pump ≠ .ended) :
    h.isReady = true := by
  by_contra hnot
  exact hpump (hh.unready (Bool.eq_false_iff.2 hnot)).1

theorem HandleInv.ready_of_made (hh : HandleInv covered h) (hmade : h.jobQueues ≠ []) :
    h.isReady = true := by
  by_contra hnot
  exact hmade (hh.unready (Bool.eq_false_iff.2 hnot)).2

/-- Only the pump thread moves, and the status changes. -/
theorem HandleSpec.of_pump (hh : HandleInv covered h) (hpump : h.pump ≠ .ended)
    (hqueues : h'.jobQueues = h.jobQueues) (hready : h'.isReady = h.isReady)
    (hboot : h'.bootstrap = h.bootstrap) (hfits : h'.pump.Fits h'.dead h'.jobs covered)
    (hin : ∀ q ∈ h'.pump.queue, q = 0)
    (hcount : ∀ a, (h.pump.inHand h.dead).count a =
      (reports.map Prod.fst).count a + (h'.pump.inHand h'.dead).count a) :
    HandleSpec covered h h' reports := by
  have hjobs : h'.jobs = h.jobs := by rw [ContainerHandle.jobs, hqueues, ContainerHandle.jobs]
  have hisReady := hh.ready_of_pump hpump
  refine ⟨⟨hfits, hqueues ▸ hh.queues, hin, fun h => ?_, fun h => ?_⟩, ⟨hqueues ▸ id, hready ▸ id⟩,
    fun a => ?_⟩
  · rw [hready, hisReady] at h
    cases h
  · rw [hready]
    exact hh.booting (hboot ▸ h)
  · have := hcount a
    rw [ContainerHandle.holds, ContainerHandle.holds, hjobs, List.count_append, List.count_append]
    omega

/-- The pump thread takes a job from the queue into its hands. -/
theorem pop_spec {p : ContainerPump} (hh : HandleInv covered h) (hpump : h.pump ≠ .ended)
    (hpop : h.pop 0 = some (job, h')) (hfits : p.Fits h.dead h'.jobs covered)
    (hin : ∀ q ∈ p.queue, q = 0)
    (hcount : ∀ a, (p.inHand h.dead).count a = (h.pump.inHand h.dead).count a + [job].count a) :
    HandleSpec covered h { h' with pump := p } [] := by
  obtain ⟨rest, hjobs, hjobs', -, hmade, hqueues, heq⟩ := pop_eq_some hh.queues hpop
  have hready : h'.isReady = true := by
    rw [heq]
    exact hh.ready_of_pump hpump
  have hdead : h'.dead = h.dead := by
    rw [heq]
    rfl
  refine ⟨⟨?_, hqueues, hin, fun h => ?_, fun h => ?_⟩, ⟨fun _ => hmade, fun _ => hready⟩, fun a => ?_⟩
  · show p.Fits h'.dead h'.jobs covered
    rw [hdead]
    exact hfits
  · exact absurd hready (by simpa using h)
  · have := hh.booting (by rw [heq] at h; exact h)
    rw [hh.ready_of_pump hpump] at this
    cases this
  · show (h.pump.inHand h.dead ++ h.jobs).count a = 0 + (p.inHand h'.dead ++ h'.jobs).count a
    have := hcount a
    rw [hjobs, hjobs', hdead, List.count_append, List.count_append, this]
    simp only [List.count_cons, List.count_nil]
    omega

/-- The pump thread puts a new queue where there was none. -/
theorem newQueue_spec {p : ContainerPump} (hh : HandleInv covered h) (hready : h.isReady = true)
    (hqueues : h.jobQueues = []) (hfits : p.Fits h.dead h.jobs covered)
    (hin : ∀ q ∈ p.queue, q = 0) (hinHand : p.inHand h.dead = h.pump.inHand h.dead) :
    HandleSpec covered h { h.newQueue with pump := p } [] := by
  have hjobs : ({ h.newQueue with pump := p } : ContainerHandle).jobs = h.jobs := by
    simp [ContainerHandle.newQueue, ContainerHandle.jobs, hqueues]
  refine ⟨⟨?_, ?_, hin, fun h => ?_, hh.booting⟩, ⟨fun _ => ?_, id⟩, fun a => ?_⟩
  · rw [hjobs]
    exact hfits
  · simp [ContainerHandle.newQueue, hqueues]
  · exact absurd hready (by simpa [ContainerHandle.newQueue] using h)
  · simp [ContainerHandle.newQueue]
  · rw [ContainerHandle.holds, ContainerHandle.holds, hjobs]
    show (h.pump.inHand h.dead ++ h.jobs).count a = 0 + (p.inHand h.dead ++ h.jobs).count a
    rw [hinHand, Nat.zero_add]

/-- The next piece of the pump thread, when it makes no queue where there is one. -/
theorem pumpGo_spec (hh : HandleInv covered h) (hG : h.pump = .creating → h.jobQueues = [])
    (hgo : h.pumpGo = some (h', reports)) : HandleSpec covered h h' reports := by
  have hfits := hh.fits
  have hin := hh.inQueue
  cases hpump : h.pump with
  | starting =>
    simp only [ContainerHandle.pumpGo, hpump] at hgo
    cases hgo
    rw [hpump] at hfits
    refine .of_pump hh (by simp [hpump]) rfl rfl rfl ?_ ?_ fun a => ?_
    · by_cases hqueues : h.jobQueues = []
      · rw [if_pos hqueues]
        exact hfits
      · rw [if_neg hqueues]
        exact hfits
    · split_ifs <;> simp [ContainerPump.queue]
    · split_ifs <;> simp [hpump, ContainerPump.inHand]
  | creating =>
    simp only [ContainerHandle.pumpGo, hpump] at hgo
    cases hgo
    rw [hpump] at hfits
    exact newQueue_spec hh (hh.ready_of_pump (by simp [hpump])) (hG hpump) hfits
      (by simp [ContainerPump.queue]) (by rw [hpump]; rfl)
  | looping =>
    simp only [ContainerHandle.pumpGo, hpump] at hgo
    cases hgo
    rw [hpump] at hfits
    refine .of_pump hh (by simp [hpump]) rfl rfl rfl ?_ ?_ fun a => ?_
    · by_cases hdead : h.status.dead = true
      · rw [if_pos hdead]
        exact hfits hdead
      · rw [if_neg hdead]
        exact fun h => absurd h hdead
    · split_ifs
      · simp [ContainerPump.queue]
      · simp [ContainerPump.queue, hh.jobQueue]
    · split_ifs <;> simp [hpump, ContainerPump.inHand]
  | getting q =>
    obtain rfl : q = 0 := hin q (by rw [hpump]; rfl)
    simp only [ContainerHandle.pumpGo, hpump, Option.map_eq_some_iff, Prod.exists] at hgo
    obtain ⟨job, h₁, hpop, hgo⟩ := hgo
    cases hgo
    rw [hpump] at hfits
    obtain ⟨rest, hjobs, -⟩ := pop_eq_some hh.queues hpop
    refine pop_spec hh (by simp [hpump]) hpop ?_ (by simp [ContainerPump.queue]) fun a => ?_
    · refine Bool.eq_false_iff.2 fun hdead => ?_
      have := hfits hdead
      rw [hjobs] at this
      cases this
    · simp [hpump, ContainerPump.inHand]
  | taken job =>
    simp only [ContainerHandle.pumpGo, hpump] at hgo
    cases hgo
    rw [hpump] at hfits
    have hdead : h.dead = false := hfits
    refine .of_pump hh (by simp [hpump]) rfl rfl rfl (ContainerPump.fits_of_loops rfl hdead)
      (by simp [ContainerPump.queue]) fun a => ?_
    show (h.pump.inHand h.dead).count a = 0 + ((ContainerPump.inFlight job).inHand h.dead).count a
    rw [hpump, hdead, Nat.zero_add]
    rfl
  | inFlight job => simp [ContainerHandle.pumpGo, hpump] at hgo
  | completing job ok =>
    simp only [ContainerHandle.pumpGo, hpump] at hgo
    cases hgo
    rw [hpump] at hfits
    refine .of_pump hh (by simp [hpump]) rfl rfl rfl hfits (by simp [ContainerPump.queue]) fun a => ?_
    simp [hpump, ContainerPump.inHand]
  | finishing =>
    simp only [ContainerHandle.pumpGo, hpump] at hgo
    cases hgo
    refine .of_pump hh (by simp [hpump]) rfl rfl rfl (ContainerPump.fits_of_loops rfl rfl)
      (by simp [ContainerPump.queue]) fun a => ?_
    simp [hpump, ContainerPump.inHand]
  | failing timedOut job =>
    simp only [ContainerHandle.pumpGo, hpump] at hgo
    cases hgo
    refine .of_pump hh (by simp [hpump]) rfl rfl rfl trivial (by simp [ContainerPump.queue]) fun a => ?_
    simp [hpump, ContainerPump.inHand]
  | stopping timedOut job => simp [ContainerHandle.pumpGo, hpump] at hgo
  | settling timedOut job =>
    simp only [ContainerHandle.pumpGo, hpump] at hgo
    cases hgo
    refine .of_pump hh (by simp [hpump]) rfl rfl rfl trivial (by simp [ContainerPump.queue]) fun a => ?_
    simp [hpump, ContainerPump.inHand]
  | emptying =>
    simp only [ContainerHandle.pumpGo, hpump] at hgo
    cases hgo
    refine .of_pump hh (by simp [hpump]) rfl rfl rfl trivial ?_ fun a => ?_
    · simp [ContainerPump.queue, hh.jobQueue]
    · simp [hpump, ContainerPump.inHand]
  | draining q pending =>
    obtain rfl : q = 0 := hin q (by rw [hpump]; rfl)
    simp only [ContainerHandle.pumpGo, hpump] at hgo
    split at hgo
    · rename_i job h₁ hpop
      cases hgo
      refine pop_spec hh (by simp [hpump]) hpop trivial (by simp [ContainerPump.queue]) fun a => ?_
      simp [hpump, ContainerPump.inHand, List.count_append]
    · rename_i hpop
      cases hgo
      have hjobs : h.jobs = [] := pop_eq_none hh.queues hpop
      refine .of_pump hh (by simp [hpump]) rfl rfl rfl (Or.inl hjobs) (by simp [ContainerPump.queue])
        fun a => ?_
      simp [hpump, ContainerPump.inHand, Function.comp_def]
  | reporting rs =>
    rw [hpump] at hfits
    cases rs with
    | nil =>
      simp only [ContainerHandle.pumpGo, hpump] at hgo
      cases hgo
      refine .of_pump hh (by simp [hpump]) rfl rfl rfl hfits (by simp [ContainerPump.queue]) fun a => ?_
      simp [hpump, ContainerPump.inHand]
    | cons r rs =>
      simp only [ContainerHandle.pumpGo, hpump] at hgo
      cases hgo
      refine .of_pump hh (by simp [hpump]) rfl rfl rfl hfits (by simp [ContainerPump.queue]) fun a => ?_
      simp only [hpump, ContainerPump.inHand, List.map_cons, List.map_nil, List.count_cons,
        List.count_nil]
      omega
  | leaving =>
    rw [hpump] at hfits
    simp only [ContainerHandle.pumpGo, hpump] at hgo
    cases hgo
    refine .of_pump hh (by simp [hpump]) rfl rfl rfl hfits (by simp [ContainerPump.queue]) fun a => ?_
    simp [hpump, ContainerPump.inHand]
  | ended => simp [ContainerHandle.pumpGo, hpump] at hgo

/-- `_handle_crash` and `_handle_timeout` begin. -/
theorem giveUp_handleSpec (hh : HandleInv covered h) (hpump : h.pump = .inFlight job)
    (timedOut : Bool) : HandleSpec covered h (h.giveUp timedOut job) [] := by
  have hfits := hh.fits
  rw [hpump] at hfits
  have hne : h.pump ≠ .ended := by simp [hpump]
  unfold ContainerHandle.giveUp
  split_ifs with hdead
  · refine .of_pump hh hne rfl rfl rfl (hfits hdead) (by simp [ContainerPump.queue]) fun a => ?_
    simp [hpump, ContainerPump.inHand, ContainerHandle.dead, hdead]
  · refine .of_pump hh hne rfl rfl rfl trivial (by simp [ContainerPump.queue]) fun a => ?_
    simp [hpump, ContainerPump.inHand, ContainerHandle.dead, hdead]

/-- The guard on the pump thread: it makes no queue where there is one, receives no result when the
handle is dead, and meets no exception: every job can be sent, what the container sends can be read, and
its requests for data are answered. -/
def ContainerHandle.PumpOrderly (h : ContainerHandle) : ContainerStep → Prop
  | .go => h.pump = .creating → h.jobQueues = []
  | .result _ => h.dead = false
  | .fault _ => False
  | .expire | .io | .crash | .timeout | .stopped _ => True

instance (h : ContainerHandle) : (p : ContainerStep) → Decidable (h.PumpOrderly p)
  | .go => inferInstanceAs (Decidable (h.pump = .creating → h.jobQueues = []))
  | .result _ => inferInstanceAs (Decidable (h.dead = false))
  | .fault _ => inferInstanceAs (Decidable False)
  | .expire | .io | .crash | .timeout | .stopped _ => inferInstanceAs (Decidable True)

/-- What the pump thread does, step by step. -/
theorem pumpStep_handleSpec {p : ContainerStep} (hh : HandleInv covered h) (hG : h.PumpOrderly p)
    (hstep : h.pumpStep p = some (h', reports)) : HandleSpec covered h h' reports := by
  have hfits := hh.fits
  cases p with
  | go => exact pumpGo_spec hh hG hstep
  | expire =>
    simp only [ContainerHandle.pumpStep] at hstep
    split at hstep
    · rename_i q hpump
      obtain ⟨hpop, hstep⟩ := Option.ite_none_right_eq_some.1 hstep
      cases hstep
      obtain rfl : q = 0 := hh.inQueue q (by rw [hpump]; rfl)
      have hjobs : h.jobs = [] := pop_eq_none hh.queues hpop
      refine .of_pump hh (by simp [hpump]) rfl rfl rfl (fun _ => Or.inl hjobs)
        (by simp [ContainerPump.queue]) fun a => ?_
      simp [hpump, ContainerPump.inHand]
    · cases hstep
  | result ok =>
    have hdead : h.dead = false := hG
    simp only [ContainerHandle.pumpStep] at hstep
    split at hstep
    · rename_i job hpump
      cases hstep
      refine .of_pump hh (by simp [hpump]) rfl rfl rfl (ContainerPump.fits_of_loops rfl hdead)
        (by simp [ContainerPump.queue]) fun a => ?_
      simp [hpump, ContainerPump.inHand, hdead]
    · cases hstep
  | io =>
    simp only [ContainerHandle.pumpStep] at hstep
    split at hstep
    · cases hstep
      exact ⟨hh, ⟨id, id⟩, fun a => by simp⟩
    · cases hstep
  | fault f => exact absurd hG id
  | crash =>
    simp only [ContainerHandle.pumpStep] at hstep
    split at hstep
    · rename_i job hpump
      cases hstep
      exact giveUp_handleSpec hh hpump false
    · cases hstep
  | timeout =>
    simp only [ContainerHandle.pumpStep] at hstep
    split at hstep
    · rename_i job hpump
      split_ifs at hstep
      cases hstep
      exact giveUp_handleSpec hh hpump true
    · cases hstep
  | stopped ok =>
    simp only [ContainerHandle.pumpStep] at hstep
    split at hstep
    · rename_i timedOut job hpump
      cases hstep
      refine .of_pump hh (by simp [hpump]) rfl rfl rfl trivial (by simp [ContainerPump.queue])
        fun a => ?_
      simp [hpump, ContainerPump.inHand]
    · cases hstep

/-- A handle that is not ready has no jobs, whatever its status becomes. -/
theorem unready_spec {status : ContainerStatus} {isReady : Bool} {bootstrap : Bootstrap}
    (hh : HandleInv covered h) (hboot : h.bootstrap ≠ .done)
    (hbooting : bootstrap ≠ .done → isReady = false) :
    HandleSpec covered h { h with status := status, isReady := isReady, bootstrap := bootstrap }
      [] := by
  have hready := hh.booting hboot
  obtain ⟨hpump, hqueues⟩ := hh.unready hready
  have hjobs : h.jobs = [] := by rw [ContainerHandle.jobs, hqueues, List.flatten_nil]
  refine ⟨⟨?_, hh.queues, hh.inQueue, fun _ => ⟨hpump, hqueues⟩, hbooting⟩, ⟨id, fun h => ?_⟩,
    fun a => ?_⟩
  · show h.pump.Fits status.dead h.jobs covered
    exact ContainerPump.fits_of_empty hjobs (by rw [hpump]; rfl)
  · rw [hready] at h
    cases h
  · simp [ContainerHandle.holds, hpump, ContainerPump.inHand, ContainerHandle.jobs]

/-- What the thread does that starts the container. -/
theorem bootStep_handleSpec {b : BootStep} (hh : HandleInv covered h)
    (hstep : h.bootStep b = some h') : HandleSpec covered h h' [] := by
  cases b with
  | spawned ok =>
    cases ok <;> simp only [ContainerHandle.bootStep] at hstep <;> split_ifs at hstep with hboot <;>
      cases hstep
    · exact unready_spec hh (by simp [hboot]) (by simp)
    · exact unready_spec hh (by simp [hboot]) fun _ => hh.booting (by simp [hboot])
  | look =>
    simp only [ContainerHandle.bootStep] at hstep
    obtain ⟨hboot, hstep⟩ := Option.ite_none_right_eq_some.1 hstep
    cases hstep
    exact unready_spec hh (by simp [hboot]) fun _ => hh.booting (by simp [hboot])
  | answer ok =>
    cases ok <;> simp only [ContainerHandle.bootStep] at hstep <;> split_ifs at hstep with hboot <;>
      cases hstep
    · exact unready_spec hh (by simp [hboot]) fun _ => hh.booting (by simp [hboot])
    · exact unready_spec hh (by simp [hboot]) (by simp)
  | timeout =>
    simp only [ContainerHandle.bootStep] at hstep
    split_ifs at hstep with hboot
    cases hstep
    exact unready_spec hh (by simp [hboot]) (by simp)

/-- A pump thread with a job in its hands or in its queue can go on, or a call of `cancel` covers the
handle. -/
theorem containerStep_of_holds (hh : HandleInv covered h) (hholds : h.holds ≠ []) :
    (∃ p, p ≠ .expire ∧ h.pumpStep p ≠ none) ∨ covered := by
  have hfits := hh.fits
  have hgo : h.pumpGo ≠ none → ∃ p, p ≠ .expire ∧ h.pumpStep p ≠ none := fun hne =>
    ⟨.go, by simp, hne⟩
  cases hpump : h.pump with
  | getting q =>
    obtain rfl : q = 0 := hh.inQueue q (by rw [hpump]; rfl)
    have hjobs : h.jobs ≠ [] := by
      simpa [ContainerHandle.holds, hpump, ContainerPump.inHand] using hholds
    refine Or.inl (hgo fun hnone => hjobs (pop_eq_none hh.queues ?_))
    simpa [ContainerHandle.pumpGo, hpump] using hnone
  | inFlight job => exact Or.inl ⟨.crash, by simp, by simp [ContainerHandle.pumpStep, hpump]⟩
  | stopping timedOut job =>
    exact Or.inl ⟨.stopped true, by simp, by simp [ContainerHandle.pumpStep, hpump]⟩
  | draining q pending =>
    refine Or.inl (hgo ?_)
    simp only [ContainerHandle.pumpGo, hpump]
    split <;> simp
  | reporting rs => exact Or.inl (hgo (by cases rs <;> simp [ContainerHandle.pumpGo, hpump]))
  | ended =>
    rw [hpump] at hfits
    rcases hfits with hjobs | hcovered
    · exact absurd (by simp [ContainerHandle.holds, hpump, ContainerPump.inHand, hjobs]) hholds
    · exact Or.inr hcovered
  | _ => exact Or.inl (hgo (by simp [ContainerHandle.pumpGo, hpump]))

/-! ### Other threads at a handle -/

/-- A dismissal sets the status of a handle that is spared. -/
theorem setDead_spec {status : ContainerStatus} (hh : HandleInv covered h)
    (hdead : status.dead = true) (hspared : h.Spared) :
    HandleSpec covered h { h with status := status } [] := by
  have hfits := hh.fits
  rcases hspared with hdead' | hfails | ⟨hjobs, hengaged⟩
  · have heq : ({ h with status := status } : ContainerHandle).dead = h.dead := hdead.trans hdead'.symm
    refine ⟨⟨?_, hh.queues, hh.inQueue, hh.unready, hh.booting⟩, ⟨id, id⟩, fun a => ?_⟩
    · rw [heq]
      exact hfits
    · rw [ContainerHandle.holds, ContainerHandle.holds, heq]
      simp [ContainerHandle.jobs]
  · have hne : ∀ job, h.pump ≠ .inFlight job := by
      intro job hpump
      rw [hpump] at hfails
      cases hfails
    refine ⟨⟨ContainerPump.fits_of_fails hfails, hh.queues, hh.inQueue, hh.unready, hh.booting⟩,
      ⟨id, id⟩, fun a => ?_⟩
    rw [ContainerHandle.holds, ContainerHandle.holds, ContainerPump.inHand_eq hne h.dead true]
    simp [ContainerHandle.dead, ContainerHandle.jobs, hdead]
  · have hne : ∀ job, h.pump ≠ .inFlight job := by
      intro job hpump
      rw [hpump] at hengaged
      cases hengaged
    refine ⟨⟨ContainerPump.fits_of_empty hjobs hengaged, hh.queues, hh.inQueue, hh.unready,
      hh.booting⟩, ⟨id, id⟩, fun a => ?_⟩
    rw [ContainerHandle.holds, ContainerHandle.holds, ContainerPump.inHand_eq hne h.dead true]
    simp [ContainerHandle.dead, ContainerHandle.jobs, hdead]

theorem removed_spec (hh : HandleInv covered h) (ok : Bool) :
    HandleSpec covered h (h.removed ok) [] :=
  ⟨⟨hh.fits, hh.queues, hh.inQueue, hh.unready, hh.booting⟩, ⟨id, id⟩, fun a => by
    simp [ContainerHandle.removed, ContainerHandle.holds, ContainerHandle.jobs, ContainerHandle.dead]⟩

/-- `_ensure_pump` starts a thread. -/
theorem startPump_spec (hh : HandleInv covered h) (hready : h.isReady = true)
    (hpump : h.pump = .ended) : HandleSpec covered h { h with pump := .starting } [] := by
  have hfits := hh.fits
  rw [hpump] at hfits
  have hor : h.jobs = [] ∨ covered := hfits
  refine ⟨⟨fun _ => hor, hh.queues, fun q hq => (by cases hq), fun h => ?_, hh.booting⟩, ⟨id, id⟩,
    fun a => ?_⟩
  · exact absurd hready (by simpa using h)
  · simp [ContainerHandle.holds, hpump, ContainerPump.inHand, ContainerHandle.jobs]

/-- `_enqueue_job` sets `BUSY`, where no call of `cancel` has a job in flight. -/
theorem setBusy_spec (hh : HandleInv covered h) (hG : h.dead = true → ∀ j, h.pump ≠ .inFlight j)
    (count : ℕ) :
    HandleSpec covered h { h with status := .busy, invocationCount := count } [] := by
  refine ⟨⟨hh.fits.revive, hh.queues, hh.inQueue, hh.unready, hh.booting⟩, ⟨id, id⟩, fun a => ?_⟩
  have hin : h.pump.inHand h.dead = h.pump.inHand false := by
    by_cases hdead : h.dead = true
    · exact ContainerPump.inHand_eq (hG hdead) h.dead false
    · rw [Bool.eq_false_iff.2 hdead]
  show (h.pump.inHand h.dead ++ h.jobs).count a = 0 + (h.pump.inHand false ++ h.jobs).count a
  rw [hin, Nat.zero_add]

/-- A job put on a queue that will be read. -/
theorem push_spec (hh : HandleInv covered h) (hready : h.isReady = true) (hmade : h.jobQueues ≠ [])
    (hreads : h.Reads) (job : JobId) :
    HandleInv covered (h.push 0 job) ∧ Keeps h (h.push 0 job) ∧
      ∀ a, (h.push 0 job).holds.count a = [job].count a + h.holds.count a := by
  obtain ⟨hjobs, hqueues, hmade'⟩ := push_jobs hh.queues hmade job
  refine ⟨⟨?_, hqueues, hh.inQueue, fun h => ?_, hh.booting⟩, ⟨fun _ => hmade', id⟩, fun a => ?_⟩
  · rcases hreads with ⟨hdead, hloops⟩ | hfails
    · exact ContainerPump.fits_of_loops hloops hdead
    · exact ContainerPump.fits_of_fails hfails
  · exact absurd hready (by simpa [ContainerHandle.push] using h)
  · rw [ContainerHandle.holds, hjobs, ContainerHandle.holds]
    show (h.pump.inHand h.dead ++ (h.jobs ++ [job])).count a = _
    simp only [List.count_append]
    omega

end Handle

/-! ### A job on its way to a handle -/

namespace Dispatch

/-- The job, once `invoke` has returned. -/
def holds (d : Dispatch) : List JobId := if d.cold = true then [d.job] else []

/-- The job, before `invoke` has returned. -/
def unaccepted (d : Dispatch) : List JobId := if d.cold = true then [] else [d.job]

/-- What the stage says about the dispatch and its handle. -/
def Fits (d : Dispatch) (h : ContainerHandle) : Prop :=
  match d.stage with
  | .placed | .claiming => d.cold = false
  | .waiting | .failed => d.cold = true
  | .ensuring | .looking | .creating => h.isReady = true
  | .marking | .putting => h.isReady = true ∧ h.jobQueues ≠ []

/-- The guard on a dispatch: it makes no queue where there is one, does not set `BUSY` while a call
of `cancel` has a job in flight, and puts the job on a queue that will be read. -/
def Orderly (d : Dispatch) (h : ContainerHandle) : Prop :=
  match d.stage with
  | .creating => h.jobQueues = []
  | .marking => h.dead = true → h.pump.engaged = false
  | .putting => h.Reads
  | _ => True

instance (d : Dispatch) (h : ContainerHandle) : Decidable (d.Orderly h) := by
  unfold Orderly
  split <;> infer_instance

end Dispatch

section Dispatch

variable {d : Dispatch} {h h' : ContainerHandle} {covered : Prop}

theorem Dispatch.Fits.keeps (hd : d.Fits h) (hkeeps : Keeps h h') : d.Fits h' := by
  cases hstage : d.stage <;> simp only [Dispatch.Fits, hstage] at hd ⊢
  case ensuring => exact hkeeps.ready hd
  case looking => exact hkeeps.ready hd
  case creating => exact hkeeps.ready hd
  case marking => exact ⟨hkeeps.ready hd.1, hkeeps.made hd.2⟩
  case putting => exact ⟨hkeeps.ready hd.1, hkeeps.made hd.2⟩
  all_goals exact hd

/-- What a piece of a dispatch does to its handle and to the job. -/
structure DispatchSpec (covered : Prop) (d : Dispatch) (h : ContainerHandle)
    (h' : ContainerHandle) : Prop where
  inv : HandleInv covered h'
  keeps : Keeps h h'
  next : ∀ d' ∈ d.next h, d'.handle = d.handle ∧ d'.Fits h'
  count : ∀ a, d.accepts.count a + d.holds.count a + h.holds.count a =
    (d.reports.map Prod.fst).count a + (held Dispatch.holds (d.next h).toList).count a +
      h'.holds.count a
  once : ∀ a, d.unaccepted.count a =
    d.accepts.count a + (held Dispatch.unaccepted (d.next h).toList).count a

/-- A piece of a dispatch that leaves the job where it is. -/
theorem DispatchSpec.of_stage (stage : DispatchStage) (hspec : HandleSpec covered h h' [])
    (hnext : d.next h = some { d with stage := stage }) (haccepts : d.accepts = [])
    (hreports : d.reports = []) (hfits : ({ d with stage := stage } : Dispatch).Fits h') :
    DispatchSpec covered d h h' := by
  refine ⟨hspec.inv, hspec.keeps, fun d' hd' => ?_, fun a => ?_, fun a => ?_⟩
  · rw [hnext] at hd'
    cases hd'
    exact ⟨rfl, hfits⟩
  · have := hspec.count a
    rw [haccepts, hreports, hnext]
    simp only [Option.toList_some, held_cons, held_nil, List.append_nil, List.map_nil, List.count_nil]
      at this ⊢
    show 0 + d.holds.count a + h.holds.count a = 0 + d.holds.count a + h'.holds.count a
    omega
  · rw [haccepts, hnext]
    simp only [Option.toList_some, held_cons, held_nil, List.append_nil, List.count_nil, Nat.zero_add]
    rfl

theorem HandleSpec.refl (hh : HandleInv covered h) : HandleSpec covered h h [] :=
  ⟨hh, ⟨id, id⟩, fun a => by simp⟩

/-- What a dispatch does, piece by piece. -/
theorem dispatch_spec (hh : HandleInv covered h) (hd : d.Fits h) (hG : d.Orderly h)
    {pumpLives : Bool} (hlives : pumpLives = false → h.pump = .ended) :
    DispatchSpec covered d h (d.onHandle h pumpLives) := by
  obtain ⟨job, i, cold, stage⟩ := d
  cases stage with
  | placed =>
    have hcold : cold = false := hd
    by_cases hready : h.isReady = true ∧ h.status.dead = false
    · exact .of_stage .ensuring (.refl hh) (by simp only [Dispatch.next, if_pos hready]) rfl rfl
        hready.1
    · exact .of_stage .claiming (.refl hh) (by simp only [Dispatch.next, if_neg hready]) rfl rfl
        hcold
  | waiting =>
    have hcold : cold = true := hd
    by_cases hready : h.isReady = true ∧ h.status.dead = false
    · exact .of_stage .ensuring (.refl hh) (by simp only [Dispatch.next, if_pos hready]) rfl rfl
        hready.1
    · exact .of_stage .failed (.refl hh) (by simp only [Dispatch.next, if_neg hready]) rfl rfl hcold
  | claiming =>
    obtain rfl : cold = false := hd
    have hdead : (if h.status.dead = true then h.status else .busy).dead = h.status.dead := by
      by_cases hdead : h.status.dead = true
      · rw [if_pos hdead]
      · rw [if_neg hdead, Bool.eq_false_iff.2 hdead]
        rfl
    refine ⟨⟨?_, hh.queues, hh.inQueue, hh.unready, hh.booting⟩, ⟨id, id⟩, fun d' hd' => ?_,
      fun a => ?_, fun a => ?_⟩
    · show h.pump.Fits (if h.status.dead = true then h.status else .busy).dead h.jobs covered
      rw [hdead]
      exact hh.fits
    · cases hd'
      exact ⟨rfl, rfl⟩
    · show [job].count a + 0 + (h.pump.inHand h.status.dead ++ h.jobs).count a = 0 + [job].count a +
        (h.pump.inHand (if h.status.dead = true then h.status else .busy).dead ++ h.jobs).count a
      rw [hdead]
      omega
    · rfl
  | failed =>
    obtain rfl : cold = true := hd
    refine ⟨hh, ⟨id, id⟩, fun d' hd' => (by cases hd'), fun a => ?_, fun a => rfl⟩
    show 0 + [job].count a + h.holds.count a = [job].count a + 0 + h.holds.count a
    omega
  | ensuring =>
    have hready : h.isReady = true := hd
    cases pumpLives with
    | true => exact .of_stage .looking (.refl hh) rfl rfl rfl hready
    | false => exact .of_stage .looking (startPump_spec hh hready (hlives rfl)) rfl rfl rfl hready
  | looking =>
    have hready : h.isReady = true := hd
    by_cases hqueues : h.jobQueues = []
    · exact .of_stage .creating (.refl hh) (by simp only [Dispatch.next, if_pos hqueues]) rfl rfl
        hready
    · exact .of_stage .marking (.refl hh) (by simp only [Dispatch.next, if_neg hqueues]) rfl rfl
        ⟨hready, hqueues⟩
  | creating =>
    have hready : h.isReady = true := hd
    have hqueues : h.jobQueues = [] := hG
    refine .of_stage .marking (newQueue_spec hh hready hqueues hh.fits hh.inQueue rfl) rfl rfl rfl
      ⟨hready, ?_⟩
    simp [Dispatch.onHandle, ContainerHandle.newQueue]
  | marking =>
    refine .of_stage .putting (setBusy_spec hh (fun hdead j hpump => ?_) _) rfl rfl rfl hd
    have : h.pump.engaged = false := hG hdead
    rw [hpump] at this
    cases this
  | putting =>
    obtain ⟨hready, hmade⟩ : h.isReady = true ∧ h.jobQueues ≠ [] := hd
    have hqueue : Dispatch.onHandle ⟨job, i, cold, .putting⟩ h pumpLives = h.push 0 job := by
      simp only [Dispatch.onHandle, hh.jobQueue]
    obtain ⟨hinv, hkeeps, hcount⟩ := push_spec hh hready hmade hG job
    rw [hqueue]
    refine ⟨hinv, hkeeps, fun d' hd' => (by cases hd'), fun a => ?_, fun a => ?_⟩
    · have := hcount a
      cases cold with
      | true =>
        show 0 + [job].count a + h.holds.count a = 0 + 0 + (h.push 0 job).holds.count a
        omega
      | false =>
        show [job].count a + 0 + h.holds.count a = 0 + 0 + (h.push 0 job).holds.count a
        omega
    · cases cold <;> rfl

end Dispatch

/-! ### A call of `cancel` -/

namespace ContainerCancel

/-- The jobs that the call has to report or to put back. -/
def holds : ContainerCancel → List JobId
  | .marked _ job | .stopping _ job | .settling _ job => [job]
  | .draining _ _ pending => pending
  | .reporting reports => reports.map Prod.fst
  | .rebuilding _ _ job isFound remaining _ | .restoring _ _ job isFound remaining _ =>
    (if isFound = true then [job] else []) ++ remaining
  | .checking _ _ | .looking _ _ _ | .found _ _ | .emptying _ => []

/-- The handle whose queue the call will drain. -/
def covers : ContainerCancel → Option ℕ
  | .marked i _ | .stopping i _ | .settling i _ | .emptying i | .draining i _ _ => some i
  | _ => none

/-- The queue that the call has in its hands. -/
def queue : ContainerCancel → Option ℕ
  | .draining _ q _ | .rebuilding _ q _ _ _ _ | .restoring _ q _ _ _ _ => some q
  | _ => none

/-- The handle to whose queue the call will put jobs back. -/
def restores : ContainerCancel → Option ℕ
  | .rebuilding i _ _ _ _ _ | .restoring i _ _ _ _ _ => some i
  | _ => none

/-- The handles that the call names. -/
def names : ContainerCancel → List ℕ
  | .checking _ candidates => candidates
  | .looking i _ candidates | .rebuilding i _ _ _ _ candidates | .restoring i _ _ _ _ candidates =>
    i :: candidates
  | .found i _ | .marked i _ | .stopping i _ | .settling i _ | .emptying i | .draining i _ _ => [i]
  | .reporting _ => []

/-- The guard on a call of `cancel`: it sets `CRASHED` on a live handle that still runs the job,
dismisses a handle that is spared, and puts jobs back on a queue that will be read. -/
def Orderly (h : ContainerHandle) : ContainerCancel → Prop
  | .found _ job => h.dead = false ∧ h.pump = .inFlight job
  | .marked _ _ => h.Spared
  | .restoring _ _ _ _ (_ :: _) _ => h.Reads
  | _ => True

instance (h : ContainerHandle) (c : ContainerCancel) : Decidable (c.Orderly h) := by
  unfold Orderly
  split <;> infer_instance

theorem handle_of_covers {c : ContainerCancel} {i : ℕ} (h : c.covers = some i) :
    c.handle = some i := by
  cases c <;> first | exact h | cases h

theorem handle_of_restores {c : ContainerCancel} {i : ℕ} (h : c.restores = some i) :
    c.handle = some i := by
  cases c <;> first | exact h | cases h

theorem mem_names_of_handle {c : ContainerCancel} {i : ℕ} (h : c.handle = some i) :
    i ∈ c.names := by
  cases c with
  | checking job candidates => exact List.mem_of_mem_head? h
  | reporting reports => cases h
  | looking k job candidates => exact List.mem_cons.2 (Or.inl (Option.some.inj h).symm)
  | rebuilding k q job isFound remaining candidates =>
    exact List.mem_cons.2 (Or.inl (Option.some.inj h).symm)
  | restoring k q job isFound remaining candidates =>
    exact List.mem_cons.2 (Or.inl (Option.some.inj h).symm)
  | _ => exact List.mem_singleton.2 (Option.some.inj h).symm

end ContainerCancel

/-- What a call of `cancel` has in its hands is there. -/
structure CancelFits (c : ContainerCancel) (handles : List ContainerHandle) : Prop where
  named : ∀ i ∈ c.names, i < handles.length
  queue : ∀ q ∈ c.queue, q = 0
  made : ∀ i ∈ c.restores, ∀ h ∈ handles[i]?, h.jobQueues ≠ []

/-- What a piece of a call of `cancel` does at its handle, where `others` says that another call
covers that. -/
structure CancelHandleSpec (others : Prop) (c : ContainerCancel) (h : ContainerHandle)
    (c' : Option ContainerCancel) (h' : ContainerHandle) : Prop where
  inv : HandleInv (others ∨ ∃ d ∈ c', d.covers ≠ none) h'
  keeps : Keeps h h'
  count : ∀ a, c.holds.count a + h.holds.count a =
    (c.reports.map Prod.fst).count a + (held ContainerCancel.holds c'.toList).count a +
      h'.holds.count a
  next : ∀ d ∈ c', d.names ⊆ c.names ∧ (d.covers ≠ none → d.covers = c.handle) ∧
    (∀ q ∈ d.queue, q = 0) ∧ (d.restores ≠ none → d.restores = c.handle ∧ h'.jobQueues ≠ [])

section Cancel

variable {c d : ContainerCancel} {h h' : ContainerHandle} {covered covered' others : Prop}
  {job : JobId}

theorem ContainerPump.Fits.of_empty {p : ContainerPump} {dead : Bool} {jobs : List JobId}
    (h : p.Fits dead jobs covered) (hjobs : jobs = []) : p.Fits dead jobs covered' := by
  cases p with
  | taken job => exact h
  | inFlight job => exact fun _ => Or.inl hjobs
  | _ => exact ContainerPump.fits_of_empty hjobs rfl

theorem HandleInv.of_empty (hh : HandleInv covered h) (hjobs : h.jobs = []) :
    HandleInv covered' h :=
  ⟨hh.fits.of_empty hjobs, hh.queues, hh.inQueue, hh.unready, hh.booting⟩

/-- Another thread takes a job from the queue. -/
theorem pop_handleInv (hh : HandleInv covered h) (hpop : h.pop 0 = some (job, h')) :
    HandleInv covered h' ∧ Keeps h h' ∧ h'.jobQueues ≠ [] ∧
      ∀ a, h.holds.count a = [job].count a + h'.holds.count a := by
  obtain ⟨rest, hjobs, hjobs', hmade₀, hmade, hqueues, heq⟩ := pop_eq_some hh.queues hpop
  have hpump : h'.pump = h.pump := by rw [heq]
  have hdead : h'.dead = h.dead := by
    rw [heq]
    rfl
  have hready : h'.isReady = h.isReady := by rw [heq]
  have hboot : h'.bootstrap = h.bootstrap := by rw [heq]
  refine ⟨⟨?_, hqueues, hpump ▸ hh.inQueue, fun h => ?_, fun h => ?_⟩, ⟨fun _ => hmade, hready ▸ id⟩,
    hmade, fun a => ?_⟩
  · rw [hpump, hdead]
    refine hh.fits.mono (fun hnil => ?_) id
    rw [hjobs] at hnil
    cases hnil
  · exact absurd (hh.unready (hready ▸ h)).2 hmade₀
  · exact hready ▸ hh.booting (hboot ▸ h)
  · rw [ContainerHandle.holds, ContainerHandle.holds, hjobs, hjobs', hpump, hdead]
    simp only [List.count_append, List.count_cons, List.count_nil]
    omega

/-- A piece of a call that only looks at its handle. -/
theorem CancelHandleSpec.of_look (hh : HandleInv (others ∨ c.covers ≠ none) h)
    (hholds : c.holds = []) (hreports : c.reports = []) (hcovers : c.covers = none)
    (hd : d.names ⊆ c.names) (hdholds : d.holds = []) (hdcovers : d.covers = none)
    (hqueue : ∀ q ∈ d.queue, q = 0)
    (hrestores : d.restores ≠ none → d.restores = c.handle ∧ h.jobQueues ≠ []) :
    CancelHandleSpec others c h (some d) h := by
  refine ⟨hh.mono (Or.imp_right fun h => absurd hcovers h), ⟨id, id⟩, fun a => ?_, ?_⟩
  · simp [hholds, hreports, hdholds]
  · rintro d ⟨⟩
    exact ⟨hd, fun h => absurd hdcovers h, hqueue, hrestores⟩

/-- A piece of a call that covers the handle before and after. -/
theorem CancelHandleSpec.of_cover (hspec : HandleSpec (others ∨ c.covers ≠ none) h h' [])
    (hcount : ∀ a, c.holds.count a = (c.reports.map Prod.fst).count a + d.holds.count a)
    (hcovers : d.covers = c.handle) (hne : d.covers ≠ none) (hd : d.names ⊆ c.names)
    (hqueue : ∀ q ∈ d.queue, q = 0) (hrestores : d.restores = none) :
    CancelHandleSpec others c h (some d) h' := by
  refine ⟨hspec.inv.mono (Or.imp_right fun _ => ⟨d, rfl, hne⟩), hspec.keeps, fun a => ?_, ?_⟩
  · have := hcount a
    have := hspec.count a
    simp only [Option.toList_some, held_cons, held_nil, List.append_nil, List.map_nil, List.count_nil]
      at this ⊢
    omega
  · rintro d ⟨⟩
    exact ⟨hd, fun _ => hcovers, hqueue, fun h => absurd hrestores h⟩

theorem found_handleSpec {i : ℕ} (hh : HandleInv (others ∨ (ContainerCancel.found i job).covers ≠ none) h)
    (hG : (ContainerCancel.found i job).Orderly h) :
    CancelHandleSpec others (.found i job) h (some (.marked i job)) { h with status := .crashed } := by
  obtain ⟨hdead, hpump⟩ := hG
  refine ⟨⟨?_, hh.queues, hh.inQueue, hh.unready, hh.booting⟩, ⟨id, id⟩, fun a => ?_, ?_⟩
  · show h.pump.Fits true h.jobs _
    rw [hpump]
    exact fun _ => Or.inr (Or.inr ⟨_, rfl, by simp [ContainerCancel.covers]⟩)
  · show 0 + (h.pump.inHand h.dead ++ h.jobs).count a =
      0 + ([job] ++ []).count a + (h.pump.inHand true ++ h.jobs).count a
    rw [hpump, hdead]
    simp only [ContainerPump.inHand, Bool.false_eq_true, if_false, if_true, List.count_append,
      List.count_nil]
    omega
  · rintro d ⟨⟩
    exact ⟨List.Subset.refl _, fun _ => rfl, fun q hq => (by cases hq), fun h => absurd rfl h⟩

theorem draining_handleSpec {i : ℕ} {pending : List JobId}
    (hh : HandleInv (others ∨ (ContainerCancel.draining i 0 pending).covers ≠ none) h) (ok : Bool) :
    CancelHandleSpec others (.draining i 0 pending) h
      ((ContainerCancel.draining i 0 pending).onHandle h ok).1
      ((ContainerCancel.draining i 0 pending).onHandle h ok).2 := by
  simp only [ContainerCancel.onHandle]
  split
  · rename_i j h₁ hpop
    obtain ⟨hinv, hkeeps, -, hcount⟩ := pop_handleInv hh hpop
    refine ⟨hinv.mono (Or.imp_right fun hne => ⟨_, rfl, hne⟩), hkeeps, fun a => ?_, ?_⟩
    · have := hcount a
      simp only [ContainerCancel.holds, ContainerCancel.reports, Option.toList_some, held_cons,
        held_nil, List.append_nil, List.map_nil, List.count_append, List.count_nil] at this ⊢
      omega
    · rintro d ⟨⟩
      exact ⟨List.Subset.refl _, fun _ => rfl, fun q hq => (by cases hq; rfl), fun h => absurd rfl h⟩
  · rename_i hpop
    refine ⟨hh.of_empty (pop_eq_none hh.queues hpop), ⟨id, id⟩, fun a => ?_, ?_⟩
    · simp [ContainerCancel.holds, ContainerCancel.reports, Function.comp_def]
    · rintro d ⟨⟩
      exact ⟨List.nil_subset _, fun h => absurd rfl h, fun q hq => (by cases hq),
        fun h => absurd rfl h⟩

theorem rebuilding_handleSpec {i : ℕ} {isFound : Bool} {remaining : List JobId}
    {candidates : List ℕ}
    (hh : HandleInv
      (others ∨ (ContainerCancel.rebuilding i 0 job isFound remaining candidates).covers ≠ none) h)
    (hmade : h.jobQueues ≠ [])
    (honce : ∀ a, (ContainerCancel.rebuilding i 0 job isFound remaining candidates).holds.count a +
      h.holds.count a ≤ 1) (ok : Bool) :
    CancelHandleSpec others (.rebuilding i 0 job isFound remaining candidates) h
      ((ContainerCancel.rebuilding i 0 job isFound remaining candidates).onHandle h ok).1
      ((ContainerCancel.rebuilding i 0 job isFound remaining candidates).onHandle h ok).2 := by
  simp only [ContainerCancel.onHandle]
  split
  · rename_i j h₁ hpop
    obtain ⟨hinv, hkeeps, hmade', hcount⟩ := pop_handleInv hh hpop
    have hinv' : ∀ {covered}, HandleInv (others ∨ covered) h₁ :=
      hinv.mono (Or.imp_right fun hne => absurd rfl hne)
    have hnext : ∀ {isFound remaining},
        ∀ d ∈ some (ContainerCancel.rebuilding i 0 job isFound remaining candidates),
        d.names ⊆ i :: candidates ∧ (d.covers ≠ none → d.covers = some i) ∧ (∀ q ∈ d.queue, q = 0) ∧
          (d.restores ≠ none → d.restores = some i ∧ h₁.jobQueues ≠ []) := by
      rintro isFound remaining d ⟨⟩
      exact ⟨List.Subset.refl _, fun h => absurd rfl h, fun q hq => (by cases hq; rfl),
        fun _ => ⟨rfl, hmade'⟩⟩
    split_ifs with hj
    · subst hj
      refine ⟨hinv', hkeeps, fun a => ?_, hnext⟩
      -- the job is not found twice
      have hfirst : isFound = false := by
        by_contra hfound
        have := honce j
        have hcount := hcount j
        simp only [ContainerCancel.holds, Bool.of_not_eq_false hfound, if_true, List.count_append,
          List.count_singleton_self] at this hcount
        omega
      have := hcount a
      simp only [ContainerCancel.holds, ContainerCancel.reports, hfirst, Option.toList_some, held_cons,
        held_nil, List.append_nil, List.map_nil, List.count_append, if_true, Bool.false_eq_true,
        if_false, List.count_nil] at this ⊢
      omega
    · refine ⟨hinv', hkeeps, fun a => ?_, hnext⟩
      have := hcount a
      simp only [ContainerCancel.holds, ContainerCancel.reports, Option.toList_some, held_cons,
        held_nil, List.append_nil, List.map_nil, List.count_append, List.count_nil] at this ⊢
      omega
  · refine ⟨hh.mono (Or.imp_right fun hne => absurd rfl hne), ⟨id, id⟩, fun a => ?_, ?_⟩
    · simp [ContainerCancel.holds, ContainerCancel.reports]
    · rintro d ⟨⟩
      exact ⟨List.Subset.refl _, fun h => absurd rfl h, fun q hq => (by cases hq; rfl),
        fun _ => ⟨rfl, hmade⟩⟩

theorem restoring_handleSpec {i : ℕ} {isFound : Bool} {remaining : List JobId}
    {candidates : List ℕ}
    (hh : HandleInv
      (others ∨ (ContainerCancel.restoring i 0 job isFound remaining candidates).covers ≠ none) h)
    (hmade : h.jobQueues ≠ []) (hready : h.isReady = true)
    (hG : (ContainerCancel.restoring i 0 job isFound remaining candidates).Orderly h) (ok : Bool) :
    CancelHandleSpec others (.restoring i 0 job isFound remaining candidates) h
      ((ContainerCancel.restoring i 0 job isFound remaining candidates).onHandle h ok).1
      ((ContainerCancel.restoring i 0 job isFound remaining candidates).onHandle h ok).2 := by
  have hcovers : ∀ {covered}, HandleInv (others ∨ covered) h :=
    hh.mono (Or.imp_right fun hne => absurd rfl hne)
  cases remaining with
  | cons j rest =>
    obtain ⟨hinv, hkeeps, hcount⟩ := push_spec hh hready hmade hG j
    refine ⟨hinv.mono (Or.imp_right fun hne => absurd rfl hne), hkeeps, fun a => ?_, ?_⟩
    · have := hcount a
      simp only [ContainerCancel.onHandle, ContainerCancel.holds, ContainerCancel.reports,
        Option.toList_some, held_cons, held_nil, List.append_nil, List.map_nil, List.count_append,
        List.count_cons, List.count_nil] at this ⊢
      omega
    · rintro d ⟨⟩
      exact ⟨List.Subset.refl _, fun h => absurd rfl h, fun q hq => (by cases hq; rfl),
        fun _ => ⟨rfl, hkeeps.made hmade⟩⟩
  | nil =>
    cases isFound with
    | true =>
      refine ⟨hcovers, ⟨id, id⟩, fun a => ?_, ?_⟩
      · simp [ContainerCancel.onHandle, ContainerCancel.holds, ContainerCancel.reports]
      · rintro d ⟨⟩
        exact ⟨List.nil_subset _, fun h => absurd rfl h, fun q hq => (by cases hq),
          fun h => absurd rfl h⟩
    | false =>
      refine ⟨hcovers, ⟨id, id⟩, fun a => ?_, ?_⟩
      · simp [ContainerCancel.onHandle, ContainerCancel.holds, ContainerCancel.reports]
      · rintro d ⟨⟩
        exact ⟨List.subset_cons_self _ _, fun h => absurd rfl h, fun q hq => (by cases hq),
          fun h => absurd rfl h⟩

/-- What a call of `cancel` does at its handle, piece by piece. -/
theorem cancel_spec {i : ℕ} (hh : HandleInv (others ∨ c.covers ≠ none) h)
    (hhandle : c.handle = some i) (hqueue : ∀ q ∈ c.queue, q = 0)
    (hmade : c.restores ≠ none → h.jobQueues ≠ []) (hG : c.Orderly h)
    (honce : ∀ a, c.holds.count a + h.holds.count a ≤ 1) (ok : Bool) :
    CancelHandleSpec others c h (c.onHandle h ok).1 (c.onHandle h ok).2 := by
  cases c with
  | checking job candidates =>
    cases candidates with
    | nil => cases hhandle
    | cons k candidates =>
      by_cases hcurrent : h.currentJobId = some job
      · simp only [ContainerCancel.onHandle, if_pos hcurrent]
        refine .of_look hh rfl rfl rfl ?_ rfl rfl (fun q hq => by cases hq) fun h => absurd rfl h
        simp [ContainerCancel.names]
      · simp only [ContainerCancel.onHandle, if_neg hcurrent]
        exact .of_look hh rfl rfl rfl (List.Subset.refl _) rfl rfl (fun q hq => by cases hq)
          fun h => absurd rfl h
  | looking k job candidates =>
    by_cases hqueues : h.jobQueues = []
    · simp only [ContainerCancel.onHandle, if_pos hqueues]
      exact .of_look hh rfl rfl rfl (List.subset_cons_self _ _) rfl rfl (fun q hq => by cases hq)
        fun h => absurd rfl h
    · simp only [ContainerCancel.onHandle, if_neg hqueues, hh.jobQueue]
      exact .of_look hh rfl rfl rfl (List.Subset.refl _) rfl rfl (fun q hq => by cases hq; rfl)
        fun _ => ⟨rfl, hqueues⟩
  | found k job => exact found_handleSpec hh hG
  | marked k job =>
    exact .of_cover (setDead_spec hh rfl hG) (fun a => by simp [ContainerCancel.holds,
      ContainerCancel.reports]) rfl (by simp [ContainerCancel.covers]) (List.Subset.refl _)
      (fun q hq => by cases hq) rfl
  | stopping k job =>
    exact .of_cover (removed_spec hh ok) (fun a => by simp [ContainerCancel.holds,
      ContainerCancel.reports]) rfl (by simp [ContainerCancel.covers]) (List.Subset.refl _)
      (fun q hq => by cases hq) rfl
  | settling k job =>
    exact .of_cover (.refl hh) (fun a => by simp [ContainerCancel.holds, ContainerCancel.reports])
      rfl (by simp [ContainerCancel.covers]) (List.Subset.refl _) (fun q hq => by cases hq) rfl
  | emptying k =>
    refine .of_cover (.refl hh) (fun a => by simp [ContainerCancel.holds, ContainerCancel.reports])
      rfl (by simp [ContainerCancel.covers]) (List.Subset.refl _) (fun q hq => ?_) rfl
    cases hq
    exact hh.jobQueue
  | draining k q pending =>
    obtain rfl : q = 0 := hqueue q rfl
    exact draining_handleSpec hh ok
  | reporting reports => cases hhandle
  | rebuilding k q job isFound remaining candidates =>
    obtain rfl : q = 0 := hqueue q rfl
    exact rebuilding_handleSpec hh (hmade (by simp [ContainerCancel.restores])) honce ok
  | restoring k q job isFound remaining candidates =>
    obtain rfl : q = 0 := hqueue q rfl
    have hmade := hmade (by simp [ContainerCancel.restores])
    exact restoring_handleSpec hh hmade (hh.ready_of_made hmade) hG ok

/-- What a call of `cancel` does away from the handles: it reports what it no longer holds. -/
theorem cancelAlone_spec (hhandle : c.handle = none) :
    (∀ d ∈ c.alone, ∃ reports, d = .reporting reports) ∧
      ∀ a, c.holds.count a =
        (c.reports.map Prod.fst).count a + (held ContainerCancel.holds c.alone.toList).count a := by
  cases c with
  | reporting reports =>
    cases reports with
    | nil => exact ⟨fun d hd => (by cases hd), fun a => rfl⟩
    | cons r rs =>
      refine ⟨fun d hd => ?_, fun a => ?_⟩
      · cases hd
        exact ⟨rs, rfl⟩
      · simp only [ContainerCancel.alone, ContainerCancel.holds, ContainerCancel.reports,
          List.map_cons, List.map_nil, Option.toList_some, held_cons, held_nil, List.append_nil,
          List.count_cons, List.count_nil]
        omega
  | checking job candidates =>
    cases candidates with
    | nil => exact ⟨fun d hd => (by cases hd), fun a => rfl⟩
    | cons i candidates => cases hhandle
  | _ => cases hhandle

end Cancel

/-! ### The runtime -/

/-- The steps that a thread takes by itself: nobody has to submit, cancel or dismiss anything for it,
and it does not only wait for a job. -/
def ContainerAction.GoesOn : ContainerAction → Prop
  | .pump _ .expire => False
  | .dispatch _ | .pump _ _ | .dismiss _ _ | .cancelStep _ _ => True
  | .grow _ _ _ | .pick _ _ | .boot _ _ | .select _ _ | .cancel _ => False

namespace ContainerRuntime

variable {maxInvocations : ℕ} {s t : ContainerRuntime} {a : ContainerAction}

/-- The jobs that some thread has still to report. -/
def held (s : ContainerRuntime) : List JobId :=
  Custody.held ContainerHandle.holds s.handles ++
    (Custody.held Dispatch.holds s.dispatches ++ Custody.held ContainerCancel.holds s.cancels)

/-- A call of `cancel` will drain the queue of the handle. -/
def Covered (cancels : List ContainerCancel) (i : ℕ) : Prop := ∃ c ∈ cancels, c.covers = some i

/-- The guard on the steps: the pump threads, the dispatches and the calls of `cancel` keep to their
guards, and a dismissal sets the status of a handle that is spared. -/
def Orderly (s : ContainerRuntime) : ContainerAction → Prop
  | .dispatch d => ∀ h ∈ s.handles[d.handle]?, d.Orderly h
  | .pump i p => ∀ h ∈ s.handles[i]?, h.PumpOrderly p
  | .dismiss d _ => d.marked = false → ∀ h ∈ s.handles[d.handle]?, h.Spared
  | .cancelStep c _ => ∀ i ∈ c.handle, ∀ h ∈ s.handles[i]?, c.Orderly h
  | .grow _ _ _ | .pick _ _ | .boot _ _ | .select _ _ | .cancel _ => True

instance (s : ContainerRuntime) : (a : ContainerAction) → Decidable (s.Orderly a)
  | .dispatch d => inferInstanceAs (Decidable (∀ h ∈ s.handles[d.handle]?, d.Orderly h))
  | .pump i p => inferInstanceAs (Decidable (∀ h ∈ s.handles[i]?, h.PumpOrderly p))
  | .dismiss d _ =>
    inferInstanceAs (Decidable (d.marked = false → ∀ h ∈ s.handles[d.handle]?, h.Spared))
  | .cancelStep c _ => inferInstanceAs (Decidable (∀ i ∈ c.handle, ∀ h ∈ s.handles[i]?, c.Orderly h))
  | .grow _ _ _ | .pick _ _ | .boot _ _ | .select _ _ | .cancel _ =>
    inferInstanceAs (Decidable True)

/-- The jobs in use by calls of `invoke` that have not returned, and those accepted. -/
def claimed (s : ContainerRuntime) : List JobId :=
  Custody.held Dispatch.unaccepted s.dispatches ++ s.accepted

/-- The invariant of the runs under the guard. -/
structure ContainerInv (s : ContainerRuntime) : Prop where
  handles : ∀ i h, s.handles[i]? = some h → HandleInv (Covered s.cancels i) h
  dispatches : ∀ d ∈ s.dispatches, ∃ h, s.handles[d.handle]? = some h ∧ d.Fits h
  cancels : ∀ c ∈ s.cancels, CancelFits c s.handles
  fresh : ∀ a, s.claimed.count a ≤ 1
  invoked : ∀ j ∈ s.claimed, j ∈ s.invoked
  balanced : Balanced s.accepted (s.reported.map Prod.fst) s.held

theorem containerInv_init : ContainerInv init where
  handles := by simp [init]
  dispatches := by simp [init]
  cancels := by simp [init]
  fresh := by simp [init, claimed]
  invoked := by simp [init, claimed]
  balanced := by
    intro a
    simp [init, held]

section Steps

variable {i : ℕ} {h h' : ContainerHandle}

theorem ContainerInv.accepted_nodup (H : ContainerInv s) : s.accepted.Nodup := by
  refine List.nodup_iff_count_le_one.2 fun a => ?_
  have := H.fresh a
  rw [claimed, List.count_append] at this
  omega

/-- What a handle and a call of `cancel` hold is held once. -/
theorem ContainerInv.count_le_one (H : ContainerInv s) {c : ContainerCancel} (hc : c ∈ s.cancels)
    (hh : s.handles[i]? = some h) (a : JobId) : c.holds.count a + h.holds.count a ≤ 1 := by
  have haccepted : s.accepted.count a ≤ 1 := List.nodup_iff_count_le_one.1 H.accepted_nodup a
  have hbalanced := H.balanced a
  have hhandle := count_le_held ContainerHandle.holds (List.mem_of_getElem? hh) a
  have hcancel := count_le_held ContainerCancel.holds hc a
  rw [held, List.count_append, List.count_append] at hbalanced
  omega

/-- The handles after one has changed, with other calls of `cancel`. -/
theorem handles_set (H : ContainerInv s) (hh : s.handles[i]? = some h)
    {cancels : List ContainerCancel} (hinv : HandleInv (Covered cancels i) h')
    (hcovered : ∀ k ≠ i, Covered s.cancels k → Covered cancels k) :
    ∀ k x, (s.handles.set i h')[k]? = some x → HandleInv (Covered cancels k) x := by
  intro k x hx
  rcases getElem?_set_cases hh hx with ⟨rfl, rfl⟩ | ⟨hne, hx⟩
  · exact hinv
  · exact (H.handles k x hx).mono (hcovered k hne)

theorem dispatches_set (H : ContainerInv s) (hh : s.handles[i]? = some h) (hkeeps : Keeps h h') :
    ∀ d ∈ s.dispatches, ∃ x, (s.handles.set i h')[d.handle]? = some x ∧ d.Fits x := by
  intro d hd
  obtain ⟨x, hx, hfits⟩ := H.dispatches d hd
  rcases eq_or_ne d.handle i with rfl | hne
  · obtain rfl : h = x := Option.some.inj (hh.symm.trans hx)
    exact ⟨h', getElem?_set_of_some hh h', hfits.keeps hkeeps⟩
  · exact ⟨x, by rwa [List.getElem?_set_ne hne.symm], hfits⟩

theorem cancelFits_set {c : ContainerCancel} (hc : CancelFits c s.handles)
    (hh : s.handles[i]? = some h) (hkeeps : Keeps h h') : CancelFits c (s.handles.set i h') := by
  refine ⟨fun k hk => ?_, hc.queue, fun k hk x hx => ?_⟩
  · rw [List.length_set]
    exact hc.named k hk
  · rcases getElem?_set_cases hh hx with ⟨rfl, rfl⟩ | ⟨-, hx⟩
    · exact hkeeps.made (hc.made k hk h hh)
    · exact hc.made k hk x hx

/-- A handle changes, with reports of what it no longer holds. -/
theorem ContainerInv.setHandle (H : ContainerInv s) (hh : s.handles[i]? = some h)
    {reports : List Report} (dismissals : List Dismissal)
    (hspec : HandleSpec (Covered s.cancels i) h h' reports) :
    ContainerInv { s with
      handles := s.handles.set i h'
      dismissals := dismissals
      reported := reports ++ s.reported } where
  handles := handles_set H hh hspec.inv fun _ _ => id
  dispatches := dispatches_set H hh hspec.keeps
  cancels := fun c hc => cancelFits_set (H.cancels c hc) hh hspec.keeps
  fresh := H.fresh
  invoked := H.invoked
  balanced := by
    intro a
    have hbalanced := H.balanced a
    have hset := count_held_set ContainerHandle.holds hh h' a
    have := hspec.count a
    rw [held, List.count_append] at hbalanced
    show s.accepted.count a = ((reports ++ s.reported).map Prod.fst).count a +
      (Custody.held ContainerHandle.holds (s.handles.set i h') ++
        (Custody.held Dispatch.holds s.dispatches ++
          Custody.held ContainerCancel.holds s.cancels)).count a
    rw [List.map_append, List.count_append, List.count_append]
    omega

/-- `_ensure_pump` starts a thread for a handle that has none. -/
theorem pump_of_not_lives (hh : s.handles[i]? = some h) (hlives : s.pumpLives h.serviceName = false) :
    h.pump = .ended := by
  have := List.any_eq_false.1 hlives h (List.mem_of_getElem? hh)
  simpa using this

theorem inv_dispatch (H : ContainerInv s) {d : Dispatch} (hG : Orderly s (.dispatch d))
    (hstep : s.step maxInvocations (.dispatch d) = some t) : ContainerInv t := by
  obtain ⟨h, hh, hstep⟩ := Option.bind_eq_some_iff.1 hstep
  split_ifs at hstep with hmem
  cases hstep
  obtain ⟨x, hx, hfits⟩ := H.dispatches d hmem
  obtain rfl : h = x := Option.some.inj (hh.symm.trans hx)
  have hspec := dispatch_spec (H.handles _ h hh) hfits (hG h hh) fun hlives =>
    pump_of_not_lives hh hlives
  have herase := count_held_erase Dispatch.unaccepted hmem
  have hclaimed : ∀ a, (Custody.held Dispatch.unaccepted ((d.next h).toList ++ s.dispatches.erase d) ++
      (d.accepts ++ s.accepted)).count a = s.claimed.count a := by
    intro a
    have := hspec.once a
    have := herase a
    rw [claimed, held_append]
    simp only [List.count_append]
    omega
  refine ⟨handles_set H hh hspec.inv fun _ _ => id, fun d' hd' => ?_,
    fun c hc => cancelFits_set (H.cancels c hc) hh hspec.keeps, fun a => ?_, fun j hj => ?_,
    fun a => ?_⟩
  · rcases List.mem_append.1 hd' with hd' | hd'
    · obtain ⟨hhandle, hfits'⟩ := hspec.next d' (Option.mem_toList.1 hd')
      exact ⟨_, by rw [hhandle]; exact getElem?_set_of_some hh _, hfits'⟩
    · exact dispatches_set H hh hspec.keeps d' (List.mem_of_mem_erase hd')
  · exact (hclaimed a).trans_le (H.fresh a)
  · have hpos := (hclaimed j).symm.trans_ge (List.count_pos_iff.2 hj)
    exact H.invoked j (List.count_pos_iff.1 hpos)
  · have hbalanced := H.balanced a
    have hset := count_held_set ContainerHandle.holds hh (d.onHandle h (s.pumpLives h.serviceName)) a
    have herase := count_held_erase Dispatch.holds hmem a
    have hcount := hspec.count a
    rw [held, List.count_append, List.count_append] at hbalanced
    show (d.accepts ++ s.accepted).count a = ((d.reports ++ s.reported).map Prod.fst).count a +
      (Custody.held ContainerHandle.holds (s.handles.set d.handle _) ++
        (Custody.held Dispatch.holds ((d.next h).toList ++ s.dispatches.erase d) ++
          Custody.held ContainerCancel.holds s.cancels)).count a
    rw [held_append]
    simp only [List.map_append, List.count_append]
    omega

theorem inv_pump (H : ContainerInv s) {p : ContainerStep} (hG : Orderly s (.pump i p))
    (hstep : s.step maxInvocations (.pump i p) = some t) : ContainerInv t := by
  obtain ⟨h, hh, hstep⟩ := Option.bind_eq_some_iff.1 hstep
  obtain ⟨⟨h', reports⟩, hp, rfl⟩ := Option.map_eq_some_iff.1 hstep
  exact H.setHandle hh s.dismissals (pumpStep_handleSpec (H.handles i h hh) (hG h hh) hp)

theorem inv_boot (H : ContainerInv s) {b : BootStep}
    (hstep : s.step maxInvocations (.boot i b) = some t) : ContainerInv t := by
  obtain ⟨h, hh, hstep⟩ := Option.bind_eq_some_iff.1 hstep
  obtain ⟨h', hb, rfl⟩ := Option.map_eq_some_iff.1 hstep
  exact H.setHandle hh s.dismissals (bootStep_handleSpec (H.handles i h hh) hb)

theorem inv_dismiss (H : ContainerInv s) {d : Dismissal} {ok : Bool} (hG : Orderly s (.dismiss d ok))
    (hstep : s.step maxInvocations (.dismiss d ok) = some t) : ContainerInv t := by
  obtain ⟨h, hh, hstep⟩ := Option.bind_eq_some_iff.1 hstep
  split_ifs at hstep with hmem hmarked
  · cases hstep
    exact H.setHandle hh _ (removed_spec (H.handles _ h hh) ok)
  · cases hstep
    have hspared := hG (Bool.eq_false_iff.2 hmarked) h hh
    exact H.setHandle hh _ (setDead_spec (H.handles _ h hh) rfl hspared)

theorem covered_erase_iff {c : ContainerCancel} (hmem : c ∈ s.cancels) (k : ℕ) :
    Covered s.cancels k ↔ Covered (s.cancels.erase c) k ∨ c.covers = some k := by
  constructor
  · rintro ⟨d, hd, hcovers⟩
    rcases eq_or_ne d c with rfl | hne
    · exact Or.inr hcovers
    · exact Or.inl ⟨d, (List.mem_erase_of_ne hne).2 hd, hcovers⟩
  · rintro (⟨d, hd, hcovers⟩ | hcovers)
    · exact ⟨d, List.mem_of_mem_erase hd, hcovers⟩
    · exact ⟨c, hmem, hcovers⟩

/-- A call of `cancel` goes on at a handle. -/
theorem inv_cancelAt (H : ContainerInv s) {c : ContainerCancel} (hmem : c ∈ s.cancels)
    (hhandle : c.handle = some i) (hh : s.handles[i]? = some h) (hG : c.Orderly h) (ok : Bool) :
    ContainerInv { s with
      handles := s.handles.set i (c.onHandle h ok).2
      cancels := (c.onHandle h ok).1.toList ++ s.cancels.erase c
      reported := c.reports ++ s.reported } := by
  have hfits := H.cancels c hmem
  have hcovers : ∀ k, c.covers = some k → k = i := fun k hk =>
    Option.some.inj ((ContainerCancel.handle_of_covers hk).symm.trans hhandle)
  have hinv : HandleInv (Covered (s.cancels.erase c) i ∨ c.covers ≠ none) h := by
    refine (H.handles i h hh).mono fun hcovered => ?_
    exact ((covered_erase_iff hmem i).1 hcovered).imp_right fun hc => by simp [hc]
  have hmade : c.restores ≠ none → h.jobQueues ≠ [] := by
    intro hne
    obtain ⟨k, hk⟩ := Option.ne_none_iff_exists'.1 hne
    obtain rfl : k = i :=
      Option.some.inj ((ContainerCancel.handle_of_restores hk).symm.trans hhandle)
    exact hfits.made k hk h hh
  have hspec := cancel_spec hinv hhandle hfits.queue hmade hG (H.count_le_one hmem hh) ok
  refine ⟨handles_set H hh (hspec.inv.mono ?_) fun k hne => ?_,
    dispatches_set H hh hspec.keeps, fun d hd => ?_, H.fresh, H.invoked, fun a => ?_⟩
  · rintro (⟨d, hd, hcovered⟩ | ⟨d, hd, hne⟩)
    · exact ⟨d, List.mem_append_right _ hd, hcovered⟩
    · refine ⟨d, List.mem_append_left _ (Option.mem_toList.2 hd), ?_⟩
      exact ((hspec.next d hd).2.1 hne).trans hhandle
  · intro hcovered
    rcases (covered_erase_iff hmem k).1 hcovered with ⟨d, hd, hdk⟩ | hck
    · exact ⟨d, List.mem_append_right _ hd, hdk⟩
    · exact absurd (hcovers k hck) hne
  · rcases List.mem_append.1 hd with hd | hd
    · obtain ⟨hnames, -, hqueue, hrestores⟩ := hspec.next d (Option.mem_toList.1 hd)
      refine ⟨fun k hk => ?_, hqueue, fun k hk x hx => ?_⟩
      · rw [List.length_set]
        exact hfits.named k (hnames hk)
      · obtain ⟨hsame, hmade'⟩ := hrestores (by simp [Option.mem_def.1 hk])
        obtain rfl : k = i := Option.some.inj (hk.symm.trans (hsame.trans hhandle))
        rw [getElem?_set_of_some hh] at hx
        cases hx
        exact hmade'
    · exact cancelFits_set (H.cancels d (List.mem_of_mem_erase hd)) hh hspec.keeps
  · have hbalanced := H.balanced a
    have hset := count_held_set ContainerHandle.holds hh (c.onHandle h ok).2 a
    have herase := count_held_erase ContainerCancel.holds hmem a
    have hcount := hspec.count a
    rw [held, List.count_append, List.count_append] at hbalanced
    show s.accepted.count a = ((c.reports ++ s.reported).map Prod.fst).count a +
      (Custody.held ContainerHandle.holds (s.handles.set i (c.onHandle h ok).2) ++
        (Custody.held Dispatch.holds s.dispatches ++
          Custody.held ContainerCancel.holds ((c.onHandle h ok).1.toList ++ s.cancels.erase c))).count a
    rw [held_append]
    simp only [List.map_append, List.count_append]
    omega

/-- A call of `cancel` goes on away from the handles. -/
theorem inv_cancelAlone (H : ContainerInv s) {c : ContainerCancel} (hmem : c ∈ s.cancels)
    (hhandle : c.handle = none) :
    ContainerInv { s with
      cancels := c.alone.toList ++ s.cancels.erase c
      reported := c.reports ++ s.reported } := by
  have hcovers : c.covers = none := by
    by_contra hne
    obtain ⟨k, hk⟩ := Option.ne_none_iff_exists'.1 hne
    rw [ContainerCancel.handle_of_covers hk] at hhandle
    cases hhandle
  obtain ⟨hnext, hcount⟩ := cancelAlone_spec hhandle
  refine ⟨fun k x hx => (H.handles k x hx).mono fun hcovered => ?_, H.dispatches, fun d hd => ?_,
    H.fresh, H.invoked, fun a => ?_⟩
  · rcases (covered_erase_iff hmem k).1 hcovered with ⟨d, hd, hdk⟩ | hck
    · exact ⟨d, List.mem_append_right _ hd, hdk⟩
    · rw [hcovers] at hck
      cases hck
  · rcases List.mem_append.1 hd with hd | hd
    · obtain ⟨reports, rfl⟩ := hnext d (Option.mem_toList.1 hd)
      exact ⟨fun k hk => (by cases hk), fun q hq => (by cases hq), fun k hk => (by cases hk)⟩
    · exact H.cancels d (List.mem_of_mem_erase hd)
  · have hbalanced := H.balanced a
    have herase := count_held_erase ContainerCancel.holds hmem a
    have := hcount a
    rw [held, List.count_append, List.count_append] at hbalanced
    show s.accepted.count a = ((c.reports ++ s.reported).map Prod.fst).count a +
      (Custody.held ContainerHandle.holds s.handles ++ (Custody.held Dispatch.holds s.dispatches ++
        Custody.held ContainerCancel.holds (c.alone.toList ++ s.cancels.erase c))).count a
    rw [held_append]
    simp only [List.map_append, List.count_append]
    omega

theorem inv_cancel (H : ContainerInv s) {job : JobId}
    (hstep : s.step maxInvocations (.cancel job) = some t) : ContainerInv t := by
  cases hstep
  refine ⟨fun k x hx => (H.handles k x hx).mono fun hcovered => ?_, H.dispatches, fun c hc => ?_,
    H.fresh, H.invoked, fun a => ?_⟩
  · obtain ⟨d, hd, hdk⟩ := hcovered
    exact ⟨d, List.mem_cons_of_mem _ hd, hdk⟩
  · rcases List.mem_cons.1 hc with rfl | hc
    · refine ⟨fun k hk => ?_, fun q hq => (by cases hq), fun k hk => (by cases hk)⟩
      exact List.mem_range.1 (List.mem_filter.1 hk).1
    · exact H.cancels c hc
  · exact H.balanced a

/-- A job id that is not in use. -/
theorem claimed_cons (H : ContainerInv s) {job : JobId} (hused : job ∉ s.invoked) :
    (∀ a, (job :: s.claimed).count a ≤ 1) ∧ ∀ j ∈ job :: s.claimed, j ∈ job :: s.invoked := by
  constructor
  · refine List.nodup_iff_count_le_one.1 (List.nodup_cons.2 ⟨fun hj => hused (H.invoked job hj), ?_⟩)
    exact List.nodup_iff_count_le_one.2 H.fresh
  · exact fun j hj => (List.mem_cons.1 hj).elim (fun heq => heq ▸ List.mem_cons_self)
      fun hj => List.mem_cons_of_mem _ (H.invoked j hj)

theorem inv_grow (H : ContainerInv s) {job : JobId} {serviceName : String} {maxDurationSeconds : ℤ}
    (hstep : s.step maxInvocations (.grow job serviceName maxDurationSeconds) = some t) :
    ContainerInv t := by
  simp only [step] at hstep
  split_ifs at hstep with hused
  cases hstep
  obtain ⟨hfresh, hinvoked⟩ := claimed_cons H hused
  refine ⟨fun k x hx => ?_, fun d hd => ?_, fun c hc => ?_, hfresh, hinvoked, fun a => ?_⟩
  · rcases getElem?_append_cases hx with hx | rfl
    · exact H.handles k x hx
    · exact handleInv_fresh _ _
  · rcases List.mem_cons.1 hd with rfl | hd
    · exact ⟨_, List.getElem?_concat_length, rfl⟩
    · obtain ⟨x, hx, hfits⟩ := H.dispatches d hd
      exact ⟨x, getElem?_append_of_some hx, hfits⟩
  · obtain ⟨hnamed, hqueue, hmade⟩ := H.cancels c hc
    refine ⟨fun k hk => ?_, hqueue, fun k hk x hx => ?_⟩
    · have := hnamed k hk
      rw [List.length_append]
      omega
    · have hlt := hnamed k (ContainerCancel.mem_names_of_handle
        (ContainerCancel.handle_of_restores hk))
      refine hmade k hk x ?_
      rwa [Option.mem_def, List.getElem?_append_left hlt] at hx
  · have hbalanced := H.balanced a
    rw [held, List.count_append] at hbalanced
    show s.accepted.count a = (s.reported.map Prod.fst).count a +
      (Custody.held ContainerHandle.holds (s.handles ++ [.fresh serviceName maxDurationSeconds]) ++
        (Custody.held Dispatch.holds s.dispatches ++
          Custody.held ContainerCancel.holds s.cancels)).count a
    rw [held_append, List.count_append, List.count_append]
    exact hbalanced

/-- One step under the guard keeps the invariant. -/
theorem ContainerInv.step (H : ContainerInv s) (hG : Orderly s a)
    (hstep : s.step maxInvocations a = some t) : ContainerInv t := by
  cases a with
  | grow job serviceName maxDurationSeconds => exact inv_grow H hstep
  | pick job i =>
    obtain ⟨h, hh, hstep⟩ := Option.bind_eq_some_iff.1 hstep
    split_ifs at hstep with hpick
    cases hstep
    obtain ⟨hfresh, hinvoked⟩ := claimed_cons H hpick.2
    refine ⟨H.handles, fun d hd => ?_, H.cancels, hfresh, hinvoked, H.balanced⟩
    rcases List.mem_cons.1 hd with rfl | hd
    · exact ⟨h, hh, rfl⟩
    · exact H.dispatches d hd
  | dispatch d => exact inv_dispatch H hG hstep
  | pump i p => exact inv_pump H hG hstep
  | boot i b => exact inv_boot H hstep
  | select i reason =>
    obtain ⟨h, -, hstep⟩ := Option.bind_eq_some_iff.1 hstep
    split_ifs at hstep
    cases hstep
    exact ⟨H.handles, H.dispatches, H.cancels, H.fresh, H.invoked, H.balanced⟩
  | dismiss d ok => exact inv_dismiss H hG hstep
  | cancel job => exact inv_cancel H hstep
  | cancelStep c ok =>
    simp only [ContainerRuntime.step] at hstep
    split_ifs at hstep with hmem
    cases hhandle : c.handle with
    | some i =>
      rw [hhandle] at hstep
      obtain ⟨h, hh, rfl⟩ := Option.map_eq_some_iff.1 hstep
      exact inv_cancelAt H hmem hhandle hh (hG i hhandle h hh) ok
    | none =>
      rw [hhandle] at hstep
      cases hstep
      exact inv_cancelAlone H hmem hhandle

/-- The invariant of a whole run. -/
theorem containerInv_of_reach (h : Reach (step maxInvocations) Orderly init s) : ContainerInv s :=
  h.invariant containerInv_init fun _ _ _ hs hG hstep => hs.step hG hstep

end Steps

/-! ### When nothing goes on any more -/

/-- No thread can go on. -/
def Quiescent (maxInvocations : ℕ) (s : ContainerRuntime) : Prop :=
  ∀ a : ContainerAction, a.GoesOn → s.step maxInvocations a = none

/-- A call of `cancel` goes on. -/
theorem not_quiescent_of_cancel (H : ContainerInv s) {c : ContainerCancel} (hc : c ∈ s.cancels) :
    ¬ s.Quiescent maxInvocations := by
  intro hquiet
  have hstuck := hquiet (.cancelStep c true) trivial
  simp only [step, if_pos hc] at hstuck
  cases hhandle : c.handle with
  | none =>
    rw [hhandle] at hstuck
    cases hstuck
  | some i =>
    have hi := (H.cancels c hc).named i (ContainerCancel.mem_names_of_handle hhandle)
    rw [hhandle] at hstuck
    simp [List.getElem?_eq_getElem hi] at hstuck

/-- When no thread can go on, none has a job. -/
theorem held_of_quiescent (H : ContainerInv s) (hquiet : s.Quiescent maxInvocations) :
    s.held = [] := by
  refine List.eq_nil_iff_forall_not_mem.2 fun j hj => ?_
  rcases List.mem_append.1 hj with hj | hj
  · obtain ⟨h, hh, hjh⟩ := mem_held.1 hj
    obtain ⟨i, hi⟩ := List.mem_iff_getElem?.1 hh
    rcases containerStep_of_holds (H.handles i h hi) (List.ne_nil_of_mem hjh) with
      ⟨p, hexpire, hp⟩ | ⟨c, hc, -⟩
    · have hgoes : (ContainerAction.pump i p).GoesOn := by
        cases p <;> trivial
      have hstuck := hquiet (.pump i p) hgoes
      simp only [step, hi, Option.bind_some, Option.map_eq_none_iff] at hstuck
      exact hp hstuck
    · exact not_quiescent_of_cancel H hc hquiet
  · rcases List.mem_append.1 hj with hj | hj
    · obtain ⟨d, hd, -⟩ := mem_held.1 hj
      obtain ⟨h, hh, -⟩ := H.dispatches d hd
      have hstuck := hquiet (.dispatch d) trivial
      simp only [step, hh, Option.bind_some, if_pos hd] at hstuck
      cases hstuck
    · obtain ⟨c, hc, -⟩ := mem_held.1 hj
      exact not_quiescent_of_cancel H hc hquiet

/-- How often `on_complete` has been called for a job. -/
def outcomeCount (s : ContainerRuntime) (job : JobId) : ℕ := (s.reported.map Prod.fst).count job

/-- Every accepted job has one outcome: never two, and none without having been accepted; until then
some thread has the job, so that in the end each accepted job has its outcome. -/
structure OneOutcome (maxInvocations : ℕ) (s : ContainerRuntime) : Prop where
  atMostOnce : ∀ j, s.outcomeCount j ≤ 1
  accepted : ∀ j, s.outcomeCount j ≠ 0 → j ∈ s.accepted
  kept : ∀ j ∈ s.accepted, s.outcomeCount j = 0 → j ∈ s.held
  complete : s.Quiescent maxInvocations → ∀ j ∈ s.accepted, s.outcomeCount j = 1

/-- In every run whose steps meet the guard, every accepted job has one outcome. -/
theorem outcome_of_reach (maxInvocations : ℕ) (s : ContainerRuntime)
    (h : Reach (step maxInvocations) Orderly init s) : OneOutcome maxInvocations s := by
  have H := containerInv_of_reach h
  have hcount : ∀ j ∈ s.accepted, s.accepted.count j = 1 := fun j hj =>
    List.count_eq_one_of_mem H.accepted_nodup hj
  refine ⟨fun j => ?_, fun j hj => ?_, fun j hj hnone => ?_, fun hquiet j hj => ?_⟩
  · exact (H.balanced.count_le j).trans (List.nodup_iff_count_le_one.1 H.accepted_nodup j)
  · have := H.balanced.count_le j
    exact List.count_pos_iff.1 (Nat.lt_of_lt_of_le (Nat.pos_of_ne_zero hj) this)
  · refine H.balanced.mem_kept ?_
    rw [hcount j hj]
    exact Nat.lt_one_iff.2 hnone
  · have hheld := held_of_quiescent H hquiet
    rw [outcomeCount, H.balanced.count_eq_of_notMem (by simp [hheld]), hcount j hj]

/-- A state where nothing goes on: the pump threads wait at empty queues or are gone. -/
theorem quiescent_of_idle (hdispatches : s.dispatches = []) (hdismissals : s.dismissals = [])
    (hcancels : s.cancels = [])
    (hhandles : ∀ h ∈ s.handles, h.pump = .ended ∨ h.pump = .getting 0 ∧ h.pop 0 = none) :
    s.Quiescent maxInvocations := by
  intro a ha
  cases a with
  | dispatch d => simp [step, hdispatches]
  | dismiss d ok => simp [step, hdismissals]
  | cancelStep c ok => simp [step, hcancels]
  | pump i p =>
    simp only [step, Option.bind_eq_none_iff, Option.map_eq_none_iff]
    intro h hh
    rcases hhandles h (List.mem_of_getElem? hh) with hpump | ⟨hpump, hpop⟩
    · cases p <;> simp [ContainerHandle.pumpStep, ContainerHandle.pumpGo, hpump]
    · cases p with
      | expire => exact absurd ha id
      | go => simp [ContainerHandle.pumpStep, ContainerHandle.pumpGo, hpump, hpop]
      | _ => simp [ContainerHandle.pumpStep, hpump]
  | _ => exact absurd ha id

/-- A job submitted to a new container, until the container runs it. -/
def coldStart : List ContainerAction :=
  [.grow "j1" "fn-f-v1" 0, .dispatch ⟨"j1", 0, false, .placed⟩, .dispatch ⟨"j1", 0, false, .claiming⟩,
    .boot 0 (.spawned true), .boot 0 .look, .boot 0 (.answer true),
    .dispatch ⟨"j1", 0, true, .waiting⟩, .dispatch ⟨"j1", 0, true, .ensuring⟩,
    .dispatch ⟨"j1", 0, true, .looking⟩, .dispatch ⟨"j1", 0, true, .creating⟩,
    .dispatch ⟨"j1", 0, true, .marking⟩, .dispatch ⟨"j1", 0, true, .putting⟩,
    .pump 0 .go, .pump 0 .go, .pump 0 .go, .pump 0 .go]

/-- A second job is queued behind the first, which is cancelled. -/
def cancelInFlight : List ContainerAction :=
  coldStart ++
    [.pick "j2" 0, .dispatch ⟨"j2", 0, false, .placed⟩, .dispatch ⟨"j2", 0, false, .ensuring⟩,
      .dispatch ⟨"j2", 0, false, .looking⟩, .dispatch ⟨"j2", 0, false, .marking⟩,
      .dispatch ⟨"j2", 0, false, .putting⟩, .cancel "j1", .cancelStep (.checking "j1" [0]) true,
      .cancelStep (.found 0 "j1") true, .cancelStep (.marked 0 "j1") true,
      .cancelStep (.stopping 0 "j1") true, .pump 0 .crash, .cancelStep (.settling 0 "j1") true,
      .pump 0 .go, .cancelStep (.emptying 0) true, .cancelStep (.draining 0 0 []) true,
      .cancelStep (.draining 0 0 ["j2"]) true, .cancelStep (.reporting [("j2", .crashed)]) true,
      .cancelStep (.reporting []) true]

theorem outcome_cancelInFlight :
    ∃ s, Reach (step 0) Orderly init s ∧ s.accepted = ["j2", "j1"] ∧ s.outcomeCount "j2" = 1 := by
  obtain ⟨s, hs, hP⟩ := exists_reach_of_guarded_run (step 0) Orderly init
    (fun s => s.accepted = ["j2", "j1"] ∧ s.dispatches = [] ∧ s.dismissals = [] ∧ s.cancels = [] ∧
      ∀ h ∈ s.handles, h.pump = .ended ∨ h.pump = .getting 0 ∧ h.pop 0 = none)
    cancelInFlight (by decide +kernel)
  obtain ⟨haccepted, hdispatches, hdismissals, hcancels, hhandles⟩ := of_decide_eq_true hP
  exact ⟨s, hs, haccepted, (outcome_of_reach 0 s hs).complete
    (quiescent_of_idle hdispatches hdismissals hcancels hhandles) "j2" (by simp [haccepted])⟩

/-- The sweep dismisses a container that runs its first job: the pump thread finds the handle dead
when the container disconnects, and reports nothing. -/
def dismissInFlight : List ContainerAction :=
  coldStart ++
    [.select 0 .maxInvocations, .dismiss ⟨0, false⟩ true, .dismiss ⟨0, true⟩ true, .pump 0 .crash,
      .pump 0 .go]

theorem no_outcome_dismissInFlight :
    ∃ s, Reach (step 1) Always init s ∧ s.Quiescent 1 ∧ "j1" ∈ s.accepted ∧
      s.outcomeCount "j1" = 0 ∧ ¬ OneOutcome 1 s := by
  obtain ⟨s, hs, hP⟩ := exists_reach_of_run (step 1) init
    (fun s => s.dispatches = [] ∧ s.dismissals = [] ∧ s.cancels = [] ∧
      (∀ h ∈ s.handles, h.pump = .ended ∨ h.pump = .getting 0 ∧ h.pop 0 = none) ∧
      "j1" ∈ s.accepted ∧ s.outcomeCount "j1" = 0)
    dismissInFlight (by decide +kernel)
  obtain ⟨hdispatches, hdismissals, hcancels, hhandles, haccepted, hnone⟩ := of_decide_eq_true hP
  have hquiet : s.Quiescent 1 := quiescent_of_idle hdispatches hdismissals hcancels hhandles
  refine ⟨s, hs, hquiet, haccepted, hnone, fun h => ?_⟩
  have := h.complete hquiet "j1" haccepted
  omega

end ContainerRuntime

end Axo
