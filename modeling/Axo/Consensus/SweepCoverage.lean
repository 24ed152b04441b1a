import Axo.Consensus.ResultConsistency

/-!
# What a run of the sweep covers

The sweeper of `Axo.Consensus.ResultConsistency` over whole runs.

* `Kept` is the invariant of the requests: each is in the priority list that the first step after it
  takes;
* `Sound` is the invariant of the steps and passes: each step begins where the one before it left
  off, and a pass under way has steps enough left;
* `Sound.ends` says that the syncing thread comes to its end;
* `coversEverything_iff` is the result.
-/

namespace Axo

open Transition Rotation

/-! ### What is asked for is verified -/

namespace ConsistencySweeper

variable {s t : ConsistencySweeper} {a : SweepAct}

/-- The priority lists, with the one that the next step will take. -/
def drains (s : ConsistencySweeper) : List (List String) := s.drained ++ [s.priority]

/-- Each request is in the list that the first step after it takes. -/
def Kept (s : ConsistencySweeper) : Prop :=
  ∀ request ∈ s.requests, ∃ priority, s.drains[request.2]? = some priority ∧
    request.1 ∈ priority

/-- Lists to which others are added at the end keep what was asked for. -/
theorem Kept.of_prefix (h : s.Kept) (hrequests : t.requests = s.requests)
    (hdrains : s.drains <+: t.drains) : t.Kept := by
  intro request hrequest
  obtain ⟨priority, hpriority, hmem⟩ := h request (hrequests ▸ hrequest)
  obtain ⟨rest, hrest⟩ := hdrains
  refine ⟨priority, ?_, hmem⟩
  rw [← hrest, List.getElem?_append_left (List.getElem?_eq_some_iff.1 hpriority).1]
  exact hpriority

/-- The priority list is taken by a step that begins, and an empty one begins. -/
theorem drains_of_begin (hdrained : t.drained = s.drained ++ [s.priority])
    (hpriority : t.priority = []) : s.drains <+: t.drains := by
  rw [drains, drains, hdrained, hpriority]
  exact List.prefix_append _ _

theorem drains_of_eq (hdrained : t.drained = s.drained) (hpriority : t.priority = s.priority) :
    s.drains <+: t.drains := by
  rw [drains, drains, hdrained, hpriority]

/-- A step of the syncing thread leaves the lists as they are, or takes the priority list. -/
theorem drains_progress {process : SyncProcess} (hprocess : s.process = some process) :
    s.drains <+: (s.progress process.run process.stage).drains ∧
      (s.progress process.run process.stage).requests = s.requests := by
  obtain ⟨run, stage⟩ := process
  cases stage with
  | ready =>
    have hbegin : s.drained = s.steps.map SweepStep.priority := by
      simp [drained, hprocess, StepStage.taken]
    cases run with
    | periodic =>
      refine ⟨drains_of_begin ?_ rfl, rfl⟩
      rw [hbegin]
      rfl
    | manual known left done =>
      cases left with
      | none =>
        refine ⟨drains_of_eq ?_ rfl, rfl⟩
        rw [hbegin]
        exact List.append_nil _
      | some left =>
        cases left with
        | zero =>
          refine ⟨drains_of_eq ?_ rfl, rfl⟩
          rw [hbegin]
          exact List.append_nil _
        | succ left =>
          refine ⟨drains_of_begin ?_ rfl, rfl⟩
          rw [hbegin]
          rfl
  | drained priority =>
    refine ⟨drains_of_eq ?_ rfl, rfl⟩
    rw [drained, drained, hprocess]
    rfl
  | verifying st left =>
    have htaken : s.drained = s.steps.map SweepStep.priority ++ [st.priority] := by
      simp [drained, hprocess, StepStage.taken]
    cases left with
    | cons jobId left =>
      refine ⟨drains_of_eq ?_ rfl, rfl⟩
      rw [htaken]
      rfl
    | nil =>
      have hsteps : (s.steps ++ [st]).map SweepStep.priority =
          s.steps.map SweepStep.priority ++ [st.priority] := by simp
      cases run with
      | periodic =>
        refine ⟨drains_of_eq ?_ rfl, rfl⟩
        rw [htaken, ← hsteps]
        exact List.append_nil _
      | manual known left done =>
        refine ⟨drains_of_eq ?_ rfl, rfl⟩
        rw [htaken, ← hsteps]
        exact List.append_nil _

theorem mem_drains {k : ℕ} {priority : List String} :
    s.drains[k]? = some priority ↔ s.drained[k]? = some priority ∨
      k = s.begun ∧ priority = s.priority := by
  unfold drains begun
  rcases lt_trichotomy k s.drained.length with hlt | rfl | hgt
  · rw [List.getElem?_append_left hlt]
    exact ⟨Or.inl, fun h => h.resolve_right fun hk => absurd hk.1 hlt.ne⟩
  · rw [List.getElem?_concat_length, List.getElem?_eq_none le_rfl]
    constructor
    · intro h
      exact Or.inr ⟨rfl, (Option.some.inj h).symm⟩
    · rintro (h | ⟨-, rfl⟩)
      · cases h
      · rfl
  · rw [List.getElem?_eq_none (by rw [List.length_append, List.length_singleton]; omega),
      List.getElem?_eq_none hgt.le]
    exact iff_of_false (fun h => by cases h) fun h =>
      h.elim (fun h => by cases h) fun h => absurd h.1 hgt.ne'

/-- A request is put on the priority list, unless the id is there. -/
theorem kept_request (h : s.Kept) (jobId : String)
    (hstep : s.step (.requestPriorityCheck jobId) = some t) : t.Kept := by
  cases hstep
  intro request hrequest
  have hpriority (id : String) : id ∈ (if jobId ∈ s.priority then s.priority
      else s.priority ++ [jobId]) ↔ id ∈ s.priority ∨ id = jobId := by
    split_ifs with hmem
    · exact ⟨Or.inl, fun h => h.elim (fun h => h) fun h => h ▸ hmem⟩
    · rw [List.mem_append, List.mem_singleton]
  rcases List.mem_append.1 hrequest with hrequest | hrequest
  · obtain ⟨priority, hk, hmem⟩ := h request hrequest
    rcases mem_drains.1 hk with htaken | ⟨hnext, rfl⟩
    · exact ⟨priority, mem_drains.2 (Or.inl htaken), hmem⟩
    · exact ⟨_, mem_drains.2 (Or.inr ⟨hnext, rfl⟩), (hpriority _).2 (Or.inl hmem)⟩
  · obtain rfl := List.mem_singleton.1 hrequest
    exact ⟨_, mem_drains.2 (Or.inr ⟨rfl, rfl⟩), (hpriority _).2 (Or.inr rfl)⟩

theorem kept_step (h : s.Kept) (hstep : s.step a = some t) : t.Kept := by
  cases a with
  | markSynced jobId resultHash =>
    cases hstep
    exact h
  | markInconsistent jobId =>
    cases hstep
    exact h
  | requestPriorityCheck jobId => exact kept_request h jobId hstep
  | maybeRunPeriodic now intervalSeconds =>
    simp only [step] at hstep
    split_ifs at hstep with hbusy
    · cases hstep
      exact h
    · obtain ⟨hidle, -⟩ := not_or.1 hbusy
      have hnone : s.process = none := by simpa using hidle
      cases hstep
      refine h.of_prefix rfl (drains_of_eq ?_ rfl)
      rw [drained, drained, hnone]
      rfl
  | startManualSync =>
    simp only [step] at hstep
    split_ifs at hstep with hbusy
    · cases hstep
      exact h
    · have hnone : s.process = none := by simpa using hbusy
      cases hstep
      refine h.of_prefix rfl (drains_of_eq ?_ rfl)
      rw [drained, drained, hnone]
      rfl
  | advance =>
    obtain ⟨process, hprocess, rfl⟩ := Option.map_eq_some_iff.1 hstep
    obtain ⟨hdrains, hrequests⟩ := drains_progress hprocess
    exact h.of_prefix hrequests hdrains

/-! ### What the steps do -/

/-- What the steps so far have read. -/
def reads (s : ConsistencySweeper) : List ListRead :=
  s.steps.map SweepStep.read ++ (s.process.bind fun process => process.stage.read).toList

/-- What is known of a manual pass under way: its steps follow one another, those done are, and there
are enough of them. -/
structure PassSound (s : ConsistencySweeper) (known : List String) (left : Option ℕ)
    (done : List SweepStep) (stage : StepStage) : Prop where
  follows : ∃ p, Follows s.chunkSize p known (done.map SweepStep.read ++ stage.read.toList) s.cursor
    s.store.allJobIds
  verified : ∀ st ∈ done, st.Done s.chunkSize
  uncounted : left = none → done = [] ∧ stage.taken = none
  counted : ∀ k, left = some k → known.length < (done.length + k) * s.chunkSize
  busy : stage.taken.isSome = true → left ≠ some 0

/-- What is known of the thread that is syncing. -/
structure ProcessSound (s : ConsistencySweeper) (process : SyncProcess) : Prop where
  verifying : ∀ st left, process.stage = .verifying st left →
    st.verified ++ left = st.targets s.chunkSize
  manual : ∀ known left done, process.run = .manual known left done →
    s.PassSound known left done process.stage

/-- The invariant of the sweep. -/
structure Sound (s : ConsistencySweeper) : Prop where
  chunkSize : 0 < s.chunkSize
  history : ∃ p known, Follows s.chunkSize p known s.reads s.cursor s.store.allJobIds
  done : ∀ st ∈ s.steps, st.Done s.chunkSize
  process : ∀ process, s.process = some process → s.ProcessSound process
  passes : ∀ pass ∈ s.passes, pass.Ended s.chunkSize

theorem sound_init (store : ResultConsistencyStore) (chunkSize : ℤ) (cursor : ℕ) :
    (init store chunkSize cursor).Sound where
  chunkSize := by
    simp only [init]
    omega
  history := ⟨cursor, store.allJobIds, rfl, List.prefix_refl _⟩
  done st hst := by cases hst
  process process hprocess := by cases hprocess
  passes pass hpass := by cases hpass

theorem PassSound.grow {known : List String} {left : Option ℕ} {done : List SweepStep}
    {stage : StepStage} (h : s.PassSound known left done stage) {store : ResultConsistencyStore}
    (hgrows : s.store.allJobIds <+: store.allJobIds) :
    PassSound { s with store := store } known left done stage :=
  { h with
    follows := by
      obtain ⟨p, hfollows⟩ := h.follows
      exact ⟨p, hfollows.grow hgrows⟩ }

/-- A longer store changes nothing else. -/
theorem Sound.grow (h : s.Sound) {store : ResultConsistencyStore}
    (hgrows : s.store.allJobIds <+: store.allJobIds) : Sound { s with store := store } :=
  { h with
    history := by
      obtain ⟨p, known, hfollows⟩ := h.history
      exact ⟨p, known, hfollows.grow hgrows⟩
    process := fun process hprocess =>
      { verifying := (h.process process hprocess).verifying
        manual := fun known left done hrun =>
          ((h.process process hprocess).manual known left done hrun).grow hgrows } }

section progress

variable {known : List String} {left : Option ℕ} {done : List SweepStep} {run : SyncRun}
  {priority : List String} {st : SweepStep}

/-- A thread that reads nothing and has no step under way. -/
theorem reads_of_ready (hprocess : s.process = some ⟨run, .ready⟩) :
    s.reads = s.steps.map SweepStep.read := by
  simp [reads, hprocess, StepStage.read]

theorem reads_of_drained (hprocess : s.process = some ⟨run, .drained priority⟩) :
    s.reads = s.steps.map SweepStep.read := by
  simp [reads, hprocess, StepStage.read]

theorem reads_of_verifying {targets : List String}
    (hprocess : s.process = some ⟨run, .verifying st targets⟩) :
    s.reads = s.steps.map SweepStep.read ++ [st.read] := by
  simp [reads, hprocess, StepStage.read]

/-- A step begins. -/
theorem sound_begin (h : s.Sound) (hprocess : s.process = some ⟨run, .ready⟩)
    (hmanual : ∀ known left done, run = .manual known left done → left ≠ none ∧ left ≠ some 0) :
    Sound { s with process := some ⟨run, .drained s.priority⟩, priority := [] } :=
  { h with
    history := by
      obtain ⟨p, known, hfollows⟩ := h.history
      rw [reads_of_ready hprocess] at hfollows
      exact ⟨p, known, by rw [reads_of_drained rfl]; exact hfollows⟩
    process := by
      rintro process ⟨⟩
      refine ⟨fun st left hstage => (by cases hstage), fun known left done hrun => ?_⟩
      have hpass := (h.process _ hprocess).manual known left done hrun
      obtain ⟨hnone, hzero⟩ := hmanual known left done hrun
      exact ⟨hpass.follows, hpass.verified, fun hleft => absurd hleft hnone, hpass.counted,
        fun _ => hzero⟩ }

/-- A manual pass counts its steps. -/
theorem sound_count (h : s.Sound) (hprocess : s.process = some ⟨.manual known none done, .ready⟩) :
    (s.nextStep known none done).Sound :=
  { h with
    history := by
      obtain ⟨p, known, hfollows⟩ := h.history
      rw [reads_of_ready hprocess] at hfollows
      exact ⟨p, known, by rw [reads_of_ready rfl]; exact hfollows⟩
    process := by
      rintro process ⟨⟩
      refine ⟨fun st left hstage => (by cases hstage), ?_⟩
      rintro known' left' done' ⟨⟩
      have hpass := (h.process _ hprocess).manual known none done rfl
      obtain ⟨p, hfollows⟩ := hpass.follows
      refine ⟨hpass.follows, hpass.verified, fun hleft => (by cases hleft), ?_, fun htaken => ?_⟩
      · rintro k ⟨⟩
        obtain ⟨rfl, -⟩ := hpass.uncounted rfl
        have hknown := hfollows.known_isPrefix.length_le
        have hdiv := Nat.lt_mul_div_succ s.store.allJobIds.length h.chunkSize
        have hsteps : max 1 (s.store.allJobIds.length / s.chunkSize + 1) =
            s.store.allJobIds.length / s.chunkSize + 1 := max_eq_right (Nat.le_add_left 1 _)
        rw [hsteps, List.length_nil, Nat.zero_add, Nat.mul_comm]
        exact hknown.trans_lt hdiv
      · cases htaken }

/-- A manual pass ends. -/
theorem sound_endPass (h : s.Sound)
    (hprocess : s.process = some ⟨.manual known (some 0) done, .ready⟩) :
    (s.nextStep known (some 0) done).Sound :=
  { h with
    history := by
      obtain ⟨p, known, hfollows⟩ := h.history
      rw [reads_of_ready hprocess] at hfollows
      refine ⟨p, known, ?_⟩
      rw [reads, nextStep]
      simpa using hfollows
    process := fun process hnone => by cases hnone
    passes := by
      intro pass hmem
      rcases List.mem_append.1 hmem with hmem | hmem
      · exact h.passes pass hmem
      · obtain rfl := List.mem_singleton.1 hmem
        have hpass := (h.process _ hprocess).manual known (some 0) done rfl
        obtain ⟨p, hfollows⟩ := hpass.follows
        refine ⟨⟨p, s.cursor, s.store.allJobIds, s.store.nodup, ?_⟩, hpass.verified,
          hpass.counted 0 rfl⟩
        rw [StepStage.read, Option.toList_none, List.append_nil] at hfollows
        exact hfollows }

/-- A step reads the ids and moves the cursor. -/
theorem sound_read (h : s.Sound) (hprocess : s.process = some ⟨run, .drained priority⟩) :
    (s.progress run (.drained priority)).Sound := by
  refine { h with history := ?_, process := ?_ }
  · obtain ⟨p, known, hfollows⟩ := h.history
    rw [reads_of_drained hprocess] at hfollows
    exact ⟨p, known, by rw [reads_of_verifying rfl]; exact hfollows.read⟩
  · rintro process ⟨⟩
    refine ⟨?_, fun known left done hrun => ?_⟩
    · rintro st left ⟨⟩
      rfl
    · have hpass := (h.process _ hprocess).manual known left done hrun
      obtain ⟨p, hfollows⟩ := hpass.follows
      rw [StepStage.read, Option.toList_none, List.append_nil] at hfollows
      refine ⟨⟨p, hfollows.read⟩, hpass.verified, fun hleft => ?_, hpass.counted, hpass.busy⟩
      cases (hpass.uncounted hleft).2

/-- One target is verified. -/
theorem sound_verify (h : s.Sound) {jobId : String} {targets : List String}
    (hprocess : s.process = some ⟨run, .verifying st (jobId :: targets)⟩) :
    (s.progress run (.verifying st (jobId :: targets))).Sound := by
  refine { h with history := ?_, process := ?_ }
  · obtain ⟨p, known, hfollows⟩ := h.history
    rw [reads_of_verifying hprocess] at hfollows
    exact ⟨p, known, by rw [reads_of_verifying rfl]; exact hfollows⟩
  · rintro process ⟨⟩
    refine ⟨?_, fun known left done hrun => ?_⟩
    · rintro st' left ⟨⟩
      have hverifying := (h.process _ hprocess).verifying st _ rfl
      rw [List.append_assoc, List.singleton_append, hverifying]
      rfl
    · have hpass := (h.process _ hprocess).manual known left done hrun
      exact ⟨hpass.follows, hpass.verified, hpass.uncounted, hpass.counted, hpass.busy⟩

/-- A step ends. -/
theorem sound_endStep (h : s.Sound) (hprocess : s.process = some ⟨run, .verifying st []⟩) :
    (s.endStep st run).Sound := by
  have hdone : st.Done s.chunkSize := by
    have hverifying := (h.process _ hprocess).verifying st [] rfl
    rwa [List.append_nil] at hverifying
  have hsteps (st' : SweepStep) (hst : st' ∈ s.steps ++ [st]) : st'.Done s.chunkSize := by
    rcases List.mem_append.1 hst with hst | hst
    · exact h.done st' hst
    · exact List.mem_singleton.1 hst ▸ hdone
  obtain ⟨p, known, hfollows⟩ := h.history
  rw [reads_of_verifying hprocess] at hfollows
  cases run with
  | periodic =>
    refine { h with history := ⟨p, known, ?_⟩, done := hsteps, process := ?_ }
    · rw [reads, endStep]
      simpa using hfollows
    · exact fun process hnone => by cases hnone
  | manual known' left done =>
    refine { h with history := ⟨p, known, ?_⟩, done := hsteps, process := ?_ }
    · rw [reads_of_ready rfl, endStep]
      simpa using hfollows
    · rintro process ⟨⟩
      refine ⟨fun st left hstage => (by cases hstage), ?_⟩
      rintro known'' left' done' ⟨⟩
      have hpass := (h.process _ hprocess).manual known' left done rfl
      obtain ⟨q, hpassFollows⟩ := hpass.follows
      refine ⟨⟨q, ?_⟩, fun st' hst => ?_, fun hleft => ?_, fun k hk => ?_, fun htaken => ?_⟩
      · rw [List.map_append, StepStage.read, Option.toList_none, List.append_nil]
        exact hpassFollows
      · rcases List.mem_append.1 hst with hst | hst
        · exact hpass.verified st' hst
        · exact List.mem_singleton.1 hst ▸ hdone
      · cases (hpass.uncounted (Option.map_eq_none_iff.1 hleft)).2
      · obtain ⟨m, rfl, rfl⟩ := Option.map_eq_some_iff.1 hk
        have hm : m ≠ 0 := fun hzero => hpass.busy rfl (hzero ▸ rfl)
        have hcounted := hpass.counted m rfl
        have hsum : (done ++ [st]).length + m.pred = done.length + m := by
          rw [List.length_append, List.length_singleton, Nat.pred_eq_sub_one]
          omega
        rw [hsum]
        exact hcounted
      · cases htaken

end progress

theorem sound_progress (h : s.Sound) {process : SyncProcess}
    (hprocess : s.process = some process) : (s.progress process.run process.stage).Sound := by
  obtain ⟨run, stage⟩ := process
  cases stage with
  | ready =>
    cases run with
    | periodic => exact sound_begin h hprocess fun known left done hrun => by cases hrun
    | manual known left done =>
      cases left with
      | none => exact sound_count h hprocess
      | some left =>
        cases left with
        | zero => exact sound_endPass h hprocess
        | succ left =>
          refine sound_begin h hprocess ?_
          rintro known' left' done' ⟨⟩
          exact ⟨Option.some_ne_none _, by simp⟩
  | drained priority => exact sound_read h hprocess
  | verifying st targets =>
    cases targets with
    | nil => exact sound_endStep h hprocess
    | cons jobId targets => exact sound_verify h hprocess

/-- A thread starts to sync. -/
theorem sound_start (h : s.Sound) (hnone : s.process = none) {run : SyncRun}
    (hrun : run = .periodic ∨ run = .manual s.store.allJobIds none []) (lastRunAt : Option ℚ) :
    Sound { s with lastRunAt := lastRunAt, process := some ⟨run, .ready⟩ } := by
  refine { h with history := ?_, process := ?_ }
  · obtain ⟨p, known, hfollows⟩ := h.history
    have hreads : s.reads = s.steps.map SweepStep.read := by simp [reads, hnone]
    rw [hreads] at hfollows
    exact ⟨p, known, by rw [reads_of_ready rfl]; exact hfollows⟩
  · rintro process ⟨⟩
    refine ⟨fun st left hstage => (by cases hstage), fun known left done hmanual => ?_⟩
    rcases hrun with rfl | rfl
    · cases hmanual
    · cases hmanual
      exact ⟨⟨s.cursor, rfl, List.prefix_refl _⟩, fun st hst => (by cases hst),
        fun _ => ⟨rfl, rfl⟩, fun k hk => (by cases hk), fun htaken => by cases htaken⟩

/-- One step. -/
theorem sound_step (h : s.Sound) (hstep : s.step a = some t) : t.Sound := by
  cases a with
  | markSynced jobId resultHash =>
    cases hstep
    exact h.grow (keys_prefix_setEntry _ _ _)
  | markInconsistent jobId =>
    cases hstep
    exact h.grow (keys_prefix_setEntry _ _ _)
  | requestPriorityCheck jobId =>
    cases hstep
    exact ⟨h.chunkSize, h.history, h.done, fun process hprocess =>
      ⟨(h.process process hprocess).verifying, fun known left done hrun =>
        let hpass := (h.process process hprocess).manual known left done hrun
        ⟨hpass.follows, hpass.verified, hpass.uncounted, hpass.counted, hpass.busy⟩⟩, h.passes⟩
  | maybeRunPeriodic now intervalSeconds =>
    simp only [step] at hstep
    split_ifs at hstep with hbusy
    · cases hstep
      exact h
    · obtain ⟨hidle, -⟩ := not_or.1 hbusy
      cases hstep
      exact sound_start h (by simpa using hidle) (Or.inl rfl) _
  | startManualSync =>
    simp only [step] at hstep
    split_ifs at hstep with hbusy
    · cases hstep
      exact h
    · cases hstep
      exact sound_start h (by simpa using hbusy) (Or.inr rfl) s.lastRunAt
  | advance =>
    obtain ⟨process, hprocess, rfl⟩ := Option.map_eq_some_iff.1 hstep
    exact sound_progress h hprocess

/-! ### A thread that is syncing comes to its end -/

/-- The syncing thread comes to its end, when it is the only one to go on. -/
def Ends (s : ConsistencySweeper) : Prop :=
  ∃ k t, run step s (List.replicate k .advance) = some t ∧ t.process = none

theorem ends_of_advance (hstep : s.step .advance = some t) (h : t.Ends) : s.Ends := by
  obtain ⟨k, u, hrun, hnone⟩ := h
  refine ⟨k + 1, u, ?_, hnone⟩
  rw [List.replicate_succ, run_cons, hstep, Option.bind_some, hrun]

theorem ends_of_progress {process : SyncProcess} (hprocess : s.process = some process)
    (h : (s.progress process.run process.stage).Ends) : s.Ends := by
  refine ends_of_advance ?_ h
  rw [step, hprocess, Option.map_some]

/-- A step whose targets are known ends. -/
theorem ends_of_verifying {run : SyncRun} {st : SweepStep} {targets : List String}
    (hprocess : s.process = some ⟨run, .verifying st targets⟩)
    (hend : ∀ (u : ConsistencySweeper) st, (u.endStep st run).Ends) : s.Ends := by
  induction targets generalizing s st with
  | nil => exact ends_of_progress hprocess (hend s st)
  | cons jobId targets ih => exact ends_of_progress hprocess (ih rfl)

/-- A step that has begun ends. -/
theorem ends_of_drained {run : SyncRun} {priority : List String}
    (hprocess : s.process = some ⟨run, .drained priority⟩)
    (hend : ∀ (u : ConsistencySweeper) st, (u.endStep st run).Ends) : s.Ends :=
  ends_of_progress hprocess (ends_of_verifying rfl hend)

/-- A manual pass ends after the steps it has left. -/
theorem ends_of_left {known : List String} {left : ℕ} {done : List SweepStep}
    (hprocess : s.process = some ⟨.manual known (some left) done, .ready⟩) : s.Ends := by
  induction left generalizing s done with
  | zero => exact ends_of_progress hprocess ⟨0, _, rfl, rfl⟩
  | succ left ih =>
    exact ends_of_progress hprocess (ends_of_drained rfl fun u st => ih rfl)

theorem ends_endStep (h : s.Sound) {run : SyncRun} {stage : StepStage}
    (hprocess : s.process = some ⟨run, stage⟩) (hbusy : stage.taken.isSome = true)
    (u : ConsistencySweeper) (st : SweepStep) : (u.endStep st run).Ends := by
  cases run with
  | periodic => exact ⟨0, _, rfl, rfl⟩
  | manual known left done =>
    have hpass := (h.process _ hprocess).manual known left done rfl
    cases left with
    | none =>
      rw [(hpass.uncounted rfl).2] at hbusy
      cases hbusy
    | some left => exact ends_of_left rfl

/-- Whatever the thread is doing, it ends. -/
theorem Sound.ends (h : s.Sound) : s.Ends := by
  cases hprocess : s.process with
  | none => exact ⟨0, s, rfl, hprocess⟩
  | some process =>
    obtain ⟨run, stage⟩ := process
    cases stage with
    | ready =>
      cases run with
      | periodic =>
        exact ends_of_progress hprocess (ends_of_drained rfl fun u st => ⟨0, _, rfl, rfl⟩)
      | manual known left done =>
        cases left with
        | none => exact ends_of_progress hprocess (ends_of_left rfl)
        | some left => exact ends_of_left hprocess
    | drained priority => exact ends_of_drained hprocess (ends_endStep h hprocess rfl)
    | verifying st targets => exact ends_of_verifying hprocess (ends_endStep h hprocess rfl)

/-! ### Every run -/

/-- The priority checks that the step under way has taken. -/
def underWay (s : ConsistencySweeper) : List String :=
  ((s.process.bind fun process => process.stage.taken).getD [])

/-- A full pass covers everything: a manual pass what was known when it was started, a step what was
asked for before it and nothing twice, and enough steps over one list all of the list; and what was
asked for is verified since or still held. -/
structure CoversEverything (s : ConsistencySweeper) : Prop where
  manual : ∀ pass ∈ s.passes, ∀ id ∈ pass.known, id ∈ pass.verified
  priority : ∀ request ∈ s.requests, ∀ k st, s.steps[k]? = some st → request.2 ≤ k →
    ∃ j, request.2 ≤ j ∧ j ≤ k ∧ ∃ st', s.steps[j]? = some st' ∧ request.1 ∈ st'.verified
  kept : ∀ request ∈ s.requests,
    (∃ j st, request.2 ≤ j ∧ s.steps[j]? = some st ∧ request.1 ∈ st.verified) ∨
      request.1 ∈ s.underWay ∨ request.1 ∈ s.priority
  once : ∀ st ∈ s.steps, st.verified.Nodup
  rotation : ∀ before window after, s.steps = before ++ window ++ after →
    ∀ ids, (∀ st ∈ window, st.read.ids = ids) → ids.length ≤ window.length * s.chunkSize →
      ∀ id ∈ ids, ∃ st ∈ window, id ∈ st.verified

/-- A request made before a step began is verified at the step that was the next to begin. -/
theorem Kept.verified (h : s.Kept) (hsound : s.Sound) {request : String × ℕ}
    (hrequest : request ∈ s.requests) {st : SweepStep} (hst : s.steps[request.2]? = some st) :
    request.1 ∈ st.verified := by
  obtain ⟨priority, hdrains, hmem⟩ := h request hrequest
  have hpriority : s.drains[request.2]? = some st.priority := by
    have hlt := (List.getElem?_eq_some_iff.1 hst).1
    rw [drains, drained, List.append_assoc, List.getElem?_append_left (by simpa using hlt),
      List.getElem?_map, hst, Option.map_some]
  obtain rfl := Option.some.inj (hpriority.symm.trans hdrains)
  exact (hsound.done st (List.mem_of_getElem? hst)).mem_verified.2 (Or.inl hmem)

theorem Kept.held (h : s.Kept) (hsound : s.Sound) {request : String × ℕ}
    (hrequest : request ∈ s.requests) :
    (∃ j st, request.2 ≤ j ∧ s.steps[j]? = some st ∧ request.1 ∈ st.verified) ∨
      request.1 ∈ s.underWay ∨ request.1 ∈ s.priority := by
  by_cases hlt : request.2 < s.steps.length
  · have hst : s.steps[request.2]? = some s.steps[request.2] := List.getElem?_eq_getElem hlt
    exact Or.inl ⟨request.2, _, le_rfl, hst, h.verified hsound hrequest hst⟩
  · obtain ⟨priority, hdrains, hmem⟩ := h request hrequest
    rw [drains, drained, List.append_assoc,
      List.getElem?_append_right (by simpa using hlt)] at hdrains
    rcases List.mem_append.1 (List.mem_of_getElem? hdrains) with htaken | hlast
    · refine Or.inr (Or.inl ?_)
      rw [underWay, Option.mem_toList.1 htaken]
      exact hmem
    · exact Or.inr (Or.inr (List.mem_singleton.1 hlast ▸ hmem))

theorem Sound.rotation (h : s.Sound) {before window after : List SweepStep}
    (hsteps : s.steps = before ++ window ++ after) {ids : List String}
    (hsame : ∀ st ∈ window, st.read.ids = ids)
    (hlength : ids.length ≤ window.length * s.chunkSize) {id : String} (hid : id ∈ ids) :
    ∃ st ∈ window, id ∈ st.verified := by
  obtain ⟨p, known, hfollows⟩ := h.history
  rw [reads, hsteps, List.map_append, List.map_append, List.append_assoc, List.append_assoc]
    at hfollows
  obtain ⟨p₁, known₁, -, hfollows₁⟩ := hfollows.split
  obtain ⟨p₂, known₂, hwindow, hrest⟩ := hfollows₁.split
  have hnodup : known₂.Nodup := s.store.nodup.sublist hrest.known_isPrefix.sublist
  obtain ⟨r, hr, hmem⟩ := hwindow.mem_of_constant hnodup
    (fun r hr => by
      obtain ⟨st, hst, rfl⟩ := List.mem_map.1 hr
      exact hsame st hst)
    (by rwa [List.length_map]) hid
  obtain ⟨st, hst, rfl⟩ := List.mem_map.1 hr
  have hdone := h.done st (by
    rw [hsteps]
    exact List.mem_append_left _ (List.mem_append_right _ hst))
  exact ⟨st, hst, hdone.mem_verified.2 (Or.inr hmem)⟩

/-- In every state reached, whatever the store and the cursor were at first and whenever ids were
added and checks requested: everything is covered exactly if each manual pass came to all that was
known when it was started; and the thread that is syncing comes to its end. -/
theorem coversEverything_iff (store : ResultConsistencyStore) (chunkSize : ℤ) (cursor : ℕ)
    (h : Reach step Always (init store chunkSize cursor) s) :
    (s.CoversEverything ↔ ∀ pass ∈ s.passes, pass.ComesTo s.chunkSize) ∧ s.Ends := by
  have hsound : s.Sound := h.invariant (sound_init store chunkSize cursor)
    fun s a t hs _ hstep => sound_step hs hstep
  have hkept : s.Kept := h.invariant (fun request hrequest => by cases hrequest)
    fun s a t hs _ hstep => kept_step hs hstep
  refine ⟨⟨fun hcovers pass hpass => ?_, fun hcomes => ?_⟩, hsound.ends⟩
  · exact (hsound.passes pass hpass).verifies_iff.1 (hcovers.manual pass hpass)
  · refine ⟨fun pass hpass => ?_, fun request hrequest k st hst hle => ?_,
      fun request hrequest => hkept.held hsound hrequest, fun st hst => (hsound.done st hst).nodup,
      fun before window after hsteps ids hsame hlength id hid =>
        hsound.rotation hsteps hsame hlength hid⟩
    · exact (hsound.passes pass hpass).verifies_iff.2 (hcomes pass hpass)
    · have hlt : request.2 < s.steps.length :=
        hle.trans_lt (List.getElem?_eq_some_iff.1 hst).1
      exact ⟨request.2, le_rfl, hle, s.steps[request.2], List.getElem?_eq_getElem hlt,
        hkept.verified hsound hrequest (List.getElem?_eq_getElem hlt)⟩

/-- Two results are known, and a full pass is made. -/
def quietPass : List SweepAct :=
  [.markSynced "a" "1f", .markInconsistent "b", .startManualSync] ++ List.replicate 14 .advance

theorem coversEverything_quietPass :
    ∃ s, Reach step Always (init .empty 1 0) s ∧ s.passes.length = 1 ∧ s.CoversEverything := by
  obtain ⟨s, hreach, htest⟩ := exists_reach_of_run step (init .empty 1 0)
    (fun s => decide (s.passes.length = 1) && s.passes.all fun pass => decide (pass.start = 0))
    quietPass (by decide +kernel)
  obtain ⟨hone, hstart⟩ := Bool.and_eq_true_iff.1 htest
  refine ⟨s, hreach, of_decide_eq_true hone,
    ((coversEverything_iff .empty 1 0 hreach).1).2 fun pass hpass => ?_⟩
  exact SweepPass.comesTo_of_start (of_decide_eq_true (List.all_eq_true.1 hstart pass hpass))

/-- A periodic step has verified `a`; a full pass counts two results, and three more are added
before its first step. -/
def grownPass : List SweepAct :=
  [.markSynced "a" "1f", .markSynced "b" "2e", .maybeRunPeriodic 0 60] ++
    List.replicate 4 .advance ++ [.startManualSync, .advance, .markSynced "c" "3d",
      .markSynced "d" "4c", .markSynced "e" "5b"] ++ List.replicate 13 .advance

/-- The three steps of the pass verify `b`, `c` and `d`. -/
theorem not_coversEverything_grownPass :
    ∃ s, Reach step Always (init .empty 1 0) s ∧ ¬ s.CoversEverything := by
  obtain ⟨s, hreach, htest⟩ := exists_reach_of_run step (init .empty 1 0)
    (fun s => s.passes.any fun pass => decide ("a" ∈ pass.known) && decide ("a" ∉ pass.verified))
    grownPass (by decide +kernel)
  obtain ⟨pass, hpass, hmissed⟩ := List.any_eq_true.1 htest
  obtain ⟨hknown, hmissed⟩ := Bool.and_eq_true_iff.1 hmissed
  exact ⟨s, hreach, fun hcovers => of_decide_eq_true hmissed
    (hcovers.manual pass hpass "a" (of_decide_eq_true hknown))⟩

end ConsistencySweeper

end Axo
