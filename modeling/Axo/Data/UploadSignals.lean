import Axo.Data.OwnUpload

/-!
# One signal for each upload

How often the registry says that an upload is complete, and when.

* `Dataset.Signalled` is the invariant: either the upload was said to be complete, once, and all
  its chunks were accepted, or neither is the case and the backend has no chunk but those that
  were accepted;
* `Dataset.SignalGuard` is what a call needs to keep it: `_completed_uploads` is reset by `delete`
  only, so what was complete has to be deleted before it is registered again;
* `signalledOnce_of_reach` is the result for whole runs.
-/

namespace Axo

open Transition

namespace Dataset

variable (B : DataBackends)

/-- Every chunk of the record was accepted. -/
def AllAccepted (record : DataRecord) (accepted : Chunks) : Prop :=
  ∀ i : ℕ, (i : ℤ) < record.totalChunks → (accepted i).isSome

/-- A record that waits for chunks: it has those that were accepted, and not all of them. -/
structure Waiting (record : DataRecord) (chunks : String → Chunks) (accepted : Chunks) : Prop where
  present : ∀ i : ℕ, (i : ℤ) < record.totalChunks →
    ((chunks record.kind i).isSome ↔ (accepted i).isSome)
  incomplete : ¬ AllAccepted record accepted

/-- The invariant. -/
structure Signalled (d : Dataset) : Prop where
  completed : ∀ record, d.record = some record → d.completed = true →
    d.signals = 1 ∧ AllAccepted record d.accepted
  waiting : ∀ record, d.record = some record → d.completed = false →
    d.signals = 0 ∧ Waiting record d.chunks d.accepted
  unregistered : d.record = none → d.completed = false ∧ d.signals = 0
  stream : ∀ stream, d.stream = some stream →
    ∀ i : ℕ, i < stream.nextIndex → (d.streamed i).isSome

/-- What a call needs so that its record is signalled as complete when it is, and only then. -/
def SignalGuard (d : Dataset) : DataCall → Prop
  | .register _ _ kind totalSize chunkBytes _ _ _ =>
    Registers B kind totalSize chunkBytes →
      d.completed = false ∧ 0 ≤ DataRegistry.totalChunksFor totalSize chunkBytes ∧
        ∀ i ∈ chunkRange (DataRegistry.totalChunksFor totalSize chunkBytes),
          d.chunks kind i = none
  | .appendChunk _ _ =>
    ∀ stream ∈ d.stream, ∀ record ∈ d.record, d.completed = false → record.kind = stream.kind →
      (stream.nextIndex : ℤ) < record.totalChunks →
        (d.chunks record.kind stream.nextIndex).isSome = true
  | .finalizeStream _ _ => d.stream.isSome = true → d.completed = false
  | .storeChunk .. | .delete .. | .status _ | .openStream .. => True

instance (d : Dataset) : (call : DataCall) → Decidable (d.SignalGuard B call)
  | .register _ _ kind totalSize chunkBytes _ _ _ =>
    inferInstanceAs (Decidable (Registers B kind totalSize chunkBytes →
      d.completed = false ∧ 0 ≤ DataRegistry.totalChunksFor totalSize chunkBytes ∧
        ∀ i ∈ chunkRange (DataRegistry.totalChunksFor totalSize chunkBytes),
          d.chunks kind i = none))
  | .appendChunk _ _ =>
    inferInstanceAs (Decidable (∀ stream ∈ d.stream, ∀ record ∈ d.record,
      d.completed = false → record.kind = stream.kind →
        (stream.nextIndex : ℤ) < record.totalChunks →
          (d.chunks record.kind stream.nextIndex).isSome = true))
  | .finalizeStream _ _ =>
    inferInstanceAs (Decidable (d.stream.isSome = true → d.completed = false))
  | .storeChunk .. | .delete .. | .status _ | .openStream .. => inferInstanceAs (Decidable True)

variable {B} {d : Dataset} {record : DataRecord}

/-- A record all of whose chunks are there because they were accepted. -/
theorem full_iff_allAccepted {chunks : String → Chunks} {accepted : Chunks}
    (hpresent : ∀ i : ℕ, (i : ℤ) < record.totalChunks →
      ((chunks record.kind i).isSome ↔ (accepted i).isSome)) :
    Full record chunks ↔ AllAccepted record accepted := by
  constructor
  · intro hfull i hi
    exact (hpresent i hi).1 (hfull i (mem_chunkRange.2 hi))
  · intro hall i hi
    exact (hpresent i (mem_chunkRange.1 hi)).2 (hall i (mem_chunkRange.1 hi))

/-! ### The steps -/

theorem signalled_empty : empty.Signalled := by
  refine ⟨fun _ hrecord => ?_, fun _ hrecord => ?_, fun _ => ⟨rfl, rfl⟩, fun _ hstream => ?_⟩
  · cases hrecord
  · cases hrecord
  · cases hstream

theorem signalled_register (h : d.Signalled) {key : RecordKey} {format kind : String}
    {totalSize chunkBytes : ℤ} {now : ℚ} {contentHash : Option String} {contentHashAlgo : String}
    (hguard : d.SignalGuard B (.register key format kind totalSize chunkBytes now contentHash
      contentHashAlgo)) :
    (d.apply B (.register key format kind totalSize chunkBytes now contentHash
      contentHashAlgo)).Signalled := by
  simp only [apply]
  split_ifs with hregisters
  · obtain ⟨hnew, hnonneg, hclear⟩ := hguard hregisters
    have hpresent (i : ℕ) (hi : (i : ℤ) < DataRegistry.totalChunksFor totalSize chunkBytes) :
        (d.chunks kind i).isSome ↔ (Chunks.none i).isSome := by
      rw [hclear i (mem_chunkRange.2 hi)]
      rfl
    constructor
    · intro record hrecord hcompleted
      cases hrecord
      simp only [replaced, hnew, Bool.false_or, decide_eq_true_eq] at hcompleted
      refine ⟨?_, fun i hi => ?_⟩
      · simp [replaced, hcompleted, hnew]
      · rw [hcompleted] at hi
        omega
    · intro record hrecord hwaiting
      cases hrecord
      simp only [replaced, hnew, Bool.false_or, decide_eq_false_iff_not] at hwaiting
      refine ⟨?_, hpresent, fun hall => ?_⟩
      · simp [replaced, hwaiting]
      · have hzero : (0 : ℤ) < DataRegistry.totalChunksFor totalSize chunkBytes :=
          lt_of_le_of_ne hnonneg (Ne.symm hwaiting)
        exact absurd (hall 0 hzero) Bool.false_ne_true
    · intro hnone
      cases hnone
    · exact h.stream
  · exact h

theorem signalled_delete (h : d.Signalled) {key : RecordKey} {now : ℚ} :
    (d.apply B (.delete key now)).Signalled := by
  rcases hrecord : d.record with _ | record <;> simp only [apply, hrecord]
  · exact h
  · refine ⟨fun _ hnone => ?_, fun _ hnone => ?_, fun _ => ⟨rfl, rfl⟩, h.stream⟩
    · cases hnone
    · cases hnone

theorem signalled_storeChunk (h : d.Signalled) {key : RecordKey} {index : ℤ} {data : List UInt8}
    {now : ℚ} : (d.apply B (.storeChunk key index data now)).Signalled := by
  rcases hrecord : d.record with _ | record <;> simp only [apply, hrecord]
  · exact h
  split_ifs with haccepts
  · have hindex : ((index.toNat : ℕ) : ℤ) = index := Int.toNat_of_nonneg haccepts.1
    have haccepted (i : ℕ) (hi : (d.accepted i).isSome) :
        (Function.update d.accepted index.toNat (some data) i).isSome := by
      by_cases hi' : i = index.toNat
      · rw [hi', Function.update_self]
        rfl
      · rwa [Function.update_of_ne hi']
    cases hcompleted : d.completed with
    | true =>
      obtain ⟨hsignals, hall⟩ := h.completed record hrecord hcompleted
      constructor
      · intro record' hrecord' _
        obtain rfl : record = record' := Option.some.inj (hrecord.symm.trans hrecord')
        refine ⟨?_, fun i hi => haccepted i (hall i hi)⟩
        simp [stored, hcompleted, hsignals]
      · intro _ _ hwaiting
        simp [stored, hcompleted] at hwaiting
      · intro hnone
        exact absurd (hrecord.symm.trans hnone) (Option.some_ne_none record)
      · exact h.stream
    | false =>
      obtain ⟨hsignals, hpresent, -⟩ := h.waiting record hrecord hcompleted
      -- the chunk that is stored is the chunk that is accepted
      have hpresent' (i : ℕ) (hi : (i : ℤ) < record.totalChunks) :
          (write d.chunks record.kind index.toNat data record.kind i).isSome ↔
            (Function.update d.accepted index.toNat (some data) i).isSome := by
        rw [write, Function.update_self]
        by_cases hi' : i = index.toNat
        · rw [hi', Function.update_self, Function.update_self]
        · rw [Function.update_of_ne hi', Function.update_of_ne hi']
          exact hpresent i hi
      have hfull := full_iff_allAccepted hpresent'
      constructor
      · intro record' hrecord' hfull'
        obtain rfl : record = record' := Option.some.inj (hrecord.symm.trans hrecord')
        simp only [stored, hcompleted, Bool.false_or, decide_eq_true_eq] at hfull'
        refine ⟨?_, hfull.1 hfull'⟩
        simp [stored, hcompleted, hsignals, hfull']
      · intro record' hrecord' hwaiting
        obtain rfl : record = record' := Option.some.inj (hrecord.symm.trans hrecord')
        simp only [stored, hcompleted, Bool.false_or, decide_eq_false_iff_not] at hwaiting
        refine ⟨?_, hpresent', fun hall => hwaiting (hfull.2 hall)⟩
        simp [stored, hsignals, hwaiting]
      · intro hnone
        exact absurd (hrecord.symm.trans hnone) (Option.some_ne_none record)
      · exact h.stream
  · exact h

theorem signalled_openStream (h : d.Signalled) {key : RecordKey} {format kind : String}
    {chunkBytes : ℤ} : (d.apply B (.openStream key format kind chunkBytes)).Signalled := by
  refine ⟨h.completed, h.waiting, h.unregistered, fun stream hstream i hi => ?_⟩
  cases hstream
  exact absurd hi (Nat.not_lt_zero i)

theorem signalled_appendChunk (h : d.Signalled) {key : RecordKey} {data : List UInt8}
    (hguard : d.SignalGuard B (.appendChunk key data)) :
    (d.apply B (.appendChunk key data)).Signalled := by
  rcases hstream : d.stream with _ | stream <;> simp only [apply, hstream]
  · exact h
  split_ifs with hkind
  · refine ⟨h.completed, fun record hrecord hwaiting => ?_, h.unregistered,
      fun stream' hstream' i hi => ?_⟩
    · obtain ⟨hsignals, hpresent, hincomplete⟩ := h.waiting record hrecord hwaiting
      refine ⟨hsignals, fun i hi => ?_, hincomplete⟩
      rw [show (d.streamedOn stream data).accepted = d.accepted from rfl, ← hpresent i hi]
      show (write d.chunks stream.kind stream.nextIndex data record.kind i).isSome ↔ _
      unfold write
      by_cases hsame : record.kind = stream.kind
      · rw [hsame, Function.update_self]
        by_cases hi' : i = stream.nextIndex
        · subst hi'
          rw [Function.update_self, ← hsame]
          exact iff_of_true rfl (hguard stream hstream record hrecord hwaiting hsame hi)
        · rw [Function.update_of_ne hi']
      · rw [Function.update_of_ne hsame]
    · cases hstream'
      show (Function.update d.streamed stream.nextIndex (some data) i).isSome
      by_cases hi' : i = stream.nextIndex
      · rw [hi', Function.update_self]
        rfl
      · rw [Function.update_of_ne hi']
        exact h.stream stream hstream i (lt_of_le_of_ne (Nat.lt_succ_iff.1 hi) hi')
  · exact h

theorem signalled_finalizeStream (h : d.Signalled) {key : RecordKey} {now : ℚ}
    (hguard : d.SignalGuard B (.finalizeStream key now)) :
    (d.apply B (.finalizeStream key now)).Signalled := by
  rcases hstream : d.stream with _ | stream <;> simp only [apply, hstream]
  · exact h
  · have hnew : d.completed = false := hguard (by rw [hstream]; rfl)
    refine ⟨fun record hrecord _ => ?_, fun _ _ hwaiting => ?_, fun hnone => ?_,
      fun _ hnone => ?_⟩
    · cases hrecord
      refine ⟨?_, fun i hi => h.stream stream hstream i (Int.ofNat_lt.1 hi)⟩
      simp [replaced, hnew]
    · simp [replaced] at hwaiting
    · cases hnone
    · cases hnone

/-- A call that meets the guard keeps the invariant. -/
theorem signalled_apply (h : d.Signalled) {call : DataCall} (hguard : d.SignalGuard B call) :
    (d.apply B call).Signalled := by
  cases call with
  | register => exact signalled_register h hguard
  | delete => exact signalled_delete h
  | storeChunk => exact signalled_storeChunk h
  | status => exact h
  | openStream => exact signalled_openStream h
  | appendChunk => exact signalled_appendChunk h hguard
  | finalizeStream => exact signalled_finalizeStream h hguard

end Dataset

namespace DataHistory

variable (B : DataBackends)

/-- Since the dataset was last registered, finalized or deleted, its upload was said to be complete
at most once, and it was exactly when all chunks of its record have been accepted. -/
def SignalledOnce (h : DataHistory) (key : RecordKey) : Prop :=
  h.signals key ≤ 1 ∧
    (h.signals key = 1 ↔ ∃ record, h.store.catalog.lookup key = some record ∧
      Dataset.AllAccepted record (h.accepted key))

/-- The guard on the dataset that the call is about. -/
def SignalGuard (h : DataHistory) (call : DataCall) : Prop :=
  (h.dataset call.key).SignalGuard B call

instance (h : DataHistory) (call : DataCall) : Decidable (h.SignalGuard B call) := by
  unfold SignalGuard
  infer_instance

variable {B} {h : DataHistory} {key : RecordKey}

theorem signalledOnce_of_signalled (hsignalled : (h.dataset key).Signalled) :
    h.SignalledOnce key := by
  unfold SignalledOnce
  rcases hrecord : h.store.catalog.lookup key with _ | record
  · obtain ⟨-, hzero⟩ := hsignalled.unregistered hrecord
    have hsignals : h.signals key = 0 := hzero
    simp [hsignals]
  · rcases hcompleted : (h.dataset key).completed with _ | _
    · obtain ⟨hzero, -, hincomplete⟩ := hsignalled.waiting record hrecord hcompleted
      have hsignals : h.signals key = 0 := hzero
      rw [hsignals]
      refine ⟨Nat.zero_le _, fun hone => absurd hone (by decide), fun hall => ?_⟩
      obtain ⟨record', hrecord', hall⟩ := hall
      obtain rfl := Option.some.inj hrecord'
      exact absurd hall hincomplete
    · obtain ⟨hone, hall⟩ := hsignalled.completed record hrecord hcompleted
      have hsignals : h.signals key = 1 := hone
      rw [hsignals]
      exact ⟨le_rfl, fun _ => ⟨record, rfl, hall⟩, fun _ => rfl⟩

/-- In a run whose calls meet the guard, every upload is said to be complete once, as soon as it
is, in every state reached. -/
theorem signalledOnce_of_reach (hreach : Reach (step B) (SignalGuard B) {} h) (key : RecordKey) :
    h.SignalledOnce key := by
  have hinv := dataset_invariant Dataset.signalled_empty
    (fun _ _ hsignalled hguard => Dataset.signalled_apply hsignalled hguard) hreach
  exact signalledOnce_of_signalled (hinv.2 key)

/-- A dataset is uploaded, with one chunk twice, deleted and registered again. -/
theorem signalledOnce_afterDelete : ∃ h,
    Reach (step plainBackends) (SignalGuard plainBackends) {} h ∧
      h.SignalledOnce plainKey ∧ h.signals plainKey = 1 := by
  obtain ⟨h, hreach, htest⟩ := exists_reach_of_guarded_run (step plainBackends)
    (SignalGuard plainBackends) {} (fun h => decide (h.signals plainKey = 1))
    [plainRegister 3, .storeChunk plainKey 0 [1, 2] 0, .storeChunk plainKey 1 [3] 0,
      .storeChunk plainKey 1 [4] 0, .delete plainKey 1, plainRegister 2,
      .storeChunk plainKey 0 [5, 6] 2]
    (by decide +kernel)
  exact ⟨h, hreach, signalledOnce_of_reach hreach plainKey, of_decide_eq_true htest⟩

/-- The dataset is registered again without being deleted, and its second upload is never said to
be complete. -/
theorem unsignalled_reRegistered : ∃ h, Reach (step plainBackends) Always {} h ∧
    ¬ h.SignalledOnce plainKey := by
  obtain ⟨h, hreach, htest⟩ := exists_reach_of_run (step plainBackends) {}
    (fun h => decide (h.signals plainKey = 0) &&
      decide (h.store.catalog.lookup plainKey =
        some (DataStore.newRecord plainKey "raw" "fs" 2 2 0 none "sha256")) &&
      decide ((h.accepted plainKey 0).isSome = true))
    [plainRegister 2, .storeChunk plainKey 0 [1, 2] 0, plainRegister 2,
      .storeChunk plainKey 0 [5, 6] 2]
    (by decide +kernel)
  refine ⟨h, hreach, fun hsignalled => ?_⟩
  simp only [Bool.and_eq_true, decide_eq_true_eq] at htest
  obtain ⟨⟨hzero, hrecord⟩, haccepted⟩ := htest
  have hone := hsignalled.2.2 ⟨_, hrecord, fun i hi => ?_⟩
  · rw [hzero] at hone
    cases hone
  · have hi : (i : ℤ) < 1 := hi
    obtain rfl : i = 0 := by omega
    exact haccepted

end DataHistory

end Axo
