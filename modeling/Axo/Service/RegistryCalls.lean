import Axo.Service.SyncViews

/-!
# The pieces of a registry call

No lock is held over a call of a registry.  It looks at its store and makes the record, it writes
the record, and the bridge that its event reaches reads the record back and marks it dirty; calls of
other threads, and everything else that an endpoint does, fall in between.

* `RegistryCall` is a call in progress, and `RegistryCall.advance` its next piece;
* `RegistryCall.finish` is the rest of a call, and `perform_eq_finish` says that it makes up
  `SyncNode.perform` with the beginning;
* `Settled` says that a call will mark what is stored under a key, or has yet to write there;
  `settled_advance` that a piece keeps it, but for a mark, which settles its key itself if it says
  what is stored.
-/

namespace Axo

open Diff

/-- What a registry writes under a key, and what a bridge notes of it. -/
inductive StoreEntry
  | function (key : RecordKey) (record : Option RegisteredFunction)
  | data (key : RecordKey) (record : Option DataRecord)
  | bucket (name : String) (bucket : DataBucket)
  deriving DecidableEq

namespace StoreEntry

def key : StoreEntry → SyncKey
  | .function key _ => .function key
  | .data key _ => .data key
  | .bucket name _ => .bucket name

def word : StoreEntry → Option SyncRecord
  | .function _ record => record.map .function
  | .data _ record => record.map .data
  | .bucket _ record => some (.bucket record)

end StoreEntry

namespace SyncNode

/-- A `put` or a `delete` of a backend. -/
def put (n : SyncNode) : StoreEntry → SyncNode
  | .function key (some record) => { n with functions := n.functions.insert key record }
  | .function key none => { n with functions := n.functions.erase key }
  | .data key (some record) => { n with catalog := n.catalog.insert key record }
  | .data key none => { n with catalog := n.catalog.erase key }
  | .bucket name bucket => { n with buckets := n.buckets.insert name bucket }

/-- The read of a bridge; a deletion is not read back. -/
def read (n : SyncNode) : RegistryEvent → Option StoreEntry
  | .functionRegistered key | .functionUpdated key =>
    (n.functions.lookup key).map fun record => .function key (some record)
  | .functionDeleted key => some (.function key none)
  | .dataRegistered key => (n.catalog.lookup key).map fun record => .data key (some record)
  | .dataDeleted key => some (.data key none)
  | .bucketRegistered name => (n.buckets.lookup name).map fun bucket => .bucket name bucket

/-- The mark of a bridge. -/
def mark (n : SyncNode) (now : ℚ) : StoreEntry → SyncNode
  | .function key (some record) =>
    { n with
      dirtyTracker := n.dirtyTracker.markFunctionDirty (.of key)
        (.record (serializeFunctionRecord record.toStoredFunction)) now }
  | .function key none =>
    { n with dirtyTracker := n.dirtyTracker.markFunctionDirty (.of key) .tombstone now }
  | .data key (some record) =>
    { n with dirtyTracker := n.dirtyTracker.markDataDirty (.of key) (.record record) now }
  | .data key none =>
    { n with dirtyTracker := n.dirtyTracker.markDataDirty (.of key) .tombstone now }
  | .bucket name bucket =>
    { n with dirtyTracker := n.dirtyTracker.markBucketDirty name bucket now }

variable {n : SyncNode} {entry : StoreEntry} {event : RegistryEvent}

/-! ### Writes, reads and marks -/

theorem stored_put (n : SyncNode) (entry : StoreEntry) :
    (n.put entry).stored = Function.update n.stored entry.key entry.word := by
  rcases entry with ⟨key, _ | record⟩ | ⟨key, _ | record⟩ | ⟨name, bucket⟩
  · exact storeOf_erase_function key
  · exact storeOf_insert_function key record
  · exact storeOf_erase_data key
  · exact storeOf_insert_data key record
  · exact storeOf_insert_bucket name bucket

theorem dirtyTracker_put (n : SyncNode) (entry : StoreEntry) :
    (n.put entry).dirtyTracker = n.dirtyTracker := by
  rcases entry with ⟨key, _ | record⟩ | ⟨key, _ | record⟩ | ⟨name, bucket⟩ <;> rfl

theorem sameRest_put (n : SyncNode) (entry : StoreEntry) : SameRest n (n.put entry) := by
  rcases entry with ⟨key, _ | record⟩ | ⟨key, _ | record⟩ | ⟨name, bucket⟩ <;>
    exact ⟨rfl, rfl, rfl⟩

theorem stored_mark (n : SyncNode) (now : ℚ) (entry : StoreEntry) :
    (n.mark now entry).stored = n.stored := by
  rcases entry with ⟨key, _ | record⟩ | ⟨key, _ | record⟩ | ⟨name, bucket⟩ <;> rfl

theorem sameRest_mark (n : SyncNode) (now : ℚ) (entry : StoreEntry) :
    SameRest n (n.mark now entry) := by
  rcases entry with ⟨key, _ | record⟩ | ⟨key, _ | record⟩ | ⟨name, bucket⟩ <;>
    exact ⟨rfl, rfl, rfl⟩

theorem pending_mark (n : SyncNode) (now : ℚ) (entry : StoreEntry) :
    (n.mark now entry).dirtyTracker.pending =
      Function.update n.dirtyTracker.pending entry.key (some entry.word) := by
  rw [← andThen_single]
  rcases entry with ⟨key, _ | record⟩ | ⟨key, _ | record⟩ | ⟨name, bucket⟩
  · exact DirtyTracker.pending_markFunctionDirty n.dirtyTracker now key .tombstone
  · refine (DirtyTracker.pending_markFunctionDirty n.dirtyTracker now key _).trans ?_
    rw [Blob.stored, SyncRecord.ofFunctionDoc, deserializeFunctionRecord_serialize]
    rfl
  · exact DirtyTracker.pending_markDataDirty n.dirtyTracker now key .tombstone
  · exact DirtyTracker.pending_markDataDirty n.dirtyTracker now key _
  · exact DirtyTracker.pending_markBucketDirty n.dirtyTracker now name bucket

/-- What is read is about the key of the event, and a tombstone exactly when the event is that of a
deletion. -/
theorem read_eq_some (h : n.read event = some entry) :
    event.key = entry.key ∧ event.deletes = entry.word.isNone := by
  cases event with
  | functionRegistered key | functionUpdated key | dataRegistered key | bucketRegistered key =>
    obtain ⟨record, -, rfl⟩ := Option.map_eq_some_iff.1 h
    exact ⟨rfl, rfl⟩
  | functionDeleted key | dataDeleted key =>
    cases h
    exact ⟨rfl, rfl⟩

/-- What is read is stored, unless it is read of a deletion. -/
theorem word_of_read (h : n.read event = some entry) (hdeletes : event.deletes = false) :
    n.stored event.key = entry.word := by
  cases event with
  | functionRegistered key | functionUpdated key | dataRegistered key | bucketRegistered key =>
    obtain ⟨record, hrecord, rfl⟩ := Option.map_eq_some_iff.1 h
    exact congrArg (Option.map _) hrecord
  | functionDeleted key | dataDeleted key => cases hdeletes

/-- Nothing is read where nothing is stored. -/
theorem stored_of_read_none (h : n.read event = none) :
    event.deletes = false ∧ n.stored event.key = none := by
  cases event with
  | functionRegistered key | functionUpdated key | dataRegistered key | bucketRegistered key =>
    exact ⟨rfl, congrArg (Option.map _) (Option.map_eq_none_iff.1 h)⟩
  | functionDeleted key | dataDeleted key => cases h

/-- What has just been written is read back. -/
theorem read_put (n : SyncNode) (hkey : event.key = entry.key)
    (hdeletes : event.deletes = entry.word.isNone) : (n.put entry).read event = some entry := by
  rcases entry with ⟨key, _ | record⟩ | ⟨key, _ | record⟩ | ⟨name, bucket⟩ <;> cases event <;>
    cases hkey
  case function.none.functionDeleted | data.none.dataDeleted => rfl
  case function.some.functionRegistered | function.some.functionUpdated =>
    simp [put, read, AList.lookup_insert]
  case data.some.dataRegistered | bucket.bucketRegistered =>
    simp [put, read, AList.lookup_insert]
  all_goals cases hdeletes

/-- A bridge reads and marks. -/
theorem notify_eq (n : SyncNode) (now : ℚ) (event : RegistryEvent) :
    n.notify now event = (n.read event).elim n (n.mark now) := by
  cases event with
  | functionRegistered key | functionUpdated key =>
    simp only [notify, read, RegistrySyncBridge.onFunctionEvent]
    cases n.functions.lookup key <;> rfl
  | dataRegistered key =>
    simp only [notify, read, DataRegistrySyncBridge.onDataEvent]
    cases n.catalog.lookup key <;> rfl
  | bucketRegistered name =>
    simp only [notify, read, BucketRegistrySyncBridge.onBucketEvent]
    cases n.buckets.lookup name <;> rfl
  | functionDeleted key | dataDeleted key => rfl

end SyncNode

/-! ### Calls in progress -/

/-- What a registry is about to write, and the event that it emits then. -/
structure RegistryPut where
  entry : StoreEntry
  event : RegistryEvent
  sameKey : event.key = entry.key
  deletes : event.deletes = entry.word.isNone
  deriving DecidableEq

/-- A call of a registry in progress. -/
inductive RegistryCall
  /-- the record is made, and is to be written -/
  | putting (p : RegistryPut)
  /-- the event is emitted -/
  | raised (event : RegistryEvent)
  /-- the bridge has read the record back, and is to mark it -/
  | marking (entry : StoreEntry)
  deriving DecidableEq

/-- The key that the call is about. -/
def RegistryCall.key : RegistryCall → SyncKey
  | .putting p => p.entry.key
  | .raised event => event.key
  | .marking entry => entry.key

/-- The next piece of a call, which may be the last. -/
def RegistryCall.advance (n : SyncNode) (now : ℚ) : RegistryCall → SyncNode × Option RegistryCall
  | .putting p => (n.put p.entry, some (.raised p.event))
  | .raised event => (n, (n.read event).map .marking)
  | .marking entry => (n.mark now entry, none)

/-- The rest of a call. -/
def RegistryCall.finish (n : SyncNode) (now : ℚ) : RegistryCall → SyncNode
  | .putting p => (n.put p.entry).notify now p.event
  | .raised event => n.notify now event
  | .marking entry => n.mark now entry

/-- The write that makes a record what it is. -/
def RegistryPut.ofRead (n : SyncNode) (event : RegistryEvent) : Option RegistryPut :=
  match h : n.read event with
  | none => none
  | some entry =>
    some ⟨entry, event, (SyncNode.read_eq_some h).1, (SyncNode.read_eq_some h).2⟩

/-- A registry call up to its write; one that fails changes nothing. -/
def SyncNode.begin (cfg : SyncConfig) (n : SyncNode) (op : RegistryOp) (now : ℚ) :
    SyncNode × Option RegistryCall :=
  match n.write cfg now op with
  | .error _ => (n, none)
  | .ok (n', none) => (n', none)
  | .ok (n', some event) =>
    ({ n with streams := n'.streams }, (RegistryPut.ofRead n' event).map .putting)

namespace SyncNode

variable {cfg : SyncConfig} {n n' : SyncNode} {op : RegistryOp} {now : ℚ} {call : RegistryCall}

/-- The write makes of an endpoint what `SyncNode.write` says. -/
theorem put_ofRead {event : RegistryEvent} (h : n.write cfg now op = .ok (n', some event)) :
    ∃ p, RegistryPut.ofRead n' event = some p ∧ p.event = event ∧
      ({ n with streams := n'.streams } : SyncNode).put p.entry = n' := by
  have hput (entry : StoreEntry) (hkey : event.key = entry.key)
      (hdeletes : event.deletes = entry.word.isNone)
      (hn : ({ n with streams := n'.streams } : SyncNode).put entry = n') :
      ∃ p, RegistryPut.ofRead n' event = some p ∧ p.event = event ∧
        ({ n with streams := n'.streams } : SyncNode).put p.entry = n' := by
    have hread : n'.read event = some entry := hn ▸ read_put _ hkey hdeletes
    refine ⟨⟨entry, event, hkey, hdeletes⟩, ?_, rfl, hn⟩
    unfold RegistryPut.ofRead
    split
    · rename_i hnone
      rw [hread] at hnone
      cases hnone
    · rename_i entry' hsome
      rw [hread] at hsome
      cases hsome
      rfl
  cases op with
  | registerFunction functionId name code runtimeSpec codeFormat paramsSchema =>
    cases h
    exact hput (.function _ (some _)) rfl rfl rfl
  | updateFunction key paramsSchema envVars =>
    simp only [write, FunctionRegistry.update] at h
    split at h
    · cases h
    · cases h
      exact hput (.function _ (some _)) rfl rfl rfl
  | deleteFunction key =>
    simp only [write, FunctionRegistry.delete] at h
    split at h
    · cases h
    · cases h
      exact hput (.function _ none) rfl rfl rfl
  | registerData key format kind totalSize chunkBytes contentHash contentHashAlgo =>
    simp only [write, DataRegistry.register] at h
    split_ifs at h
    · cases h
    · cases h
      exact hput (.data _ (some _)) rfl rfl rfl
  | openStream key format kind chunkBytes => cases h
  | appendChunk key data =>
    simp only [write, DataRegistry.appendChunk] at h
    split at h
    · cases h
    · split_ifs at h
      · cases h
      · cases h
  | finalizeStream key =>
    simp only [write, DataRegistry.finalizeStream] at h
    split at h
    · cases h
    · cases h
      exact hput (.data _ (some _)) rfl rfl rfl
  | deleteData key =>
    simp only [write, DataRegistry.delete] at h
    split at h
    · cases h
    · cases h
      exact hput (.data _ none) rfl rfl rfl
  | registerBucket name quotaBytes =>
    simp only [write, BucketRegistry.register] at h
    split at h
    · cases h
    · cases h
      exact hput (.bucket _ _) rfl rfl rfl

/-- A call that has begun has written nothing yet. -/
theorem begin_frame (cfg : SyncConfig) (n : SyncNode) (op : RegistryOp) (now : ℚ) :
    (n.begin cfg op now).1.stored = n.stored ∧
      (n.begin cfg op now).1.dirtyTracker = n.dirtyTracker ∧
      SameRest n (n.begin cfg op now).1 ∧
      ∀ call ∈ (n.begin cfg op now).2, ∃ p, call = .putting p := by
  unfold begin
  cases hwrite : n.write cfg now op with
  | error err => exact ⟨rfl, rfl, ⟨rfl, rfl, rfl⟩, fun _ hcall => by cases hcall⟩
  | ok result =>
    obtain ⟨n', _ | event⟩ := result
    · obtain ⟨htracker, hrest, hwrote⟩ := write_cases hwrite
      exact ⟨hwrote, htracker, hrest, fun _ hcall => by cases hcall⟩
    · refine ⟨rfl, rfl, ⟨rfl, rfl, rfl⟩, fun call hcall => ?_⟩
      obtain ⟨p, -, rfl⟩ := Option.map_eq_some_iff.1 hcall
      exact ⟨p, rfl⟩

/-- A registry call goes on from where it has begun. -/
theorem perform_eq_finish (cfg : SyncConfig) (n : SyncNode) (op : RegistryOp) (now : ℚ) :
    n.perform cfg op now =
      (n.begin cfg op now).2.elim (n.begin cfg op now).1 fun call =>
        call.finish (n.begin cfg op now).1 now := by
  unfold perform begin
  cases hwrite : n.write cfg now op with
  | error err => rfl
  | ok result =>
    obtain ⟨n', _ | event⟩ := result
    · rfl
    · obtain ⟨p, hp, rfl, hput⟩ := put_ofRead hwrite
      simp only [hp, Option.map_some, Option.elim_some, RegistryCall.finish, hput]

end SyncNode

/-! ### Settled keys -/

/-- The call will mark what is stored under its key; one that has yet to write will mark what it
writes, and is counted if `early`. -/
def RegistryCall.Settles (early : Bool) (stored : SyncStore) : RegistryCall → Prop
  | .putting _ => early = true
  | .raised event => event.deletes = (stored event.key).isNone
  | .marking entry => entry.word = stored entry.key

instance (early : Bool) (stored : SyncStore) :
    (call : RegistryCall) → Decidable (call.Settles early stored)
  | .putting _ => inferInstanceAs (Decidable (early = true))
  | .raised event => inferInstanceAs (Decidable (event.deletes = (stored event.key).isNone))
  | .marking entry => inferInstanceAs (Decidable (entry.word = stored entry.key))

/-- A call in progress settles the key. -/
def Settled (early : Bool) (calls : List RegistryCall) (stored : SyncStore) (k : SyncKey) : Prop :=
  ∃ call ∈ calls, call.key = k ∧ call.Settles early stored

instance (early : Bool) (calls : List RegistryCall) (stored : SyncStore) (k : SyncKey) :
    Decidable (Settled early calls stored k) :=
  inferInstanceAs (Decidable (∃ call ∈ calls, call.key = k ∧ call.Settles early stored))

section Settled

variable {early : Bool} {calls calls' : List RegistryCall} {stored stored' : SyncStore}
  {k : SyncKey} {n : SyncNode} {now : ℚ} {call : RegistryCall}

theorem RegistryCall.settles_congr (h : stored' call.key = stored call.key) :
    call.Settles early stored' ↔ call.Settles early stored := by
  cases call with
  | putting p => exact Iff.rfl
  | raised event =>
    have hkey : stored' event.key = stored event.key := h
    simp only [Settles, hkey]
  | marking entry =>
    have hkey : stored' entry.key = stored entry.key := h
    simp only [Settles, hkey]

/-- What settles a key does so as long as the key is left alone. -/
theorem Settled.congr (h : Settled early calls stored k) (hcalls : ∀ c ∈ calls, c ∈ calls')
    (hk : stored' k = stored k) : Settled early calls' stored' k := by
  obtain ⟨c, hc, rfl, hsettles⟩ := h
  exact ⟨c, hcalls c hc, rfl, (RegistryCall.settles_congr hk).2 hsettles⟩

/-- The next piece of a call writes the key, or marks it, or leaves it alone. -/
theorem advance_cases (n : SyncNode) (now : ℚ) (call : RegistryCall) (k : SyncKey) :
    (∃ p, call = .putting p ∧ p.entry.key = k) ∨
      (∃ entry, call = .marking entry ∧ entry.key = k) ∨
        (∀ entry, call = .marking entry → entry.key ≠ k) ∧
          (call.advance n now).1.stored k = n.stored k ∧
          (call.advance n now).1.dirtyTracker.pending k = n.dirtyTracker.pending k := by
  cases call with
  | putting p =>
    by_cases hk : p.entry.key = k
    · exact Or.inl ⟨p, rfl, hk⟩
    · refine Or.inr (Or.inr ⟨fun _ heq => (by cases heq), ?_, ?_⟩)
      · show (n.put p.entry).stored k = _
        rw [SyncNode.stored_put, Function.update_of_ne (Ne.symm hk)]
      · show (n.put p.entry).dirtyTracker.pending k = _
        rw [SyncNode.dirtyTracker_put]
  | raised event => exact Or.inr (Or.inr ⟨fun _ heq => (by cases heq), rfl, rfl⟩)
  | marking entry =>
    by_cases hk : entry.key = k
    · exact Or.inr (Or.inl ⟨entry, rfl, hk⟩)
    · refine Or.inr (Or.inr ⟨?_, congrFun (SyncNode.stored_mark n now entry) k, ?_⟩)
      · rintro _ ⟨⟩
        exact hk
      show (n.mark now entry).dirtyTracker.pending k = _
      rw [SyncNode.pending_mark, Function.update_of_ne (Ne.symm hk)]

theorem sameRest_advance (n : SyncNode) (now : ℚ) (call : RegistryCall) :
    SyncNode.SameRest n (call.advance n now).1 := by
  cases call with
  | putting p => exact SyncNode.sameRest_put n p.entry
  | raised event => exact ⟨rfl, rfl, rfl⟩
  | marking entry => exact SyncNode.sameRest_mark n now entry

/-- A write settles its key. -/
theorem settled_put (p : RegistryPut) (hnext : .raised p.event ∈ calls') :
    Settled early calls' (n.put p.entry).stored p.entry.key := by
  refine ⟨_, hnext, p.sameKey, ?_⟩
  show p.event.deletes = ((n.put p.entry).stored p.event.key).isNone
  rw [p.deletes, p.sameKey, SyncNode.stored_put, Function.update_self]

/-- The next piece of a call keeps what is settled, unless it is the mark of that key. -/
theorem Settled.advance (h : Settled early calls n.stored k)
    (hrest : ∀ c ∈ calls, c = call ∨ c ∈ calls') (hnext : ∀ c ∈ (call.advance n now).2, c ∈ calls')
    (hmark : ∀ entry, call = .marking entry → entry.key ≠ k) :
    Settled early calls' (call.advance n now).1.stored k := by
  obtain ⟨c, hc, hkey, hsettles⟩ := h
  by_cases hk : k = call.key
  · cases call with
    | putting p =>
      rw [show k = p.entry.key from hk]
      exact settled_put p (hnext _ rfl)
    | raised event =>
      rcases hrest c hc with rfl | hc
      · -- the read finds what the event tells of
        have htells : event.deletes = (n.stored event.key).isNone := hsettles
        show Settled early calls' n.stored k
        cases hread : n.read event with
        | none =>
          obtain ⟨hdeletes, hstored⟩ := SyncNode.stored_of_read_none hread
          rw [hdeletes, hstored] at htells
          cases htells
        | some entry =>
          obtain ⟨hsame, hword⟩ := SyncNode.read_eq_some hread
          refine ⟨.marking entry, hnext _ (by simp [RegistryCall.advance, hread]),
            hsame.symm.trans hk.symm, ?_⟩
          show entry.word = n.stored entry.key
          cases hdeletes : event.deletes with
          | false => rw [← hsame, SyncNode.word_of_read hread hdeletes]
          | true =>
            rw [hdeletes] at hword htells
            rw [← hsame, Option.isNone_iff_eq_none.1 hword.symm,
              Option.isNone_iff_eq_none.1 htells.symm]
      · exact ⟨c, hc, hkey, hsettles⟩
    | marking entry => exact absurd hk.symm (hmark entry rfl)
  · have hc' : c ∈ calls' := (hrest c hc).resolve_left fun heq => hk (by rw [← heq, hkey])
    refine ⟨c, hc', hkey, (RegistryCall.settles_congr ?_).2 hsettles⟩
    rw [hkey]
    rcases advance_cases n now call k with ⟨p, rfl, rfl⟩ | ⟨entry, rfl, rfl⟩ | ⟨-, hstored, -⟩
    · exact absurd rfl hk
    · exact absurd rfl hk
    · exact hstored

end Settled

end Axo
