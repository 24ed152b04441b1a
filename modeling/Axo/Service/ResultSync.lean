import Axo.Lib.Dict
import Axo.Lib.Transition
import Axo.Service.ResultBytes
import Axo.Wire.StateRoundTrip

/-!
# Results and their hashes

`service/handlers/job_result_sync.py`: an executor reports a result to the leader, the leader keeps
it with the hash of its bytes and pushes it to its peers, and a sweep pushes it again later, in the
bytes that the leader makes of its own copy.

* `JobResultSyncHandler.handle`, `JobResultReplicateHandler.handle` and `reverifyResult` are one step
  each;
* in `ResultCluster` a command that was sent may be taken at any time, any number of times or never,
  and any endpoint may be taken for the leader;
* `Sound` is the invariant, and `hashesKept_of_reach` the result for whole runs.

An endpoint is named by its RPC uri, and `sha256` is `hashlib.sha256(...).hexdigest()`.
-/

namespace Axo

open Transition

/-- `ResultHashMismatchError`. -/
def resultHashMismatchError (jobId : String) : AxoError :=
  { code := 8001
    name := "RESULT_HASH_MISMATCH"
    message := "result payload hash mismatch"
    context := [("job_id", .str jobId)] }

/-- What an endpoint has of the results: its copies, and its `ResultConsistencyStore`. -/
structure ResultCopies where
  results : Dict String WholeResult := ∅
  state : Dict String String := ∅
  hash : Dict String String := ∅

namespace ResultCopies

/-- `mark_synced`. -/
def markSynced (copies : ResultCopies) (jobId resultHash : String) : ResultCopies :=
  { copies with
    state := copies.state.insert jobId "synced"
    hash := copies.hash.insert jobId resultHash }

/-- `mark_inconsistent`. -/
def markInconsistent (copies : ResultCopies) (jobId : String) : ResultCopies :=
  { copies with state := copies.state.insert jobId "inconsistent" }

/-- `results.put`. -/
def putResult (copies : ResultCopies) (jobId : String) (result : WholeResult) : ResultCopies :=
  { copies with results := copies.results.insert jobId result }

end ResultCopies

/-! ### The commands -/

/-- A command that carries a result. -/
def resultCommand (operation jobId resultHash : String) (payload : Frame) : WireCommand where
  operation := operation
  contentType := "application/octet-stream"
  envelope := .dict [("job_id", .str jobId), ("hash", .str resultHash)]
  payload := payload

/-- The commands of `fanout_result_to_peers`, each with the peer that it is sent to. -/
def fanoutResultToPeers (jobId : String) (payload : Frame) (resultHash : String)
    (peerRpcUris : List String) : List (String × WireCommand) :=
  peerRpcUris.map fun rpcUri =>
    (rpcUri, resultCommand "JOB_RESULT_REPLICATE" jobId resultHash payload)

section

variable (json : JsonLib) (sha256 : Frame → String)

/-- The command of `make_replicate_fn`. -/
def replicateResult (result : WholeResult) : WireCommand :=
  let payload := encodeFunctionResult json result
  resultCommand "JOB_RESULT_SYNC" result.jobId (sha256 payload) payload

/-- The commands of `make_reverify_fn`. -/
def reverifyResult (copies : ResultCopies) (jobId : String) (peerRpcUris : List String) :
    List (String × WireCommand) :=
  match copies.results.lookup jobId with
  | none => []
  | some result =>
    let payload := encodeFunctionResult json result
    let resultHash := ((copies.hash.lookup jobId).filter (· ≠ "")).getD (sha256 payload)
    fanoutResultToPeers jobId payload resultHash peerRpcUris

/-- What the handlers find of a command. -/
inductive HashCheck
  | missing
  | mismatch (jobId : String)
  | agrees (jobId : String)

/-- The checks that both handlers begin with. -/
def checkHash (command : WireCommand) : Except PyException HashCheck := do
  let jobId ← command.envelope.getItem "job_id" .none
  let expectedHash ← command.envelope.getItem "hash" .none
  if ¬ (jobId.truthy ∧ expectedHash.truthy) then return .missing
  else if .str (sha256 command.payload) ≠ expectedHash then return .mismatch (← jobId.asText)
  else return .agrees (← jobId.asText)

/-- The reply to a command without a job id or without a hash. -/
def resultFieldsMissing : CommandResult :=
  .fromError (missingFieldError "job_id and hash are required"
    [("fields", .list [.str "job_id", .str "hash"])])

/-- The copy that both handlers keep of a payload whose hash agrees. -/
def keepResult (copies : ResultCopies) (jobId : String) (payload : Frame) :
    Except PyException ResultCopies := do
  let result ← decodeFunctionResult json payload
  return (copies.putResult jobId result).markSynced jobId (sha256 payload)

/-- `JobResultSyncHandler.handle`, with the commands that it sends. -/
def JobResultSyncHandler.handle (copies : ResultCopies) (peerRpcUris : List String)
    (command : WireCommand) :
    Except PyException (ResultCopies × CommandResult × List (String × WireCommand)) := do
  match ← checkHash sha256 command with
  | .missing => return (copies, resultFieldsMissing, [])
  | .mismatch jobId => return (copies, .fromError (resultHashMismatchError jobId), [])
  | .agrees jobId =>
    let copies ← keepResult json sha256 copies jobId command.payload
    return (copies, { ok := true },
      fanoutResultToPeers jobId command.payload (sha256 command.payload) peerRpcUris)

/-- `JobResultReplicateHandler.handle`. -/
def JobResultReplicateHandler.handle (copies : ResultCopies) (command : WireCommand) :
    Except PyException (ResultCopies × CommandResult) := do
  match ← checkHash sha256 command with
  | .missing => return (copies, resultFieldsMissing)
  | .mismatch jobId =>
    return (copies.markInconsistent jobId, .fromError (resultHashMismatchError jobId))
  | .agrees jobId =>
    let copies ← keepResult json sha256 copies jobId command.payload
    return (copies, { ok := true })

end

/-! ### The system -/

/-- The endpoints, and all the commands that were sent. -/
structure ResultCluster where
  copies : String → ResultCopies := fun _ => {}
  /-- each `JOB_RESULT_SYNC` -/
  reports : List WireCommand := []
  /-- each `JOB_RESULT_REPLICATE`, with its receiver -/
  pushes : List (String × WireCommand) := []

inductive ResultAct
  /-- an executor reports the result of a call -/
  | report (call : RecordedCall)
  /-- an endpoint takes a report, as the leader of its peers -/
  | sync (rpcUri : String) (command : WireCommand) (peerRpcUris : List String)
  /-- an endpoint takes a push -/
  | replicate (rpcUri : String) (command : WireCommand)
  /-- the sweep of an endpoint comes to a job -/
  | reverify (rpcUri jobId : String) (peerRpcUris : List String)

namespace ResultCluster

/-- An endpoint has other copies, and has sent commands. -/
def after (s : ResultCluster) (rpcUri : String) (copies : ResultCopies)
    (pushes : List (String × WireCommand)) : ResultCluster :=
  { s with copies := Function.update s.copies rpcUri copies, pushes := s.pushes ++ pushes }

section

variable (json : JsonLib) (sha256 : Frame → String)

/-- One step; a handler that raises leaves everything as it is. -/
def step (s : ResultCluster) : ResultAct → Option ResultCluster
  | .report call =>
    some { s with reports := s.reports ++ [replicateResult json sha256 call.result] }
  | .sync rpcUri command peerRpcUris =>
    if command ∈ s.reports then
      match JobResultSyncHandler.handle json sha256 (s.copies rpcUri) peerRpcUris command with
      | .ok (copies, _, pushes) => some (s.after rpcUri copies pushes)
      | .error _ => some s
    else none
  | .replicate rpcUri command =>
    if (rpcUri, command) ∈ s.pushes then
      match JobResultReplicateHandler.handle json sha256 (s.copies rpcUri) command with
      | .ok (copies, _) => some (s.after rpcUri copies [])
      | .error _ => some s
    else none
  | .reverify rpcUri jobId peerRpcUris =>
    some (s.after rpcUri (s.copies rpcUri)
      (reverifyResult json sha256 (s.copies rpcUri) jobId peerRpcUris))

/-- The runs over results that travel. -/
def Recordable : ResultCluster → ResultAct → Prop
  | _, .report call => call.Travels json
  | _, _ => True

/-- The hash that an endpoint keeps is that of the bytes it makes of its copy. -/
def HashesKept (s : ResultCluster) : Prop :=
  ∀ rpcUri jobId h, (s.copies rpcUri).hash.lookup jobId = some h →
    ∃ result, (s.copies rpcUri).results.lookup jobId = some result ∧
      h = sha256 (encodeFunctionResult json result)

/-- The receiver of a push that was sent does not find another hash. -/
def PushesAgree (s : ResultCluster) : Prop :=
  ∀ push ∈ s.pushes, ∃ copies reply,
    JobResultReplicateHandler.handle json sha256 (s.copies push.1) push.2 = .ok (copies, reply) ∧
      reply.errorName ≠ "RESULT_HASH_MISMATCH"

/-- A result of a call that travels. -/
def Recorded (result : WholeResult) : Prop :=
  ∃ call : RecordedCall, call.Travels json ∧ call.result = result

/-- A command whose hash is that of its payload, the bytes of a recorded result. -/
def Truthful (command : WireCommand) : Prop :=
  ∃ operation jobId result, Recorded json result ∧
    command = resultCommand operation jobId (sha256 (encodeFunctionResult json result))
      (encodeFunctionResult json result)

/-- The copies of an endpoint are recorded results, with their hashes. -/
structure SoundCopies (copies : ResultCopies) : Prop where
  recorded : ∀ jobId result, copies.results.lookup jobId = some result → Recorded json result
  hash : ∀ jobId h, copies.hash.lookup jobId = some h →
    ∃ result, copies.results.lookup jobId = some result ∧
      h = sha256 (encodeFunctionResult json result)

/-- The invariant. -/
structure Sound (s : ResultCluster) : Prop where
  copies : ∀ rpcUri, SoundCopies json sha256 (s.copies rpcUri)
  reports : ∀ command ∈ s.reports, Truthful json sha256 command
  pushes : ∀ push ∈ s.pushes, Truthful json sha256 push.2

end

variable {json : JsonLib} {sha256 : Frame → String} {s t : ResultCluster}
  {copies : ResultCopies} {result : WholeResult} {jobId : String}

theorem Recorded.decode_encode (h : Recorded json result) :
    decodeFunctionResult json (encodeFunctionResult json result) = .ok result := by
  obtain ⟨call, hcall, rfl⟩ := h
  exact WholeResult.decode_encode hcall.2 (RecordedCall.travels_result hcall.1)

/-! ### The handlers -/

/-- A truthful command names its job and has the right hash, unless one of them is empty. -/
theorem checkHash_resultCommand (operation jobId : String) (payload : Frame) :
    checkHash sha256 (resultCommand operation jobId (sha256 payload) payload) =
      .ok (if jobId ≠ "" ∧ sha256 payload ≠ "" then .agrees jobId else .missing) := by
  have hread : checkHash sha256 (resultCommand operation jobId (sha256 payload) payload) =
      if ¬ (Value.truthy (.str jobId) ∧ Value.truthy (.str (sha256 payload))) then .ok .missing
      else if Value.str (sha256 payload) ≠ .str (sha256 payload) then .ok (.mismatch jobId)
      else .ok (.agrees jobId) := rfl
  rw [hread, if_neg (not_not.2 rfl)]
  by_cases hfields : jobId ≠ "" ∧ sha256 payload ≠ ""
  · rw [if_pos hfields, if_neg (by simpa [Value.truthy] using hfields)]
  · rw [if_neg hfields, if_pos (by simpa [Value.truthy] using hfields)]

theorem keepResult_recorded (h : Recorded json result) :
    keepResult json sha256 copies jobId (encodeFunctionResult json result) =
      .ok ((copies.putResult jobId result).markSynced jobId
        (sha256 (encodeFunctionResult json result))) := by
  rw [keepResult, h.decode_encode]
  rfl

/-- A recorded result is kept with its hash. -/
theorem SoundCopies.keep (hcopies : SoundCopies json sha256 copies) (h : Recorded json result)
    (jobId : String) :
    SoundCopies json sha256 ((copies.putResult jobId result).markSynced jobId
      (sha256 (encodeFunctionResult json result))) where
  recorded other kept hkept := by
    simp only [ResultCopies.markSynced, ResultCopies.putResult] at hkept
    by_cases hjob : other = jobId
    · rw [hjob, AList.lookup_insert] at hkept
      exact Option.some.inj hkept ▸ h
    · rw [AList.lookup_insert_ne hjob] at hkept
      exact hcopies.recorded other kept hkept
  hash other resultHash hhash := by
    simp only [ResultCopies.markSynced, ResultCopies.putResult] at hhash ⊢
    by_cases hjob : other = jobId
    · rw [hjob, AList.lookup_insert] at hhash ⊢
      exact ⟨result, rfl, (Option.some.inj hhash).symm⟩
    · rw [AList.lookup_insert_ne hjob] at hhash ⊢
      exact hcopies.hash other resultHash hhash

/-- What a handler does with a truthful command. -/
theorem Truthful.checkHash {command : WireCommand} (h : Truthful json sha256 command) :
    Axo.checkHash sha256 command = .ok .missing ∨
      ∃ jobId result, Recorded json result ∧
        command.payload = encodeFunctionResult json result ∧
        Axo.checkHash sha256 command = .ok (.agrees jobId) := by
  obtain ⟨operation, jobId, result, hresult, rfl⟩ := h
  rw [checkHash_resultCommand]
  split_ifs
  · exact Or.inr ⟨jobId, result, hresult, rfl, rfl⟩
  · exact Or.inl rfl

theorem truthful_fanout {payload : Frame} (hresult : Recorded json result)
    (hpayload : payload = encodeFunctionResult json result) (peerRpcUris : List String)
    {push : String × WireCommand}
    (hpush : push ∈ fanoutResultToPeers jobId payload (sha256 payload) peerRpcUris) :
    Truthful json sha256 push.2 := by
  subst hpayload
  obtain ⟨rpcUri, -, rfl⟩ := List.mem_map.1 hpush
  exact ⟨_, jobId, result, hresult, rfl⟩

theorem sync_truthful {command : WireCommand} (hcopies : SoundCopies json sha256 copies)
    (h : Truthful json sha256 command) (peerRpcUris : List String) :
    ∃ copies' reply pushes,
      JobResultSyncHandler.handle json sha256 copies peerRpcUris command =
        .ok (copies', reply, pushes) ∧
      SoundCopies json sha256 copies' ∧ ∀ push ∈ pushes, Truthful json sha256 push.2 := by
  rcases h.checkHash with hmissing | ⟨jobId, result, hresult, hpayload, hagrees⟩
  · refine ⟨copies, resultFieldsMissing, [], ?_, hcopies, fun push hpush => by cases hpush⟩
    rw [JobResultSyncHandler.handle, hmissing]
    rfl
  · refine ⟨_, { ok := true },
      fanoutResultToPeers jobId command.payload (sha256 command.payload) peerRpcUris, ?_,
      hcopies.keep hresult jobId,
      fun push hpush => truthful_fanout hresult hpayload peerRpcUris hpush⟩
    rw [JobResultSyncHandler.handle, hagrees, ok_bind, hpayload]
    simp only [keepResult_recorded hresult]
    rfl

theorem replicate_truthful {command : WireCommand} (hcopies : SoundCopies json sha256 copies)
    (h : Truthful json sha256 command) :
    ∃ copies' reply, JobResultReplicateHandler.handle json sha256 copies command =
        .ok (copies', reply) ∧
      SoundCopies json sha256 copies' ∧ reply.errorName ≠ "RESULT_HASH_MISMATCH" := by
  rcases h.checkHash with hmissing | ⟨jobId, result, hresult, hpayload, hagrees⟩
  · refine ⟨copies, resultFieldsMissing, ?_, hcopies, by decide⟩
    rw [JobResultReplicateHandler.handle, hmissing]
    rfl
  · refine ⟨_, { ok := true }, ?_, hcopies.keep hresult jobId, by decide⟩
    rw [JobResultReplicateHandler.handle, hagrees, ok_bind, hpayload]
    simp only [keepResult_recorded hresult]
    rfl

/-- The hash that is sent along with a copy is that of its bytes, kept or not. -/
theorem reverify_truthful (hcopies : SoundCopies json sha256 copies) (peerRpcUris : List String)
    {push : String × WireCommand}
    (hpush : push ∈ reverifyResult json sha256 copies jobId peerRpcUris) :
    Truthful json sha256 push.2 := by
  unfold reverifyResult at hpush
  split at hpush
  · cases hpush
  · next result hresult =>
    have hhash : ((copies.hash.lookup jobId).filter (· ≠ "")).getD
        (sha256 (encodeFunctionResult json result)) =
          sha256 (encodeFunctionResult json result) := by
      cases hkept : copies.hash.lookup jobId with
      | none => rfl
      | some h =>
        obtain ⟨kept, hlookup, rfl⟩ := hcopies.hash jobId h hkept
        obtain rfl := Option.some.inj (hlookup.symm.trans hresult)
        rw [Option.filter_some]
        split_ifs <;> rfl
    simp only [hhash] at hpush
    exact truthful_fanout (hcopies.recorded jobId result hresult) rfl peerRpcUris hpush

/-! ### Runs -/

theorem sound_initial : Sound json sha256 {} where
  copies rpcUri :=
    { recorded := fun jobId result h => by cases h
      hash := fun jobId h hlookup => by cases hlookup }
  reports command hcommand := by cases hcommand
  pushes push hpush := by cases hpush

theorem Sound.after (h : Sound json sha256 s) (rpcUri : String)
    {pushes : List (String × WireCommand)} (hcopies : SoundCopies json sha256 copies)
    (hpushes : ∀ push ∈ pushes, Truthful json sha256 push.2) :
    Sound json sha256 (s.after rpcUri copies pushes) where
  copies other := by
    show SoundCopies json sha256 (Function.update s.copies rpcUri copies other)
    rcases eq_or_ne other rpcUri with rfl | hne
    · rw [Function.update_self]
      exact hcopies
    · rw [Function.update_of_ne hne]
      exact h.copies other
  reports := h.reports
  pushes push hpush := by
    rcases List.mem_append.1 hpush with hold | hnew
    · exact h.pushes push hold
    · exact hpushes push hnew

theorem Sound.step (h : Sound json sha256 s) (act : ResultAct) (hact : Recordable json s act)
    (ht : ResultCluster.step json sha256 s act = some t) : Sound json sha256 t := by
  cases act with
  | report call =>
    obtain rfl := Option.some.inj ht
    refine { h with reports := fun command hcommand => ?_ }
    rcases List.mem_append.1 hcommand with hold | hnew
    · exact h.reports command hold
    · rw [List.mem_singleton.1 hnew]
      exact ⟨_, _, call.result, ⟨call, hact, rfl⟩, rfl⟩
  | sync rpcUri command peerRpcUris =>
    simp only [ResultCluster.step] at ht
    split_ifs at ht with hsent
    obtain ⟨copies, reply, pushes, hhandle, hcopies, hpushes⟩ :=
      sync_truthful (h.copies rpcUri) (h.reports command hsent) peerRpcUris
    rw [hhandle] at ht
    obtain rfl := Option.some.inj ht
    exact h.after rpcUri hcopies hpushes
  | replicate rpcUri command =>
    simp only [ResultCluster.step] at ht
    split_ifs at ht with hsent
    obtain ⟨copies, reply, hhandle, hcopies, -⟩ :=
      replicate_truthful (h.copies rpcUri) (h.pushes _ hsent)
    rw [hhandle] at ht
    obtain rfl := Option.some.inj ht
    exact h.after rpcUri hcopies fun push hpush => by cases hpush
  | reverify rpcUri jobId peerRpcUris =>
    obtain rfl := Option.some.inj ht
    exact h.after rpcUri (h.copies rpcUri) fun push hpush =>
      reverify_truthful (h.copies rpcUri) peerRpcUris hpush

theorem sound_of_reach (h : Reach (ResultCluster.step json sha256) (Recordable json) {} s) :
    Sound json sha256 s :=
  h.invariant sound_initial fun _ act _ hsound hact ht => hsound.step act hact ht

/-- A result is read back as it was and encoded as it was, the hash that is kept is that of the
copy, and no push is refused for its hash. -/
theorem hashesKept_of_reach (json : JsonLib) (sha256 : Frame → String) {s : ResultCluster}
    (h : Reach (ResultCluster.step json sha256) (Recordable json) {} s) :
    (∀ call : RecordedCall, call.Travels json →
      decodeFunctionResult json (encodeFunctionResult json call.result) = .ok call.result ∧
      ∀ back, decodeFunctionResult json (encodeFunctionResult json call.result) = .ok back →
        encodeFunctionResult json back = encodeFunctionResult json call.result) ∧
      s.HashesKept json sha256 ∧ s.PushesAgree json sha256 := by
  have hsound := sound_of_reach h
  refine ⟨fun call hcall => ?_, fun rpcUri => (hsound.copies rpcUri).hash, fun push hpush => ?_⟩
  · have hrefs := RecordedCall.travels_result hcall.1
    exact ⟨WholeResult.decode_encode hcall.2 hrefs,
      fun back => WholeResult.encode_of_decode_encode hcall.2 hrefs⟩
  · obtain ⟨copies, reply, hhandle, -, hreply⟩ :=
      replicate_truthful (hsound.copies push.1) (hsound.pushes push hpush)
    exact ⟨copies, reply, hhandle, hreply⟩

/-! ### Two results and two leaders -/

deriving instance DecidableEq for Parsed

instance (v : Value) : Decidable (json.Faithful v) :=
  inferInstanceAs (Decidable (json.loads (json.dumps v) = .value v))

instance (act : ResultAct) : Decidable (Recordable json s act) :=
  match act with
  | .report call =>
    inferInstanceAs (Decidable (':' ∉ call.jobId.toList ∧ json.Faithful call.result.document))
  | .sync .. => isTrue trivial
  | .replicate .. => isTrue trivial
  | .reverify .. => isTrue trivial

/-- A function that returned `[1, "a"]`. -/
def listCall : RecordedCall where
  jobId := "j1"
  outcome := .ok (.list [.int 1, .str "a"])
  durationMs := some "12.5"
  warnings := ["slow"]

/-- One that returned an object, whose bytes were stored. -/
def objectCall : RecordedCall where
  jobId := "j2"
  outcome := .ok .other
  stored := true

def listText : String :=
  "\x7b\"job_id\": \"j1\", \"ok\": true, \"output\": \x7b\"value\": [1, \"a\"], " ++
  "\"type\": \"json\"\x7d, \"refs\": \x7b\x7d, \"error\": \"\", \"duration_ms\": 12.5, " ++
  "\"warnings\": [\"slow\"]\x7d"

def objectText : String :=
  "\x7b\"job_id\": \"j2\", \"ok\": true, \"output\": \x7b\"type\": \"bytes\"\x7d, " ++
  "\"refs\": \x7b\"value\": \"job-result-j2:1\"\x7d, \"error\": \"\", " ++
  "\"duration_ms\": null, \"warnings\": []\x7d"

def listDigest : String := "5e6a753306793fe673746bb4eec3c1242fb1f7c37aa14a1469dd6591acb302d2"

def objectDigest : String := "47191be167babb08643ac99a7f936c363e01f7f10b86b18ceeb5fa71c666ba1f"

/-- The `json` module on the documents of both results. -/
def callJson : JsonLib :=
  jsonTable [(listCall.result.document, listText), (objectCall.result.document, objectText)]

/-- The digests of both texts. -/
def callDigest (payload : Frame) : String :=
  if payload = utf8Encode listText then listDigest
  else if payload = utf8Encode objectText then objectDigest
  else ""

/-- Both results are reported, each to another leader; each leader sweeps the result that it was
pushed. -/
def twoLeaders : List ResultAct :=
  let list := replicateResult callJson callDigest listCall.result
  let object := replicateResult callJson callDigest objectCall.result
  [.report listCall, .report objectCall, .sync "a" list ["b"], .sync "b" object ["a"],
    .replicate "b" (resultCommand "JOB_RESULT_REPLICATE" "j1" listDigest list.payload),
    .replicate "a" (resultCommand "JOB_RESULT_REPLICATE" "j2" objectDigest object.payload),
    .reverify "b" "j1" ["a"], .reverify "a" "j2" ["b"],
    .replicate "a" (resultCommand "JOB_RESULT_REPLICATE" "j1" listDigest list.payload)]

theorem hashesKept_twoLeaders : ∃ s,
    Reach (ResultCluster.step callJson callDigest) (Recordable callJson) {} s ∧
      ((s.copies "b").hash.lookup "j1" = some listDigest ∧
        (s.copies "a").hash.lookup "j2" = some objectDigest ∧ s.pushes.length = 4) ∧
      decodeFunctionResult callJson (encodeFunctionResult callJson objectCall.result) =
        .ok objectCall.result ∧
      s.HashesKept callJson callDigest ∧ s.PushesAgree callJson callDigest := by
  obtain ⟨s, hreach, htest⟩ := exists_reach_of_guarded_run
    (ResultCluster.step callJson callDigest) (Recordable callJson) {}
    (fun s => decide ((s.copies "b").hash.lookup "j1" = some listDigest ∧
      (s.copies "a").hash.lookup "j2" = some objectDigest ∧ s.pushes.length = 4))
    twoLeaders (by decide +kernel)
  obtain ⟨hround, hkept, hpushes⟩ := hashesKept_of_reach callJson callDigest hreach
  exact ⟨s, hreach, of_decide_eq_true htest,
    (hround objectCall ⟨by decide, by decide +kernel⟩).1, hkept, hpushes⟩

end ResultCluster

end Axo
