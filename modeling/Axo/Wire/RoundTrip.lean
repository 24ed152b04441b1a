import Axo.Wire.Frames

/-!
# Round trips of the wire format

What `decode_command` and `decode_command_result` give back of what was encoded.

* `wire_roundTrip`: commands come back as they were, results exactly when they carry no error, and a
  result that was relayed once stays as it is;
* `lostError_notLeader` is a failed result that does not come back;
* `growthError_relay` is what `ConcurrencyClient.request_growth` makes of a reply that a follower
  relayed.
-/

namespace Axo

variable {json : JsonLib}

/-- A result that was received has no code of its own, and is encoded as it is. -/
theorem relay_received {result : WireResult} {metadata : List (String × Value)}
    (h : json.Faithful (.dict (resultMeta result metadata))) :
    relay json (result.received metadata) = some (.ok (.ok (result.received metadata))) :=
  relay_eq rfl h

/-- The wire format gives back every command, and every result without an error. -/
theorem wire_roundTrip (json : JsonLib) (command : WireCommand) (result : WireResult)
    (metadata : List (String × Value)) (hmetadata : result.metadata = .dict metadata)
    (hcommand : json.Faithful command.envelope)
    (hresult : json.Faithful (.dict (resultMeta result metadata))) :
    decodeCommand json (encodeCommand json command) = .ok (.ok command) ∧
      (relay json result = some (.ok (.ok result)) ↔
        result.errorCode = 0 ∧ result.errorName = "") ∧
      ∃ received, relay json result = some (.ok (.ok received)) ∧
        relay json received = some (.ok (.ok received)) := by
  refine ⟨decodeCommand_encode hcommand, ?_, result.received metadata,
    relay_eq hmetadata hresult, relay_received hresult⟩
  rw [relay_eq hmetadata hresult, Option.some.injEq, Except.ok.injEq, Except.ok.injEq]
  constructor
  · intro heq
    rw [← heq]
    exact ⟨rfl, rfl⟩
  · rintro ⟨hcode, hname⟩
    have hmeta : resultMeta result metadata = metadata := if_neg (not_not.2 hcode)
    unfold WireResult.received
    rw [hmeta, ← hmetadata, ← hcode, ← hname]

/-- A `json` module that knows one document. -/
def jsonOf (v : Value) (text : String) : JsonLib where
  dumps w := if w = v then text else ""
  loads t := if t = text then .value v else .malformed "Expecting value: line 1 column 1 (char 0)"
  unicodeText _ := "'utf-8' codec can't decode byte"

theorem jsonOf_faithful (v : Value) (text : String) : (jsonOf v text).Faithful v := by
  simp only [JsonLib.Faithful, jsonOf, if_true]

/-- The envelope of a `JOB_RESULT`, which is also the metadata of a reply. -/
def jobDocument : Value := .dict [("job_id", .str "j1")]

theorem wire_roundTrip_jobResult :
    let json := jsonOf jobDocument "\x7b\"job_id\": \"j1\"\x7d"
    let command : WireCommand := ⟨"JOB_RESULT", "application/json", jobDocument, []⟩
    let result : WireResult := ⟨true, [], "", 0, "", jobDocument⟩
    decodeCommand json (encodeCommand json command) = .ok (.ok command) ∧
      relay json result = some (.ok (.ok result)) := by
  intro json command result
  obtain ⟨hcommand, hresult, -⟩ := wire_roundTrip json command result
    [("job_id", .str "j1")] rfl (jsonOf_faithful _ _) (jsonOf_faithful _ _)
  exact ⟨hcommand, hresult.2 ⟨rfl, rfl⟩⟩

/-- The reply of a follower that does not know its leader. -/
def notLeaderReply : WireResult where
  ok := false
  error := "no leader"
  errorCode := 6001
  errorName := "LEADER_UNREACHABLE"

/-- The reply does not come back as it was. -/
theorem lostError_notLeader :
    let v : Value := .dict (resultMeta notLeaderReply [])
    let json := jsonOf v
      "\x7b\"error_code\": 6001, \"error_name\": \"LEADER_UNREACHABLE\"\x7d"
    json.Faithful v ∧ relay json notLeaderReply ≠ some (.ok (.ok notLeaderReply)) := by
  intro v json
  have hfaithful : json.Faithful v := jsonOf_faithful v _
  refine ⟨hfaithful, ?_⟩
  rw [@relay_eq _ notLeaderReply [] rfl hfaithful]
  intro heq
  rw [Option.some.injEq, Except.ok.injEq, Except.ok.injEq] at heq
  exact absurd (congrArg WireResult.errorCode heq) (by decide)

/-- The `AxoError` that `request_growth` makes of a failed reply. -/
def growthError (result : WireResult) : AxoError :=
  { code := 0
    name := "AXO_ERROR"
    message := result.error
    context := [("error_code", .int result.errorCode), ("error_name", .str result.errorName)] }

/-- Over a relayed reply the error names no code, whatever the leader said. -/
theorem growthError_relay {result received : WireResult} {metadata : List (String × Value)}
    (hmetadata : result.metadata = .dict metadata)
    (hresult : json.Faithful (.dict (resultMeta result metadata)))
    (h : relay json result = some (.ok (.ok received))) :
    growthError received =
      { code := 0
        name := "AXO_ERROR"
        message := result.error
        context := [("error_code", .int 0), ("error_name", .str "")] } := by
  rw [relay_eq hmetadata hresult] at h
  cases h
  rfl

end Axo
