import Axo.Wire.RecordBlobs

/-!
# Maps of blobs on the wire

`encode_state_changes`, `decode_state_changes`, `encode_cluster_state` and `decode_cluster_state` of
`state_machine.py`, over maps from keys to blobs.

* A map is kept in the order of its dict, and a blob is bytes.  Encoding takes each blob for the
  document it is the text of, and decoding writes each document again.
* `Travelled` is the relation between a blob that was put into a map and what arrives of it after
  any number of pushes and pulls, each of a map that holds it among others.
-/

namespace Axo

/-- A dict from keys to blobs. -/
abbrev BlobMap := List (String × Frame)

/-- The three diffs of a `StateMutation`. -/
structure StateChanges where
  functions : BlobMap := []
  data : BlobMap := []
  buckets : BlobMap := []
  deriving DecidableEq

/-- A `ClusterState` with its blobs. -/
structure StateSnapshot where
  term : ℤ
  leaderIds : Finset String
  members : Finset String
  changes : StateChanges
  version : ℤ
  deriving DecidableEq

section

variable (json : JsonLib)

/-- `{key: json.loads(blob.decode("utf-8")) for key, blob in blobs.items()}`. -/
def loadAll (blobs : BlobMap) : Except PyException Value := do
  let fields ← blobs.mapM fun entry => return (entry.1, ← loadBlob json entry.2)
  return .dict fields

/-- `{key: json.dumps(v).encode("utf-8") for key, v in d.items()}`. -/
def dumpAll : Value → Except PyException BlobMap
  | .dict fields => .ok (fields.map fun field => (field.1, dumpBlob json field.2))
  | _ => .error .attributeError

/-- `encode_state_changes`. -/
def encodeStateChanges (changes : StateChanges) : Except PyException Frame := do
  let functions ← loadAll json changes.functions
  let data ← loadAll json changes.data
  let buckets ← loadAll json changes.buckets
  return dumpBlob json (.dict [("functions", functions), ("data", data), ("buckets", buckets)])

/-- `decode_state_changes`. -/
def decodeStateChanges (payload : Frame) : Except PyException StateChanges := do
  if payload = [] then return {}
  let d ← loadBlob json payload
  let functions ← dumpAll json (← d.getItem "functions" (.dict []))
  let data ← dumpAll json (← d.getItem "data" (.dict []))
  let buckets ← dumpAll json (← d.getItem "buckets" (.dict []))
  return { functions, data, buckets }

/-- `list(s)` of a set of texts, in the order in which the set is gone through. -/
def textList (order : Finset String → List String) (s : Finset String) : Value :=
  .list ((order s).map .str)

/-- `frozenset(v)`, of texts. -/
def textSet (v : Value) : Except PyException (Finset String) := do
  let texts ← (← v.toList).mapM Value.asText
  return texts.toFinset

/-- `encode_cluster_state`. -/
def encodeClusterState (order : Finset String → List String) (state : StateSnapshot) :
    Except PyException Frame := do
  let functions ← loadAll json state.changes.functions
  let data ← loadAll json state.changes.data
  let buckets ← loadAll json state.changes.buckets
  return dumpBlob json
    (.dict [("term", .int state.term), ("leader_ids", textList order state.leaderIds),
      ("members", textList order state.members), ("functions", functions), ("data", data),
      ("buckets", buckets), ("version", .int state.version)])

/-- `decode_cluster_state`. -/
def decodeClusterState (payload : Frame) : Except PyException StateSnapshot := do
  let d ← loadBlob json payload
  let term ← (← d.item "term").asInt
  let leaderIds ← textSet (← d.item "leader_ids")
  let members ← textSet (← d.item "members")
  let functions ← dumpAll json (← d.item "functions")
  let data ← dumpAll json (← d.getItem "data" (.dict []))
  let buckets ← dumpAll json (← d.getItem "buckets" (.dict []))
  let version ← (← d.item "version").asInt
  return { term, leaderIds, members, changes := { functions, data, buckets }, version }

/-! ### Journeys -/

/-- The three maps. -/
inductive Domain
  | functions
  | data
  | buckets
  deriving DecidableEq

/-- The map of a domain. -/
def StateChanges.of (changes : StateChanges) : Domain → BlobMap
  | .functions => changes.functions
  | .data => changes.data
  | .buckets => changes.buckets

/-- A blob is the text of a document that is read back. -/
def IsBlob (blob : Frame) : Prop := ∃ v, json.Faithful v ∧ blob = dumpBlob json v

/-- The document of a blob. -/
def documentOf (blob : Frame) : Value :=
  match loadBlob json blob with
  | .ok v => v
  | .error _ => .none

/-- The document of a map. -/
def mapDocument (blobs : BlobMap) : Value :=
  .dict (blobs.map fun entry => (entry.1, documentOf json entry.2))

/-- The document of a push. -/
def StateChanges.document (changes : StateChanges) : Value :=
  .dict [("functions", mapDocument json changes.functions),
    ("data", mapDocument json changes.data), ("buckets", mapDocument json changes.buckets)]

/-- The document of a pull. -/
def StateSnapshot.document (order : Finset String → List String) (state : StateSnapshot) :
    Value :=
  .dict [("term", .int state.term), ("leader_ids", textList order state.leaderIds),
    ("members", textList order state.members),
    ("functions", mapDocument json state.changes.functions),
    ("data", mapDocument json state.changes.data),
    ("buckets", mapDocument json state.changes.buckets), ("version", .int state.version)]

/-- All values are blobs. -/
def StateChanges.AllBlobs (changes : StateChanges) : Prop :=
  ∀ domain, ∀ entry ∈ changes.of domain, IsBlob json entry.2

/-- What arrives of a blob after pushes and pulls. -/
inductive Travelled (order : Finset String → List String) (blob : Frame) : Frame → Prop
  | here : Travelled order blob blob
  /-- the map goes out in a `STATE_SYNC_PUSH` -/
  | push {here there : Frame} {changes received : StateChanges} {payload : Frame}
      {domain : Domain} {key : String} (h : Travelled order blob here)
      (hblobs : changes.AllBlobs json) (hfaithful : json.Faithful (changes.document json))
      (hsent : (changes.of domain).lookup key = some here)
      (hencode : encodeStateChanges json changes = .ok payload)
      (hdecode : decodeStateChanges json payload = .ok received)
      (hreceived : (received.of domain).lookup key = some there) : Travelled order blob there
  /-- the map goes out in the reply to a `STATE_SYNC_PULL` -/
  | pull {here there : Frame} {state received : StateSnapshot} {payload : Frame}
      {domain : Domain} {key : String} (h : Travelled order blob here)
      (hblobs : state.changes.AllBlobs json)
      (hfaithful : json.Faithful (state.document json order))
      (hsent : (state.changes.of domain).lookup key = some here)
      (hencode : encodeClusterState json order state = .ok payload)
      (hdecode : decodeClusterState json payload = .ok received)
      (hreceived : (received.changes.of domain).lookup key = some there) :
      Travelled order blob there

end

end Axo
