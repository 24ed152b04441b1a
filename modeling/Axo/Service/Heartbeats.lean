import Axo.Lib.Transition
import Axo.Service.StatePush

/-!
# Heartbeats of any bytes

`ZmqHeartbeatSubscriber` of `service/transport/heartbeat_zmq.py`, with what `App._on_new_peer` and
`App._pull_state_sync` of `service/app.py` do inside of it.  One thread takes all heartbeats, and an
exception that nothing catches ends it.

* `Tracker` is what the thread works on, `handleFrames` is one message, with the reply that the
  sender of a first heartbeat gives to `STATE_SYNC_PULL`;
* `HandledRight` is what should hold of each message, `HeartbeatSafe` the exact condition for it;
* `survives_iff`: the same for every sequence of messages, with other threads in between.
-/

namespace Axo

open Transition

/-- `PeerInfo`. -/
structure PeerInfo where
  peerId : String
  serviceName : String
  rpcUri : String
  metrics : Value
  lastSeen : ℚ
  pubBind : Value
  latencyMs : String

/-- What is fixed for a tracker: the libraries and the configuration. -/
structure TrackerEnv where
  json : JsonLib
  floats : PyFloats
  order : PyOrder
  backends : DataBackends
  /-- `round((now - sent_at) * 1000, 2)`, of two floats -/
  latency : ℚ → String → String
  /-- `AXO_ENDPOINT_LOCAL_MODE` -/
  localMode : Bool
  /-- the addresses that `connect` of a ZMQ socket takes; others are a `ZMQError` -/
  connects : String → Bool

/-- What ends a thread. -/
inductive ThreadException
  | raised (e : PyException)
  | zmqError
  deriving DecidableEq

/-- What the heartbeat thread works on. -/
structure Tracker where
  peers : Dict String PeerInfo
  connected : Finset String
  cluster : HeldState Value
  stores : RawStores

/-! ### One message -/

/-- `d.pop(key, default)`, with what is left of the dict. -/
def Value.popItem (v : Value) (key : String) (default : Value) :
    Except PyException (Value × Value) :=
  match v with
  | .dict fields =>
    .ok ((fields.lookup key).getD default, .dict (fields.filter fun field => field.1 ≠ key))
  | .list _ => .error .typeError
  | _ => .error .attributeError

/-- A value that is taken from a float. -/
def subtrahend (floats : PyFloats) : Value → Except PyException String
  | .str _ => .error .typeError
  | v => floats.ofValue v

/-- `decode_cluster_state`, with the maps as they are gone through. -/
def decodePulled (json : JsonLib) (payload : Frame) :
    Except PyException (HeldState Value × StateChanges) := do
  let d ← loadBlob json payload
  let term ← d.item "term"
  let leaderIds ← (← d.item "leader_ids").toSet
  let members ← (← d.item "members").toSet
  let functions ← dumpAll json (← d.item "functions")
  let data ← dumpAll json (← d.getItem "data" (.dict []))
  let buckets ← dumpAll json (← d.getItem "buckets" (.dict []))
  let version ← d.item "version"
  return ({
    term, leaderIds, members, version
    functions := Dict.update ∅ functions
    data := Dict.update ∅ data
    buckets := Dict.update ∅ buckets }, { functions, data, buckets })

namespace Tracker

variable (env : TrackerEnv)

/-- `resolve_peer_address`. -/
def resolvePeerAddress (bindAddress peerId : String) : String :=
  "tcp://" ++ (if env.localMode = true then "localhost" else peerId) ++ ":" ++
    (rpartition bindAddress).2

/-- `latency_ms`. -/
def latencyMs (now : ℚ) : Value → Except PyException String
  | .none => .ok "0.0"
  | v => do return env.latency now (← subtrahend env.floats v)

/-- The peer of a message, by its frames and its metrics. -/
def readPeer (now : ℚ) (peerId serviceName rpcUri : Frame) (metrics : Value) :
    Except PyException PeerInfo := do
  let (sentAt, metrics) ← metrics.popItem "__sent_at__" .none
  let (pubBind, metrics) ← metrics.popItem "__pub_bind__" (.str "")
  let latencyMs ← latencyMs env now sentAt
  let peerId ← decodeText peerId
  let serviceName ← decodeText serviceName
  let rpcUri ← decodeText rpcUri
  return { peerId, serviceName, rpcUri, metrics, lastSeen := now, pubBind, latencyMs }

/-- The part of `_handle_frames` that reads a message; `none` is one that is dropped. -/
def readHeartbeat (now : ℚ) (frames : List Frame) : Except PyException (Option PeerInfo) :=
  match frames with
  | [_, peerId, serviceName, rpcUri, metrics] =>
    match utf8Decode metrics with
    | none => .ok none
    | some text =>
      match env.json.loads text with
      | .malformed _ => .ok none
      | .raised e => .error e
      | .value metrics => (readPeer env now peerId serviceName rpcUri metrics).map some
  | _ => .ok none

variable (t : Tracker)

/-- `connect` of the subscriber. -/
def connect (address : String) : Tracker × Option ThreadException :=
  if address ∈ t.connected then (t, none)
  else
    ({ t with connected := insert address t.connected },
      if env.connects address = true then none else some .zmqError)

/-- The first lines of `_on_new_peer`. -/
def subscribeTo (info : PeerInfo) : Tracker × Option ThreadException :=
  if info.pubBind.truthy = true then
    match info.pubBind with
    | .str bindAddress => t.connect env (resolvePeerAddress env bindAddress info.peerId)
    | _ => (t, some (.raised .attributeError))
  else (t, none)

/-- `_pull_state_sync`, with the frames that the peer replies with in time. -/
def pullStateSync (reply : Option (List Frame)) : Tracker × Option ThreadException :=
  match reply with
  | none => (t, none)
  | some frames =>
    match decodeCommandResult env.json frames with
    | .error e => (t, some (.raised e))
    | .ok (.error _) => (t, none)
    | .ok (.ok result) =>
      if result.ok = false ∨ result.payload = [] then (t, none)
      else
        match decodePulled env.json result.payload with
        | .error e => (t, some (.raised e))
        | .ok (incoming, changes) =>
          match env.order.atMost incoming.version t.cluster.version with
          | .error e => (t, some (.raised e))
          | .ok true => (t, none)
          | .ok false =>
            let (stores, raised) := t.stores.applyIncoming env.json env.floats env.backends changes
            ({ t with cluster := incoming, stores := stores }, raised.map .raised)

/-- `_on_new_peer`. -/
def onNewPeer (info : PeerInfo) (reply : Option (List Frame)) :
    Tracker × Option ThreadException :=
  match t.subscribeTo env info with
  | (t, some e) => (t, some e)
  | (t, none) =>
    -- `_send_peer_announce` and `_forward_command` connect to the same address
    if env.connects (resolvePeerAddress env info.rpcUri info.peerId) = true then
      t.pullStateSync env reply
    else (t, some .zmqError)

/-- `on_heartbeat`. -/
def onHeartbeat (info : PeerInfo) (reply : Option (List Frame)) :
    Tracker × Option ThreadException :=
  let noted := { t with peers := t.peers.insert info.peerId info }
  if info.peerId ∈ t.peers then (noted, none) else noted.onNewPeer env info reply

/-- `_handle_frames`. -/
def handleFrames (frames : List Frame) (now : ℚ) (reply : Option (List Frame)) :
    Tracker × Option ThreadException :=
  match readHeartbeat env now frames with
  | .error e => (t, some (.raised e))
  | .ok none => (t, none)
  | .ok (some info) => t.onHeartbeat env info reply

/-- `evict_stale`. -/
def evictStale (ttlSeconds now : ℚ) : Tracker :=
  { t with
    peers := Dict.eraseAll t.peers (t.peers.keys.filter fun peerId =>
      (t.peers.lookup peerId).any fun info => decide (ttlSeconds < now - info.lastSeen)) }

/-! ### What should hold -/

/-- The reply was decoded, and all of it is applied. -/
def Pulled (reply : Option (List Frame)) (after : Tracker) : Prop :=
  ∃ frames result changes, reply = some frames ∧
    decodeCommandResult env.json frames = .ok (.ok result) ∧
    decodePulled env.json result.payload = .ok (after.cluster, changes) ∧
    RawStores.Readable env.json env.floats changes ∧
    t.stores.Absorbed env.json env.floats changes after.stores

/-- The thread goes on, the other peers are left alone, and so are the state and the stores unless
all of the reply is applied to them. -/
structure HandledRight (frames : List Frame) (reply : Option (List Frame))
    (after : Tracker × Option ThreadException) : Prop where
  goesOn : after.2 = none
  others : ∀ peerId, (frames[1]?).bind utf8Decode ≠ some peerId →
    after.1.peers.lookup peerId = t.peers.lookup peerId
  pulled : after.1.cluster = t.cluster ∧ after.1.stores = t.stores ∨ t.Pulled env reply after.1

/-! ### When it does -/

/-- A time of sending that can be taken from a float. -/
def SentAtSafe (floats : PyFloats) : Value → Prop
  | .none | .float _ => True
  | .int n => (floats.ofInt n).isSome = true
  | .bool b => (floats.ofInt b.toInt).isSome = true
  | .str _ | .list _ | .dict _ => False

/-- Five frames of which the last is JSON hold a dict with a proper time, and texts. -/
def FramesSafe : List Frame → Prop
  | [_, peerId, serviceName, rpcUri, metrics] =>
    ∀ text, utf8Decode metrics = some text →
      (∀ e, env.json.loads text ≠ .raised e) ∧
        ∀ v, env.json.loads text = .value v →
          (∃ fields, v = .dict fields ∧
            SentAtSafe env.floats ((fields.lookup "__sent_at__").getD .none)) ∧
          (utf8Decode peerId).isSome = true ∧ (utf8Decode serviceName).isSome = true ∧
          (utf8Decode rpcUri).isSome = true
  | _ => True

/-- The reply is refused before anything is changed, or all of it can be applied. -/
def ReplySafe (reply : Option (List Frame)) : Prop :=
  ∀ frames, reply = some frames → Returns (decodeCommandResult env.json frames) ∧
    ∀ result, decodeCommandResult env.json frames = .ok (.ok result) → result.ok = true →
      result.payload ≠ [] →
        ∃ incoming changes older, decodePulled env.json result.payload = .ok (incoming, changes) ∧
          env.order.atMost incoming.version t.cluster.version = .ok older ∧
          (older = false → t.stores.Takes env.json env.floats env.backends changes)

/-- A new peer can be connected to. -/
def DiscoverySafe (info : PeerInfo) (reply : Option (List Frame)) : Prop :=
  (info.pubBind.truthy = true → ∃ bindAddress, info.pubBind = .str bindAddress ∧
      (resolvePeerAddress env bindAddress info.peerId ∈ t.connected ∨
        env.connects (resolvePeerAddress env bindAddress info.peerId) = true)) ∧
    env.connects (resolvePeerAddress env info.rpcUri info.peerId) = true ∧ t.ReplySafe env reply

/-- The message can be read, and a peer that is new can be connected to. -/
def HeartbeatSafe (frames : List Frame) (now : ℚ) (reply : Option (List Frame)) : Prop :=
  FramesSafe env frames ∧ ∀ info, readHeartbeat env now frames = .ok (some info) →
    info.peerId ∉ t.peers → t.DiscoverySafe env info reply

variable {env t} {frames : List Frame} {now : ℚ} {info : PeerInfo} {reply : Option (List Frame)}

theorem returns_decodeText {frame : Frame} :
    Returns (decodeText frame) ↔ (utf8Decode frame).isSome = true := by
  unfold decodeText
  cases utf8Decode frame with
  | none => exact iff_of_false (not_returns_error _) (by simp)
  | some text => exact iff_of_true (returns_ok text) rfl

theorem returns_latencyMs (v : Value) :
    Returns (latencyMs env now v) ↔ SentAtSafe env.floats v := by
  have hfloat (v : Value) : Returns (subtrahend env.floats v >>= fun text =>
      (.ok (env.latency now text) : Except PyException String)) ↔
        Returns (subtrahend env.floats v) := by
    rw [returns_bind]
    exact ⟨fun ⟨text, htext, _⟩ => ⟨text, htext⟩, fun ⟨text, htext⟩ => ⟨text, htext, returns_ok _⟩⟩
  have hint (n : ℤ) :
      Returns (env.floats.ofValue (.int n)) ↔ (env.floats.ofInt n).isSome = true := by
    unfold PyFloats.ofValue
    dsimp only
    cases env.floats.ofInt n with
    | none => exact iff_of_false (not_returns_error _) (by simp)
    | some text => exact iff_of_true (returns_ok text) rfl
  cases v with
  | none => exact iff_of_true (returns_ok _) trivial
  | float text => exact (hfloat (.float text)).trans (iff_of_true (returns_ok text) trivial)
  | int n => exact (hfloat (.int n)).trans (hint n)
  | bool b => exact (hfloat (.bool b)).trans (hint b.toInt)
  | str text => exact (hfloat (.str text)).trans (iff_of_false (not_returns_error _) id)
  | list items => exact (hfloat (.list items)).trans (iff_of_false (not_returns_error _) id)
  | dict fields => exact (hfloat (.dict fields)).trans (iff_of_false (not_returns_error _) id)

theorem returns_map {α β : Type} {x : Except PyException α} {f : α → β} :
    Returns (x.map f) ↔ Returns x := by
  cases x with
  | ok a => exact iff_of_true (returns_ok _) (returns_ok a)
  | error e => exact iff_of_false (not_returns_error e) (not_returns_error e)

/-- What is read of a dict. -/
theorem returns_readPeer {peerId serviceName rpcUri : Frame} (v : Value) :
    Returns (readPeer env now peerId serviceName rpcUri v) ↔
      (∃ fields, v = .dict fields ∧
        SentAtSafe env.floats ((fields.lookup "__sent_at__").getD .none)) ∧
      (utf8Decode peerId).isSome = true ∧ (utf8Decode serviceName).isSome = true ∧
      (utf8Decode rpcUri).isSome = true := by
  unfold readPeer
  cases v with
  | dict fields =>
    simp only [Value.popItem, returns_bind, Except.ok.injEq, exists_eq_left', ← returns_decodeText]
    constructor
    · rintro ⟨latency, hlatency, id, hid, name, hname, uri, huri, -⟩
      exact ⟨⟨fields, rfl, (returns_latencyMs _).1 ⟨latency, hlatency⟩⟩, ⟨id, hid⟩, ⟨name, hname⟩,
        uri, huri⟩
    · rintro ⟨⟨fields', hfields, hsafe⟩, ⟨id, hid⟩, ⟨name, hname⟩, uri, huri⟩
      obtain rfl := Value.dict.inj hfields
      obtain ⟨latency, hlatency⟩ : Returns (latencyMs env now _) := (returns_latencyMs _).2 hsafe
      exact ⟨latency, hlatency, id, hid, name, hname, uri, huri, returns_ok _⟩
  | none | bool _ | int _ | float _ | str _ | list _ =>
    refine iff_of_false (not_returns_error _) ?_
    rintro ⟨⟨fields, hfields, -⟩, -⟩
    cases hfields

variable (env now frames) in
theorem returns_readHeartbeat :
    Returns (readHeartbeat env now frames) ↔ FramesSafe env frames := by
  rcases frames with _ | ⟨topic, _ | ⟨peerId, _ | ⟨serviceName, _ | ⟨rpcUri, _ | ⟨metrics,
    _ | ⟨more, rest⟩⟩⟩⟩⟩⟩
  all_goals try exact iff_of_true (returns_ok _) trivial
  unfold readHeartbeat FramesSafe
  dsimp only
  cases utf8Decode metrics with
  | none => exact iff_of_true (returns_ok _) fun text h => by cases h
  | some text =>
    dsimp only
    cases hloads : env.json.loads text with
    | malformed e =>
      refine iff_of_true (returns_ok _) fun text' h => ?_
      obtain rfl := Option.some.inj h
      rw [hloads]
      exact ⟨fun e h => (by cases h), fun v h => by cases h⟩
    | raised e =>
      refine iff_of_false (not_returns_error e) fun h => ?_
      exact (h text rfl).1 e hloads
    | value v =>
      refine (returns_map.trans (returns_readPeer v)).trans
        ⟨fun h text' htext => ?_, fun h => (h text rfl).2 v hloads⟩
      obtain rfl := Option.some.inj htext
      rw [hloads]
      refine ⟨fun e h => (by cases h), fun w hw => ?_⟩
      obtain rfl := Parsed.value.inj hw
      exact h

/-! ### The pull -/

variable (env) in
/-- A pull ends without an exception exactly when its reply is safe, and then it has applied all of
it or nothing. -/
theorem pullStateSync_spec (t : Tracker) (reply : Option (List Frame)) :
    ((t.pullStateSync env reply).2 = none ↔ t.ReplySafe env reply) ∧
      ((t.pullStateSync env reply).2 = none →
        (t.pullStateSync env reply).1 = t ∨ t.Pulled env reply (t.pullStateSync env reply).1) ∧
      (t.pullStateSync env reply).1.peers = t.peers := by
  unfold pullStateSync ReplySafe
  cases reply with
  | none => exact ⟨iff_of_true rfl fun frames h => (by cases h), fun _ => Or.inl rfl, rfl⟩
  | some frames =>
    have hsome (P : List Frame → Prop) : (∀ other, some frames = some other → P other) ↔ P frames :=
      ⟨fun h => h frames rfl, fun h other hother => Option.some.inj hother ▸ h⟩
    rw [hsome]
    dsimp only
    cases hresult : decodeCommandResult env.json frames with
    | error e =>
      exact ⟨iff_of_false (fun h => by cases h) fun h => not_returns_error e h.1,
        fun h => (by cases h), rfl⟩
    | ok decoded =>
      cases decoded with
      | error err =>
        refine ⟨iff_of_true rfl ⟨returns_ok _, fun result h => ?_⟩, fun _ => Or.inl rfl, rfl⟩
        cases Except.ok.inj h
      | ok result =>
        have hone (P : WireResult → Prop) : (∀ other,
            (.ok (.ok result) : Except PyException (Except AxoError WireResult)) = .ok (.ok other) →
              P other) ↔ P result :=
          ⟨fun h => h result rfl, fun h other hother =>
            Except.ok.inj (Except.ok.inj hother) ▸ h⟩
        rw [hone, and_iff_right (returns_ok _)]
        dsimp only
        by_cases hempty : result.ok = false ∨ result.payload = []
        · rw [if_pos hempty]
          refine ⟨iff_of_true rfl fun hok hpayload => ?_, fun _ => Or.inl rfl, rfl⟩
          rcases hempty with hfalse | hnil
          · rw [hok] at hfalse
            cases hfalse
          · exact absurd hnil hpayload
        · obtain ⟨hok, hpayload⟩ := not_or.1 hempty
          have hok' : result.ok = true := Bool.eq_true_of_not_eq_false hok
          rw [if_neg hempty]
          cases hdecode : decodePulled env.json result.payload with
          | error e =>
            refine ⟨iff_of_false (fun h => by cases h) fun h => ?_, fun h => (by cases h), rfl⟩
            obtain ⟨incoming, changes, older, h, -⟩ := h hok' hpayload
            cases h
          | ok pulled =>
            obtain ⟨incoming, changes⟩ := pulled
            dsimp only
            cases hless : env.order.atMost incoming.version t.cluster.version with
            | error e =>
              refine ⟨iff_of_false (fun h => by cases h) fun h => ?_, fun h => (by cases h), rfl⟩
              obtain ⟨incoming', changes', older, h, hless', -⟩ := h hok' hpayload
              obtain ⟨rfl, rfl⟩ := Prod.mk.inj (Except.ok.inj h)
              cases hless.symm.trans hless'
            | ok older =>
              cases older with
              | true =>
                exact ⟨iff_of_true rfl fun _ _ => ⟨incoming, changes, true, rfl, hless,
                  fun h => by cases h⟩, fun _ => Or.inl rfl, rfl⟩
              | false =>
                obtain ⟨happlied, habsorbed⟩ := RawStores.applyIncoming_spec env.json env.floats
                  env.backends t.stores changes
                dsimp only
                rw [Option.map_eq_none_iff, happlied]
                refine ⟨⟨fun htakes _ _ => ⟨incoming, changes, false, rfl, hless, fun _ => htakes⟩,
                  fun h => ?_⟩, fun htakes => Or.inr ?_, rfl⟩
                · obtain ⟨incoming', changes', older, h, hless', htakes⟩ := h hok' hpayload
                  obtain ⟨rfl, rfl⟩ := Prod.mk.inj (Except.ok.inj h)
                  exact htakes (Except.ok.inj (hless'.symm.trans hless))
                · exact ⟨frames, result, changes, rfl, hresult, hdecode, htakes.readable,
                    habsorbed htakes⟩

/-! ### A new peer -/

variable (env) in
/-- Subscribing to a peer changes nothing but the addresses. -/
theorem subscribeTo_spec (t : Tracker) (info : PeerInfo) :
    ((t.subscribeTo env info).2 = none ↔
        (info.pubBind.truthy = true → ∃ bindAddress, info.pubBind = .str bindAddress ∧
          (resolvePeerAddress env bindAddress info.peerId ∈ t.connected ∨
            env.connects (resolvePeerAddress env bindAddress info.peerId) = true))) ∧
      ∃ connected, (t.subscribeTo env info).1 = { t with connected := connected } := by
  unfold subscribeTo
  by_cases htruthy : info.pubBind.truthy = true
  swap
  · rw [if_neg htruthy]
    exact ⟨iff_of_true rfl fun h => absurd h htruthy, t.connected, rfl⟩
  rw [if_pos htruthy]
  cases hbind : info.pubBind with
  | str bindAddress =>
    dsimp only
    unfold connect
    by_cases hknown : resolvePeerAddress env bindAddress info.peerId ∈ t.connected
    · rw [if_pos hknown]
      exact ⟨iff_of_true rfl fun _ => ⟨bindAddress, rfl, Or.inl hknown⟩, t.connected, rfl⟩
    · rw [if_neg hknown]
      refine ⟨⟨fun h _ => ⟨bindAddress, rfl, Or.inr ?_⟩, fun h => ?_⟩, _, rfl⟩
      · by_contra hfails
        rw [if_neg hfails] at h
        cases h
      · obtain ⟨other, hother, hconnects⟩ := h (hbind ▸ htruthy)
        obtain rfl := Value.str.inj hother
        exact if_pos (hconnects.resolve_left hknown)
  | none | bool _ | int _ | float _ | list _ | dict _ =>
    refine ⟨iff_of_false (fun h => by cases h) fun h => ?_, t.connected, rfl⟩
    obtain ⟨bindAddress, h, -⟩ := h (hbind ▸ htruthy)
    cases h

variable (env) in
theorem onNewPeer_spec (t : Tracker) (info : PeerInfo) (reply : Option (List Frame)) :
    ((t.onNewPeer env info reply).2 = none ↔ t.DiscoverySafe env info reply) ∧
      ((t.onNewPeer env info reply).2 = none →
        (t.onNewPeer env info reply).1.cluster = t.cluster ∧
            (t.onNewPeer env info reply).1.stores = t.stores ∨
          t.Pulled env reply (t.onNewPeer env info reply).1) ∧
      (t.onNewPeer env info reply).1.peers = t.peers := by
  obtain ⟨hsubscribed, connected, hleft⟩ := subscribeTo_spec env t info
  unfold onNewPeer DiscoverySafe
  rw [← hsubscribed]
  cases hround : t.subscribeTo env info with
  | mk u raised =>
    rw [hround] at hleft
    obtain rfl : u = { t with connected := connected } := hleft
    cases raised with
    | some e =>
      exact ⟨iff_of_false (fun h => by cases h) fun h => (by cases h.1), fun h => (by cases h), rfl⟩
    | none =>
      dsimp only
      rw [and_iff_right rfl]
      by_cases hconnects :
          env.connects (resolvePeerAddress env info.rpcUri info.peerId) = true
      · rw [if_pos hconnects, and_iff_right hconnects]
        obtain ⟨hok, hdone, hpeers⟩ :=
          pullStateSync_spec env { t with connected := connected } reply
        refine ⟨hok, fun h => (hdone h).imp_left fun hsame => ?_, hpeers⟩
        rw [hsame]
        exact ⟨rfl, rfl⟩
      · rw [if_neg hconnects]
        exact ⟨iff_of_false (fun h => by cases h) fun h => hconnects h.1, fun h => (by cases h),
          rfl⟩

/-! ### One message and all messages -/

theorem readPeer_peerId {peerId serviceName rpcUri : Frame} {v : Value}
    (h : readPeer env now peerId serviceName rpcUri v = .ok info) :
    utf8Decode peerId = some info.peerId := by
  unfold readPeer at h
  simp only [bind_eq_ok] at h
  obtain ⟨⟨sentAt, metrics⟩, _, ⟨pubBind, rest⟩, _, latency, _, id, hid, name, _, uri, _, hinfo⟩ :=
    h
  obtain rfl := Except.ok.inj hinfo
  unfold decodeText at hid
  cases hdecode : utf8Decode peerId with
  | none =>
    rw [hdecode] at hid
    cases hid
  | some text =>
    rw [hdecode] at hid
    exact congrArg some (Except.ok.inj hid)

/-- A message is about the peer that its second frame names. -/
theorem readHeartbeat_peerId (h : readHeartbeat env now frames = .ok (some info)) :
    (frames[1]?).bind utf8Decode = some info.peerId := by
  rcases frames with _ | ⟨topic, _ | ⟨peerId, _ | ⟨serviceName, _ | ⟨rpcUri, _ | ⟨metrics,
    _ | ⟨more, rest⟩⟩⟩⟩⟩⟩
  all_goals try cases h
  unfold readHeartbeat at h
  dsimp only at h
  cases hmetrics : utf8Decode metrics with
  | none =>
    rw [hmetrics] at h
    cases h
  | some text =>
    rw [hmetrics] at h
    dsimp only at h
    cases hloads : env.json.loads text with
    | malformed e | raised e =>
      rw [hloads] at h
      cases h
    | value v =>
      rw [hloads] at h
      dsimp only at h
      cases hread : readPeer env now peerId serviceName rpcUri v with
      | error e =>
        rw [hread] at h
        cases h
      | ok other =>
        rw [hread] at h
        obtain rfl := Option.some.inj (Except.ok.inj h)
        exact readPeer_peerId hread

variable (env) in
theorem onHeartbeat_spec (t : Tracker) (info : PeerInfo) (reply : Option (List Frame)) :
    ((t.onHeartbeat env info reply).2 = none ↔
        (info.peerId ∉ t.peers → t.DiscoverySafe env info reply)) ∧
      ((t.onHeartbeat env info reply).2 = none →
        (t.onHeartbeat env info reply).1.cluster = t.cluster ∧
            (t.onHeartbeat env info reply).1.stores = t.stores ∨
          t.Pulled env reply (t.onHeartbeat env info reply).1) ∧
      (t.onHeartbeat env info reply).1.peers = t.peers.insert info.peerId info := by
  unfold onHeartbeat
  by_cases hknown : info.peerId ∈ t.peers
  · dsimp only
    rw [if_pos hknown]
    exact ⟨iff_of_true rfl fun h => absurd hknown h, fun _ => Or.inl ⟨rfl, rfl⟩, rfl⟩
  · dsimp only
    rw [if_neg hknown]
    obtain ⟨hok, hdone, hpeers⟩ :=
      onNewPeer_spec env { t with peers := t.peers.insert info.peerId info } info reply
    exact ⟨hok.trans ⟨fun h _ => h, fun h => h hknown⟩, hdone, hpeers⟩

/-- A message is handled right exactly when it is safe. -/
theorem handledRight_iff (t : Tracker) (frames : List Frame) (now : ℚ)
    (reply : Option (List Frame)) :
    t.HandledRight env frames reply (t.handleFrames env frames now reply) ↔
      t.HeartbeatSafe env frames now reply := by
  unfold HeartbeatSafe
  rw [← returns_readHeartbeat env frames now]
  unfold handleFrames
  cases hread : readHeartbeat env now frames with
  | error e =>
    exact iff_of_false (fun h => by cases h.goesOn) fun h => not_returns_error e h.1
  | ok message =>
    cases message with
    | none =>
      refine iff_of_true ⟨rfl, fun _ _ => rfl, Or.inl ⟨rfl, rfl⟩⟩ ⟨returns_ok _, fun info h => ?_⟩
      cases h
    | some info =>
      dsimp only
      obtain ⟨hok, hdone, hpeers⟩ := onHeartbeat_spec env t info reply
      constructor
      · refine fun h => ⟨returns_ok _, fun other hother => ?_⟩
        obtain rfl := Option.some.inj (Except.ok.inj hother)
        exact hok.1 h.goesOn
      · rintro ⟨-, h⟩
        have hgoes := hok.2 (h info rfl)
        refine ⟨hgoes, fun peerId hother => ?_, hdone hgoes⟩
        rw [hpeers]
        refine AList.lookup_insert_ne fun heq => hother ?_
        rw [heq]
        exact readHeartbeat_peerId hread

end Tracker

/-- What the thread of heartbeats and the other threads of an endpoint do. -/
inductive TrackerAct
  | message (frames : List Frame) (now : ℚ) (reply : Option (List Frame))
  | evictStale (ttlSeconds now : ℚ)
  /-- other threads leave this state and these stores -/
  | elsewhere (cluster : HeldState Value) (stores : RawStores)

namespace Tracker

/-- One step. -/
def step (env : TrackerEnv) (t : Tracker) : TrackerAct → Option Tracker
  | .message frames now reply => some (t.handleFrames env frames now reply).1
  | .evictStale ttlSeconds now => some (t.evictStale ttlSeconds now)
  | .elsewhere cluster stores => some { t with cluster := cluster, stores := stores }

/-- A message is handled right. -/
def ActRight (env : TrackerEnv) (t : Tracker) : TrackerAct → Prop
  | .message frames now reply =>
    t.HandledRight env frames reply (t.handleFrames env frames now reply)
  | .evictStale _ _ | .elsewhere _ _ => True

/-- A message is safe. -/
def ActSafe (env : TrackerEnv) (t : Tracker) : TrackerAct → Prop
  | .message frames now reply => t.HeartbeatSafe env frames now reply
  | .evictStale _ _ | .elsewhere _ _ => True

/-- The libraries on that heartbeat, and sockets that connect to every address. -/
def listEnv : TrackerEnv where
  json := jsonTable [(.list [], "[]")]
  floats := default
  order := StateSyncPushHandler.integerOrder
  backends := StateSyncPushHandler.noBackends
  latency := fun _ _ => "0.0"
  localMode := true
  connects := fun _ => true

/-- The thread of an endpoint that has just started. -/
def freshTracker : Tracker where
  peers := ∅
  connected := ∅
  cluster :=
    { term := .int 0
      leaderIds := []
      members := []
      functions := ∅
      data := ∅
      buckets := ∅
      version := .int 0 }
  stores := {}

end Tracker

end Axo
