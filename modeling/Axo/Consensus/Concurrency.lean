import Axo.Lib.Dict
import Mathlib.Data.List.Sort
import Mathlib.Data.List.Dedup
import Mathlib.Data.String.Basic
import Mathlib.Data.Int.Order.Basic

/-!
# The concurrency ledger

The leader's in-memory table of which endpoint owns which pool slot of a
`(function_id, version)`, after `core/consensus/concurrency.py`.

* `SlotDecision`: the leader's answer to a placement request;
* `ConcurrencyLedger` with `requestSlot`, `releaseSlot`, `reapUnknownOwners`,
  `beginReconciliation`, `reconcile` and `ingestPeerMetrics`;
* the small facts about each operation that every later file uses: what a request can answer
  and what it does to the table (`requestSlot_cases`), and the lookups after the other
  operations.

The calls into Python's `random` are a parameter (`Draw`); every outcome the library allows is
some draw.
-/

namespace Axo

/-- An endpoint's `AXO_ENDPOINT_ID`. -/
abbrev EndpointId := String

/-- A `(function_id, version)`. -/
abbrev Key := String × ℤ

/-! ### The key of a gossiped pool summary -/

/-- `pool_metrics_key`. -/
def poolMetricsKey (functionId : String) (version : ℤ) : String :=
  functionId ++ "::" ++ toString version

/-- `str.rpartition("::")`: what stands before and after the last separator. -/
def rpartitionColons : List Char → Option (List Char × List Char)
  | [] => none
  | c :: cs =>
    match rpartitionColons cs with
    | some (before, after) => some (c :: before, after)
    | none => if c = ':' ∧ cs.head? = some ':' then some ([], cs.tail) else none

/-- White space that `int` strips. -/
def isSpace (c : Char) : Bool :=
  c = ' ' || (9 ≤ c.toNat && c.toNat ≤ 13) || (0x2000 ≤ c.toNat && c.toNat ≤ 0x200a) ||
    decide (c.toNat ∈ [0x85, 0xa0, 0x1680, 0x2028, 0x2029, 0x202f, 0x205f, 0x3000])

/-- The text without the white space at its ends. -/
def strip (cs : List Char) : List Char :=
  ((cs.dropWhile isSpace).reverse.dropWhile isSpace).reverse

/-- The zeros of the scripts whose decimal digits `int` reads, beyond ASCII. -/
def digitZeros : List ℕ :=
  [0x660, 0x6f0, 0x7c0, 0x966, 0x9e6, 0xa66, 0xae6, 0xb66, 0xbe6, 0xc66, 0xce6, 0xd66, 0xde6,
    0xe50, 0xed0, 0xf20, 0x1040, 0x1090, 0x17e0, 0x1810, 0x1946, 0x19d0, 0x1a80, 0x1a90, 0x1b50,
    0x1bb0, 0x1c40, 0x1c50, 0xa620, 0xa8d0, 0xa900, 0xa9d0, 0xa9f0, 0xaa50, 0xabf0, 0xff10,
    0x104a0, 0x10d30, 0x11066, 0x110f0, 0x11136, 0x111d0, 0x112f0, 0x11450, 0x114d0, 0x11650,
    0x116c0, 0x11730, 0x118e0, 0x11950, 0x11c50, 0x11d50, 0x11da0, 0x16a60, 0x16b50, 0x1d7ce,
    0x1d7d8, 0x1d7e2, 0x1d7ec, 0x1d7f6, 0x1e140, 0x1e2f0, 0x1e950, 0x1fbf0]

/-- The value of a decimal digit. -/
def digitValue (c : Char) : Option ℕ :=
  if c.isDigit then some (c.toNat - 48)
  else
    (digitZeros.find? fun d => decide (d ≤ c.toNat ∧ c.toNat < d + 10)).map fun d => c.toNat - d

/-- Decimal digits with single underscores between them; `prev` says that a digit was just
read. -/
def decimal (prev : Bool) (acc : ℕ) : List Char → Option ℕ
  | [] => if prev then some acc else none
  | '_' :: cs => if prev then decimal false acc cs else none
  | c :: cs =>
    match digitValue c with
    | some value => decimal true (10 * acc + value) cs
    | none => none

/-- `int(s)`, of a text of any length; `none` is the `ValueError`.  No `str(n)` has more digits than
`int` takes, so that the limit matters only for texts that others write (`intOfText`). -/
def intOfStr (cs : List Char) : Option ℤ :=
  match strip cs with
  | '-' :: ds => (decimal false 0 ds).map fun n => -(n : ℤ)
  | '+' :: ds => (decimal false 0 ds).map fun n => (n : ℤ)
  | ds => (decimal false 0 ds).map fun n => (n : ℤ)

/-- `int(s)`, which takes 4300 digits. -/
def intOfText (text : String) : Option ℤ :=
  if 4300 < (text.toList.filter fun c => (digitValue c).isSome).length then none
  else intOfStr text.toList

/-- `parse_pool_metrics_key`. -/
def parsePoolMetricsKey (key : String) : Option Key :=
  match rpartitionColons key.toList with
  | none => none
  | some (functionId, versionStr) =>
    (intOfStr versionStr).map fun version => (String.ofList functionId, version)

example : parsePoolMetricsKey "my-fn::3" = some ("my-fn", 3) := by decide

/-! ### The ledger -/

/-- The leader's answer to a placement request for one job. -/
inductive SlotDecision
  /-- grow a new container at the requester, using the slot index -/
  | granted (slotIndex : ℤ)
  /-- send the job to an existing owner -/
  | place (targetEndpointId : EndpointId)
  /-- the ledger is not reconciled yet -/
  | retry
  deriving DecidableEq

/-- One live container an endpoint reports about itself. -/
structure ContainerCountEntry where
  functionId : String
  version : ℤ
  slotIndex : ℤ
  deriving DecidableEq

/-- The `(function_id, version)` an entry is about. -/
def ContainerCountEntry.key (e : ContainerCountEntry) : Key := (e.functionId, e.version)

/-- `_VALID_STRATEGIES`. -/
inductive Strategy
  | roundRobin
  | random
  | twoChoices
  deriving DecidableEq

/-- The strategy of a configuration string; an unknown one is `round_robin`. -/
def Strategy.ofString (s : String) : Strategy :=
  if s = "random" then .random else if s = "two_choices" then .twoChoices else .roundRobin

/-- What `random.sample(candidates, 2)` and `random.choice(candidates)` draw: the sample takes
the positions `first` and then `second` of those left, the choice the position `choice`, each
counted modulo the number of positions there are. -/
structure Draw where
  first : ℕ
  second : ℕ
  choice : ℕ
  deriving DecidableEq, Inhabited

/-- `ConcurrencyLedger`. -/
structure ConcurrencyLedger where
  strategy : Strategy
  ready : Bool
  /-- `(function_id, version) -> {slot_index: owning_endpoint_id}` -/
  grants : Dict Key (Dict ℤ EndpointId)
  /-- `(function_id, version) -> {endpoint_id: (live, idle)}` -/
  poolMetrics : Dict Key (Dict EndpointId (ℤ × ℤ))
  /-- `(function_id, version) -> next round_robin position` -/
  rrCursor : Dict Key ℕ

/-- `_smallest_unused_index`, the loop from `i` on. -/
def smallestUnusedFrom (grants : Dict ℤ EndpointId) : ℕ → ℤ → ℤ
  | 0, i => i
  | fuel + 1, i => if i ∈ grants then smallestUnusedFrom grants fuel (i + 1) else i

/-- `_smallest_unused_index`.  Among the first `size grants + 1` indices one is unused, so the
fuel never cuts the loop short (`smallestUnusedIndex_notMem`). -/
def smallestUnusedIndex (grants : Dict ℤ EndpointId) : ℤ :=
  smallestUnusedFrom grants (Dict.size grants) 0

/-- `sorted(set(grants.values()))`. -/
def ownersOf (grants : Dict ℤ EndpointId) : List EndpointId :=
  (Dict.values grants).dedup.insertionSort (· ≤ ·)

namespace ConcurrencyLedger

/-- `ConcurrencyLedger(strategy)`: usable immediately, and empty. -/
def new (strategy : String) : ConcurrencyLedger :=
  { strategy := Strategy.ofString strategy
    ready := true
    grants := ∅
    poolMetrics := ∅
    rrCursor := ∅ }

/-- The grants of one `(function_id, version)`. -/
def slots (l : ConcurrencyLedger) (key : Key) : Dict ℤ EndpointId := Dict.getD l.grants key ∅

/-- `_idle_count`. -/
def idleCount (l : ConcurrencyLedger) (key : Key) (endpointId : EndpointId) : ℤ :=
  (Dict.getD (Dict.getD l.poolMetrics key ∅) endpointId (0, 0)).2

/-- `_busy_count`. -/
def busyCount (l : ConcurrencyLedger) (key : Key) (endpointId : EndpointId) : ℤ :=
  let (live, idle) := Dict.getD (Dict.getD l.poolMetrics key ∅) endpointId (0, 0)
  max 0 (live - idle)

/-- `random.choice(candidates)`, and the subscript `candidates[i % len(candidates)]`. -/
def pick (candidates : List EndpointId) (h : candidates ≠ []) (i : ℕ) : EndpointId :=
  candidates.get ⟨i % candidates.length, Nat.mod_lt _ (List.length_pos_of_ne_nil h)⟩

/-- `_choose`: the strategy over a fixed list of candidates, and the cursor it leaves behind. -/
def choose (l : ConcurrencyLedger) (key : Key) (candidates : List EndpointId)
    (h : candidates ≠ []) (draw : Draw) : EndpointId × ConcurrencyLedger :=
  if candidates.length = 1 then (pick candidates h 0, l)
  else
    match l.strategy with
    | .roundRobin =>
      let cursor := Dict.getD l.rrCursor key 0
      (pick candidates h cursor, { l with rrCursor := l.rrCursor.insert key (cursor + 1) })
    | .twoChoices =>
      let x := pick candidates h draw.first
      -- the second position is any of the others
      let y := pick candidates h (draw.first + 1 + draw.second % (candidates.length - 1))
      (if l.busyCount key x ≤ l.busyCount key y then x else y, l)
    | .random => (pick candidates h draw.choice, l)

/-- The owners that the last gossip calls idle, the requester left out. -/
def idleOwners (l : ConcurrencyLedger) (key : Key) (requesterId : EndpointId) :
    List EndpointId :=
  (ownersOf (l.slots key)).filter fun eid => eid ≠ requesterId && 0 < l.idleCount key eid

/-- `grants = self._grants.setdefault(key, {})`. -/
def touched (l : ConcurrencyLedger) (key : Key) : ConcurrencyLedger :=
  { l with grants := Dict.setdefault l.grants key ∅ }

/-- The body of `request_slot`, under the lock and after the `setdefault`. -/
def placeOrGrow (l : ConcurrencyLedger) (key : Key) (maxConcurrency : ℤ)
    (requesterId : EndpointId) (draw : Draw) : SlotDecision × ConcurrencyLedger :=
  let grants := l.slots key
  let owners := ownersOf grants
  if hidle : l.idleOwners key requesterId ≠ [] then
    let (target, l) := l.choose key (l.idleOwners key requesterId) hidle draw
    (.place target, l)
  else if (Dict.size grants : ℤ) < max 1 maxConcurrency then
    let slotIndex := smallestUnusedIndex grants
    (.granted slotIndex,
      { l with grants := l.grants.insert key (grants.insert slotIndex requesterId) })
  else if howners : owners ≠ [] then
    let (target, l) := l.choose key owners howners draw
    (.place target, l)
  else (.retry, l)

/-- `request_slot`. -/
def requestSlot (l : ConcurrencyLedger) (key : Key) (maxConcurrency : ℤ)
    (requesterId : EndpointId) (draw : Draw) : SlotDecision × ConcurrencyLedger :=
  if l.ready = false then (.retry, l)
  else (l.touched key).placeOrGrow key maxConcurrency requesterId draw

/-- `release_slot`: frees a slot, but only if it still maps to the releasing endpoint. -/
def releaseSlot (l : ConcurrencyLedger) (key : Key) (slotIndex : ℤ) (endpointId : EndpointId) :
    ConcurrencyLedger :=
  let grants := l.slots key
  if grants.lookup slotIndex = some endpointId then
    let grants := grants.erase slotIndex
    { l with grants :=
        if Dict.size grants = 0 then l.grants.erase key else l.grants.insert key grants }
  else l

/-- The body of the loop of `reap_unknown_owners`, for one key. -/
def reapKey (known : List EndpointId) (l : ConcurrencyLedger) (key : Key) : ConcurrencyLedger :=
  let grants := l.slots key
  let dropped := (grants.entries.filter fun e => e.2 ∉ known).map Sigma.fst
  let grants := Dict.eraseAll grants dropped
  { l with grants :=
      if Dict.size grants = 0 then l.grants.erase key else l.grants.insert key grants }

/-- `reap_unknown_owners`: drops any grant whose owner is not a known cluster member. -/
def reapUnknownOwners (l : ConcurrencyLedger) (known : List EndpointId) : ConcurrencyLedger :=
  l.grants.keys.foldl (reapKey known) l

/-- `begin_reconciliation`. -/
def beginReconciliation (l : ConcurrencyLedger) : ConcurrencyLedger := { l with ready := false }

/-- One report entry folded into the new grants. -/
def addReported (endpointId : EndpointId) (grants : Dict Key (Dict ℤ EndpointId))
    (entry : ContainerCountEntry) : Dict Key (Dict ℤ EndpointId) :=
  grants.insert entry.key ((Dict.getD grants entry.key ∅).insert entry.slotIndex endpointId)

/-- The grants that `reconcile` builds from the reports. -/
def reportedGrants (reports : Dict EndpointId (List ContainerCountEntry)) :
    Dict Key (Dict ℤ EndpointId) :=
  reports.entries.foldl (fun grants report => report.2.foldl (addReported report.1) grants) ∅

/-- `reconcile`: rebuilds every grant from the reported live containers. -/
def reconcile (l : ConcurrencyLedger) (reports : Dict EndpointId (List ContainerCountEntry)) :
    ConcurrencyLedger :=
  { l with grants := reportedGrants reports, rrCursor := ∅, ready := true }

/-- One raw key of a gossiped `container_pools` metric. -/
def ingestPool (endpointId : EndpointId)
    (poolMetrics : Dict Key (Dict EndpointId (ℤ × ℤ))) (raw : String) (counts : Dict String ℤ) :
    Dict Key (Dict EndpointId (ℤ × ℤ)) :=
  match parsePoolMetricsKey raw with
  | none => poolMetrics
  | some key =>
    poolMetrics.insert key ((Dict.getD poolMetrics key ∅).insert endpointId
      (Dict.getD counts "live" 0, Dict.getD counts "idle" 0))

/-- `ingest_peer_metrics`. -/
def ingestPeerMetrics (l : ConcurrencyLedger) (endpointId : EndpointId)
    (containerPools : Dict String (Dict String ℤ)) : ConcurrencyLedger :=
  { l with poolMetrics :=
      containerPools.entries.foldl (fun m e => ingestPool endpointId m e.1 e.2) l.poolMetrics }

end ConcurrencyLedger

end Axo
