import Axo.Lib.Transition
import Axo.Service.Placement

/-!
# How long a job is sent on

While a job is sent on nothing changes at the leader but the round-robin cursor.  `PoolView` is
all that the leader's answers depend on, `PoolView.hop` the walk of a job over endpoints and
cursors, and `map_hop` says that the ledger's answers follow it.  The walk is then analysed for
each strategy: `Settles` is the exact condition under which it ends in time, whatever is drawn
(`placementTerminates_iff`).
-/

namespace Axo

open ConcurrencyLedger Transition

/-! ### The walk of a job -/

/-- What the answers of a ledger for one key and one cap depend on, besides the cursor. -/
structure PoolView where
  strategy : Strategy
  ready : Bool
  full : Bool
  owners : List EndpointId
  /-- the owners gossiped idle -/
  idle : List EndpointId
  busy : EndpointId → ℤ
  nodup : owners.Nodup
  sub : idle.Sublist owners

namespace PoolView

/-- `_choose`: the target, and the cursor it leaves behind. -/
def choose (v : PoolView) (candidates : List EndpointId) (h : candidates ≠ []) (cursor : ℕ)
    (draw : Draw) : EndpointId × ℕ :=
  if candidates.length = 1 then (pick candidates h 0, cursor)
  else
    match v.strategy with
    | .roundRobin => (pick candidates h cursor, cursor + 1)
    | .twoChoices =>
      let x := pick candidates h draw.first
      let y := pick candidates h (draw.first + 1 + draw.second % (candidates.length - 1))
      (if v.busy x ≤ v.busy y then x else y, cursor)
    | .random => (pick candidates h draw.choice, cursor)

/-- One forward of a job at an endpoint with no idle container. -/
def hop (v : PoolView) : ℕ × EndpointId → Draw → Option (ℕ × EndpointId)
  | (cursor, e), draw =>
    if v.ready = false then none
    else if hidle : v.idle.filter (· ≠ e) ≠ [] then
      let (target, cursor) := v.choose (v.idle.filter (· ≠ e)) hidle cursor draw
      some (cursor, target)
    else if v.full = false then none
    else if howners : v.owners ≠ [] then
      let (target, cursor) := v.choose v.owners howners cursor draw
      if target = e then none else some (cursor, target)
    else none

end PoolView

/-! ### The ledger follows the walk -/

section Refine

variable (key : Key) (maxConcurrency : ℤ)

/-- The view of a ledger. -/
def viewOf (l : ConcurrencyLedger) : PoolView where
  strategy := l.strategy
  ready := l.ready
  full := decide (max 1 maxConcurrency ≤ (Dict.size (l.slots key) : ℤ))
  owners := ownersOf (l.slots key)
  idle := (ownersOf (l.slots key)).filter fun e => 0 < l.idleCount key e
  busy := l.busyCount key
  nodup := ownersOf_nodup _
  sub := List.filter_sublist

/-- The round-robin position of the key. -/
def cursorOf (l : ConcurrencyLedger) : ℕ := Dict.getD l.rrCursor key 0

variable {key maxConcurrency} {l l' : ConcurrencyLedger}

theorem owners_viewOf (l : ConcurrencyLedger) :
    (viewOf key maxConcurrency l).owners = ownersOf (l.slots key) := rfl

theorem viewOf_congr (h : SameGrants l l') :
    viewOf key maxConcurrency l' = viewOf key maxConcurrency l := by
  have hidle : l'.idleCount key = l.idleCount key := by
    funext e
    rw [idleCount, h.poolMetrics, idleCount]
  have hbusy : l'.busyCount key = l.busyCount key := by
    funext e
    rw [busyCount, h.poolMetrics, busyCount]
  simp only [viewOf, h.strategy, h.ready, h.slots, hidle, hbusy]

theorem idleOwners_eq (key : Key) (maxConcurrency : ℤ) (l : ConcurrencyLedger)
    (e : EndpointId) :
    l.idleOwners key e = (viewOf key maxConcurrency l).idle.filter (· ≠ e) := by
  rw [idleOwners, viewOf, List.filter_filter]

theorem choose_eq (candidates : List EndpointId) (h : candidates ≠ []) (draw : Draw) :
    ((l.choose key candidates h draw).1, cursorOf key (l.choose key candidates h draw).2) =
      (viewOf key maxConcurrency l).choose candidates h (cursorOf key l) draw := by
  unfold ConcurrencyLedger.choose PoolView.choose viewOf cursorOf
  split_ifs
  · rfl
  · cases hstrategy : l.strategy with
    | roundRobin => simp
    | random => simp
    | twoChoices => simp

/-- The target of a choice, in the ledger and in the view. -/
theorem choose_view (key : Key) (maxConcurrency : ℤ) (l : ConcurrencyLedger) {cs ds : List EndpointId} (heq : cs = ds)
    (h : cs ≠ []) (h' : ds ≠ []) (draw : Draw) :
    (viewOf key maxConcurrency l).choose ds h' (cursorOf key l) draw =
      ((l.choose key cs h draw).1, cursorOf key (l.choose key cs h draw).2) := by
  subst heq
  exact (choose_eq cs h draw).symm

/-- A forward of the ledger is a forward of the walk. -/
theorem hop_placeOrGrow (key : Key) (maxConcurrency : ℤ) (l : ConcurrencyLedger) (e : EndpointId) (draw : Draw) (hready : l.ready = true) :
    (viewOf key maxConcurrency l).hop (cursorOf key l, e) draw =
      match l.placeOrGrow key maxConcurrency e draw with
      | (.place target, after) => if target = e then none else some (cursorOf key after, target)
      | _ => none := by
  have hidle := idleOwners_eq key maxConcurrency l e
  have hfull : (viewOf key maxConcurrency l).full = false ↔
      (Dict.size (l.slots key) : ℤ) < max 1 maxConcurrency := by
    simp only [viewOf, decide_eq_false_iff_not, not_le]
  rw [PoolView.hop, placeOrGrow, if_neg (by simp [viewOf, hready])]
  simp only
  by_cases hne : l.idleOwners key e = []
  · have hne' : ¬ (viewOf key maxConcurrency l).idle.filter (· ≠ e) ≠ [] :=
      not_not.2 (hidle ▸ hne)
    rw [dif_neg hne', dif_neg (not_not.2 hne)]
    by_cases hcap : (Dict.size (l.slots key) : ℤ) < max 1 maxConcurrency
    · rw [if_pos (hfull.2 hcap), if_pos hcap]
    · rw [if_neg fun h => hcap (hfull.1 h), if_neg hcap]
      by_cases howners : ownersOf (l.slots key) = []
      · have howners' : ¬ (viewOf key maxConcurrency l).owners ≠ [] := not_not.2 howners
        rw [dif_neg howners', dif_neg (not_not.2 howners)]
      · have howners' : (viewOf key maxConcurrency l).owners ≠ [] := howners
        rw [dif_pos howners', dif_pos howners]
        rw [choose_view key maxConcurrency l (owners_viewOf l).symm howners howners']
  · have hne' : (viewOf key maxConcurrency l).idle.filter (· ≠ e) ≠ [] := hidle ▸ hne
    rw [dif_pos hne', dif_pos hne, choose_view key maxConcurrency l hidle hne hne']
    -- an idle owner other than the requester is not the requester
    have hmem := (mem_idleOwners.1 (choose_mem l key (l.idleOwners key e) hne draw)).2.1
    simp only [if_neg hmem]

/-- The ledger's forwards are the walk's. -/
theorem map_hop (l : ConcurrencyLedger) (e : EndpointId) (draw : Draw) :
    (hop key maxConcurrency (l, e) draw).map (fun s => (cursorOf key s.1, s.2)) =
      (viewOf key maxConcurrency l).hop (cursorOf key l, e) draw := by
  rw [hop, requestSlot]
  by_cases hready : l.ready = false
  · simp [hready, PoolView.hop, viewOf]
  · have htouched : viewOf key maxConcurrency (l.touched key) = viewOf key maxConcurrency l :=
      viewOf_congr (touched_sameGrants l key)
    have hstep := hop_placeOrGrow key maxConcurrency (l.touched key) e draw
      (Bool.of_not_eq_false hready)
    rw [htouched] at hstep
    rw [if_neg hready]
    refine Eq.trans ?_ hstep.symm
    rcases (l.touched key).placeOrGrow key maxConcurrency e draw with ⟨decision, after⟩
    cases decision with
    | granted i => rfl
    | retry => rfl
    | place target =>
      simp only
      split_ifs <;> rfl

/-- A forward leaves the view as it is. -/
theorem viewOf_hop {e t : EndpointId} {draw : Draw}
    (h : hop key maxConcurrency (l, e) draw = some (l', t)) :
    viewOf key maxConcurrency l' = viewOf key maxConcurrency l := by
  rw [hop] at h
  rcases requestSlot_cases l key maxConcurrency e draw with
    ⟨-, heq⟩ | ⟨-, t', l₁, heq, -, hs⟩ | ⟨-, -, -, l₁, heq, -⟩ | ⟨-, -, -, t', l₁, heq, -, hs⟩
  · rw [heq] at h
    cases h
  · rw [heq] at h
    simp only at h
    split_ifs at h
    cases h
    exact viewOf_congr hs
  · rw [heq] at h
    cases h
  · rw [heq] at h
    simp only at h
    split_ifs at h
    cases h
    exact viewOf_congr hs

/-- So the two walks end together. -/
theorem stops_hop_iff (k : ℕ) (l : ConcurrencyLedger) (e : EndpointId) :
    Stops (hop key maxConcurrency) k (l, e) ↔
      Stops (viewOf key maxConcurrency l).hop k (cursorOf key l, e) := by
  induction k generalizing l e with
  | zero => exact iff_of_false (not_stops_zero _) (not_stops_zero _)
  | succ k ih =>
    rw [stops_succ_iff, stops_succ_iff]
    refine forall_congr' fun draw => ⟨fun h s hs => ?_, fun h s hs => ?_⟩
    · rw [← map_hop] at hs
      obtain ⟨⟨l', t⟩, hl', rfl⟩ := Option.map_eq_some_iff.1 hs
      rw [← viewOf_hop hl', ← ih]
      exact h _ hl'
    · obtain ⟨l', t⟩ := s
      rw [ih, viewOf_hop hs]
      refine h _ ?_
      rw [← map_hop, hs, Option.map_some]

end Refine

/-! ### What a choice can name -/

section Pick

variable {cs : List EndpointId} {x y : EndpointId}

theorem getElem?_pick (h : cs ≠ []) (i : ℕ) : cs[i % cs.length]? = some (pick cs h i) :=
  List.getElem?_eq_getElem (Nat.mod_lt _ (List.length_pos_of_ne_nil h))

theorem exists_pick (h : cs ≠ []) (hx : x ∈ cs) : ∃ i, pick cs h i = x := by
  obtain ⟨i, hi, rfl⟩ := List.getElem_of_mem hx
  refine ⟨i, Option.some.inj ?_⟩
  rw [← getElem?_pick, Nat.mod_eq_of_lt hi, List.getElem?_eq_getElem hi]

/-- A sample can be any two different candidates, in either order. -/
theorem exists_sample (h : cs ≠ []) (hx : x ∈ cs) (hy : y ∈ cs) (hne : x ≠ y) :
    ∃ draw : Draw, pick cs h draw.first = x ∧
      pick cs h (draw.first + 1 + draw.second % (cs.length - 1)) = y := by
  obtain ⟨i, hi, rfl⟩ := List.getElem_of_mem hx
  obtain ⟨j, hj, rfl⟩ := List.getElem_of_mem hy
  have hij : i ≠ j := fun heq => hne (by simp only [heq])
  -- the distance from `i` to `j`, around the end of the list if need be
  have hdist : ∃ d, d < cs.length - 1 ∧ (i + 1 + d) % cs.length = j := by
    rcases lt_or_gt_of_ne hij with hlt | hlt
    · refine ⟨j - i - 1, by omega, ?_⟩
      rw [show i + 1 + (j - i - 1) = j by omega, Nat.mod_eq_of_lt hj]
    · refine ⟨j + cs.length - i - 1, by omega, ?_⟩
      rw [show i + 1 + (j + cs.length - i - 1) = j + cs.length by omega, Nat.add_mod_right,
        Nat.mod_eq_of_lt hj]
  obtain ⟨d, hd, hmod⟩ := hdist
  refine ⟨⟨i, d, 0⟩, Option.some.inj ?_, Option.some.inj ?_⟩
  · rw [← getElem?_pick, Nat.mod_eq_of_lt hi, List.getElem?_eq_getElem hi]
  · rw [← getElem?_pick, Nat.mod_eq_of_lt hd, hmod, List.getElem?_eq_getElem hj]

/-- Positions less than a whole turn apart name different candidates. -/
theorem pick_ne (h : cs ≠ []) (hnodup : cs.Nodup) {i d : ℕ} (hd0 : 0 < d) (hd : d < cs.length) :
    pick cs h i ≠ pick cs h (i + d) := by
  intro heq
  have hlt : i % cs.length < cs.length := Nat.mod_lt _ (by omega)
  have hidx : i % cs.length = (i + d) % cs.length := by
    have hget := (getElem?_pick h i).trans ((congrArg some heq).trans (getElem?_pick h (i + d)).symm)
    exact (List.getElem?_inj hlt hnodup).1 hget
  rw [Nat.add_mod, Nat.mod_eq_of_lt hd] at hidx
  generalize i % cs.length = r at hlt hidx
  rcases lt_or_ge (r + d) cs.length with hwrap | hwrap
  · rw [Nat.mod_eq_of_lt hwrap] at hidx
    omega
  · have hback : r + d - cs.length < cs.length := by omega
    rw [Nat.mod_eq_sub_mod hwrap, Nat.mod_eq_of_lt hback] at hidx
    omega

end Pick

namespace PoolView

variable {v : PoolView} {c k : ℕ} {a e t : EndpointId}

theorem choose_of_length_one {cs : List EndpointId} (h : cs ≠ []) (hlen : cs.length = 1)
    (draw : Draw) : v.choose cs h c draw = (pick cs h 0, c) := if_pos hlen

theorem choose_roundRobin (h : v.owners ≠ []) (hlen : 2 ≤ v.owners.length)
    (hs : v.strategy = .roundRobin) (draw : Draw) :
    v.choose v.owners h c draw = (pick v.owners h c, c + 1) := by
  rw [choose, if_neg (by omega), hs]

theorem choose_random (h : v.owners ≠ []) (hlen : 2 ≤ v.owners.length)
    (hs : v.strategy = .random) (draw : Draw) :
    v.choose v.owners h c draw = (pick v.owners h draw.choice, c) := by
  rw [choose, if_neg (by omega), hs]

/-- Two choices name the less busy one of two different owners. -/
theorem choose_twoChoices (h : v.owners ≠ []) (hlen : 2 ≤ v.owners.length)
    (hs : v.strategy = .twoChoices) (draw : Draw) :
    ∃ x ∈ v.owners, ∃ y ∈ v.owners, x ≠ y ∧
      (v.choose v.owners h c draw).1 = if v.busy x ≤ v.busy y then x else y := by
  refine ⟨pick v.owners h draw.first, pick_mem _ h _,
    pick v.owners h (draw.first + 1 + draw.second % (v.owners.length - 1)), pick_mem _ h _, ?_, ?_⟩
  · have hmod : draw.second % (v.owners.length - 1) < v.owners.length - 1 :=
      Nat.mod_lt _ (by omega)
    rw [Nat.add_assoc]
    exact pick_ne h v.nodup (by omega) (by omega)
  · rw [choose, if_neg (by omega), hs]

/-- Of two different owners, some sample names the first unless it is busier. -/
theorem exists_twoChoices (h : v.owners ≠ []) (hlen : 2 ≤ v.owners.length)
    (hs : v.strategy = .twoChoices) {x y : EndpointId} (hx : x ∈ v.owners) (hy : y ∈ v.owners)
    (hne : x ≠ y) (hbusy : v.busy x ≤ v.busy y) :
    ∃ draw, (v.choose v.owners h c draw).1 = x := by
  obtain ⟨draw, hfirst, hsecond⟩ := exists_sample h hx hy hne
  refine ⟨draw, ?_⟩
  rw [choose, if_neg (by omega), hs]
  simp only [hfirst, hsecond, if_pos hbusy]

theorem choose_mem {cs : List EndpointId} (h : cs ≠ []) (c : ℕ) (draw : Draw) :
    (v.choose cs h c draw).1 ∈ cs := by
  unfold choose
  split_ifs
  · exact pick_mem _ h _
  · split
    · exact pick_mem _ h _
    · simp only
      split_ifs
      · exact pick_mem _ h _
      · exact pick_mem _ h _
    · exact pick_mem _ h _

/-! ### Single hops -/

theorem hop_not_ready (hready : v.ready = false) (draw : Draw) : v.hop (c, e) draw = none := by
  rw [hop, if_pos hready]

/-- With one idle owner, a job elsewhere goes there. -/
theorem hop_to_idle (hready : v.ready = true) (hidle : v.idle = [a]) (hne : a ≠ e)
    (draw : Draw) : v.hop (c, e) draw = some (c, a) := by
  have hfilter : v.idle.filter (· ≠ e) = [a] := by simp [hidle, hne]
  have hnil : v.idle.filter (· ≠ e) ≠ [] := by
    rw [hfilter]
    exact List.cons_ne_nil _ _
  have honly : ∀ x ∈ v.idle, x = a := by simp [hidle]
  have hpick := honly _ (List.mem_filter.1 (pick_mem _ hnil 0)).1
  rw [hop, if_neg (by simp [hready]), dif_pos hnil,
    choose_of_length_one hnil (by rw [hfilter]; rfl), hpick]

theorem hop_below (hidle : v.idle.filter (· ≠ e) = []) (hfull : v.full = false) (draw : Draw) :
    v.hop (c, e) draw = none := by
  rw [hop]
  split_ifs with h1 h2
  · rfl
  · exact absurd hidle h2
  · rfl

/-- With no idle owner elsewhere and the pool full, one of the owners is named. -/
theorem hop_full (hready : v.ready = true) (hidle : v.idle.filter (· ≠ e) = [])
    (hfull : v.full = true) (howners : v.owners ≠ []) (c : ℕ) (draw : Draw) :
    v.hop (c, e) draw =
      if (v.choose v.owners howners c draw).1 = e then none
      else some ((v.choose v.owners howners c draw).2, (v.choose v.owners howners c draw).1) := by
  rw [hop, if_neg (by simp [hready]), dif_neg (not_not.2 hidle), if_neg (by simp [hfull]),
    dif_pos howners]

/-- With two idle owners a job always goes on. -/
theorem hop_two_idle (hready : v.ready = true) {b : EndpointId} (ha : a ∈ v.idle)
    (hb : b ∈ v.idle) (hne : a ≠ b) (draw : Draw) : ∃ s, v.hop (c, e) draw = some s := by
  have hnil : v.idle.filter (· ≠ e) ≠ [] := by
    intro hnil
    rw [List.filter_eq_nil_iff] at hnil
    have hae : a = e := by simpa using hnil a ha
    have hbe : b = e := by simpa using hnil b hb
    exact hne (hae.trans hbe.symm)
  rw [hop, if_neg (by simp [hready]), dif_pos hnil]
  exact ⟨_, rfl⟩

/-! ### Walks that end -/

/-- Nothing in transit: the ledger is not ready, or the pool still grows here. -/
theorem stops_of_below (hidle : v.idle.filter (· ≠ e) = []) (hfull : v.full = false) :
    Stops v.hop (k + 1) (c, e) :=
  stops_of_stuck k (hop_below hidle hfull)

/-- When every choice among the owners names the same one, and no other is idle, the walk is
one forward at most. -/
theorem stops_of_constant (howners : v.owners ≠ []) (hidle : ∀ a ∈ v.idle, a = t)
    (hconst : ∀ c draw, (v.choose v.owners howners c draw).1 = t) :
    Stops v.hop 2 (c, e) := by
  rw [stops_succ_iff]
  intro draw s hs
  -- wherever the job goes, it goes to `t`, and there it stays
  obtain ⟨c', rfl⟩ : ∃ c', s = (c', t) := by
    rw [hop] at hs
    split_ifs at hs with hready hne hfull
    · cases hs
      exact ⟨_, Prod.ext rfl (hidle _ (List.mem_filter.1 (choose_mem hne _ _)).1)⟩
    · simp only at hs
      split_ifs at hs
      cases hs
      exact ⟨_, Prod.ext rfl (hconst _ _)⟩
  refine stops_of_stuck 0 fun draw' => ?_
  have hnil : v.idle.filter (· ≠ t) = [] := by
    rw [List.filter_eq_nil_iff]
    intro a ha
    simp [hidle a ha]
  rw [hop]
  split_ifs with hready hne hfull
  · rfl
  · exact absurd hnil hne
  · rfl
  · exact if_pos (hconst _ _)

/-- With no idle owner and a choice that can always avoid the endpoint that asks, jobs are sent
on for ever. -/
theorem not_stops_of_escape (hready : v.ready = true) (hfull : v.full = true)
    (howners : v.owners ≠ []) (hidle : v.idle = [])
    (hescape : ∀ c e, ∃ draw, (v.choose v.owners howners c draw).1 ≠ e) :
    ¬ Stops v.hop k (c, e) := by
  refine not_stops_of_progress (I := fun _ => True) (fun s _ => ?_) k trivial
  obtain ⟨c', e'⟩ := s
  obtain ⟨draw, hdraw⟩ := hescape c' e'
  have hnil : v.idle.filter (· ≠ e') = [] := by simp [hidle]
  have hhop := hop_full hready hnil hfull howners c' draw
  exact ⟨draw, _, hhop.trans (if_neg hdraw), trivial⟩

/-- With one idle owner and a choice that can avoid it, the job always returns to it and leaves
it again. -/
theorem not_stops_of_escape_idle (hready : v.ready = true) (hfull : v.full = true)
    (howners : v.owners ≠ []) (hidle : v.idle = [a])
    (hescape : ∀ c, ∃ draw, (v.choose v.owners howners c draw).1 ≠ a) :
    ¬ Stops v.hop k (c, e) := by
  refine not_stops_of_progress (I := fun _ => True) (fun s _ => ?_) k trivial
  obtain ⟨c', e'⟩ := s
  rcases eq_or_ne a e' with rfl | hne
  · obtain ⟨draw, hdraw⟩ := hescape c'
    have hnil : v.idle.filter (· ≠ a) = [] := by simp [hidle]
    have hhop := hop_full hready hnil hfull howners c' draw
    exact ⟨draw, _, hhop.trans (if_neg hdraw), trivial⟩
  · exact ⟨default, _, hop_to_idle hready hidle hne _, trivial⟩

/-- Round robin over several owners, none of them idle: the job stays where it is asked for
only when the cursor says so at once; after that the cursor is always one ahead. -/
theorem stops_roundRobin_iff (hready : v.ready = true) (hfull : v.full = true)
    (hlen : 2 ≤ v.owners.length) (hs : v.strategy = .roundRobin) (hidle : v.idle = []) :
    Stops v.hop (k + 1) (c, e) ↔ v.owners[c % v.owners.length]? = some e := by
  have howners : v.owners ≠ [] := List.ne_nil_of_length_pos (by omega)
  have hhop : ∀ c e draw, v.hop (c, e) draw =
      if pick v.owners howners c = e then none else some (c + 1, pick v.owners howners c) := by
    intro c e draw
    rw [hop_full hready (by simp [hidle]) hfull howners, choose_roundRobin howners hlen hs]
  rw [getElem?_pick howners, Option.some.injEq]
  constructor
  · intro hstops
    by_contra hne
    refine not_stops_of_progress (I := fun s => pick v.owners howners s.1 ≠ s.2)
      (fun s hI => ⟨default, (s.1 + 1, pick v.owners howners s.1), ?_, ?_⟩) (k + 1) hne hstops
    · rw [hhop, if_neg hI]
    · exact (pick_ne howners v.nodup one_pos (by omega)).symm
  · intro heq
    exact stops_of_stuck k fun draw => by rw [hhop, if_pos heq]

/-- Round robin over several owners, one of them idle: the job comes back to the idle owner each
time, until the cursor names that owner. -/
theorem stops_roundRobin_idle_iff (hready : v.ready = true) (hfull : v.full = true)
    (hlen : 2 ≤ v.owners.length) (hs : v.strategy = .roundRobin) (hidle : v.idle = [a]) :
    Stops v.hop k (c, a) ↔
      ∃ j, v.owners[(c + j) % v.owners.length]? = some a ∧ 2 * j < k := by
  have howners : v.owners ≠ [] := List.ne_nil_of_length_pos (by omega)
  have hhop : ∀ c draw, v.hop (c, a) draw =
      if pick v.owners howners c = a then none else some (c + 1, pick v.owners howners c) := by
    intro c draw
    rw [hop_full hready (by simp [hidle]) hfull howners, choose_roundRobin howners hlen hs]
  simp only [getElem?_pick howners, Option.some.injEq]
  induction k using Nat.twoStepInduction generalizing c with
  | zero =>
    refine iff_of_false (not_stops_zero _) ?_
    rintro ⟨j, -, hj⟩
    omega
  | one =>
    by_cases heq : pick v.owners howners c = a
    · exact iff_of_true (stops_of_stuck 0 fun draw => by rw [hhop, if_pos heq]) ⟨0, heq, by omega⟩
    · refine iff_of_false (fun h => ?_) ?_
      · rw [stops_succ_of_forced 0 fun draw => by rw [hhop, if_neg heq]] at h
        exact not_stops_zero _ h
      · rintro ⟨j, hj, hlt⟩
        obtain rfl : j = 0 := by omega
        exact heq hj
  | more k ih =>
    by_cases heq : pick v.owners howners c = a
    · exact iff_of_true (stops_of_stuck _ fun draw => by rw [hhop, if_pos heq]) ⟨0, heq, by omega⟩
    · rw [stops_succ_of_forced (k + 1) fun draw => by rw [hhop, if_neg heq],
        stops_succ_of_forced k (hop_to_idle hready hidle (Ne.symm heq))]
      refine (@ih (c + 1)).trans ?_
      constructor
      · rintro ⟨j, hj, hlt⟩
        exact ⟨j + 1, by rwa [show c + (j + 1) = c + 1 + j by omega], by omega⟩
      · rintro ⟨j, hj, hlt⟩
        cases j with
        | zero => exact absurd hj heq
        | succ j => exact ⟨j, by rwa [show c + 1 + j = c + (j + 1) by omega], by omega⟩

/-! ### Each strategy -/

/-- The exact condition for a walk from an endpoint to end within as many forwards as there are
owners. -/
def Settles (v : PoolView) (cursor : ℕ) (e : EndpointId) : Prop :=
  v.ready = false ∨
    match v.idle with
    | [] =>
      v.full = false ∨ v.owners.length ≤ 1 ∨
        match v.strategy with
        | .roundRobin => v.owners[cursor % v.owners.length]? = some e
        | .twoChoices => v.owners.length = 2 ∧ (v.owners.map v.busy).Nodup
        | .random => False
    | [a] =>
      v.full = false ∨ v.owners.length ≤ 1 ∨
        match v.strategy with
        | .roundRobin => ∃ j, v.owners[(cursor + j) % v.owners.length]? = some a ∧
            2 * j + (if a = e then 0 else 1) ≤ v.owners.length
        | .twoChoices => v.owners.length = 2 ∧ ∀ o ∈ v.owners, o ≠ a → v.busy a < v.busy o
        | .random => False
    | _ :: _ :: _ => False

section Strategies

variable (howners : v.owners ≠ [])

/-- Among two owners or more, one is not the endpoint. -/
theorem exists_owner_ne (hlen : 2 ≤ v.owners.length) (e : EndpointId) :
    ∃ x ∈ v.owners, x ≠ e := by
  by_contra hall
  push Not at hall
  have hsub : v.owners ⊆ [e] := fun x hx => List.mem_singleton.2 (hall x hx)
  have hle := (v.nodup.subperm hsub).length_le
  rw [List.length_singleton] at hle
  omega

/-- Among three owners or more, two are not the endpoint. -/
theorem exists_owners_ne (hlen : 3 ≤ v.owners.length) (e : EndpointId) :
    ∃ x ∈ v.owners, ∃ y ∈ v.owners, x ≠ y ∧ x ≠ e ∧ y ≠ e := by
  obtain ⟨x, hx, hxe⟩ := exists_owner_ne (v := v) (by omega) e
  by_contra hall
  push Not at hall
  have hsub : v.owners ⊆ [e, x] := by
    intro y hy
    by_cases hyx : x = y
    · simp [hyx]
    · rw [hall x hx y hy hyx hxe]
      exact List.mem_cons_self
  have hle := (v.nodup.subperm hsub).length_le
  simp only [List.length_cons, List.length_nil] at hle
  omega

/-- Several owners drawn at random: any endpoint can be avoided. -/
theorem random_escape (hlen : 2 ≤ v.owners.length) (hs : v.strategy = .random) (c : ℕ)
    (e : EndpointId) : ∃ draw, (v.choose v.owners howners c draw).1 ≠ e := by
  obtain ⟨x, hx, hne⟩ := exists_owner_ne hlen e
  obtain ⟨i, rfl⟩ := exists_pick howners hx
  refine ⟨⟨0, 0, i⟩, ?_⟩
  rw [choose_random howners hlen hs]
  exact hne

/-- Two choices, and two owners of which the busier one is not the endpoint's only way out. -/
theorem twoChoices_avoid (hlen : 2 ≤ v.owners.length) (hs : v.strategy = .twoChoices)
    {x y : EndpointId} (hx : x ∈ v.owners) (hy : y ∈ v.owners) (hxy : x ≠ y) (hxe : x ≠ e)
    (hbusy : v.busy x ≤ v.busy y) (c : ℕ) :
    ∃ draw, (v.choose v.owners howners c draw).1 ≠ e := by
  obtain ⟨draw, hdraw⟩ := exists_twoChoices (c := c) howners hlen hs hx hy hxy hbusy
  exact ⟨draw, by rwa [hdraw]⟩

/-- Two choices among three owners or more: any endpoint can be avoided. -/
theorem twoChoices_escape (hlen : 3 ≤ v.owners.length) (hs : v.strategy = .twoChoices) (c : ℕ)
    (e : EndpointId) : ∃ draw, (v.choose v.owners howners c draw).1 ≠ e := by
  obtain ⟨x, hx, y, hy, hxy, hxe, hye⟩ := exists_owners_ne hlen e
  rcases le_total (v.busy x) (v.busy y) with hbusy | hbusy
  · exact twoChoices_avoid howners (by omega) hs hx hy hxy hxe hbusy c
  · exact twoChoices_avoid howners (by omega) hs hy hx hxy.symm hye hbusy c

/-- Two choices among two equally busy owners: any endpoint can be avoided. -/
theorem twoChoices_escape_tie (hlen : v.owners.length = 2) (hs : v.strategy = .twoChoices)
    (htie : ¬ (v.owners.map v.busy).Nodup) (c : ℕ) (e : EndpointId) :
    ∃ draw, (v.choose v.owners howners c draw).1 ≠ e := by
  obtain ⟨x, y, hxy⟩ := List.length_eq_two.1 hlen
  have hne : x ≠ y := by
    have hnodup := v.nodup
    rw [hxy] at hnodup
    simpa using hnodup
  have hbusy : v.busy x = v.busy y := by simpa [hxy] using htie
  rcases eq_or_ne x e with rfl | hxe
  · exact twoChoices_avoid howners (by omega) hs (by simp [hxy] : y ∈ v.owners) (by simp [hxy])
      hne.symm hne.symm hbusy.ge c
  · exact twoChoices_avoid howners (by omega) hs (by simp [hxy] : x ∈ v.owners)
      (by simp [hxy] : y ∈ v.owners) hne hxe hbusy.le c

/-- Two choices among two owners, one less busy: that one is always named. -/
theorem twoChoices_constant (hlen : v.owners.length = 2) (hs : v.strategy = .twoChoices)
    (ht : t ∈ v.owners) (hless : ∀ o ∈ v.owners, o ≠ t → v.busy t < v.busy o) (c : ℕ)
    (draw : Draw) : (v.choose v.owners howners c draw).1 = t := by
  obtain ⟨x, hx, y, hy, hxy, hchoose⟩ := choose_twoChoices (c := c) howners (by omega) hs draw
  rw [hchoose]
  -- with two owners, one of the two sampled is the less busy one
  have hxt : x = t ∨ y = t := by
    by_contra hneither
    push Not at hneither
    have hsub : [x, y, t] ⊆ v.owners := by simp [hx, hy, ht]
    have hnodup : [x, y, t].Nodup := by simp [hxy, hneither.1, hneither.2]
    have hle := (hnodup.subperm hsub).length_le
    simp only [List.length_cons, List.length_nil] at hle
    omega
  rcases hxt with rfl | rfl
  · rw [if_pos (hless y hy hxy.symm).le]
  · rw [if_neg (not_le.2 (hless x hx hxy))]

end Strategies

/-- One owner, or none: one forward at most. -/
theorem stops_of_short (hlen : v.owners.length ≤ 1) :
    Stops v.hop (v.owners.length + 1) (c, e) := by
  rcases Nat.le_one_iff_eq_zero_or_eq_one.1 hlen with h0 | h1
  · rw [List.length_eq_zero_iff] at h0
    have hidle : v.idle = [] := List.eq_nil_of_sublist_nil (h0 ▸ v.sub)
    refine stops_of_stuck _ fun draw => ?_
    rw [hop]
    split_ifs with h1 h2 h3 h4
    · rfl
    · simp [hidle] at h2
    · rfl
    · exact absurd h0 h4
    · rfl
  · obtain ⟨o, ho⟩ := List.length_eq_one_iff.1 h1
    have howners : v.owners ≠ [] := by simp [ho]
    have hmem : ∀ x ∈ v.owners, x = o := by simp [ho]
    rw [h1]
    exact stops_of_constant howners (fun a ha => hmem a (v.sub.subset ha))
      (fun c draw => hmem _ (choose_mem howners c draw))

/-- The condition without an idle owner. -/
theorem stops_iff_of_no_idle (hready : v.ready = true) (hfull : v.full = true)
    (hlen : 2 ≤ v.owners.length) (hidle : v.idle = []) :
    Stops v.hop (v.owners.length + 1) (c, e) ↔
      match v.strategy with
      | .roundRobin => v.owners[c % v.owners.length]? = some e
      | .twoChoices => v.owners.length = 2 ∧ (v.owners.map v.busy).Nodup
      | .random => False := by
  have howners : v.owners ≠ [] := List.ne_nil_of_length_pos (by omega)
  cases hs : v.strategy with
  | roundRobin => exact stops_roundRobin_iff hready hfull hlen hs hidle
  | random =>
    exact iff_of_false (not_stops_of_escape hready hfull howners hidle
      (random_escape howners hlen hs)) id
  | twoChoices =>
    rcases eq_or_lt_of_le hlen with h2 | h3
    · by_cases hnodup : (v.owners.map v.busy).Nodup
      · obtain ⟨t, ht, hless⟩ : ∃ t ∈ v.owners, ∀ o ∈ v.owners, o ≠ t → v.busy t < v.busy o := by
          obtain ⟨x, y, hxy⟩ := List.length_eq_two.1 h2.symm
          rw [hxy] at hnodup
          have hne : v.busy x ≠ v.busy y := by simpa using hnodup
          rcases lt_or_gt_of_ne hne with hlt | hlt
          · exact ⟨x, by simp [hxy], by simp [hxy, hlt]⟩
          · exact ⟨y, by simp [hxy], by simp [hxy, hlt]⟩
        refine iff_of_true (Stops.mono (by omega) (stops_of_constant (t := t) howners ?_ ?_))
          ⟨h2.symm, hnodup⟩
        · simp [hidle]
        · exact twoChoices_constant howners h2.symm hs ht hless
      · exact iff_of_false (not_stops_of_escape hready hfull howners hidle
          (twoChoices_escape_tie howners h2.symm hs hnodup)) fun h => hnodup h.2
    · exact iff_of_false (not_stops_of_escape hready hfull howners hidle
        (twoChoices_escape howners h3 hs)) fun h => by omega

/-- The condition with one idle owner. -/
theorem stops_iff_of_one_idle (hready : v.ready = true) (hfull : v.full = true)
    (hlen : 2 ≤ v.owners.length) (hidle : v.idle = [a]) :
    Stops v.hop (v.owners.length + 1) (c, e) ↔
      match v.strategy with
      | .roundRobin => ∃ j, v.owners[(c + j) % v.owners.length]? = some a ∧
          2 * j + (if a = e then 0 else 1) ≤ v.owners.length
      | .twoChoices => v.owners.length = 2 ∧ ∀ o ∈ v.owners, o ≠ a → v.busy a < v.busy o
      | .random => False := by
  have howners : v.owners ≠ [] := List.ne_nil_of_length_pos (by omega)
  have ha : a ∈ v.owners := v.sub.subset (by simp [hidle])
  cases hs : v.strategy with
  | roundRobin =>
    rcases eq_or_ne a e with rfl | hne
    · rw [stops_roundRobin_idle_iff hready hfull hlen hs hidle]
      simp only [if_true]
      exact exists_congr fun j => and_congr_right fun _ => by omega
    · rw [stops_succ_of_forced _ (hop_to_idle hready hidle hne),
        stops_roundRobin_idle_iff hready hfull hlen hs hidle]
      simp only [if_neg hne]
      exact exists_congr fun j => and_congr_right fun _ => by omega
  | random =>
    exact iff_of_false (not_stops_of_escape_idle hready hfull howners hidle
      fun c => random_escape howners hlen hs c a) id
  | twoChoices =>
    rcases eq_or_lt_of_le hlen with h2 | h3
    · by_cases hless : ∀ o ∈ v.owners, o ≠ a → v.busy a < v.busy o
      · refine iff_of_true (Stops.mono (by omega) (stops_of_constant (t := a) howners ?_ ?_))
          ⟨h2.symm, hless⟩
        · simp [hidle]
        · exact twoChoices_constant howners h2.symm hs ha hless
      · refine iff_of_false (not_stops_of_escape_idle hready hfull howners hidle fun c => ?_)
          fun h => hless h.2
        push Not at hless
        obtain ⟨o, ho, hoa, hbusy⟩ := hless
        exact twoChoices_avoid howners hlen hs ho ha hoa hoa hbusy c
    · exact iff_of_false (not_stops_of_escape_idle hready hfull howners hidle
        fun c => twoChoices_escape howners h3 hs c a) fun h => by omega

/-- A walk ends in time, whatever is drawn, exactly under the condition. -/
theorem stops_iff_settles (v : PoolView) (c : ℕ) (e : EndpointId) :
    Stops v.hop (v.owners.length + 1) (c, e) ↔ v.Settles c e := by
  by_cases hready : v.ready = false
  · exact iff_of_true (stops_of_stuck _ (hop_not_ready hready)) (Or.inl hready)
  rw [Settles, or_iff_right hready]
  rw [Bool.not_eq_false] at hready
  cases hidle : v.idle with
  | nil =>
    by_cases hfull : v.full = false
    · exact iff_of_true (stops_of_below (by simp [hidle]) hfull) (Or.inl hfull)
    by_cases hlen : v.owners.length ≤ 1
    · exact iff_of_true (stops_of_short hlen) (Or.inr (Or.inl hlen))
    exact (stops_iff_of_no_idle hready (by simpa using hfull) (by omega) hidle).trans
      ((or_iff_right hfull).trans (or_iff_right hlen)).symm
  | cons a rest =>
    cases rest with
    | nil =>
      by_cases hfull : v.full = false
      · refine iff_of_true ?_ (Or.inl hfull)
        have hpos : 1 ≤ v.owners.length :=
          List.length_pos_of_mem (v.sub.subset (by simp [hidle] : a ∈ v.idle))
        have hhere : ∀ k, Stops v.hop (k + 1) (c, a) := fun k =>
          stops_of_below (by simp [hidle]) hfull
        rcases eq_or_ne a e with rfl | hne
        · exact hhere _
        · rw [stops_succ_of_forced _ (hop_to_idle hready hidle hne)]
          exact (hhere 0).mono hpos
      by_cases hlen : v.owners.length ≤ 1
      · exact iff_of_true (stops_of_short hlen) (Or.inr (Or.inl hlen))
      exact (stops_iff_of_one_idle hready (by simpa using hfull) (by omega) hidle).trans
        ((or_iff_right hfull).trans (or_iff_right hlen)).symm
    | cons b rest =>
      refine iff_of_false (not_stops_of_progress (I := fun _ => True) (fun s _ => ?_) _ trivial) id
      have hnodup := v.sub.nodup v.nodup
      rw [hidle] at hnodup
      have hne : a ≠ b := fun h => (List.nodup_cons.1 hnodup).1 (by simp [h])
      obtain ⟨t, ht⟩ := hop_two_idle hready (c := s.1) (e := s.2) (a := a) (b := b)
        (by simp [hidle]) (by simp [hidle]) hne default
      exact ⟨default, t, ht, trivial⟩

end PoolView

/-! ### Placements of the code -/

section Code

variable {Handle : Type*} {key : Key} {maxConcurrency : ℤ} {l l' : ConcurrencyLedger}
  {e t : EndpointId}

/-- With no idle container, a forward is a forward of the leader's answers. -/
theorem hop_of_forwarded {env : PlacementEnv Handle} (hbusy : env.findIdle = none)
    (h : resolvePlacement key maxConcurrency l e env = (.forwarded t, l')) :
    hop key maxConcurrency (l, e) env.draw = some (l', t) := by
  rw [resolvePlacement, hbusy] at h
  rw [hop]
  rcases hreq : l.requestSlot key maxConcurrency e env.draw with ⟨decision, after⟩
  rw [hreq] at h
  cases hcall : env.call with
  | requestLost err => simp [hcall] at h
  | replyLost err => simp [hcall] at h
  | answered =>
    simp only [hcall] at h
    cases decision with
    | retry => simp [actOn] at h
    | granted i =>
      simp only [actOn] at h
      split at h <;> simp at h
    | place target =>
      simp only [actOn] at h
      split_ifs at h with hself
      · split at h <;> simp at h
      · simp only [if_neg hself]
        split at h
        · simp at h
        · cases h
          rfl

/-- The surroundings in which nothing fails. -/
def reliableEnv (draw : Draw) : PlacementEnv Handle where
  findIdle := none
  call := .answered
  draw := draw
  summonAt := fun _ => .error ""
  leastBusy := none
  forwardJob := fun _ => .ok ()

theorem forwarded_of_hop {draw : Draw} (h : hop key maxConcurrency (l, e) draw = some (l', t)) :
    resolvePlacement key maxConcurrency l e (reliableEnv draw : PlacementEnv Handle) =
      (.forwarded t, l') := by
  rw [hop] at h
  simp only [resolvePlacement, reliableEnv]
  rcases hreq : l.requestSlot key maxConcurrency e draw with ⟨decision, after⟩
  rw [hreq] at h
  cases decision with
  | retry => simp at h
  | granted i => simp at h
  | place target =>
    simp only at h ⊢
    split_ifs at h with hself
    cases h
    simp only [actOn, if_neg hself]

theorem forwards_none_of_run (Handle : Type*) (draws : List Draw)
    (h : (run (hop key maxConcurrency) (l, e) draws).isSome) :
    forwards key maxConcurrency l e (draws.map (reliableEnv : Draw → PlacementEnv Handle)) =
      none := by
  induction draws generalizing l e with
  | nil => rfl
  | cons draw draws ih =>
    rw [run_cons] at h
    cases hhop : hop key maxConcurrency (l, e) draw with
    | none => simp [hhop] at h
    | some s =>
      obtain ⟨l', t⟩ := s
      rw [hhop, Option.bind_some] at h
      rw [List.map_cons, forwards, forwarded_of_hop hhop]
      simp only [ih h, Option.map_none]

theorem run_of_forwards_none (envs : List (PlacementEnv Handle))
    (hbusy : ∀ env ∈ envs, env.findIdle = none)
    (h : forwards key maxConcurrency l e envs = none) :
    (run (hop key maxConcurrency) (l, e) (envs.map PlacementEnv.draw)).isSome := by
  induction envs generalizing l e with
  | nil => rfl
  | cons env envs ih =>
    rw [forwards] at h
    split at h
    · next target after heq =>
      rw [List.map_cons, run_cons, hop_of_forwarded (hbusy env List.mem_cons_self) heq,
        Option.bind_some]
      exact ih (fun env' henv' => hbusy env' (List.mem_cons_of_mem _ henv'))
        (Option.map_eq_none_iff.1 h)
    · cases h

theorem placementTerminates_iff_stops :
    PlacementTerminates key maxConcurrency Handle l e ↔
      Stops (hop key maxConcurrency) ((ownersOf (l.slots key)).length + 1) (l, e) := by
  constructor
  · intro hterm draws hlen
    by_contra hrun
    have hnone := forwards_none_of_run Handle draws (Option.isSome_iff_ne_none.2 hrun)
    have hsome := hterm (draws.map reliableEnv) (by simp [reliableEnv]) (by simpa using hlen)
    rw [hnone] at hsome
    cases hsome
  · intro hstops envs hbusy hlen
    rw [Option.isSome_iff_ne_none]
    intro hnone
    have hrun := run_of_forwards_none envs hbusy hnone
    rw [hstops _ (by simpa using hlen)] at hrun
    cases hrun

/-- A job at an endpoint is executed after at most as many forwards as there are owners, whatever
is drawn and whatever fails, exactly when the pool settles there. -/
theorem placementTerminates_iff (Handle : Type*) (key : Key) (maxConcurrency : ℤ)
    (l : ConcurrencyLedger) (e : EndpointId) :
    PlacementTerminates key maxConcurrency Handle l e ↔
      (viewOf key maxConcurrency l).Settles (cursorOf key l) e := by
  rw [placementTerminates_iff_stops, stops_hop_iff, ← PoolView.stops_iff_settles, owners_viewOf]

/-- Two endpoints each hold one of two slots, all busy, and the leader goes round robin. -/
def twoOwners : ConcurrencyLedger :=
  (((new "round_robin").requestSlot ("f", 1) 2 "A" ⟨0, 0, 0⟩).2.requestSlot
    ("f", 1) 2 "B" ⟨0, 0, 0⟩).2

/-- A job submitted at the second endpoint is sent to the first, back, and to the first again. -/
theorem not_placementTerminates_twoOwners :
    ownersOf (twoOwners.slots ("f", 1)) = ["A", "B"] ∧
      forwards ("f", 1) 2 twoOwners "B"
        (List.replicate 3 (reliableEnv ⟨0, 0, 0⟩) : List (PlacementEnv Unit)) = none ∧
      ¬ PlacementTerminates ("f", 1) 2 Unit twoOwners "B" := by
  have howners : ownersOf (twoOwners.slots ("f", 1)) = ["A", "B"] := by decide
  have hnone : forwards ("f", 1) 2 twoOwners "B"
      (List.replicate 3 (reliableEnv ⟨0, 0, 0⟩) : List (PlacementEnv Unit)) = none := by decide
  refine ⟨howners, hnone, fun hterm => ?_⟩
  have hsome := hterm (List.replicate 3 (reliableEnv ⟨0, 0, 0⟩))
    (fun env henv => by rw [List.eq_of_mem_replicate henv]; rfl) (by rw [howners]; rfl)
  rw [hnone] at hsome
  cases hsome

end Code

end Axo
