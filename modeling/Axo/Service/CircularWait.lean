import Axo.Lib.Transition
import Axo.Lib.WaitGraph
import Axo.Service.ReceiveLoop

/-!
# Receive loops that wait for each other

The waits of the receive loops form a graph with at most one edge from each endpoint.

* `Upward` is the guard on the handlers: jobs are forwarded upward, and the leader, which is above all,
  neither forwards a job nor replicates a result while a request waits for it;
* `handle_call` says whom a handler calls, `step_waitsFor` what a step does to the graph;
* `Awaited` and `RouterInv`: whatever a loop waits for is on its way, in an inbox, being handled or
  answered;
* `noCircle_of_reach` is the result for whole runs: no circle, and every chain of waits comes to an
  endpoint that can go on;
* `exists_circle_of_leader_call`: once the leader calls an endpoint, a command there closes a circle.
-/

namespace Axo

open ConcurrencyLedger Transition WaitGraph

namespace Routers

variable {c : Setup} {s t : Routers} {a : RouterAction}

/-! ### The graph of waits -/

/-- The endpoint that a loop waits for. -/
def target : Loop → Option EndpointId
  | .waiting _ target _ _ => some target
  | _ => none

theorem waitsFor_eq (s : Routers) (e : EndpointId) : s.waitsFor e = target (s.loop e) := by
  unfold waitsFor target
  cases s.loop e <;> rfl

theorem waitsFor_of_update {e : EndpointId} {l : Loop} (h : t.loop = Function.update s.loop e l) :
    t.waitsFor = Function.update s.waitsFor e (target l) := by
  funext x
  rw [waitsFor_eq, h]
  rcases eq_or_ne x e with rfl | hne
  · rw [Function.update_self, Function.update_self]
  · rw [Function.update_of_ne hne, Function.update_of_ne hne, waitsFor_eq]

theorem waitsFor_of_stop {e : EndpointId} {l : Loop} (h : t.loop = Function.update s.loop e l)
    (hl : target l = none) : t.waitsFor = Function.update s.waitsFor e none := by
  rw [waitsFor_of_update h, hl]

theorem waitsFor_congr (h : t.loop = s.loop) : t.waitsFor = s.waitsFor := by
  funext x
  rw [waitsFor_eq, waitsFor_eq, h]

@[simp] theorem loop_reply (s : Routers) (r : Request) (reply : Reply) :
    (s.reply r reply).loop = s.loop := by
  unfold Routers.reply
  split <;> rfl

@[simp] theorem sent_reply (s : Routers) (r : Request) (reply : Reply) :
    (s.reply r reply).sent = s.sent := by
  unfold Routers.reply
  split <;> rfl

@[simp] theorem inbox_reply (s : Routers) (r : Request) (reply : Reply) :
    (s.reply r reply).inbox = s.inbox := by
  unfold Routers.reply
  split <;> rfl

theorem mem_replies_reply (s : Routers) (r : Request) (reply : Reply)
    {x : EndpointId × ℕ × Reply} (h : x ∈ s.replies) : x ∈ (s.reply r reply).replies := by
  unfold Routers.reply
  split
  · exact List.mem_cons_of_mem _ h
  · exact h

theorem reply_mem_replies (s : Routers) (r : Request) (reply : Reply) {e : EndpointId} {call : ℕ}
    (h : r.replyTo = some (e, call)) : (e, call, reply) ∈ (s.reply r reply).replies := by
  simp only [Routers.reply, h]
  exact List.mem_cons_self

/-- A request that comes in leaves the others in the inboxes. -/
theorem mem_update_append {e x : EndpointId} {r r' : Request} (h : r ∈ s.inbox x) :
    r ∈ Function.update s.inbox e (s.inbox e ++ [r']) x := by
  rcases eq_or_ne x e with rfl | hne
  · rw [Function.update_self]
    exact List.mem_append_left _ h
  · rwa [Function.update_of_ne hne]

/-! ### Whom the handlers call -/

/-- How high an endpoint is: the leader is above all others. -/
def height (c : Setup) (rank : EndpointId → ℕ) (e : EndpointId) : WithTop ℕ :=
  if e = c.leader then ⊤ else rank e

/-- What a handler may do next: a job is placed at the endpoint itself or higher, unless the address of
the other one is not known, and there is no peer to replicate a result to. -/
def MayHandle (c : Setup) (rank : EndpointId → ℕ) (e : EndpointId) (choice : Choice) : Stage → Prop
  | .placing _ (.place target) =>
    target = e ∨ choice.ok = false ∨ height c rank e < height c rank target
  | .fanningOut (_ :: _) _ => False
  | _ => True

/-- The guard on the steps. -/
def Upward (c : Setup) (rank : EndpointId → ℕ) (s : Routers) : RouterAction → Prop
  | .work e choice =>
    match s.loop e with
    | .running _ stage => MayHandle c rank e choice stage
    | _ => True
  | _ => True

instance (c : Setup) (rank : EndpointId → ℕ) (e : EndpointId) (choice : Choice) (stage : Stage) :
    Decidable (MayHandle c rank e choice stage) :=
  match stage with
  | .placing _ (.place target) =>
    inferInstanceAs (Decidable (target = e ∨ choice.ok = false ∨ height c rank e < height c rank target))
  | .placing _ (.granted _) | .placing _ .retry => inferInstanceAs (Decidable True)
  | .fanningOut (_ :: _) _ => inferInstanceAs (Decidable False)
  | .fanningOut [] _ => inferInstanceAs (Decidable True)
  | .start | .finding _ | .asking _ | .releasing _ _ | .replying _ => inferInstanceAs (Decidable True)

instance (c : Setup) (rank : EndpointId → ℕ) (s : Routers) (a : RouterAction) :
    Decidable (Upward c rank s a) :=
  match a with
  | .work e choice =>
    match h : s.loop e with
    | .running _ stage =>
      decidable_of_iff (MayHandle c rank e choice stage) (by unfold Upward; dsimp only; rw [h])
    | .idle => .isTrue (by unfold Upward; dsimp only; rw [h]; trivial)
    | .waiting _ _ _ _ => .isTrue (by unfold Upward; dsimp only; rw [h]; trivial)
  | .arrive _ _ _ | .deliver _ _ | .take _ | .receive _ _ | .timeout _ | .background _ =>
    inferInstanceAs (Decidable True)

/-- `LeaderProxyHandler` calls the leader only, and not from the leader. -/
theorem leaderProxy_call {e target : EndpointId} {operation operation' : Operation}
    {forwarded forwarded' known : Bool} {resume resume' : Resume} {failure stage : Stage}
    {ledger ledger' inner : ConcurrencyLedger}
    (h : c.leaderProxy e operation forwarded known resume failure ledger (.goOn stage, inner) =
      (.call target operation' forwarded' resume', ledger')) : e ≠ c.leader ∧ target = c.leader := by
  unfold Setup.leaderProxy at h
  split_ifs at h with hleader
  · cases h
  · cases h
  · cases h
    exact ⟨hleader, rfl⟩

/-- Whom a handler calls: the leader, the endpoint that a job is placed at, or a peer that a result is
replicated to. -/
theorem handle_call {e target : EndpointId} {ledger ledger' : ConcurrencyLedger} {r : Request}
    {choice : Choice} {stage : Stage} {operation : Operation} {forwarded : Bool} {resume : Resume}
    (h : c.handle e ledger r choice stage = (.call target operation forwarded resume, ledger')) :
    e ≠ c.leader ∧ target = c.leader ∨
      (∃ key, stage = .placing key (.place target) ∧ target ≠ e ∧ choice.ok = true) ∨
      ∃ peers attempts, stage = .fanningOut (target :: peers) attempts := by
  cases stage with
  | start =>
    dsimp only [Setup.handle] at h
    cases hoperation : r.operation with
    | leaderCommand => rw [hoperation] at h; exact .inl (leaderProxy_call h)
    | slotRequest key n requesterId => rw [hoperation] at h; exact .inl (leaderProxy_call h)
    | slotRelease key i e' => rw [hoperation] at h; exact .inl (leaderProxy_call h)
    | jobResultSync => rw [hoperation] at h; exact .inl (leaderProxy_call h)
    | jobResultReplicate => rw [hoperation] at h; cases h
    | localCommand => rw [hoperation] at h; cases h
    | jobSubmit key => rw [hoperation] at h; dsimp only at h; split_ifs at h <;> cases h
    | jobForward key => rw [hoperation] at h; dsimp only at h; split_ifs at h <;> cases h
    | jobCancel => rw [hoperation] at h; cases h
  | finding key => cases h
  | asking key => exact .inl (leaderProxy_call h)
  | placing key decision =>
    cases decision with
    | granted i =>
      dsimp only [Setup.handle] at h
      split_ifs at h <;> cases h
    | place target' =>
      dsimp only [Setup.handle] at h
      split_ifs at h with htarget hok
      · cases h
      · cases h
        exact .inr (.inl ⟨key, rfl, htarget, hok⟩)
      · cases h
    | retry => cases h
  | releasing slots next =>
    rcases slots with - | ⟨⟨key, i⟩, slots⟩
    · cases h
    · exact .inl (leaderProxy_call h)
  | fanningOut peers attempts =>
    rcases peers with - | ⟨peer, peers⟩
    · cases h
    · cases h
      exact .inr (.inr ⟨peers, attempts, rfl⟩)
  | replying reply => cases h

/-- The working loop comes to the outcome of its handler. -/
theorem step_work {e : EndpointId} {choice : Choice} (h : s.step c (.work e choice) = some t) :
    ∃ r stage outcome ledger, s.loop e = .running r stage ∧
      c.handle e s.ledger r choice stage = (outcome, ledger) ∧ t = s.apply e r ledger outcome := by
  simp only [step] at h
  cases hloop : s.loop e with
  | idle =>
    rw [hloop] at h
    cases h
  | waiting r target call resume =>
    rw [hloop] at h
    cases h
  | running r stage =>
    rw [hloop] at h
    exact ⟨r, stage, _, _, rfl, rfl, (Option.some.inj h).symm⟩

theorem callee_work {e : EndpointId} {choice : Choice} {r : Request} {stage : Stage}
    {outcome : Outcome} {ledger : ConcurrencyLedger} (hloop : s.loop e = .running r stage)
    (h : c.handle e s.ledger r choice stage = (outcome, ledger)) :
    s.callee c (.work e choice) =
      match outcome with
      | .call target _ _ _ => some target
      | .goOn _ | .reply _ => none := by
  simp only [callee, hloop, h]
  cases outcome <;> rfl

/-- What a step does to the graph of waits: it adds the wait of a loop for the endpoint that is
called, or ends a wait, or leaves the graph alone. -/
theorem step_waitsFor (h : s.step c a = some t) :
    (∃ e choice target, a = .work e choice ∧ s.callee c a = some target ∧ s.waitsFor e = none ∧
      t.waitsFor = Function.update s.waitsFor e (some target)) ∨
    (s.callee c a = none ∧ ∃ e, t.waitsFor = Function.update s.waitsFor e none) ∨
    (s.callee c a = none ∧ t.waitsFor = s.waitsFor) := by
  cases a with
  | work e choice =>
    obtain ⟨r, stage, outcome, ledger, hloop, hhandle, rfl⟩ := step_work h
    rw [callee_work hloop hhandle]
    cases outcome with
    | goOn stage' => exact Or.inr (Or.inl ⟨rfl, e, waitsFor_of_stop rfl rfl⟩)
    | reply reply => exact Or.inr (Or.inl ⟨rfl, e, waitsFor_of_stop (loop_reply _ _ _) rfl⟩)
    | call target operation forwarded resume =>
      refine Or.inl ⟨e, choice, target, rfl, rfl, ?_,
        waitsFor_of_update (l := .waiting r target s.calls resume) rfl⟩
      rw [waitsFor_eq, hloop]
      rfl
  | take e =>
    simp only [step] at h
    split at h
    · cases h
      exact Or.inr (Or.inl ⟨rfl, e, waitsFor_of_stop rfl rfl⟩)
    · cases h
  | receive e reply =>
    simp only [step] at h
    split at h
    · split_ifs at h
      cases h
      exact Or.inr (Or.inl ⟨rfl, e, waitsFor_of_stop rfl rfl⟩)
    · cases h
  | timeout e =>
    simp only [step] at h
    split at h
    · cases h
      exact Or.inr (Or.inl ⟨rfl, e, waitsFor_of_stop rfl rfl⟩)
    · cases h
  | deliver e r =>
    simp only [step] at h
    split_ifs at h
    cases h
    exact Or.inr (Or.inr ⟨rfl, waitsFor_congr rfl⟩)
  | arrive e operation forwarded =>
    cases h
    exact Or.inr (Or.inr ⟨rfl, waitsFor_congr rfl⟩)
  | background op =>
    cases h
    exact Or.inr (Or.inr ⟨rfl, waitsFor_congr rfl⟩)

/-- A handler that meets the guard calls higher endpoints only. -/
theorem height_lt_of_callee {rank : EndpointId → ℕ} {e target : EndpointId} {choice : Choice}
    (hG : Upward c rank s (.work e choice)) (h : s.callee c (.work e choice) = some target) :
    height c rank e < height c rank target := by
  unfold Upward at hG
  dsimp only [callee] at hG h
  split at h
  · rename_i r stage hloop
    split at h
    · rename_i target' operation forwarded resume houtcome
      cases h
      rw [hloop] at hG
      have hcall := handle_call (c := c) (Prod.ext houtcome rfl)
      rcases hcall with ⟨hne, rfl⟩ | ⟨key, rfl, hne, hok⟩ | ⟨peers, attempts, rfl⟩
      · unfold height
        rw [if_neg hne, if_pos rfl]
        exact WithTop.coe_lt_top _
      · rcases hG with heq | hunknown | hlt
        · exact absurd heq hne
        · rw [hok] at hunknown
          cases hunknown
        · exact hlt
      · exact hG.elim
    · cases h
    · cases h
  · cases h

/-- A step that meets the guard keeps every loop waiting for a higher one. -/
theorem rising_step {rank : EndpointId → ℕ} (hs : Rising (height c rank) s.waitsFor)
    (hG : Upward c rank s a) (h : s.step c a = some t) : Rising (height c rank) t.waitsFor := by
  rcases step_waitsFor h with ⟨e, choice, target, rfl, hcallee, -, ht⟩ | ⟨-, e, ht⟩ | ⟨-, ht⟩
  · rw [ht]
    exact hs.update_some (height_lt_of_callee hG hcallee)
  · rw [ht]
    exact hs.update_none e
  · rw [ht]
    exact hs

/-- Finitely many loops wait. -/
theorem finite_step (hs : {e | s.waitsFor e ≠ none}.Finite) (h : s.step c a = some t) :
    {e | t.waitsFor e ≠ none}.Finite := by
  have hupdate : ∀ (e : EndpointId) (v : Option EndpointId),
      {x | Function.update s.waitsFor e v x ≠ none}.Finite := by
    intro e v
    refine (hs.insert e).subset fun x hx => ?_
    rcases eq_or_ne x e with rfl | hne
    · exact Set.mem_insert x _
    · refine Set.mem_insert_of_mem e ?_
      rwa [Set.mem_ofPred_eq, Function.update_of_ne hne] at hx
  rcases step_waitsFor h with ⟨e, choice, target, -, -, -, ht⟩ | ⟨-, e, ht⟩ | ⟨-, ht⟩
  · rw [ht]
    exact hupdate e _
  · rw [ht]
    exact hupdate e _
  · rw [ht]
    exact hs

/-! ### What is waited for -/

/-- The request that a loop handles. -/
def request : Loop → Option Request
  | .idle => none
  | .running r _ => some r
  | .waiting r _ _ _ => some r

/-- A call is on its way to the callee, in its inbox, being handled there, or answered. -/
inductive Awaited (s : Routers) (e callee : EndpointId) (call : ℕ) : Prop
  | sent (r : Request) (h : (callee, r) ∈ s.sent) (hr : r.replyTo = some (e, call))
  | inbox (r : Request) (h : r ∈ s.inbox callee) (hr : r.replyTo = some (e, call))
  | handled (r : Request) (h : request (s.loop callee) = some r) (hr : r.replyTo = some (e, call))
  | answered (reply : Reply) (h : (e, call, reply) ∈ s.replies)

/-- The invariant of the runs under the guard. -/
structure RouterInv (c : Setup) (rank : EndpointId → ℕ) (s : Routers) : Prop where
  rising : Rising (height c rank) s.waitsFor
  finite : {e | s.waitsFor e ≠ none}.Finite
  awaited : ∀ e r callee call resume, s.loop e = .waiting r callee call resume →
    s.Awaited e callee call

theorem routerInv_init (rank : EndpointId → ℕ) (strategy : String) :
    RouterInv c rank (init strategy) where
  rising := rising_none
  finite := by simp [waitsFor, init]
  awaited := by simp [init]

/-- A step that takes no message away and lets every loop keep its request. -/
theorem Awaited.mono {e callee : EndpointId} {call : ℕ} (hw : s.Awaited e callee call)
    (hsent : ∀ x ∈ s.sent, x ∈ t.sent) (hinbox : ∀ e, ∀ r ∈ s.inbox e, r ∈ t.inbox e)
    (hloop : ∀ e r, request (s.loop e) = some r → request (t.loop e) = some r)
    (hreplies : ∀ x ∈ s.replies, x ∈ t.replies) : t.Awaited e callee call := by
  cases hw with
  | sent r h hr => exact .sent r (hsent _ h) hr
  | inbox r h hr => exact .inbox r (hinbox _ r h) hr
  | handled r h hr => exact .handled r (hloop _ r h) hr
  | answered reply h => exact .answered reply (hreplies _ h)

/-- A loop that goes on with its request. -/
theorem request_update {e : EndpointId} {r : Request} {l : Loop} (hs : request (s.loop e) = some r)
    (hl : request l = some r) (x : EndpointId) (r' : Request)
    (h : request (s.loop x) = some r') : request (Function.update s.loop e l x) = some r' := by
  rcases eq_or_ne x e with rfl | hne
  · rw [Function.update_self, hl, ← hs, h]
  · rwa [Function.update_of_ne hne]

/-- What a working loop does to an awaited call. -/
theorem Awaited.apply {e callee : EndpointId} {call : ℕ} (hw : s.Awaited e callee call)
    {e₀ : EndpointId} {r₀ : Request} (hrequest : request (s.loop e₀) = some r₀)
    (ledger : ConcurrencyLedger) (outcome : Outcome) :
    (s.apply e₀ r₀ ledger outcome).Awaited e callee call := by
  cases outcome with
  | goOn stage =>
    exact hw.mono (fun _ h => h) (fun _ _ h => h) (request_update hrequest rfl) (fun _ h => h)
  | call target operation forwarded resume =>
    exact hw.mono (fun _ h => List.mem_cons_of_mem _ h) (fun _ _ h => h)
      (request_update hrequest rfl) (fun _ h => h)
  | reply reply =>
    have hsent : (s.apply e₀ r₀ ledger (.reply reply)).sent = s.sent := sent_reply _ _ _
    have hinbox : (s.apply e₀ r₀ ledger (.reply reply)).inbox = s.inbox := inbox_reply _ _ _
    have hloop : (s.apply e₀ r₀ ledger (.reply reply)).loop = Function.update s.loop e₀ .idle :=
      loop_reply _ _ _
    cases hw with
    | sent r h hr => exact .sent r (hsent ▸ h) hr
    | inbox r h hr => exact .inbox r (hinbox ▸ h) hr
    | answered reply' h => exact .answered reply' (mem_replies_reply _ _ _ h)
    | handled r h hr =>
      rcases eq_or_ne callee e₀ with rfl | hne
      · -- the request is answered now
        obtain rfl : r₀ = r := Option.some.inj (hrequest.symm.trans h)
        exact .answered reply (reply_mem_replies _ _ _ hr)
      · refine .handled r ?_ hr
        rwa [hloop, Function.update_of_ne hne]

/-- What a step does to a call that is awaited: only the loop that awaits it takes the reply. -/
theorem Awaited.step {e callee : EndpointId} {call : ℕ} (hw : s.Awaited e callee call)
    (h : s.step c a = some t) (ha : ∀ reply, a ≠ .receive e reply) : t.Awaited e callee call := by
  cases a with
  | arrive e₀ operation forwarded =>
    cases h
    refine hw.mono (fun _ h => h) (fun x r hr => ?_) (fun _ _ h => h) (fun _ h => h)
    exact mem_update_append hr
  | deliver e₀ r₀ =>
    simp only [Routers.step] at h
    split_ifs at h with hmem
    cases h
    cases hw with
    | sent r h hr =>
      rcases eq_or_ne (callee, r) (e₀, r₀) with heq | hne
      · cases heq
        refine .inbox r₀ ?_ hr
        show r₀ ∈ Function.update s.inbox callee _ callee
        rw [Function.update_self]
        exact List.mem_append_right _ (List.mem_singleton_self r₀)
      · exact .sent r ((List.mem_erase_of_ne hne).2 h) hr
    | inbox r h hr => exact .inbox r (mem_update_append h) hr
    | handled r h hr => exact .handled r h hr
    | answered reply h => exact .answered reply h
  | take e₀ =>
    simp only [Routers.step] at h
    split at h
    · rename_i r₀ rest hidle hin
      cases h
      cases hw with
      | sent r h hr => exact .sent r h hr
      | answered reply h => exact .answered reply h
      | handled r h hr =>
        refine .handled r ?_ hr
        have hne : callee ≠ e₀ := by
          rintro rfl
          rw [hidle] at h
          cases h
        show request (Function.update s.loop e₀ _ callee) = some r
        rwa [Function.update_of_ne hne]
      | inbox r h hr =>
        rcases eq_or_ne callee e₀ with rfl | hne
        · rw [hin] at h
          rcases List.mem_cons.1 h with rfl | h
          · refine .handled r ?_ hr
            show request (Function.update s.loop callee _ callee) = some r
            rw [Function.update_self, request]
          · refine .inbox r ?_ hr
            show r ∈ Function.update s.inbox callee rest callee
            rwa [Function.update_self]
        · refine .inbox r ?_ hr
          show r ∈ Function.update s.inbox e₀ rest callee
          rwa [Function.update_of_ne hne]
    · cases h
  | work e₀ choice =>
    obtain ⟨r₀, stage, outcome, ledger, hloop, -, rfl⟩ := step_work h
    refine hw.apply ?_ ledger outcome
    rw [hloop, request]
  | receive e₀ reply =>
    have hne : e ≠ e₀ := by
      rintro rfl
      exact ha reply rfl
    simp only [Routers.step] at h
    split at h
    · rename_i r₀ target call₀ resume hloop
      split_ifs at h
      cases h
      have hrequest := request_update (e := e₀) (r := r₀) (by rw [hloop, request])
        (l := .running r₀ (c.resume reply resume)) rfl
      cases hw with
      | sent r h hr => exact .sent r h hr
      | inbox r h hr => exact .inbox r h hr
      | handled r h hr => exact .handled r (hrequest _ r h) hr
      | answered reply' h =>
        refine .answered reply' ((List.mem_erase_of_ne ?_).2 h)
        rintro heq
        cases heq
        exact hne rfl
    · cases h
  | timeout e₀ =>
    simp only [Routers.step] at h
    split at h
    · rename_i r₀ target call₀ resume hloop
      cases h
      refine hw.mono (fun _ h => h) (fun _ _ h => h) ?_ (fun _ h => h)
      exact request_update (e := e₀) (r := r₀) (by rw [hloop, request]) rfl
    · cases h
  | background op =>
    cases h
    exact hw.mono (fun _ h => h) (fun _ _ h => h) (fun _ _ h => h) (fun _ h => h)

/-- A loop that waits after a step waited before, or its call has just been sent. -/
theorem awaited_step (hs : ∀ e r callee call resume, s.loop e = .waiting r callee call resume →
      s.Awaited e callee call)
    (h : s.step c a = some t) (e : EndpointId) (r : Request) (callee : EndpointId) (call : ℕ)
    (resume : Resume) (ht : t.loop e = .waiting r callee call resume) :
    t.Awaited e callee call := by
  -- the loop of one endpoint is replaced by one that does not wait
  have hother : ∀ (e₀ : EndpointId) (l : Loop), t.loop = Function.update s.loop e₀ l →
      target l = none → e ≠ e₀ ∧ s.loop e = .waiting r callee call resume := by
    intro e₀ l hl hnone
    have hne : e ≠ e₀ := by
      rintro rfl
      rw [hl, Function.update_self] at ht
      rw [ht] at hnone
      cases hnone
    rw [hl, Function.update_of_ne hne] at ht
    exact ⟨hne, ht⟩
  cases a with
  | work e₀ choice =>
    have hkeep := h
    obtain ⟨r₀, stage, outcome, ledger, -, -, rfl⟩ := step_work h
    cases outcome with
    | goOn stage' =>
      obtain ⟨-, hs'⟩ := hother e₀ _ rfl rfl
      exact (hs e r callee call resume hs').step hkeep (by simp)
    | reply reply =>
      obtain ⟨-, hs'⟩ := hother e₀ .idle (loop_reply _ _ _) rfl
      exact (hs e r callee call resume hs').step hkeep (by simp)
    | call target operation forwarded resume' =>
      replace ht : Function.update s.loop e₀ (.waiting r₀ target s.calls resume') e =
        .waiting r callee call resume := ht
      rcases eq_or_ne e e₀ with rfl | hne
      · rw [Function.update_self] at ht
        cases ht
        exact .sent _ List.mem_cons_self rfl
      · rw [Function.update_of_ne hne] at ht
        exact (hs e r callee call resume ht).step hkeep (by simp)
  | take e₀ =>
    have hkeep := h
    simp only [step] at h
    split at h
    · cases h
      obtain ⟨-, hs'⟩ := hother e₀ _ rfl rfl
      exact (hs e r callee call resume hs').step hkeep (by simp)
    · cases h
  | receive e₀ reply =>
    have hkeep := h
    simp only [step] at h
    split at h
    · split_ifs at h
      cases h
      obtain ⟨hne, hs'⟩ := hother e₀ _ rfl rfl
      refine (hs e r callee call resume hs').step hkeep fun reply' heq => ?_
      cases heq
      exact hne rfl
    · cases h
  | timeout e₀ =>
    have hkeep := h
    simp only [step] at h
    split at h
    · cases h
      obtain ⟨-, hs'⟩ := hother e₀ _ rfl rfl
      exact (hs e r callee call resume hs').step hkeep (by simp)
    · cases h
  | deliver e₀ r₀ =>
    have hkeep := h
    simp only [step] at h
    split_ifs at h
    cases h
    exact (hs e r callee call resume ht).step hkeep (by simp)
  | arrive e₀ operation forwarded =>
    have hkeep := h
    cases h
    exact (hs e r callee call resume ht).step hkeep (by simp)
  | background op =>
    have hkeep := h
    cases h
    exact (hs e r callee call resume ht).step hkeep (by simp)

theorem RouterInv.step {rank : EndpointId → ℕ} (hs : RouterInv c rank s) (hG : Upward c rank s a)
    (h : s.step c a = some t) : RouterInv c rank t where
  rising := rising_step hs.rising hG h
  finite := finite_step hs.finite h
  awaited := awaited_step hs.awaited h

/-! ### Runs -/

/-- Something can be done at the endpoint without waiting for a timeout. -/
def CanGoOn (c : Setup) (s : Routers) (e : EndpointId) : Prop :=
  ∃ a t, a.movesOn = some e ∧ s.step c a = some t

/-- A loop that has a request or a request in its inbox can go on, unless it waits. -/
theorem canGoOn_of_not_waiting {e : EndpointId} (hnone : s.waitsFor e = none)
    (hbusy : request (s.loop e) ≠ none ∨ s.inbox e ≠ []) : s.CanGoOn c e := by
  cases hloop : s.loop e with
  | waiting r callee call resume =>
    rw [waitsFor_eq, hloop] at hnone
    cases hnone
  | running r stage => exact ⟨.work e default, _, rfl, by simp only [step, hloop]; rfl⟩
  | idle =>
    rw [hloop] at hbusy
    obtain ⟨r, rest, hin⟩ := List.exists_cons_of_ne_nil (hbusy.resolve_left fun h => h rfl)
    exact ⟨.take e, _, rfl, by simp only [step, hloop, hin]; rfl⟩

/-- Every chain of waits comes to an endpoint that can go on. -/
theorem RouterInv.exists_canGoOn {rank : EndpointId → ℕ} (hs : RouterInv c rank s) {e : EndpointId} (he : s.waitsFor e ≠ none) :
    ∃ x, Leads s.waitsFor e x ∧ s.CanGoOn c x := by
  obtain ⟨b, heb, hb⟩ := exists_end hs.rising.noCircle hs.finite e
  rcases Relation.ReflTransGen.cases_tail heb with rfl | ⟨p, hep, hpb⟩
  · exact absurd hb he
  replace hpb : s.waitsFor p = some b := hpb
  cases hloop : s.loop p with
  | idle => simp [waitsFor_eq, hloop, target] at hpb
  | running r stage => simp [waitsFor_eq, hloop, target] at hpb
  | waiting r callee call resume =>
    obtain rfl : callee = b := by simpa [waitsFor_eq, hloop, target] using hpb
    cases hs.awaited p r callee call resume hloop with
    | sent r' h => exact ⟨callee, heb, .deliver callee r', _, rfl, if_pos h⟩
    | inbox r' h =>
      exact ⟨callee, heb, canGoOn_of_not_waiting hb (Or.inr (List.ne_nil_of_mem h))⟩
    | handled r' h =>
      refine ⟨callee, heb, canGoOn_of_not_waiting hb (Or.inl ?_)⟩
      rw [h]
      exact Option.some_ne_none r'
    | answered reply h =>
      exact ⟨p, hep, .receive p reply, _, rfl, by simp only [Routers.step, hloop, if_pos h]; rfl⟩

/-- Once the leader has called an endpoint whose loop is free, a command there that needs the leader
closes a circle. -/
theorem exists_circle_of_leader_call {choice : Choice} {x : EndpointId}
    (hcallee : s.callee c (.work c.leader choice) = some x) (hx : x ≠ c.leader)
    (hidle : s.loop x = .idle) (hinbox : s.inbox x = [])
    (h : s.step c (.work c.leader choice) = some t) :
    ∃ u, Reach (Routers.step c) Always t u ∧ ¬ NoCircle u.waitsFor := by
  obtain ⟨r, stage, outcome, ledger, hloop, hhandle, rfl⟩ := step_work h
  rw [callee_work hloop hhandle] at hcallee
  cases outcome with
  | goOn stage => cases hcallee
  | reply reply => cases hcallee
  | call target operation forwarded resume =>
    cases hcallee
    -- a client's command comes to the callee, which relays it
    let command : Request := ⟨.leaderCommand, false, none⟩
    have hrun : ∃ u, run (Routers.step c) (s.apply c.leader r ledger (.call x operation forwarded resume))
        [.arrive x .leaderCommand false, .take x, .work x default] = some u ∧
        u.loop x = .waiting command c.leader (s.calls + 1) .relay ∧
        u.loop c.leader = .waiting r x s.calls resume := by
      simp [run, Routers.step, apply, setLoop, hidle, hinbox, command,
        Setup.handle, Setup.leaderProxy, hx, hx.symm, default]
    obtain ⟨u, hu, hcalleeLoop, hleaderLoop⟩ := hrun
    refine ⟨u, reach_of_run hu, fun hno => ?_⟩
    have hxl : Waits u.waitsFor x c.leader := by
      unfold Waits
      rw [waitsFor_eq, hcalleeLoop]
      rfl
    have hlx : Waits u.waitsFor c.leader x := by
      unfold Waits
      rw [waitsFor_eq, hleaderLoop]
      rfl
    exact hno x (.tail (.single hxl) hlx)

/-- In every run in which jobs are forwarded upward only, and the leader calls nobody, no circle of
receive loops arises, and every loop that waits depends on an endpoint that can go on without a
timeout; and from any state, once the leader calls an endpoint whose loop is free, a circle may
arise. -/
theorem noCircle_of_reach (c : Setup) (rank : EndpointId → ℕ) (strategy : String) (s : Routers)
    (h : Reach (Routers.step c) (Upward c rank) (init strategy) s) :
    NoCircle s.waitsFor ∧
      (∀ e, s.waitsFor e ≠ none → ∃ x, Leads s.waitsFor e x ∧ s.CanGoOn c x) ∧
      ∀ choice t x, s.step c (.work c.leader choice) = some t →
        s.callee c (.work c.leader choice) = some x → x ≠ c.leader → s.loop x = .idle →
          s.inbox x = [] → ∃ u, Reach (Routers.step c) Always t u ∧ ¬ NoCircle u.waitsFor := by
  have hinv : RouterInv c rank s :=
    h.invariant (routerInv_init rank strategy) fun _ _ _ hI hG hstep => hI.step hG hstep
  exact ⟨hinv.rising.noCircle, fun _ he => hinv.exists_canGoOn he,
    fun _ _ _ hstep hcallee hx hidle hinbox =>
      exists_circle_of_leader_call hcallee hx hidle hinbox hstep⟩

/-! ### A job that waits for the leader, and one that the leader waits for -/

/-- Two endpoints, of which `B` leads, and pools of one. -/
def pairLedByB : Setup where
  leader := "B"
  maxConcurrency := fun _ => 1
  maxRetries := 3

/-- A job is submitted at an endpoint without an idle container; its handler comes to ask the
leader for a slot. -/
def submitAt (e : EndpointId) : List RouterAction :=
  [.arrive e (.jobSubmit ("f", 1)) false, .take e, .work e default, .work e default,
    .work e default, .work e default]

/-- `A` waits for the leader: the guard is met, and the leader can go on. -/
theorem canGoOn_submitAtA :
    ∃ s, Reach (step pairLedByB) (Upward pairLedByB fun _ => 0) (init "round_robin") s ∧
      s.waitsFor "A" = some "B" ∧ ∃ x, Leads s.waitsFor "A" x ∧ s.CanGoOn pairLedByB x := by
  obtain ⟨s, hs, hP⟩ := exists_reach_of_guarded_run (step pairLedByB)
    (Upward pairLedByB fun _ => 0) (init "round_robin") (fun s => s.waitsFor "A" = some "B")
    (submitAt "A") (by decide)
  replace hP := of_decide_eq_true hP
  refine ⟨s, hs, hP, (noCircle_of_reach pairLedByB (fun _ => 0) "round_robin" s hs).2.1 "A" ?_⟩
  rw [hP]
  exact Option.some_ne_none "B"

/-- A waiting loop cannot go on without a message for it. -/
theorem not_canGoOn {e : EndpointId} (hw : s.waitsFor e ≠ none) (hsent : s.sent = [])
    (hreplies : s.replies = []) : ¬ s.CanGoOn c e := by
  rintro ⟨a, t, ha, hstep⟩
  cases hloop : s.loop e with
  | idle => exact hw (by rw [waitsFor_eq, hloop]; rfl)
  | running r stage => exact hw (by rw [waitsFor_eq, hloop]; rfl)
  | waiting r callee call resume =>
    cases a with
    | deliver x r' =>
      simp [step, hsent] at hstep
    | take x =>
      obtain rfl : x = e := Option.some.inj ha
      simp [step, hloop] at hstep
    | work x choice =>
      obtain rfl : x = e := Option.some.inj ha
      simp [step, hloop] at hstep
    | receive x reply =>
      obtain rfl : x = e := Option.some.inj ha
      simp [step, hloop, hreplies] at hstep
    | arrive x operation forwarded => cases ha
    | timeout x => cases ha
    | background op => cases ha

/-- `A` is granted the only slot of a pool.  A job submitted at the leader `B` is then placed at
`A`, which has no idle container and asks `B`. -/
def placeAtA : List RouterAction :=
  submitAt "A" ++
  [.deliver "B" ⟨.slotRequest ("f", 1) 1 "A", true, some ("A", 0)⟩, .take "B", .work "B" default,
    .work "B" default, .receive "A" ⟨true, some (.granted 0)⟩, .work "A" default,
    .work "A" default, .work "A" default] ++
  submitAt "B" ++
  [.work "B" default, .deliver "A" ⟨.jobForward ("f", 1), false, some ("B", 1)⟩, .take "A",
    .work "A" default, .work "A" default, .work "A" default, .work "A" default,
    .deliver "B" ⟨.slotRequest ("f", 1) 1 "A", true, some ("A", 2)⟩]

/-- All messages are delivered, and both loops wait for each other: neither can go on without a
timeout. -/
theorem circle_placeAtA :
    ∃ s, Reach (step pairLedByB) Always (init "round_robin") s ∧
      s.waitsFor "A" = some "B" ∧ s.waitsFor "B" = some "A" ∧ ¬ NoCircle s.waitsFor ∧
      ¬ s.CanGoOn pairLedByB "A" ∧ ¬ s.CanGoOn pairLedByB "B" := by
  obtain ⟨s, hs, hP⟩ := exists_reach_of_run (step pairLedByB) (init "round_robin")
    (fun s => s.waitsFor "A" = some "B" ∧ s.waitsFor "B" = some "A" ∧ s.sent = [] ∧
      s.replies = []) placeAtA (by decide +kernel)
  obtain ⟨hA, hB, hsent, hreplies⟩ := of_decide_eq_true hP
  have hAB : Waits s.waitsFor "A" "B" := hA
  have hcircle : Relation.TransGen (Waits s.waitsFor) "A" "A" := .tail (.single hAB) hB
  refine ⟨s, hs, hA, hB, fun h => h "A" hcircle, not_canGoOn ?_ hsent hreplies,
    not_canGoOn ?_ hsent hreplies⟩
  · rw [hA]
    exact Option.some_ne_none "B"
  · rw [hB]
    exact Option.some_ne_none "A"

end Routers

end Axo
