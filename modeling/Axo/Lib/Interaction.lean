import Axo.Lib.Transition
import Mathlib.Data.List.Forall2
import Mathlib.Data.List.Induction

/-!
# Questions asked across two channels

A guest runs the jobs that a host gives it.  A job asks the host questions, one at a time, and goes
on with the answers; between the two are two channels that keep the order.  The guest may be out of
patience before an answer comes: the job goes on without it, and the answer comes later.  The host may
give up: then it reports some of the jobs that it still has as failed.

* `Script` is a job as the host sees it, and `Leads` what the answers make of it;
* `Protocol` is what a system fixes, and `Session` the state of the two sides, with the history of
  the answers and reports;
* `Play` is a job played from its first question to its result, where each answer that was seen is
  the one given to that very question, and `Underway` one that is not over;
* `exists_plays_of_reach` says that a session consists of plays, one that is under way at most, and
  what is reported when the host gives up.
-/

namespace Interaction

open Transition

/-- A computation that asks questions, one at a time, and goes on with the answers. -/
inductive Script (Q A R : Type*)
  | done (r : R)
  | ask (q : Q) (next : A → Script Q A R)

namespace Script

variable {Q A R : Type*} {s t u : Script Q A R} {past more : List (Q × A)}

/-- A script asks these questions in this order, and is there after these answers. -/
inductive Leads : Script Q A R → List (Q × A) → Script Q A R → Prop
  | nil (s : Script Q A R) : Leads s [] s
  | cons {q : Q} {a : A} {next : A → Script Q A R} {past : List (Q × A)} {t : Script Q A R}
      (h : Leads (next a) past t) : Leads (.ask q next) ((q, a) :: past) t

theorem Leads.trans (h : Leads s past t) (h' : Leads t more u) : Leads s (past ++ more) u := by
  induction h with
  | nil => exact h'
  | cons _ ih => exact .cons (ih h')

/-- One answer more. -/
theorem Leads.snoc {q : Q} {next : A → Script Q A R} (h : Leads s past (.ask q next)) (a : A) :
    Leads s (past ++ [(q, a)]) (next a) :=
  h.trans (.cons (.nil _))

/-- All the questions of a script, whatever it is answered. -/
def Asks (p : Q → Prop) : Script Q A R → Prop
  | .done _ => True
  | .ask q next => p q ∧ ∀ a, (next a).Asks p

/-- The script, for one who gives answers of another kind and takes results of another kind. -/
def translate {A' R' : Type*} (see : A' → A) (publish : R → R') : Script Q A R → Script Q A' R'
  | .done r => .done (publish r)
  | .ask q next => .ask q fun a => (next (see a)).translate see publish

section Translate

variable {A' R' : Type*} {see : A' → A} {publish : R → R'} {past : List (Q × A')}

/-- A translated script comes to where the script itself comes. -/
theorem Leads.exists_of_translate {t' : Script Q A' R'}
    (h : (s.translate see publish).Leads past t') :
    ∃ t, s.Leads (past.map fun e => (e.1, see e.2)) t ∧ t.translate see publish = t' := by
  induction s generalizing past with
  | done r =>
    cases h
    exact ⟨.done r, .nil _, rfl⟩
  | ask q next ih =>
    cases h with
    | nil => exact ⟨.ask q next, .nil _, rfl⟩
    | cons h =>
      obtain ⟨t, hleads, ht⟩ := ih _ h
      exact ⟨t, .cons hleads, ht⟩

/-- A translated script ends where the script itself ends. -/
theorem Leads.of_translate {r' : R'} (h : (s.translate see publish).Leads past (.done r')) :
    ∃ r, s.Leads (past.map fun e => (e.1, see e.2)) (.done r) ∧ publish r = r' := by
  obtain ⟨t, hleads, ht⟩ := h.exists_of_translate
  cases t with
  | done r =>
    cases ht
    exact ⟨r, hleads, rfl⟩
  | ask q next => cases ht

/-- It asks where the script itself asks. -/
theorem Leads.ask_of_translate {q : Q} {next' : A' → Script Q A' R'}
    (h : (s.translate see publish).Leads past (.ask q next')) :
    ∃ next, s.Leads (past.map fun e => (e.1, see e.2)) (.ask q next) := by
  obtain ⟨t, hleads, ht⟩ := h.exists_of_translate
  cases t with
  | done r => cases ht
  | ask q next =>
    cases ht
    exact ⟨next, hleads⟩

end Translate

end Script

/-! ### The two sides -/

/-- What the host sends. -/
inductive Down (J I A : Type*)
  | job (job : J)
  | reply (id : I) (a : A)

/-- What the guest sends. -/
inductive Up (J I Q R : Type*)
  | request (id : I) (q : Q)
  | result (job : J) (r : R)

/-- Where the guest is. -/
inductive Guest (J I Q A R : Type*)
  | idle
  /-- it waits for the answer with this id -/
  | waiting (job : J) (id : I) (next : Option A → Script Q (Option A) (Option R))
  | stopped

/-- Where the host is. -/
inductive Host (J : Type*)
  | free
  | engaged (job : J)
  | gone

/-- What a system fixes.  A script that ends with `none` stops the guest. -/
structure Protocol (J I Q A R S F L : Type*) where
  script : J → Script Q (Option A) (Option R)
  fresh : ℕ → I
  /-- what the host makes of a question; `none` ends it -/
  answer : S → Q → Option (S × A)
  /-- what the host reports, if anything, of a job that it gives up: the one in its hands, or one
  behind it -/
  failed : L → Bool → J → Option F

/-- The state of the two sides and of the channels.  No step reads `served`, `reports` and
`failures`. -/
structure Session (J I Q A R S F : Type*) where
  queue : List J
  host : Host J := .free
  guest : Guest J I Q A R := .idle
  down : List (Down J I A) := []
  up : List (Up J I Q R) := []
  asked : ℕ := 0
  store : S
  served : List (Q × A) := []
  reports : List (J × R) := []
  failures : List (J × F) := []

/-- What happens next.  What the answers are read from may be changed by others. -/
inductive Act (S L : Type*)
  | dispatch
  | receive
  | timeOut
  | serve
  /-- the host is gone without a word -/
  | leave
  /-- the host gives up its jobs -/
  | giveUp (loss : L)
  | others (store : S)

section Steps

variable {J I Q A R S F L : Type*} [DecidableEq I] (P : Protocol J I Q A R S F L)

/-- The guest goes on with a job, up to its next question. -/
def speak (s : Session J I Q A R S F) (job : J) :
    Script Q (Option A) (Option R) → Session J I Q A R S F
  | .done none => { s with guest := .stopped }
  | .done (some r) => { s with guest := .idle, up := s.up ++ [.result job r] }
  | .ask q next =>
    { s with
      guest := .waiting job (P.fresh s.asked) next
      up := s.up ++ [.request (P.fresh s.asked) q]
      asked := s.asked + 1 }

/-- The host gives the next job. -/
def dispatch (s : Session J I Q A R S F) : Option (Session J I Q A R S F) :=
  match s.host, s.queue with
  | .free, job :: rest =>
    some { s with host := .engaged job, queue := rest, down := s.down ++ [.job job] }
  | _, _ => none

/-- The guest takes the next message; what it does not wait for is dropped. -/
def receive (s : Session J I Q A R S F) : Option (Session J I Q A R S F) :=
  match s.guest, s.down with
  | .idle, .job job :: rest => some (speak P { s with down := rest } job (P.script job))
  | .idle, .reply _ _ :: rest => some { s with down := rest }
  | .waiting job id next, .reply id' a :: rest =>
    if id' = id then some (speak P { s with down := rest } job (next (some a)))
    else some { s with down := rest }
  | .waiting _ _ _, .job _ :: rest => some { s with down := rest }
  | _, _ => none

/-- The guest waits no longer. -/
def timeOut (s : Session J I Q A R S F) : Option (Session J I Q A R S F) :=
  match s.guest with
  | .waiting job _ next => some (speak P s job (next none))
  | _ => none

/-- The host takes the next message.  It does not look at the job that a result is for. -/
def serve (s : Session J I Q A R S F) : Option (Session J I Q A R S F) :=
  match s.host, s.up with
  | .engaged _, .request id q :: rest =>
    match P.answer s.store q with
    | none => some { s with host := .gone, up := rest }
    | some (store, a) =>
      some { s with
        store := store
        up := rest
        down := s.down ++ [.reply id a]
        served := s.served ++ [(q, a)] }
  | .engaged job, .result _ r :: rest =>
    some { s with host := .free, up := rest, reports := s.reports ++ [(job, r)] }
  | _, _ => none

/-- What the host reports of the job in its hands and of those behind it. -/
def givenUp (loss : L) (job : J) (rest : List J) : List (J × F) :=
  ((P.failed loss true job).map fun f => (job, f)).toList ++
    rest.filterMap fun j => (P.failed loss false j).map fun f => (j, f)

/-- The host gives up, with a job in its hands. -/
def giveUp (s : Session J I Q A R S F) (loss : L) : Option (Session J I Q A R S F) :=
  match s.host, s.queue with
  | .engaged job, rest | .free, job :: rest =>
    some { s with
      host := .gone
      queue := []
      failures := s.failures ++ givenUp P loss job rest }
  | _, _ => none

/-- One step. -/
def step (s : Session J I Q A R S F) : Act S L → Option (Session J I Q A R S F)
  | .dispatch => dispatch s
  | .receive => receive P s
  | .timeOut => timeOut P s
  | .serve => serve P s
  | .leave => some { s with host := .gone }
  | .giveUp loss => giveUp P s loss
  | .others store => some { s with store := store }

/-- The guard on the steps: others change the store so only, and the guest may be out of patience
only if that may happen. -/
def Allowed (mayTimeOut : Prop) (rely : S → S → Prop) (s : Session J I Q A R S F) :
    Act S L → Prop
  | .timeOut => mayTimeOut
  | .others store => rely s.store store
  | _ => True

end Steps

/-! ### Plays -/

/-- A question, the answer given to it, and what the job saw of it. -/
structure Exchange (mayTimeOut : Prop) (Q A : Type*) where
  question : Q
  answer : A
  seen : Option A
  honest : seen = some answer ∨ mayTimeOut ∧ seen = none

/-- The store after these answers, with what others did to it meanwhile. -/
inductive Serves {Q A S : Type*} (answer : S → Q → Option (S × A)) (rely : S → S → Prop) (s₀ : S) :
    List (Q × A) → S → Prop
  | start : Serves answer rely s₀ [] s₀
  | others {log : List (Q × A)} {s t : S} (h : Serves answer rely s₀ log s) (hrely : rely s t) :
      Serves answer rely s₀ log t
  | serve {log : List (Q × A)} {s t : S} {q : Q} {a : A} (h : Serves answer rely s₀ log s)
      (hanswer : answer s q = some (t, a)) : Serves answer rely s₀ (log ++ [(q, a)]) t

section Plays

variable {J I Q A R S F L : Type*} [DecidableEq I] (P : Protocol J I Q A R S F L) (mayTimeOut : Prop)

/-- A job played from its first question to its result. -/
structure Play where
  job : J
  exchanges : List (Exchange mayTimeOut Q A)
  result : R
  leads : (P.script job).Leads (exchanges.map fun e => (e.question, e.seen)) (.done (some result))

variable {P mayTimeOut}

/-- What the host answered to a play. -/
def Play.answers (p : Play P mayTimeOut) : List (Q × A) :=
  p.exchanges.map fun e => (e.question, e.answer)

variable (P mayTimeOut) in
/-- A job that is not over, with the answers it has been given. -/
inductive Underway (job : J) : List (Q × A) → Prop
  /-- it has seen them, or not waited for them, nor for some more -/
  | asking (exchanges : List (Exchange mayTimeOut Q A)) (unserved : List Q)
      (there : Script Q (Option A) (Option R)) (hpatience : unserved ≠ [] → mayTimeOut)
      (hleads : (P.script job).Leads
        (exchanges.map (fun e => (e.question, e.seen)) ++ unserved.map fun q => (q, none)) there) :
      Underway job (exchanges.map fun e => (e.question, e.answer))
  /-- it waits for the last of them -/
  | answered (exchanges : List (Exchange mayTimeOut Q A)) (q : Q) (a : A)
      (next : Option A → Script Q (Option A) (Option R))
      (hleads : (P.script job).Leads (exchanges.map fun e => (e.question, e.seen)) (.ask q next)) :
      Underway job (exchanges.map (fun e => (e.question, e.answer)) ++ [(q, a)])

/-- The history of a session is that of these plays, of these answers to the job in flight, and of
these failures. -/
structure Told (plays : List (Play P mayTimeOut)) (current : List (Q × A)) (failures : List (J × F))
    (s : Session J I Q A R S F) : Prop where
  reports : s.reports = plays.map fun p => (p.job, p.result)
  served : s.served = plays.flatMap Play.answers ++ current
  failures : s.failures = failures

/-- How the host is gone: between two jobs, or with one in its hands, of which it reports what it
gives up, or nothing. -/
inductive Gone (jobs : List J) (plays : List (Play P mayTimeOut)) :
    List (Q × A) → List (J × F) → Prop
  | between (hjobs : plays.map Play.job <+: jobs) : Gone jobs plays [] []
  | silent {job : J} {rest : List J} {current : List (Q × A)}
      (hjobs : plays.map Play.job ++ job :: rest = jobs)
      (hunderway : Underway P mayTimeOut job current) : Gone jobs plays current []
  | givenUp {job : J} {rest : List J} {current : List (Q × A)} (loss : L)
      (hjobs : plays.map Play.job ++ job :: rest = jobs)
      (hunderway : Underway P mayTimeOut job current) :
      Gone jobs plays current (givenUp P loss job rest)

end Plays

/-! ### The invariant -/

section Invariant

variable {J I Q A R S F L : Type*} {P : Protocol J I Q A R S F L} {mayTimeOut : Prop}
  {s t : Session J I Q A R S F} {served : List (Q × A)} {job : J} {q : Q} {a : A}

/-- The requests with these questions, from the `n`-th request on. -/
def requestsFrom (P : Protocol J I Q A R S F L) (n : ℕ) : List Q → List (Up J I Q R)
  | [] => []
  | q :: qs => .request (P.fresh n) q :: requestsFrom P (n + 1) qs

theorem requestsFrom_append (n : ℕ) (qs qs' : List Q) :
    requestsFrom P n (qs ++ qs') = requestsFrom P n qs ++ requestsFrom P (n + qs.length) qs' := by
  induction qs generalizing n with
  | nil => rfl
  | cons q qs ih =>
    have hn : n + (qs.length + 1) = n + 1 + qs.length := by omega
    rw [List.cons_append, requestsFrom, ih, requestsFrom, List.cons_append, List.length_cons, hn]

/-- Each of these messages is the answer to the request whose id it carries. -/
def Replies (P : Protocol J I Q A R S F L) (served : List (Q × A)) (down : List (Down J I A)) : Prop :=
  ∀ m ∈ down, ∃ i q a, m = .reply (P.fresh i) a ∧ served[i]? = some (q, a)

theorem Replies.tail {m : Down J I A} {down : List (Down J I A)}
    (h : Replies P served (m :: down)) : Replies P served down :=
  fun m' hm' => h m' (List.mem_cons_of_mem m hm')

theorem Replies.serve {down : List (Down J I A)} (h : Replies P served down) (q : Q) (a : A) :
    Replies P (served ++ [(q, a)]) (down ++ [.reply (P.fresh served.length) a]) := by
  intro m hm
  rcases List.mem_append.1 hm with hold | hnew
  · obtain ⟨i, q', a', rfl, hi⟩ := h m hold
    exact ⟨i, q', a', rfl, List.getElem?_append_left (List.getElem?_eq_some_iff.1 hi).1 ▸ hi⟩
  · cases List.mem_singleton.1 hnew
    exact ⟨served.length, q, a, rfl, List.getElem?_concat_length⟩

/-- What was seen of an answer. -/
def Honest (mayTimeOut : Prop) (seen : Q × Option A) (given : Q × A) : Prop :=
  seen.1 = given.1 ∧ (seen.2 = some given.2 ∨ mayTimeOut ∧ seen.2 = none)

/-- What the job in flight has seen so far: of these answers, and of none to these questions, for
which it has not waited. -/
inductive Seen (mayTimeOut : Prop) (current : List (Q × A)) (unserved : List Q) :
    List (Q × Option A) → Prop
  | mk {past : List (Q × Option A)} (h : List.Forall₂ (Honest mayTimeOut) past current)
      (hpatience : unserved ≠ [] → mayTimeOut) :
      Seen mayTimeOut current unserved (past ++ unserved.map fun q => (q, none))

/-- Where the job in flight is, with the answers it has been given. -/
inductive Stage (P : Protocol J I Q A R S F L) (mayTimeOut : Prop) (s : Session J I Q A R S F) (job : J) :
    List (Q × A) → Prop
  /-- on its way to the guest -/
  | given {down : List (Down J I A)} (hguest : s.guest = .idle)
      (hdown : s.down = down ++ [.job job]) (hreplies : Replies P s.served down) (hup : s.up = [])
      (hasked : s.asked = s.served.length) : Stage P mayTimeOut s job []
  /-- waiting, while the question is on its way to the host -/
  | asking {current : List (Q × A)} {unserved : List Q} {past : List (Q × Option A)} {q : Q}
      {next : Option A → Script Q (Option A) (Option R)}
      (hguest : s.guest = .waiting job (P.fresh (s.served.length + unserved.length)) next)
      (hreplies : Replies P s.served s.down)
      (hup : s.up = requestsFrom P s.served.length (unserved ++ [q]))
      (hasked : s.asked = s.served.length + unserved.length + 1)
      (hseen : Seen mayTimeOut current unserved past)
      (hleads : (P.script job).Leads past (.ask q next)) : Stage P mayTimeOut s job current
  /-- waiting, while the answer is on its way back -/
  | answered {current : List (Q × A)} {past : List (Q × Option A)} {q : Q} {a : A}
      {next : Option A → Script Q (Option A) (Option R)}
      (hguest : s.guest = .waiting job (P.fresh (s.served.length - 1)) next)
      (hreplies : Replies P s.served s.down) (hup : s.up = [])
      (hasked : s.asked = s.served.length)
      (hlast : s.served.getLast? = some (q, a))
      (hreply : .reply (P.fresh (s.served.length - 1)) a ∈ s.down)
      (hseen : Seen mayTimeOut current [] past)
      (hleads : (P.script job).Leads past (.ask q next)) :
      Stage P mayTimeOut s job (current ++ [(q, a)])
  /-- over, with the result on its way to the host -/
  | ended {current : List (Q × A)} {unserved : List Q} {past : List (Q × Option A)} {r : R}
      (hguest : s.guest = .idle) (hreplies : Replies P s.served s.down)
      (hup : s.up = requestsFrom P s.served.length unserved ++ [.result job r])
      (hasked : s.asked = s.served.length + unserved.length)
      (hseen : Seen mayTimeOut current unserved past)
      (hleads : (P.script job).Leads past (.done (some r))) : Stage P mayTimeOut s job current
  /-- over, without a result -/
  | stopped {current : List (Q × A)} {unserved : List Q} {past : List (Q × Option A)}
      (hguest : s.guest = .stopped) (hreplies : Replies P s.served s.down)
      (hup : s.up = requestsFrom P s.served.length unserved)
      (hasked : s.asked = s.served.length + unserved.length)
      (hseen : Seen mayTimeOut current unserved past)
      (hleads : (P.script job).Leads past (.done none)) : Stage P mayTimeOut s job current

/-- The invariant of a session that has begun with these jobs. -/
inductive Inv (P : Protocol J I Q A R S F L) (mayTimeOut : Prop) (jobs : List J)
    (s : Session J I Q A R S F) : Prop
  | free (plays : List (Play P mayTimeOut)) (htold : Told plays [] [] s) (hhost : s.host = .free)
      (hjobs : jobs = plays.map Play.job ++ s.queue) (hguest : s.guest = .idle)
      (hreplies : Replies P s.served s.down) (hup : s.up = []) (hasked : s.asked = s.served.length)
  | engaged (plays : List (Play P mayTimeOut)) {current : List (Q × A)} {job : J}
      (htold : Told plays current [] s) (hhost : s.host = .engaged job)
      (hjobs : jobs = plays.map Play.job ++ job :: s.queue) (hstage : Stage P mayTimeOut s job current)
  | gone (plays : List (Play P mayTimeOut)) {current : List (Q × A)} {failures : List (J × F)}
      (htold : Told plays current failures s) (hhost : s.host = .gone)
      (hgone : Gone jobs plays current failures)

/-- The session has begun. -/
def start (jobs : List J) (store : S) : Session J I Q A R S F := { queue := jobs, store := store }

theorem inv_start (jobs : List J) (store : S) :
    Inv P mayTimeOut jobs (start jobs store : Session J I Q A R S F) :=
  .free [] ⟨rfl, rfl, rfl⟩ rfl rfl rfl (fun _ hm => absurd hm List.not_mem_nil) rfl rfl

/-! ### What the guest does -/

/-- The guest goes on with the job in flight: from a place where all that is on its way is known. -/
theorem stage_speak {current : List (Q × A)} {unserved : List Q} {past : List (Q × Option A)}
    {script : Script Q (Option A) (Option R)} (hreplies : Replies P s.served s.down)
    (hup : s.up = requestsFrom P s.served.length unserved)
    (hasked : s.asked = s.served.length + unserved.length)
    (hseen : Seen mayTimeOut current unserved past) (hleads : (P.script job).Leads past script) :
    Stage P mayTimeOut (speak P s job script) job current := by
  match script with
  | .done none => exact .stopped rfl hreplies hup hasked hseen hleads
  | .done (some r) => exact .ended rfl hreplies (by rw [speak, hup]) hasked hseen hleads
  | .ask q next =>
    refine .asking (by rw [speak, hasked]) hreplies ?_ (by rw [speak, hasked]) hseen hleads
    rw [speak, hup, hasked, requestsFrom_append]
    rfl

/-- The history, the queue and the host are the same while the guest speaks. -/
theorem speak_frame (s : Session J I Q A R S F) (job : J)
    (script : Script Q (Option A) (Option R)) :
    (speak P s job script).served = s.served ∧ (speak P s job script).reports = s.reports ∧
      (speak P s job script).failures = s.failures ∧ (speak P s job script).host = s.host ∧
      (speak P s job script).queue = s.queue := by
  match script with
  | .done none => exact ⟨rfl, rfl, rfl, rfl, rfl⟩
  | .done (some r) => exact ⟨rfl, rfl, rfl, rfl, rfl⟩
  | .ask q next => exact ⟨rfl, rfl, rfl, rfl, rfl⟩

theorem Seen.nil : Seen mayTimeOut ([] : List (Q × A)) [] [] :=
  .mk .nil fun h => absurd rfl h

/-- The job sees the last answer, or has not waited for it. -/
theorem Seen.snoc {current : List (Q × A)} {past : List (Q × Option A)} {seen : Option A}
    (h : Seen mayTimeOut current [] past)
    (hseen : seen = some a ∨ mayTimeOut ∧ seen = none) :
    Seen mayTimeOut (current ++ [(q, a)]) [] (past ++ [(q, seen)]) := by
  obtain ⟨hpast, -⟩ := h
  rw [List.map_nil, List.append_nil]
  have hlast : List.Forall₂ (Honest mayTimeOut) [(q, seen)] [(q, a)] := .cons ⟨rfl, hseen⟩ .nil
  have hsnoc : Seen mayTimeOut (current ++ [(q, a)]) [] _ :=
    .mk (List.rel_append hpast hlast) fun h => absurd rfl h
  simpa using hsnoc

/-- The job has not waited for a question that is on its way. -/
theorem Seen.giveUp {current : List (Q × A)} {unserved : List Q} {past : List (Q × Option A)}
    (h : Seen mayTimeOut current unserved past) (hmay : mayTimeOut) (q : Q) :
    Seen mayTimeOut current (unserved ++ [q]) (past ++ [(q, none)]) := by
  obtain ⟨hpast, -⟩ := h
  have hmore : Seen mayTimeOut current (unserved ++ [q]) _ := .mk hpast fun _ => hmay
  simpa using hmore

/-- A question is answered for which the job has not waited. -/
theorem Seen.serve {current : List (Q × A)} {unserved : List Q} {past : List (Q × Option A)}
    (h : Seen mayTimeOut current (q :: unserved) past) (a : A) :
    Seen mayTimeOut (current ++ [(q, a)]) unserved past := by
  obtain ⟨hpast, hpatience⟩ := h
  have hmay := hpatience (List.cons_ne_nil _ _)
  have hlast : List.Forall₂ (Honest mayTimeOut) [(q, none)] [(q, a)] :=
    .cons ⟨rfl, Or.inr ⟨hmay, rfl⟩⟩ .nil
  have hserved : Seen mayTimeOut (current ++ [(q, a)]) unserved _ :=
    .mk (List.rel_append hpast hlast) fun _ => hmay
  simpa using hserved

/-! ### One step -/

theorem Told.mono {plays : List (Play P mayTimeOut)} {current : List (Q × A)}
    {failures : List (J × F)} (h : Told plays current failures s) (hreports : t.reports = s.reports)
    (hserved : t.served = s.served) (hfailures : t.failures = s.failures) :
    Told plays current failures t :=
  ⟨hreports.trans h.reports, hserved.trans h.served, hfailures.trans h.failures⟩

/-- The stage of a job is that of the guest, the channels and the answers. -/
theorem Stage.mono {current : List (Q × A)} (h : Stage P mayTimeOut s job current)
    (hguest : t.guest = s.guest) (hdown : t.down = s.down) (hup : t.up = s.up)
    (hasked : t.asked = s.asked) (hserved : t.served = s.served) :
    Stage P mayTimeOut t job current := by
  obtain ⟨queue, host, guest, down, up, asked, store, served, reports, failures⟩ := t
  cases hguest
  cases hdown
  cases hup
  cases hasked
  cases hserved
  cases h with
  | given h1 h2 h3 h4 h5 => exact .given h1 h2 h3 h4 h5
  | asking h1 h2 h3 h4 h5 h6 => exact .asking h1 h2 h3 h4 h5 h6
  | answered h1 h2 h3 h4 h5 h6 h7 h8 => exact .answered h1 h2 h3 h4 h5 h6 h7 h8
  | ended h1 h2 h3 h4 h5 h6 => exact .ended h1 h2 h3 h4 h5 h6
  | stopped h1 h2 h3 h4 h5 h6 => exact .stopped h1 h2 h3 h4 h5 h6

/-- A job whose questions have all been answered is played. -/
theorem exists_exchanges {past : List (Q × Option A)} {current : List (Q × A)}
    (h : List.Forall₂ (Honest mayTimeOut) past current) :
    ∃ exchanges : List (Exchange mayTimeOut Q A),
      exchanges.map (fun e => (e.question, e.seen)) = past ∧
        exchanges.map (fun e => (e.question, e.answer)) = current := by
  induction h with
  | nil => exact ⟨[], rfl, rfl⟩
  | @cons seen given past current hhonest _ ih =>
    obtain ⟨exchanges, rfl, rfl⟩ := ih
    obtain ⟨q, a⟩ := given
    obtain ⟨q', seen⟩ := seen
    obtain ⟨rfl, hseen⟩ := hhonest
    exact ⟨⟨q', a, seen, hseen⟩ :: exchanges, rfl, rfl⟩

/-- A job in flight is under way. -/
theorem Stage.underway {current : List (Q × A)} (h : Stage P mayTimeOut s job current) :
    Underway P mayTimeOut job current := by
  have hasking : ∀ {current : List (Q × A)} {unserved : List Q} {past : List (Q × Option A)}
      {script : Script Q (Option A) (Option R)}, Seen mayTimeOut current unserved past →
      (P.script job).Leads past script → Underway P mayTimeOut job current := by
    rintro current unserved past script ⟨hpast, hpatience⟩ hleads
    obtain ⟨exchanges, rfl, rfl⟩ := exists_exchanges hpast
    exact .asking exchanges unserved script hpatience hleads
  cases h with
  | given => exact .asking [] [] _ (absurd rfl) (.nil _)
  | asking _ _ _ _ hseen hleads => exact hasking hseen hleads
  | @answered _ past q a next _ _ _ _ _ _ hseen hleads =>
    obtain ⟨hpast, -⟩ := hseen
    obtain ⟨exchanges, rfl, rfl⟩ := exists_exchanges hpast
    rw [List.map_nil, List.append_nil] at hleads
    exact .answered exchanges q a next hleads
  | ended _ _ _ _ hseen hleads => exact hasking hseen hleads
  | stopped _ _ _ _ hseen hleads => exact hasking hseen hleads

theorem inv_dispatch {jobs : List J} (h : Inv P mayTimeOut jobs s) (hstep : dispatch s = some t) :
    Inv P mayTimeOut jobs t := by
  unfold dispatch at hstep
  split at hstep
  · next job rest hhost hqueue =>
    cases hstep
    cases h with
    | free plays htold _ hjobs hguest hreplies hup hasked =>
      refine .engaged plays (htold.mono rfl rfl rfl) rfl (hqueue ▸ hjobs) ?_
      exact .given hguest rfl hreplies hup hasked
    | engaged plays _ hhost' => rw [hhost] at hhost'; cases hhost'
    | gone plays _ hhost' => rw [hhost] at hhost'; cases hhost'
  · cases hstep

/-- What the guest does with a message. -/
theorem receive_cases [DecidableEq I] (hstep : receive P s = some t) :
    ∃ m rest, s.down = m :: rest ∧
      ((∃ job, s.guest = .idle ∧ m = .job job ∧
          t = speak P { s with down := rest } job (P.script job)) ∨
        (∃ job id next a, s.guest = .waiting job id next ∧ m = .reply id a ∧
          t = speak P { s with down := rest } job (next (some a))) ∨
        (t = { s with down := rest } ∧
          ((∃ id a, s.guest = .idle ∧ m = .reply id a) ∨
            ∃ job id next, s.guest = .waiting job id next ∧ ∀ a, m ≠ .reply id a))) := by
  unfold receive at hstep
  split at hstep
  · next job rest hguest hdown =>
    cases hstep
    exact ⟨_, rest, hdown, Or.inl ⟨job, hguest, rfl, rfl⟩⟩
  · next id a rest hguest hdown =>
    cases hstep
    exact ⟨_, rest, hdown, Or.inr (Or.inr ⟨rfl, Or.inl ⟨id, a, hguest, rfl⟩⟩)⟩
  · next job id next id' a rest hguest hdown =>
    split_ifs at hstep with hid
    · cases hstep
      exact ⟨_, rest, hdown, Or.inr (Or.inl ⟨job, id, next, a, hguest, by rw [hid], rfl⟩)⟩
    · cases hstep
      refine ⟨_, rest, hdown, Or.inr (Or.inr ⟨rfl, Or.inr ⟨job, id, next, hguest, ?_⟩⟩)⟩
      intro a' heq
      cases heq
      exact hid rfl
  · next job id next job' rest hguest hdown =>
    cases hstep
    refine ⟨_, rest, hdown, Or.inr (Or.inr ⟨rfl, Or.inr ⟨job, id, next, hguest, ?_⟩⟩)⟩
    intro a heq
    cases heq
  · cases hstep

theorem receive_frame [DecidableEq I] (hstep : receive P s = some t) :
    t.served = s.served ∧ t.reports = s.reports ∧ t.failures = s.failures ∧ t.host = s.host ∧
      t.queue = s.queue := by
  obtain ⟨m, rest, -, ⟨job, -, -, rfl⟩ | ⟨job, id, next, a, -, -, rfl⟩ | ⟨rfl, -⟩⟩ :=
    receive_cases hstep
  · exact speak_frame _ _ _
  · exact speak_frame _ _ _
  · exact ⟨rfl, rfl, rfl, rfl, rfl⟩

/-- The job in flight takes its answer, and no other message. -/
theorem stage_receive [DecidableEq I] (hfresh : Function.Injective P.fresh)
    {current : List (Q × A)} (h : Stage P mayTimeOut s job current)
    (hstep : receive P s = some t) : Stage P mayTimeOut t job current := by
  obtain ⟨m, rest, hdown, hcases⟩ := receive_cases hstep
  cases h with
  | @given down hguest hdown' hreplies hup hasked =>
    rcases hcases with ⟨job', -, rfl, rfl⟩ | ⟨_, _, _, _, hguest', -⟩ | ⟨rfl, hdrop⟩
    · -- nothing else is on its way before the job
      have hnil : down = [] := by
        rcases down with - | ⟨m, down⟩
        · rfl
        · rw [hdown'] at hdown
          cases hdown
          obtain ⟨_, _, _, heq, -⟩ := hreplies _ List.mem_cons_self
          cases heq
      subst hnil
      rw [hdown'] at hdown
      cases hdown
      have hup' : s.up = requestsFrom P s.served.length [] := hup
      exact stage_speak (fun m hm => absurd hm List.not_mem_nil) hup' hasked Seen.nil (.nil _)
    · rw [hguest] at hguest'
      cases hguest'
    · rcases hdrop with ⟨id, a, -, rfl⟩ | ⟨_, _, _, hguest', -⟩
      · rcases down with - | ⟨m, down⟩
        · rw [hdown'] at hdown
          cases hdown
        · rw [hdown'] at hdown
          cases hdown
          exact .given hguest rfl hreplies.tail hup hasked
      · rw [hguest] at hguest'
        cases hguest'
  | @asking current unserved past q next hguest hreplies hup hasked hseen hleads =>
    rcases hcases with ⟨_, hguest', -⟩ | ⟨job', id, next', a, hguest', rfl, -⟩ | ⟨rfl, -⟩
    · rw [hguest] at hguest'
      cases hguest'
    · -- the question has not been answered
      rw [hguest] at hguest'
      cases hguest'
      obtain ⟨i, _, _, heq, hi⟩ := hreplies _ (hdown ▸ List.mem_cons_self)
      injection heq with hid
      have := hfresh hid
      have := (List.getElem?_eq_some_iff.1 hi).1
      omega
    · exact .asking hguest (hdown ▸ hreplies).tail hup hasked hseen hleads
  | @answered current past q a next hguest hreplies hup hasked hlast hreply hseen hleads =>
    rcases hcases with ⟨_, hguest', -⟩ | ⟨job', id, next', a', hguest', rfl, rfl⟩ | ⟨rfl, hdrop⟩
    · rw [hguest] at hguest'
      cases hguest'
    · -- the answer with this id is the last one
      rw [hguest] at hguest'
      cases hguest'
      obtain ⟨i, q', a'', heq, hi⟩ := hreplies _ (hdown ▸ List.mem_cons_self)
      injection heq with hid ha
      subst ha
      rw [← hfresh hid, ← List.getLast?_eq_getElem?, hlast] at hi
      cases hi
      have hup' : s.up = requestsFrom P s.served.length [] := hup
      exact stage_speak (hdown ▸ hreplies).tail hup' hasked (hseen.snoc (Or.inl rfl))
        (hleads.snoc _)
    · have hrest : .reply (P.fresh (s.served.length - 1)) a ∈ rest := by
        rcases hdrop with ⟨_, _, hguest', -⟩ | ⟨_, id, _, hguest', hne⟩
        · rw [hguest] at hguest'
          cases hguest'
        · rw [hguest] at hguest'
          cases hguest'
          exact (List.mem_cons.1 (hdown ▸ hreply)).resolve_left (hne a).symm
      exact .answered hguest (hdown ▸ hreplies).tail hup hasked hlast hrest hseen hleads
  | @ended current unserved past r hguest hreplies hup hasked hseen hleads =>
    rcases hcases with ⟨_, -, rfl, -⟩ | ⟨_, _, _, _, hguest', -⟩ | ⟨rfl, -⟩
    · obtain ⟨_, _, _, heq, -⟩ := hreplies _ (hdown ▸ List.mem_cons_self)
      cases heq
    · rw [hguest] at hguest'
      cases hguest'
    · exact .ended hguest (hdown ▸ hreplies).tail hup hasked hseen hleads
  | stopped hguest =>
    rcases hcases with ⟨_, hguest', -⟩ | ⟨_, _, _, _, hguest', -⟩ |
      ⟨-, ⟨_, _, hguest', -⟩ | ⟨_, _, _, hguest', -⟩⟩ <;>
    · rw [hguest] at hguest'
      cases hguest'

theorem inv_receive [DecidableEq I] (hfresh : Function.Injective P.fresh) {jobs : List J}
    (h : Inv P mayTimeOut jobs s) (hstep : receive P s = some t) : Inv P mayTimeOut jobs t := by
  obtain ⟨hserved, hreports, hfailures, hhost', hqueue⟩ := receive_frame hstep
  cases h with
  | free plays htold hhost hjobs hguest hreplies hup hasked =>
    obtain ⟨m, rest, hdown, ⟨_, -, rfl, -⟩ | ⟨_, _, _, _, hguest', -⟩ | ⟨rfl, -⟩⟩ :=
      receive_cases hstep
    · obtain ⟨_, _, _, heq, -⟩ := hreplies _ (hdown ▸ List.mem_cons_self)
      cases heq
    · rw [hguest] at hguest'
      cases hguest'
    · exact .free plays (htold.mono rfl rfl rfl) hhost hjobs hguest (hdown ▸ hreplies).tail hup
        hasked
  | engaged plays htold hhost hjobs hstage =>
    exact .engaged plays (htold.mono hreports hserved hfailures) (hhost'.trans hhost)
      (hqueue ▸ hjobs) (stage_receive hfresh hstage hstep)
  | gone plays htold hhost hgone =>
    exact .gone plays (htold.mono hreports hserved hfailures) (hhost'.trans hhost) hgone

theorem stage_timeOut {current : List (Q × A)} (h : Stage P mayTimeOut s job current)
    (hmay : mayTimeOut) (hstep : timeOut P s = some t) : Stage P mayTimeOut t job current := by
  unfold timeOut at hstep
  split at hstep
  · next job' id next' hguest' =>
    cases hstep
    cases h with
    | given hguest => rw [hguest] at hguest'; cases hguest'
    | @asking current unserved past q next hguest hreplies hup hasked hseen hleads =>
      rw [hguest] at hguest'
      cases hguest'
      refine stage_speak hreplies hup ?_ (hseen.giveUp hmay q) (hleads.snoc none)
      rw [hasked, List.length_append, List.length_singleton]
      omega
    | @answered current past q a next hguest hreplies hup hasked _ _ hseen hleads =>
      rw [hguest] at hguest'
      cases hguest'
      have hup' : s.up = requestsFrom P s.served.length [] := hup
      exact stage_speak hreplies hup' hasked (hseen.snoc (Or.inr ⟨hmay, rfl⟩)) (hleads.snoc none)
    | ended hguest => rw [hguest] at hguest'; cases hguest'
    | stopped hguest => rw [hguest] at hguest'; cases hguest'
  · cases hstep

theorem inv_timeOut {jobs : List J} (h : Inv P mayTimeOut jobs s) (hmay : mayTimeOut)
    (hstep : timeOut P s = some t) : Inv P mayTimeOut jobs t := by
  have hframe : t.served = s.served ∧ t.reports = s.reports ∧ t.failures = s.failures ∧
      t.host = s.host ∧ t.queue = s.queue := by
    unfold timeOut at hstep
    split at hstep
    · cases hstep
      exact speak_frame _ _ _
    · cases hstep
  obtain ⟨hserved, hreports, hfailures, hhost', hqueue⟩ := hframe
  cases h with
  | free plays htold hhost hjobs hguest =>
    simp [timeOut, hguest] at hstep
  | engaged plays htold hhost hjobs hstage =>
    exact .engaged plays (htold.mono hreports hserved hfailures) (hhost'.trans hhost)
      (hqueue ▸ hjobs) (stage_timeOut hstage hmay hstep)
  | gone plays htold hhost hgone =>
    exact .gone plays (htold.mono hreports hserved hfailures) (hhost'.trans hhost) hgone

/-- What the host does with a message. -/
theorem serve_cases (hstep : serve P s = some t) :
    ∃ job rest, s.host = .engaged job ∧
      ((∃ id q, s.up = .request id q :: rest ∧ P.answer s.store q = none ∧
          t = { s with host := .gone, up := rest }) ∨
        (∃ id q store a, s.up = .request id q :: rest ∧ P.answer s.store q = some (store, a) ∧
          t = { s with
            store := store
            up := rest
            down := s.down ++ [.reply id a]
            served := s.served ++ [(q, a)] }) ∨
        ∃ job' r, s.up = .result job' r :: rest ∧
          t = { s with host := .free, up := rest, reports := s.reports ++ [(job, r)] }) := by
  unfold serve at hstep
  split at hstep
  · next job id q rest hhost hup =>
    refine ⟨job, rest, hhost, ?_⟩
    split at hstep
    · next hanswer =>
      cases hstep
      exact Or.inl ⟨id, q, hup, hanswer, rfl⟩
    · next store a hanswer =>
      cases hstep
      exact Or.inr (Or.inl ⟨id, q, store, a, hup, hanswer, rfl⟩)
  · next job job' r rest hhost hup =>
    cases hstep
    exact ⟨job, rest, hhost, Or.inr (Or.inr ⟨job', r, hup, rfl⟩)⟩
  · cases hstep

/-- The first request on its way is the one that is answered next. -/
theorem requestsFrom_eq_cons {n : ℕ} {qs : List Q} {id : I} {rest more : List (Up J I Q R)}
    (hmore : ∀ m ∈ more.head?, ∃ job r, m = .result job r)
    (h : requestsFrom P n qs ++ more = .request id q :: rest) :
    ∃ qs', qs = q :: qs' ∧ id = P.fresh n ∧ rest = requestsFrom P (n + 1) qs' ++ more := by
  rcases qs with - | ⟨q', qs'⟩
  · rw [requestsFrom, List.nil_append] at h
    obtain ⟨_, _, heq⟩ := hmore _ (by rw [h]; rfl)
    cases heq
  · rw [requestsFrom, List.cons_append] at h
    cases h
    exact ⟨qs', rfl, rfl, rfl⟩

/-- A question is answered. -/
theorem stage_serve {current : List (Q × A)} {id : I} {rest : List (Up J I Q R)} {store : S}
    (h : Stage P mayTimeOut s job current) (hup : s.up = .request id q :: rest) :
    Stage P mayTimeOut
      { s with
        store := store
        up := rest
        down := s.down ++ [.reply id a]
        served := s.served ++ [(q, a)] } job (current ++ [(q, a)]) := by
  have hlength : (s.served ++ [(q, a)]).length = s.served.length + 1 := by simp
  cases h with
  | given _ _ _ hup' =>
    rw [hup'] at hup
    cases hup
  | @asking current unserved past q' next hguest hreplies hup' hasked hseen hleads =>
    have hreq : requestsFrom P s.served.length (unserved ++ [q']) ++ [] =
        .request id q :: rest := by
      rw [List.append_nil, ← hup', hup]
    obtain ⟨qs', hqs, rfl, hrest⟩ := requestsFrom_eq_cons (fun m hm => by cases hm) hreq
    rw [List.append_nil] at hrest
    rcases unserved with - | ⟨q'', unserved⟩
    · -- the question that the job waits for
      cases hqs
      refine .answered ?_ (hreplies.serve q a) hrest ?_ List.getLast?_concat ?_ hseen hleads
      · simpa using hguest
      · rw [hlength, hasked]
        rfl
      · show _ ∈ s.down ++ [_]
        rw [hlength, Nat.add_sub_cancel]
        exact List.mem_append_right _ List.mem_cons_self
    · -- an earlier one
      rw [List.cons_append] at hqs
      injection hqs with hq htail
      subst hq
      subst htail
      refine .asking ?_ (hreplies.serve q'' a) (hlength ▸ hrest) ?_ (hseen.serve a) hleads
      · rw [hlength, hguest, List.length_cons, Nat.add_right_comm, Nat.add_assoc]
      · rw [hlength, hasked, List.length_cons]
        omega
  | answered _ _ hup' =>
    rw [hup'] at hup
    cases hup
  | @ended current unserved past r hguest hreplies hup' hasked hseen hleads =>
    have hreq : requestsFrom P s.served.length unserved ++ [.result job r] =
        .request id q :: rest := by
      rw [← hup', hup]
    obtain ⟨qs', rfl, rfl, hrest⟩ :=
      requestsFrom_eq_cons (fun m hm => by cases hm; exact ⟨job, r, rfl⟩) hreq
    refine .ended hguest (hreplies.serve q a) (hlength ▸ hrest) ?_ (hseen.serve a) hleads
    rw [hlength, hasked, List.length_cons]
    omega
  | @stopped current unserved past hguest hreplies hup' hasked hseen hleads =>
    have hreq : requestsFrom P s.served.length unserved ++ [] = .request id q :: rest := by
      rw [List.append_nil, ← hup', hup]
    obtain ⟨qs', rfl, rfl, hrest⟩ := requestsFrom_eq_cons (fun m hm => by cases hm) hreq
    rw [List.append_nil] at hrest
    refine .stopped hguest (hreplies.serve q a) (hlength ▸ hrest) ?_ (hseen.serve a) hleads
    rw [hlength, hasked, List.length_cons]
    omega

/-- The result that the host takes is that of the job in flight, which has been answered all its
questions. -/
theorem stage_result {current : List (Q × A)} {job' : J} {r : R} {rest : List (Up J I Q R)}
    (h : Stage P mayTimeOut s job current) (hup : s.up = .result job' r :: rest) :
    job' = job ∧ rest = [] ∧ s.guest = .idle ∧ Replies P s.served s.down ∧
      s.asked = s.served.length ∧
      ∃ p : Play P mayTimeOut, p.job = job ∧ p.result = r ∧ p.answers = current := by
  cases h with
  | given _ _ _ hup' =>
    rw [hup'] at hup
    cases hup
  | @asking _ unserved _ q _ _ _ hup' =>
    rw [hup'] at hup
    rcases unserved with - | ⟨q', unserved⟩ <;> cases hup
  | answered _ _ hup' =>
    rw [hup'] at hup
    cases hup
  | @ended current unserved past r' hguest hreplies hup' hasked hseen hleads =>
    rw [hup'] at hup
    rcases unserved with - | ⟨q', unserved⟩
    · cases hup
      obtain ⟨hpast, -⟩ := hseen
      rw [List.map_nil, List.append_nil] at hleads
      obtain ⟨exchanges, hseen, hgiven⟩ := exists_exchanges hpast
      exact ⟨rfl, rfl, hguest, hreplies, hasked, ⟨job, exchanges, r, hseen ▸ hleads⟩, rfl, rfl,
        hgiven⟩
    · cases hup
  | @stopped _ unserved _ _ _ hup' =>
    rw [hup'] at hup
    rcases unserved with - | ⟨q', unserved⟩ <;> cases hup

theorem inv_serve {jobs : List J} (h : Inv P mayTimeOut jobs s) (hstep : serve P s = some t) :
    Inv P mayTimeOut jobs t := by
  obtain ⟨job, rest, hhost', hcases⟩ := serve_cases hstep
  cases h with
  | free _ _ hhost =>
    rw [hhost] at hhost'
    cases hhost'
  | @engaged plays current job' htold hhost hjobs hstage =>
    rw [hhost] at hhost'
    cases hhost'
    rcases hcases with ⟨id, q, hup, -, rfl⟩ | ⟨id, q, store, a, hup, -, rfl⟩ | ⟨job', r, hup, rfl⟩
    · exact .gone plays (htold.mono rfl rfl rfl) rfl (.silent (L := L) hjobs.symm hstage.underway)
    · refine .engaged plays ⟨htold.reports, ?_, htold.failures⟩ hhost hjobs (stage_serve hstage hup)
      show s.served ++ [(q, a)] = _
      rw [htold.served, List.append_assoc]
    · obtain ⟨rfl, rfl, hguest, hreplies, hasked, p, rfl, rfl, rfl⟩ := stage_result hstage hup
      refine .free (plays ++ [p]) ⟨?_, ?_, htold.failures⟩ rfl ?_ hguest hreplies rfl hasked
      · show s.reports ++ [(p.job, p.result)] = _
        rw [htold.reports, List.map_append]
        rfl
      · show s.served = _
        rw [htold.served, List.flatMap_append]
        simp
      · rw [hjobs, List.map_append, List.append_assoc]
        rfl
  | gone _ _ hhost =>
    rw [hhost] at hhost'
    cases hhost'

/-- The host gives up the job in its hands, or the next one, with those behind it. -/
theorem giveUp_cases {loss : L} (hstep : giveUp P s loss = some t) :
    ∃ job rest, (s.host = .engaged job ∧ s.queue = rest ∨ s.host = .free ∧ s.queue = job :: rest) ∧
      t = { s with
        host := .gone
        queue := []
        failures := s.failures ++ givenUp P loss job rest } := by
  unfold giveUp at hstep
  split at hstep
  · next job hhost =>
    cases hstep
    exact ⟨job, _, Or.inl ⟨hhost, rfl⟩, rfl⟩
  · next job rest hhost hqueue =>
    cases hstep
    exact ⟨job, rest, Or.inr ⟨hhost, hqueue⟩, rfl⟩
  · cases hstep

theorem inv_giveUp {jobs : List J} {loss : L} (h : Inv P mayTimeOut jobs s)
    (hstep : giveUp P s loss = some t) : Inv P mayTimeOut jobs t := by
  obtain ⟨job, rest, hcases, rfl⟩ := giveUp_cases hstep
  cases h with
  | free plays htold hhost hjobs =>
    rcases hcases with ⟨hhost', -⟩ | ⟨-, hqueue⟩
    · rw [hhost] at hhost'
      cases hhost'
    · refine .gone plays ⟨htold.reports, htold.served, ?_⟩ rfl
        (.givenUp loss (hqueue ▸ hjobs.symm) (.asking [] [] _ (absurd rfl) (.nil _)))
      show s.failures ++ _ = _
      rw [htold.failures, List.nil_append]
  | engaged plays htold hhost hjobs hstage =>
    rcases hcases with ⟨hhost', rfl⟩ | ⟨hhost', -⟩
    · rw [hhost] at hhost'
      cases hhost'
      refine .gone plays ⟨htold.reports, htold.served, ?_⟩ rfl
        (.givenUp loss hjobs.symm hstage.underway)
      show s.failures ++ _ = _
      rw [htold.failures, List.nil_append]
    · rw [hhost] at hhost'
      cases hhost'
  | gone _ _ hhost =>
    rcases hcases with ⟨hhost', -⟩ | ⟨hhost', -⟩ <;>
    · rw [hhost] at hhost'
      cases hhost'

theorem inv_step [DecidableEq I] (hfresh : Function.Injective P.fresh) {rely : S → S → Prop}
    {jobs : List J} {act : Act S L} (h : Inv P mayTimeOut jobs s)
    (hallowed : Allowed mayTimeOut rely s act) (hstep : step P s act = some t) :
    Inv P mayTimeOut jobs t := by
  cases act with
  | dispatch => exact inv_dispatch h hstep
  | receive => exact inv_receive hfresh h hstep
  | timeOut => exact inv_timeOut h hallowed hstep
  | serve => exact inv_serve h hstep
  | leave =>
    cases hstep
    cases h with
    | free plays htold _ hjobs =>
      exact .gone plays (htold.mono rfl rfl rfl) rfl (.between ⟨_, hjobs.symm⟩)
    | engaged plays htold _ hjobs hstage =>
      exact .gone plays (htold.mono rfl rfl rfl) rfl (.silent hjobs.symm hstage.underway)
    | gone plays htold _ hgone => exact .gone plays (htold.mono rfl rfl rfl) rfl hgone
  | giveUp loss => exact inv_giveUp h hstep
  | others store =>
    cases hstep
    cases h with
    | free plays htold hhost hjobs hguest hreplies hup hasked =>
      exact .free plays (htold.mono rfl rfl rfl) hhost hjobs hguest hreplies hup hasked
    | engaged plays htold hhost hjobs hstage =>
      exact .engaged plays (htold.mono rfl rfl rfl) hhost hjobs (hstage.mono rfl rfl rfl rfl rfl)
    | gone plays htold hhost hgone => exact .gone plays (htold.mono rfl rfl rfl) hhost hgone

/-! ### Whole sessions -/

/-- The store is what the answers and the others have made of it. -/
theorem serves_step [DecidableEq I] {rely : S → S → Prop} {s₀ : S} {act : Act S L}
    (h : Serves P.answer rely s₀ s.served s.store) (hallowed : Allowed mayTimeOut rely s act)
    (hstep : step P s act = some t) : Serves P.answer rely s₀ t.served t.store := by
  have hspeak : ∀ (u : Session J I Q A R S F) (job : J) (script : Script Q (Option A) (Option R)),
      (speak P u job script).served = u.served ∧ (speak P u job script).store = u.store := by
    intro u job script
    match script with
    | .done none => exact ⟨rfl, rfl⟩
    | .done (some r) => exact ⟨rfl, rfl⟩
    | .ask q next => exact ⟨rfl, rfl⟩
  cases act with
  | dispatch =>
    simp only [step, dispatch] at hstep
    split at hstep
    · cases hstep
      exact h
    · cases hstep
  | receive =>
    obtain ⟨m, rest, -, ⟨job, -, -, rfl⟩ | ⟨job, id, next, a, -, -, rfl⟩ | ⟨rfl, -⟩⟩ :=
      receive_cases hstep
    · rw [(hspeak _ _ _).1, (hspeak _ _ _).2]
      exact h
    · rw [(hspeak _ _ _).1, (hspeak _ _ _).2]
      exact h
    · exact h
  | timeOut =>
    simp only [step, timeOut] at hstep
    split at hstep
    · cases hstep
      rw [(hspeak _ _ _).1, (hspeak _ _ _).2]
      exact h
    · cases hstep
  | serve =>
    obtain ⟨job, rest, -, ⟨id, q, -, -, rfl⟩ | ⟨id, q, store, a, -, hanswer, rfl⟩ |
      ⟨job', r, -, rfl⟩⟩ := serve_cases hstep
    · exact h
    · exact h.serve hanswer
    · exact h
  | leave =>
    cases hstep
    exact h
  | giveUp loss =>
    obtain ⟨_, _, -, rfl⟩ := giveUp_cases hstep
    exact h
  | others store =>
    cases hstep
    exact h.others hallowed

theorem inv_of_reach [DecidableEq I] (hfresh : Function.Injective P.fresh)
    {rely : S → S → Prop} {jobs : List J} {store : S}
    (h : Reach (step P) (Allowed mayTimeOut rely) (start jobs store) s) :
    Inv P mayTimeOut jobs s :=
  h.invariant (inv_start jobs store) fun _ _ _ hs hallowed hstep =>
    inv_step hfresh hs hallowed hstep

/-- A session consists of plays, one for each report, in the order of the jobs, and of what has been
answered to the job in flight, or to the one in the hands of a host that is gone. -/
theorem exists_plays_of_reach [DecidableEq I] (hfresh : Function.Injective P.fresh)
    {rely : S → S → Prop} {jobs : List J} {store : S}
    (h : Reach (step P) (Allowed mayTimeOut rely) (start jobs store) s) :
    ∃ (plays : List (Play P mayTimeOut)) (current : List (Q × A)) (failures : List (J × F)),
      Told plays current failures s ∧ Serves P.answer rely store s.served s.store ∧
        match s.host with
        | .free => current = [] ∧ failures = [] ∧ plays.map Play.job ++ s.queue = jobs
        | .engaged job => Underway P mayTimeOut job current ∧ failures = [] ∧
          plays.map Play.job ++ job :: s.queue = jobs
        | .gone => Gone jobs plays current failures := by
  have hserves : Serves P.answer rely store s.served s.store :=
    h.invariant (I := fun s => Serves P.answer rely store s.served s.store) .start
      fun _ _ _ hs hallowed hstep => serves_step hs hallowed hstep
  cases inv_of_reach hfresh h with
  | free plays htold hhost hjobs =>
    refine ⟨plays, [], [], htold, hserves, ?_⟩
    rw [hhost]
    exact ⟨rfl, rfl, hjobs.symm⟩
  | engaged plays htold hhost hjobs hstage =>
    refine ⟨plays, _, [], htold, hserves, ?_⟩
    rw [hhost]
    exact ⟨hstage.underway, rfl, hjobs.symm⟩
  | gone plays htold hhost hgone =>
    refine ⟨plays, _, _, htold, hserves, ?_⟩
    rw [hhost]
    exact hgone

/-- Neither side waits for ever: while the host is there and the guest has not stopped, one of them
goes on without giving up, unless all the jobs are reported. -/
theorem exists_step_of_inv [DecidableEq I] {jobs : List J} (h : Inv P mayTimeOut jobs s)
    (hhost : s.host ≠ .gone) (hguest : s.guest ≠ .stopped) :
    s.reports.map Prod.fst = jobs ∨
      ∃ act ∈ [Act.dispatch, .receive, .serve], ∃ t, step P s act = some t := by
  cases h with
  | free plays htold hfree hjobs =>
    rcases hqueue : s.queue with - | ⟨job, rest⟩
    · left
      rw [htold.reports, hjobs, hqueue, List.map_map, List.append_nil]
      rfl
    · right
      refine ⟨.dispatch, by simp, ?_⟩
      simp [step, dispatch, hfree, hqueue]
  | @engaged plays current job htold hengaged hjobs hstage =>
    right
    have hreceive : ∀ m rest, s.down = m :: rest → ∃ t, step P s .receive = some t := by
      intro m rest hdown
      show ∃ t, receive P s = some t
      unfold receive
      rw [hdown]
      rcases hg : s.guest with - | ⟨job', id, next⟩ | - <;> rcases m with job'' | ⟨id', a⟩
      · exact ⟨_, rfl⟩
      · exact ⟨_, rfl⟩
      · exact ⟨_, rfl⟩
      · dsimp only
        split_ifs <;> exact ⟨_, rfl⟩
      · exact absurd hg hguest
      · exact absurd hg hguest
    have hserve : ∀ m rest, s.up = m :: rest → ∃ t, step P s .serve = some t := by
      intro m rest hup
      show ∃ t, serve P s = some t
      unfold serve
      rw [hengaged, hup]
      rcases m with ⟨id, q⟩ | ⟨job', r⟩
      · rcases hq : P.answer s.store q with - | ⟨store, a⟩ <;> simp only [hq] <;> exact ⟨_, rfl⟩
      · exact ⟨_, rfl⟩
    cases hstage with
    | @given down _ hdown =>
      rcases down with - | ⟨m, down⟩
      · exact ⟨.receive, by simp, hreceive _ _ hdown⟩
      · exact ⟨.receive, by simp, hreceive _ _ hdown⟩
    | @asking _ unserved _ q _ _ _ hup =>
      rcases unserved with - | ⟨q', unserved⟩
      · exact ⟨.serve, by simp, hserve _ _ hup⟩
      · exact ⟨.serve, by simp, hserve _ _ hup⟩
    | answered _ _ _ _ _ hreply =>
      rcases hdown : s.down with - | ⟨m, rest⟩
      · rw [hdown] at hreply
        cases hreply
      · exact ⟨.receive, by simp, hreceive _ _ hdown⟩
    | @ended _ unserved _ r _ _ hup =>
      rcases unserved with - | ⟨q', unserved⟩
      · exact ⟨.serve, by simp, hserve _ _ hup⟩
      · exact ⟨.serve, by simp, hserve _ _ hup⟩
    | stopped hstopped => exact absurd hstopped hguest
  | gone _ _ hgone => exact absurd hgone hhost

/-- A guest that has stopped is engaged with a job that has ended without a result. -/
theorem exists_leads_of_stopped {jobs : List J} (h : Inv P mayTimeOut jobs s)
    (hhost : s.host ≠ .gone) (hguest : s.guest = .stopped) :
    ∃ job past, s.host = .engaged job ∧ (P.script job).Leads past (.done none) := by
  cases h with
  | free _ _ _ _ hidle =>
    rw [hguest] at hidle
    cases hidle
  | @engaged plays current job htold hengaged hjobs hstage =>
    refine ⟨job, ?_⟩
    cases hstage with
    | given hidle => rw [hguest] at hidle; cases hidle
    | asking hwaiting => rw [hguest] at hwaiting; cases hwaiting
    | answered hwaiting => rw [hguest] at hwaiting; cases hwaiting
    | ended hidle => rw [hguest] at hidle; cases hidle
    | stopped _ _ _ _ _ hleads => exact ⟨_, hengaged, hleads⟩
  | gone _ _ hgone => exact absurd hgone hhost

/-- What may come after the guest has stopped: that the host gives up. -/
def GivesUp (P : Protocol J I Q A R S F L) (job : J) (rest : List J)
    (s : Session J I Q A R S F) : Prop :=
  s.failures = [] ∧ (s.host = .engaged job ∧ s.queue = rest ∨ s.host = .gone) ∨
    s.host = .gone ∧ ∃ loss, s.failures = givenUp P loss job rest

/-- After the guest has stopped, no result is reported any more. -/
theorem reports_step_of_stopped [DecidableEq I] {jobs rest : List J} {act : Act S L}
    (h : Inv P mayTimeOut jobs s) (hguest : s.guest = .stopped) (hgives : GivesUp P job rest s)
    (hstep : step P s act = some t) :
    t.guest = .stopped ∧ t.reports = s.reports ∧ GivesUp P job rest t := by
  cases act with
  | dispatch =>
    simp only [step, dispatch] at hstep
    split at hstep
    · next job' rest' hhost hqueue =>
      rcases hgives with ⟨-, ⟨hhost', -⟩ | hhost'⟩ | ⟨hhost', -⟩ <;>
      · rw [hhost] at hhost'
        cases hhost'
    · cases hstep
  | receive =>
    simp only [step, receive, hguest] at hstep
    cases hstep
  | timeOut =>
    simp only [step, timeOut, hguest] at hstep
    cases hstep
  | serve =>
    obtain ⟨job', rest', hhost, ⟨id, q, -, -, rfl⟩ | ⟨id, q, store, a, -, -, rfl⟩ |
      ⟨job'', r, hup, rfl⟩⟩ := serve_cases hstep
    · rcases hgives with ⟨hnone, -⟩ | ⟨hhost', -⟩
      · exact ⟨hguest, rfl, .inl ⟨hnone, .inr rfl⟩⟩
      · rw [hhost] at hhost'
        cases hhost'
    · exact ⟨hguest, rfl, hgives⟩
    · -- a result on its way is that of a guest that is idle
      cases h with
      | free _ _ hfree => rw [hhost] at hfree; cases hfree
      | engaged _ _ _ _ hstage =>
        obtain ⟨-, -, hidle, -⟩ := stage_result hstage hup
        rw [hguest] at hidle
        cases hidle
      | gone _ _ hgone => rw [hhost] at hgone; cases hgone
  | leave =>
    cases hstep
    refine ⟨hguest, rfl, ?_⟩
    rcases hgives with ⟨hnone, -⟩ | ⟨-, hfailures⟩
    · exact .inl ⟨hnone, .inr rfl⟩
    · exact .inr ⟨rfl, hfailures⟩
  | giveUp loss =>
    obtain ⟨job', rest', hcases, rfl⟩ := giveUp_cases hstep
    refine ⟨hguest, rfl, .inr ⟨rfl, loss, ?_⟩⟩
    show s.failures ++ _ = _
    rcases hgives with ⟨hnone, ⟨hhost, hqueue⟩ | hhost⟩ | ⟨hhost, -⟩ <;>
      rcases hcases with ⟨hhost', hqueue'⟩ | ⟨hhost', -⟩ <;> rw [hhost] at hhost' <;> cases hhost'
    rw [hnone, ← hqueue, ← hqueue', List.nil_append]
  | others store =>
    cases hstep
    exact ⟨hguest, rfl, hgives⟩

theorem reports_of_stopped [DecidableEq I] (hfresh : Function.Injective P.fresh)
    {rely : S → S → Prop} {jobs : List J} (h : Inv P mayTimeOut jobs s) (hguest : s.guest = .stopped)
    (hhost : s.host = .engaged job)
    (hreach : Reach (step P) (Allowed mayTimeOut rely) s t) :
    t.reports = s.reports ∧ GivesUp P job s.queue t := by
  have hnone : s.failures = [] := by
    cases h with
    | free _ _ hfree => rw [hhost] at hfree; cases hfree
    | engaged _ htold => exact htold.failures
    | gone _ _ hgone => rw [hhost] at hgone; cases hgone
  exact (hreach.invariant
    (I := fun t => Inv P mayTimeOut jobs t ∧ t.guest = .stopped ∧ t.reports = s.reports ∧
      GivesUp P job s.queue t)
    ⟨h, hguest, rfl, .inl ⟨hnone, .inl ⟨hhost, rfl⟩⟩⟩ fun u act v hu hallowed hstep => by
      obtain ⟨hstopped, hreports, hgives⟩ := reports_step_of_stopped hu.1 hu.2.1 hu.2.2.2 hstep
      exact ⟨inv_step hfresh hu.1 hallowed hstep, hstopped, hreports.trans hu.2.2.1, hgives⟩).2.2

end Invariant

end Interaction
