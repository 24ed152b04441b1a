import Mathlib.Data.List.Basic
import Mathlib.Logic.Function.Basic
import Mathlib.Tactic

/-!
# Owned records behind a log

Records that belong to users, in a store that follows a log.  A request reads the store and is granted
or not; what is granted is done later, and by then the store may have gone on.  What the store has
taken over from the log may come to it again.

* `Owned` is what there is to know of a record, `Change.apply` what a change from the log makes of it:
  an update carries no owner, so it keeps the one that it finds;
* `Shared` is the store with the log and what is granted, `step` one step of anybody;
* `Sound.creator_of_ask`: only who has created a record is granted anything about it;
* `intact_iff_of_step`: a step leaves the records with their owners exactly when it is no update that
  comes to a record that is deleted or gone;
* `Lost.step`: an owner that is lost is lost as long as the creation does not come again.
-/

namespace Ownership

/-- A record. -/
structure Owned (U : Type*) where
  owner : Option U
  deleted : Bool

/-- What the log says of a record. -/
inductive Change (U : Type*)
  | create (owner : U)
  | update
  | delete

/-- What is asked for. -/
inductive Deed (U : Type*)
  | change (change : Change U)
  /-- a record that is deleted is removed -/
  | purge

variable {I U : Type*}

/-- The record, unless it is deleted. -/
def visible (record : Option (Owned U)) : Option (Owned U) := record.filter fun r => !r.deleted

/-- What a change makes of a record. -/
def Change.apply (record : Option (Owned U)) : Change U → Option (Owned U)
  | .create owner => some ⟨some owner, record.any Owned.deleted⟩
  | .update => some ⟨(visible record).bind Owned.owner, record.any Owned.deleted⟩
  | .delete => record.map fun r => { r with deleted := true }

/-- What a user may ask for: changes of a record that is there, the removal of a deleted one. -/
def Deed.Allowed (record : Option (Owned U)) (user : U) : Deed U → Prop
  | .change (.create _) => False
  | .change _ => ∃ r, visible record = some r ∧ r.owner = some user
  | .purge => ∃ r, record = some r ∧ r.deleted = true ∧ r.owner = some user

/-- The store, what is granted but not done, what is in the log but not in the store, what the store
has taken over, and who has created what. -/
structure Shared (I U : Type*) where
  records : I → Option (Owned U)
  granted : List (I × Deed U)
  log : List (I × Change U)
  taken : List (I × Change U)
  creator : I → Option U

/-- What happens. -/
inductive Act (I U : Type*)
  | create (id : I) (user : U)
  | ask (id : I) (user : U) (deed : Deed U)
  | perform
  | take
  /-- what was taken over comes again -/
  | retake (id : I) (change : Change U)

/-- The creation of the record does not come again. -/
def Act.NotRecreated (id : I) : Act I U → Prop
  | .retake j (.create _) => j ≠ id
  | _ => True

namespace Shared

/-- Nothing is there. -/
def init : Shared I U where
  records := fun _ => none
  granted := []
  log := []
  taken := []
  creator := fun _ => none

variable [DecidableEq I]

/-- What is granted is done. -/
def perform (s : Shared I U) (rest : List (I × Deed U)) (id : I) : Deed U → Shared I U
  | .change change => { s with granted := rest, log := s.log ++ [(id, change)] }
  | .purge => { s with granted := rest, records := Function.update s.records id none }

/-- The steps. -/
inductive Step (s : Shared I U) : Act I U → Shared I U → Prop
  /-- the id is new -/
  | create {id : I} {user : U} (hnew : s.creator id = none) :
      Step s (.create id user)
        { s with
          log := s.log ++ [(id, .create user)]
          creator := Function.update s.creator id (some user) }
  | ask {id : I} {user : U} {deed : Deed U} (hallowed : deed.Allowed (s.records id) user) :
      Step s (.ask id user deed) { s with granted := s.granted ++ [(id, deed)] }
  | perform {id : I} {deed : Deed U} {before after : List (I × Deed U)}
      (hgranted : s.granted = before ++ (id, deed) :: after) :
      Step s .perform (s.perform (before ++ after) id deed)
  | take {id : I} {change : Change U} {log : List (I × Change U)}
      (hlog : s.log = (id, change) :: log) :
      Step s .take
        { s with
          records := Function.update s.records id (change.apply (s.records id))
          log := log
          taken := s.taken ++ [(id, change)] }
  | retake {id : I} {change : Change U} (htaken : (id, change) ∈ s.taken) :
      Step s (.retake id change)
        { s with records := Function.update s.records id (change.apply (s.records id)) }

variable {s t : Shared I U} {act : Act I U} {id : I} {user : U} {deed : Deed U}

/-! ### What always holds -/

/-- What the log says of a record. -/
def about (s : Shared I U) (id : I) : List (I × Change U) := s.log.filter fun e => e.1 = id

/-- Owners are creators, and what creates a record is all that the log says of it for the time. -/
structure Sound (s : Shared I U) : Prop where
  owner : ∀ id r, s.records id = some r → r.owner = none ∨ r.owner = s.creator id
  record : ∀ id, s.records id ≠ none → s.creator id ≠ none
  granted : ∀ id deed, (id, deed) ∈ s.granted → s.creator id ≠ none
  notCreate : ∀ id user, (id, Deed.change (.create user)) ∉ s.granted
  log : ∀ id change, (id, change) ∈ s.log → s.creator id ≠ none
  created : ∀ id user, (id, Change.create user) ∈ s.log → s.creator id = some user ∧
    s.records id = none ∧ (∀ deed, (id, deed) ∉ s.granted) ∧ s.about id = [(id, .create user)]
  notTaken : ∀ id user, (id, Change.create user) ∈ s.log → ∀ change, (id, change) ∉ s.taken
  taken : ∀ id change, (id, change) ∈ s.taken → s.creator id ≠ none
  takenCreate : ∀ id user, (id, Change.create user) ∈ s.taken → s.creator id = some user

/-- A user who is allowed something owns the record. -/
theorem owner_of_allowed {record : Option (Owned U)} (h : deed.Allowed record user) :
    ∃ r, record = some r ∧ r.owner = some user := by
  unfold Deed.Allowed at h
  split at h
  · exact h.elim
  · obtain ⟨r, hvisible, howner⟩ := h
    exact ⟨r, (Option.filter_eq_some_iff.1 hvisible).1, howner⟩
  · obtain ⟨r, hrecord, -, howner⟩ := h
    exact ⟨r, hrecord, howner⟩

theorem sound_init : (init : Shared I U).Sound where
  owner id r h := by cases h
  record id h := absurd rfl h
  granted id deed h := absurd h List.not_mem_nil
  notCreate id user := List.not_mem_nil
  log id change h := absurd h List.not_mem_nil
  created id user h := absurd h List.not_mem_nil
  notTaken id user h := absurd h List.not_mem_nil
  taken id change h := absurd h List.not_mem_nil
  takenCreate id user h := absurd h List.not_mem_nil

/-- The owner that a change leaves is an old one or a creator. -/
theorem owner_apply {record : Option (Owned U)} {change : Change U} {r : Owned U}
    (h : change.apply record = some r) :
    r.owner = none ∨ (∃ user, change = .create user ∧ r.owner = some user) ∨
      ∃ old, record = some old ∧ r.owner = old.owner := by
  cases change with
  | create user =>
    cases h
    exact .inr (.inl ⟨user, rfl, rfl⟩)
  | update =>
    cases h
    cases hvisible : visible record with
    | none => exact .inl rfl
    | some old => exact .inr (.inr ⟨old, (Option.filter_eq_some_iff.1 hvisible).1, rfl⟩)
  | delete =>
    obtain ⟨old, hold, rfl⟩ := Option.map_eq_some_iff.1 h
    exact .inr (.inr ⟨old, hold, rfl⟩)

theorem Sound.create (h : s.Sound) (hnew : s.creator id = none) :
    Sound
      { s with
        log := s.log ++ [(id, .create user)]
        creator := Function.update s.creator id (some user) } := by
  have hkept : ∀ j, s.creator j ≠ none → j ≠ id := fun j hj heq => hj (heq ▸ hnew)
  have hcreator : ∀ j, s.creator j ≠ none →
      Function.update s.creator id (some user) j = s.creator j :=
    fun j hj => Function.update_of_ne (hkept j hj) ..
  have hlog : ∀ j change, (j, change) ∈ s.log ++ [(id, Change.create user)] →
      (j, change) ∈ s.log ∨ (j = id ∧ change = .create user) := by
    intro j change hmem
    rcases List.mem_append.1 hmem with hold | hlast
    · exact .inl hold
    · exact .inr (Prod.mk.inj (List.mem_singleton.1 hlast))
  refine ⟨fun j r hr => ?_, fun j hj => ?_, fun j deed hmem => ?_, h.notCreate,
    fun j change hmem => ?_, fun j user' hmem => ?_, fun j user' hmem change htaken => ?_,
    fun j change hmem => ?_, fun j user' hmem => ?_⟩
  · rcases h.owner j r hr with hnone | howner
    · exact .inl hnone
    · refine .inr (howner.trans (hcreator j (h.record j ?_)).symm)
      rw [hr]
      exact Option.some_ne_none r
  · show Function.update s.creator id (some user) j ≠ none
    rw [hcreator j (h.record j hj)]
    exact h.record j hj
  · show Function.update s.creator id (some user) j ≠ none
    rw [hcreator j (h.granted j deed hmem)]
    exact h.granted j deed hmem
  · show Function.update s.creator id (some user) j ≠ none
    rcases hlog j change hmem with hold | ⟨rfl, rfl⟩
    · rw [hcreator j (h.log j change hold)]
      exact h.log j change hold
    · rw [Function.update_self]
      exact Option.some_ne_none user
  · rcases hlog j _ hmem with hold | ⟨rfl, heq⟩
    · obtain ⟨huser, hrecord, hgranted, habout⟩ := h.created j user' hold
      have hj := h.log j _ hold
      refine ⟨(hcreator j hj).trans huser, hrecord, hgranted, ?_⟩
      unfold about at habout ⊢
      rw [List.filter_append, habout, List.filter_singleton, decide_eq_false (hkept j hj).symm]
      rfl
    · cases heq
      refine ⟨Function.update_self .., ?_, fun deed hdeed => h.granted j deed hdeed hnew, ?_⟩
      · by_contra hrecord
        exact h.record j hrecord hnew
      · unfold about
        rw [List.filter_append, List.filter_singleton, decide_eq_true rfl]
        have hnothing : s.log.filter (fun e => decide (e.1 = j)) = [] :=
          List.filter_eq_nil_iff.2 fun e he heq => h.log e.1 e.2 he (of_decide_eq_true heq ▸ hnew)
        rw [hnothing]
        rfl
  · rcases hlog j _ hmem with hold | ⟨rfl, -⟩
    · exact h.notTaken j user' hold change htaken
    · exact h.taken j change htaken hnew
  · show Function.update s.creator id (some user) j ≠ none
    rw [hcreator j (h.taken j change hmem)]
    exact h.taken j change hmem
  · exact (hcreator j (h.taken j _ hmem)).trans (h.takenCreate j user' hmem)

theorem Sound.ask (h : s.Sound) (hallowed : deed.Allowed (s.records id) user) :
    Sound { s with granted := s.granted ++ [(id, deed)] } := by
  obtain ⟨r, hr, -⟩ := owner_of_allowed hallowed
  have hrecord : s.records id ≠ none := hr ▸ Option.some_ne_none r
  refine ⟨h.owner, h.record, fun j deed' hmem => ?_, fun j user' hmem => ?_, h.log,
    fun j user' hmem => ?_, h.notTaken, h.taken, h.takenCreate⟩
  · rcases List.mem_append.1 hmem with hold | hlast
    · exact h.granted j deed' hold
    · cases List.mem_singleton.1 hlast
      exact h.record id hrecord
  · rcases List.mem_append.1 hmem with hold | hlast
    · exact h.notCreate j user' hold
    · cases List.mem_singleton.1 hlast
      exact hallowed
  · obtain ⟨huser, hnone, hgranted, habout⟩ := h.created j user' hmem
    refine ⟨huser, hnone, fun deed' hdeed => ?_, habout⟩
    rcases List.mem_append.1 hdeed with hold | hlast
    · exact hgranted deed' hold
    · cases List.mem_singleton.1 hlast
      exact hrecord hnone

/-- Where a record that is updated comes from. -/
theorem of_update_eq_some {records : I → Option (Owned U)} {record : Option (Owned U)} {j : I}
    {r : Owned U} (h : Function.update records id record j = some r) :
    (j = id ∧ record = some r) ∨ (j ≠ id ∧ records j = some r) := by
  by_cases hji : j = id
  · rw [hji, Function.update_self] at h
    exact .inl ⟨hji, h⟩
  · rw [Function.update_of_ne hji] at h
    exact .inr ⟨hji, h⟩

omit [DecidableEq I] in
/-- What is left of what was granted was granted. -/
theorem mem_of_mem_rest {before after : List (I × Deed U)} {e : I × Deed U}
    (hgranted : s.granted = before ++ (id, deed) :: after) (he : e ∈ before ++ after) :
    e ∈ s.granted := by
  rw [hgranted]
  exact (List.mem_append.1 he).elim (List.mem_append_left _)
    fun hafter => List.mem_append_right _ (List.mem_cons_of_mem _ hafter)

theorem Sound.perform {before after : List (I × Deed U)} (h : s.Sound)
    (hgranted : s.granted = before ++ (id, deed) :: after) :
    (s.perform (before ++ after) id deed).Sound := by
  have hmem : (id, deed) ∈ s.granted := hgranted ▸ List.mem_append_right _ List.mem_cons_self
  have hsub : ∀ {e}, e ∈ before ++ after → e ∈ s.granted := mem_of_mem_rest hgranted
  cases deed with
  | change change =>
    have hcreates : ∀ j user', (j, Change.create user') ∈ s.log ++ [(id, change)] →
        (j, Change.create user') ∈ s.log := by
      intro j user' he
      rcases List.mem_append.1 he with hold | hlast
      · exact hold
      · cases List.mem_singleton.1 hlast
        exact absurd hmem (h.notCreate id user')
    refine ⟨h.owner, h.record, fun j deed' he => h.granted j deed' (hsub he),
      fun j user' he => h.notCreate j user' (hsub he), fun j change' he => ?_, fun j user' he => ?_,
      fun j user' he => h.notTaken j user' (hcreates j user' he), h.taken, h.takenCreate⟩
    · rcases List.mem_append.1 he with hold | hlast
      · exact h.log j change' hold
      · cases List.mem_singleton.1 hlast
        exact h.granted id _ hmem
    · obtain ⟨huser, hnone, hnot, habout⟩ := h.created j user' (hcreates j user' he)
      refine ⟨huser, hnone, fun deed' he' => hnot deed' (hsub he'), ?_⟩
      have hne : id ≠ j := fun heq => hnot _ (heq ▸ hmem)
      unfold about at habout ⊢
      show (s.log ++ [(id, change)]).filter _ = _
      rw [List.filter_append, habout, List.filter_singleton, decide_eq_false hne]
      rfl
  | purge =>
    have hrecords : ∀ j, j ≠ id → Function.update s.records id none j = s.records j := fun j hj =>
      Function.update_of_ne hj ..
    refine ⟨fun j r hr => ?_, fun j hj => ?_, fun j deed' he => h.granted j deed' (hsub he),
      fun j user' he => h.notCreate j user' (hsub he), h.log, fun j user' he => ?_, h.notTaken,
      h.taken, h.takenCreate⟩
    · rcases of_update_eq_some hr with ⟨-, hnone⟩ | ⟨-, hold⟩
      · cases hnone
      · exact h.owner j r hold
    · obtain ⟨r, hr⟩ := Option.ne_none_iff_exists'.1 hj
      rcases of_update_eq_some hr with ⟨-, hnone⟩ | ⟨-, hold⟩
      · cases hnone
      · exact h.record j (hold ▸ Option.some_ne_none r)
    · obtain ⟨huser, hnone, hnot, habout⟩ := h.created j user' he
      have hne : j ≠ id := fun heq => hnot _ (heq ▸ hmem)
      exact ⟨huser, (hrecords j hne).trans hnone, fun deed' he' => hnot deed' (hsub he'), habout⟩

/-- The records after a change that the log says, or has said, of one that somebody has created. -/
theorem Sound.owner_change {change : Change U} (h : s.Sound)
    (hcreate : ∀ user, change = .create user → s.creator id = some user) {j : I} {r : Owned U}
    (hr : Function.update s.records id (change.apply (s.records id)) j = some r) :
    r.owner = none ∨ r.owner = s.creator j := by
  rcases of_update_eq_some hr with ⟨rfl, happly⟩ | ⟨-, hold⟩
  · rcases owner_apply happly with hnone | ⟨user, heq, howner⟩ | ⟨old, hold, howner⟩
    · exact .inl hnone
    · exact .inr (howner.trans (hcreate user heq).symm)
    · rw [howner]
      exact h.owner j old hold
  · exact h.owner j r hold

theorem Sound.record_change {change : Change U} (h : s.Sound) (hknown : s.creator id ≠ none) {j : I}
    (hj : Function.update s.records id (change.apply (s.records id)) j ≠ none) :
    s.creator j ≠ none := by
  obtain ⟨r, hr⟩ := Option.ne_none_iff_exists'.1 hj
  rcases of_update_eq_some hr with ⟨rfl, -⟩ | ⟨-, hold⟩
  · exact hknown
  · exact h.record j (hold ▸ Option.some_ne_none r)

theorem Sound.take {change : Change U} {log : List (I × Change U)} (h : s.Sound)
    (hlog : s.log = (id, change) :: log) :
    Sound
      { s with
        records := Function.update s.records id (change.apply (s.records id))
        log := log
        taken := s.taken ++ [(id, change)] } := by
  have hhead : (id, change) ∈ s.log := hlog ▸ List.mem_cons_self
  have hsub : ∀ {e}, e ∈ log → e ∈ s.log := fun he => hlog ▸ List.mem_cons_of_mem _ he
  have hcreate : ∀ user, change = .create user → s.creator id = some user := by
    rintro user rfl
    exact (h.created id user hhead).1
  have hfirst : ∀ j user', (j, Change.create user') ∈ log → j ≠ id := by
    rintro j user' he rfl
    obtain ⟨-, -, -, habout⟩ := h.created j user' (hsub he)
    unfold about at habout
    rw [hlog, List.filter_cons, if_pos (decide_eq_true rfl)] at habout
    have hrest := (List.cons.inj habout).2
    exact absurd (List.mem_filter.2 ⟨he, decide_eq_true rfl⟩) (hrest ▸ List.not_mem_nil)
  refine ⟨fun j r hr => h.owner_change hcreate hr,
    fun j hj => h.record_change (h.log id change hhead) hj, h.granted, h.notCreate,
    fun j change' he => h.log j change' (hsub he), fun j user' he => ?_,
    fun j user' he change' htaken => ?_, fun j change' htaken => ?_, fun j user' htaken => ?_⟩
  · obtain ⟨huser, hnone, hgranted, habout⟩ := h.created j user' (hsub he)
    have hne := hfirst j user' he
    unfold about at habout
    rw [hlog, List.filter_cons, if_neg fun heq => hne (of_decide_eq_true heq).symm] at habout
    exact ⟨huser, (Function.update_of_ne hne ..).trans hnone, hgranted, habout⟩
  · rcases List.mem_append.1 htaken with hold | hlast
    · exact h.notTaken j user' (hsub he) change' hold
    · exact hfirst j user' he (Prod.mk.inj (List.mem_singleton.1 hlast)).1
  · rcases List.mem_append.1 htaken with hold | hlast
    · exact h.taken j change' hold
    · cases List.mem_singleton.1 hlast
      exact h.log id change hhead
  · rcases List.mem_append.1 htaken with hold | hlast
    · exact h.takenCreate j user' hold
    · obtain ⟨rfl, heq⟩ := Prod.mk.inj (List.mem_singleton.1 hlast)
      exact hcreate user' heq.symm

theorem Sound.retake {change : Change U} (h : s.Sound) (htaken : (id, change) ∈ s.taken) :
    Sound { s with records := Function.update s.records id (change.apply (s.records id)) } := by
  have hcreate : ∀ user, change = .create user → s.creator id = some user := by
    rintro user rfl
    exact h.takenCreate id user htaken
  refine ⟨fun j r hr => h.owner_change hcreate hr,
    fun j hj => h.record_change (h.taken id change htaken) hj, h.granted, h.notCreate, h.log,
    fun j user' he => ?_, h.notTaken, h.taken, h.takenCreate⟩
  obtain ⟨huser, hnone, hgranted, habout⟩ := h.created j user' he
  have hne : j ≠ id := by
    rintro rfl
    exact h.notTaken j user' he change htaken
  exact ⟨huser, (Function.update_of_ne hne ..).trans hnone, hgranted, habout⟩

theorem Sound.step (h : s.Sound) (hstep : s.Step act t) : t.Sound := by
  cases hstep with
  | create hnew => exact h.create hnew
  | ask hallowed => exact h.ask hallowed
  | perform hgranted => exact h.perform hgranted
  | take hlog => exact h.take hlog
  | retake htaken => exact h.retake htaken

/-- Only who has created a record is granted anything about it. -/
theorem Sound.creator_of_ask (h : s.Sound) (hstep : s.Step (.ask id user deed) t) :
    s.creator id = some user := by
  cases hstep with
  | ask hallowed =>
    obtain ⟨r, hr, howner⟩ := owner_of_allowed hallowed
    rcases h.owner id r hr with hnone | hcreator
    · rw [howner] at hnone
      cases hnone
    · exact hcreator.symm.trans howner

/-! ### When a record keeps its owner -/

/-- Every record has its owner. -/
def Intact (s : Shared I U) : Prop := ∀ id r, s.records id = some r → r.owner = s.creator id

/-- No update comes to a record that is deleted or gone. -/
def Timely (s : Shared I U) : Act I U → Prop
  | .take => ∀ id log, s.log = (id, .update) :: log → visible (s.records id) ≠ none
  | .retake id .update => visible (s.records id) ≠ none
  | _ => True

/-- A change leaves the records with their owners unless it is an update of one that is deleted or
gone. -/
theorem intact_change_iff {change : Change U} (h : s.Intact) (hknown : s.creator id ≠ none)
    (hcreate : ∀ user, change = .create user → s.creator id = some user) :
    (∀ j r, Function.update s.records id (change.apply (s.records id)) j = some r →
      r.owner = s.creator j) ↔ (change = .update → visible (s.records id) ≠ none) := by
  cases change with
  | create user =>
    refine iff_of_true (fun j r hr => ?_) fun heq => by cases heq
    rcases of_update_eq_some hr with ⟨rfl, happly⟩ | ⟨-, hold⟩
    · cases happly
      exact (hcreate user rfl).symm
    · exact h j r hold
  | delete =>
    refine iff_of_true (fun j r hr => ?_) fun heq => by cases heq
    rcases of_update_eq_some hr with ⟨rfl, happly⟩ | ⟨-, hold⟩
    · obtain ⟨old, hold, rfl⟩ := Option.map_eq_some_iff.1 happly
      exact h j old hold
    · exact h j r hold
  | update =>
    constructor
    · intro hintact _ hnone
      have howner := hintact id _ (Function.update_self ..)
      rw [hnone] at howner
      exact hknown howner.symm
    · intro htimely j r hr
      rcases of_update_eq_some hr with ⟨rfl, happly⟩ | ⟨-, hold⟩
      · cases happly
        obtain ⟨old, hold⟩ := Option.ne_none_iff_exists'.1 (htimely rfl)
        rw [hold]
        exact h j old (Option.filter_eq_some_iff.1 hold).1
      · exact h j r hold

theorem intact_iff_of_step (hsound : s.Sound) (h : s.Intact) (hstep : s.Step act t) :
    t.Intact ↔ s.Timely act := by
  cases hstep with
  | @create id user hnew =>
    refine iff_of_true (fun j r hr => ?_) trivial
    have hcreator : s.creator j ≠ none := hsound.record j (by rw [hr]; exact Option.some_ne_none r)
    refine (h j r hr).trans (Function.update_of_ne (fun heq => ?_) ..).symm
    exact hcreator (heq ▸ hnew)
  | ask => exact iff_of_true h trivial
  | @perform id deed before after hgranted =>
    refine iff_of_true (fun j r hr => ?_) trivial
    cases deed with
    | change change => exact h j r hr
    | purge =>
      rcases of_update_eq_some hr with ⟨-, hnone⟩ | ⟨-, hold⟩
      · cases hnone
      · exact h j r hold
  | @take id change log hlog =>
    have hhead : (id, change) ∈ s.log := hlog ▸ List.mem_cons_self
    have hcreate : ∀ user, change = .create user → s.creator id = some user := by
      rintro user rfl
      exact (hsound.created id user hhead).1
    refine (intact_change_iff h (hsound.log id change hhead) hcreate).trans ⟨?_, ?_⟩
    · intro himp j rest heq
      rw [hlog] at heq
      cases heq
      exact himp rfl
    · rintro htimely rfl
      exact htimely id log hlog
  | @retake id change htaken =>
    have hcreate : ∀ user, change = .create user → s.creator id = some user := by
      rintro user rfl
      exact hsound.takenCreate id user htaken
    refine (intact_change_iff h (hsound.taken id change htaken) hcreate).trans ?_
    cases change with
    | update => exact ⟨fun himp => himp rfl, fun htimely _ => htimely⟩
    | _ => exact iff_of_true (fun heq => by cases heq) trivial

/-! ### A record without an owner -/

/-- The record has no owner, if it is there, and none is to come. -/
structure Lost (id : I) (s : Shared I U) : Prop where
  creator : s.creator id ≠ none
  notCreated : ∀ user, (id, Change.create user) ∉ s.log
  owner : ∀ r, s.records id = some r → r.owner = none

/-- A change that is no creation gives no owner. -/
theorem Lost.owner_change {j : I} {change : Change U} (h : s.Lost id)
    (hcreate : ∀ user, change = .create user → j ≠ id) {r : Owned U}
    (hr : Function.update s.records j (change.apply (s.records j)) id = some r) :
    r.owner = none := by
  rcases of_update_eq_some hr with ⟨rfl, happly⟩ | ⟨-, hold⟩
  · rcases owner_apply happly with hnone | ⟨user, heq, -⟩ | ⟨old, hold, howner⟩
    · exact hnone
    · exact absurd rfl (hcreate user heq)
    · exact howner.trans (h.owner old hold)
  · exact h.owner r hold

theorem Lost.step (h : s.Lost id) (hsound : s.Sound) (hstep : s.Step act t)
    (hnot : act.NotRecreated id) : t.Lost id := by
  cases hstep with
  | @create j user hnew =>
    have hne : id ≠ j := fun heq => h.creator (heq ▸ hnew)
    refine ⟨?_, fun user' hmem => ?_, h.owner⟩
    · show Function.update s.creator j (some user) id ≠ none
      rw [Function.update_of_ne hne]
      exact h.creator
    · rcases List.mem_append.1 hmem with hold | hlast
      · exact h.notCreated user' hold
      · exact hne (Prod.mk.inj (List.mem_singleton.1 hlast)).1
  | ask => exact ⟨h.creator, h.notCreated, h.owner⟩
  | @perform j deed before after hgranted =>
    have hmem : (j, deed) ∈ s.granted := hgranted ▸ List.mem_append_right _ List.mem_cons_self
    cases deed with
    | change change =>
      refine ⟨h.creator, fun user' hcreate => ?_, h.owner⟩
      rcases List.mem_append.1 hcreate with hold | hlast
      · exact h.notCreated user' hold
      · cases List.mem_singleton.1 hlast
        exact hsound.notCreate _ _ hmem
    | purge =>
      refine ⟨h.creator, h.notCreated, fun r hr => ?_⟩
      rcases of_update_eq_some hr with ⟨-, hnone⟩ | ⟨-, hold⟩
      · cases hnone
      · exact h.owner r hold
  | @take j change log hlog =>
    refine ⟨h.creator, fun user' hmem => h.notCreated user' (hlog ▸ List.mem_cons_of_mem _ hmem),
      fun r hr => h.owner_change ?_ hr⟩
    rintro user rfl rfl
    exact h.notCreated user (hlog ▸ List.mem_cons_self)
  | @retake j change htaken =>
    refine ⟨h.creator, h.notCreated, fun r hr => h.owner_change ?_ hr⟩
    rintro user rfl
    exact hnot

/-- A record that has lost its owner. -/
theorem lost_of_owner {r : Owned U} (hsound : s.Sound) (hr : s.records id = some r)
    (howner : r.owner = none) : s.Lost id := by
  have hrecord : s.records id ≠ none := hr ▸ Option.some_ne_none r
  refine ⟨hsound.record id hrecord, fun user hmem => hrecord (hsound.created id user hmem).2.1,
    fun r' hr' => ?_⟩
  cases hr.symm.trans hr'
  exact howner

omit [DecidableEq I] in
/-- Nobody is granted anything about it. -/
theorem Lost.not_allowed (h : s.Lost id) : ¬ deed.Allowed (s.records id) user := by
  intro hallowed
  obtain ⟨r, hr, howner⟩ := owner_of_allowed hallowed
  cases (h.owner r hr).symm.trans howner

/-- No change removes a record. -/
theorem record_change_ne_none {j : I} {change : Change U} (hrecord : s.records id ≠ none) :
    Function.update s.records j (change.apply (s.records j)) id ≠ none := by
  by_cases hji : id = j
  · subst hji
    rw [Function.update_self]
    obtain ⟨r, hr⟩ := Option.ne_none_iff_exists'.1 hrecord
    rw [hr]
    cases change with
    | create user => exact Option.some_ne_none _
    | update => exact Option.some_ne_none _
    | delete => exact Option.some_ne_none _
  · rw [Function.update_of_ne hji]
    exact hrecord

/-- Nor does it go away, unless its removal was granted before. -/
theorem Lost.record_step (h : s.Lost id) (hstep : s.Step act t) (hrecord : s.records id ≠ none)
    (hgranted : (id, Deed.purge) ∉ s.granted) :
    t.records id ≠ none ∧ (id, Deed.purge) ∉ t.granted := by
  cases hstep with
  | create => exact ⟨hrecord, hgranted⟩
  | @ask j user deed hallowed =>
    refine ⟨hrecord, fun hmem => ?_⟩
    rcases List.mem_append.1 hmem with hold | hlast
    · exact hgranted hold
    · cases List.mem_singleton.1 hlast
      exact h.not_allowed hallowed
  | @perform j deed before after hdeed =>
    have hmem : (j, deed) ∈ s.granted := hdeed ▸ List.mem_append_right _ List.mem_cons_self
    have hrest : (id, Deed.purge) ∉ before ++ after := fun he =>
      hgranted (mem_of_mem_rest hdeed he)
    cases deed with
    | change change => exact ⟨hrecord, hrest⟩
    | purge =>
      have hne : id ≠ j := fun heq => hgranted (heq ▸ hmem)
      refine ⟨?_, hrest⟩
      show Function.update s.records j none id ≠ none
      rw [Function.update_of_ne hne]
      exact hrecord
  | take hlog => exact ⟨record_change_ne_none hrecord, hgranted⟩
  | retake htaken => exact ⟨record_change_ne_none hrecord, hgranted⟩

end Shared

end Ownership
