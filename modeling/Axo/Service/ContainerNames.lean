import Axo.Consensus.KeyText
import Axo.Lib.Slices
import Axo.Service.IdleContainers
import Mathlib.Data.List.DropRight

/-!
# The names of containers

`sanitize_container_name` of `service/container/handle.py`, and the `pool_index` that `summon` of
`service/container/spawner.py` gives a container.

* `sanitizeContainerName_inj`: a name determines the version and the index, whatever became of the
  function id; `isDnsLabel_sanitizeContainerName` is what Docker asks of a name;
* `Summoner.step` is the pools of one `ContainerSummoner`: the part of `summon` in the lock, and
  everything that happens to a handle afterwards, its dismissal by whoever included; without the
  names these are the steps of `HandlePool` (`exists_step_handles`);
* `namesLive_throughout_iff` says which runs keep the live members of a version apart.

Nothing is used of `str.lower`, which is a parameter.
-/

namespace Axo

open Transition

/-! ### Names -/

/-- The characters that are kept. -/
def isNameChar (c : Char) : Bool := decide ('a' ≤ c ∧ c ≤ 'z') || c.isDigit || decide (c = '-')

/-- `text[:n]`. -/
def takeUpTo (text : List Char) (n : ℤ) : List Char :=
  if 0 ≤ n then text.take n.toNat else text.take ((text.length : ℤ) + n).toNat

/-- What is added for the version and the index. -/
def nameSuffix (version : ℤ) (poolIndex : ℕ) : String :=
  if 0 < poolIndex then "-v" ++ version.repr ++ "-p" ++ poolIndex.repr else "-v" ++ version.repr

section Sanitize

variable (lower : String → String)

/-- The slug, before it is truncated. -/
def slugOf (functionId : String) : List Char :=
  let slug := ((lower functionId).toList.map fun c => if c = '_' then '-' else c).filter isNameChar
  let slug := (slug.dropWhile fun c => c = '-').rdropWhile fun c => c = '-'
  if slug = [] then "fn".toList else slug

/-- `sanitize_container_name`. -/
def sanitizeContainerName (functionId : String) (version : ℤ) (poolIndex : ℕ) : String :=
  let suffix := nameSuffix version poolIndex
  let maxSlugLen : ℤ := 63 - "fn-".length - suffix.length
  "fn-" ++ String.ofList (takeUpTo (slugOf lower functionId) maxSlugLen) ++ suffix

end Sanitize

section NameFacts

variable {lower : String → String} {functionId functionId' : String} {version version' poolIndex
  poolIndex' : ℕ}

theorem repr_inj_of_toList {m n : ℕ} (h : m.repr.toList = n.repr.toList) : m = n :=
  Option.some.inj ((decimal_repr m).symm.trans ((congrArg (decimal false 0) h).trans
    (decimal_repr n)))

/-- What stands after the last hyphen of a name. -/
def lastPart (version poolIndex : ℕ) : List Char :=
  if 0 < poolIndex then 'p' :: poolIndex.repr.toList else 'v' :: version.repr.toList

theorem exists_lastPart (version poolIndex : ℕ) :
    ∃ c n, (c = 'p' ∨ c = 'v') ∧ lastPart version poolIndex = c :: (n : ℕ).repr.toList := by
  unfold lastPart
  split_ifs
  · exact ⟨_, _, .inl rfl, rfl⟩
  · exact ⟨_, _, .inr rfl, rfl⟩

theorem hyphen_notMem_cons_repr {c : Char} (hc : c ≠ '-') (n : ℕ) : '-' ∉ c :: n.repr.toList := by
  rw [List.mem_cons, not_or]
  exact ⟨hc.symm, fun h => absurd (isDigit_of_mem_repr h) (by decide)⟩

theorem hyphen_notMem_lastPart (version poolIndex : ℕ) : '-' ∉ lastPart version poolIndex := by
  obtain ⟨c, n, rfl | rfl, hpart⟩ := exists_lastPart version poolIndex
  all_goals
    rw [hpart]
    exact hyphen_notMem_cons_repr (by decide) n

theorem toList_nameSuffix (version poolIndex : ℕ) :
    (nameSuffix version poolIndex).toList =
      (if 0 < poolIndex then '-' :: 'v' :: version.repr.toList else []) ++
        '-' :: lastPart version poolIndex := by
  have hrepr : (version : ℤ).repr = version.repr := rfl
  unfold nameSuffix lastPart
  rw [hrepr]
  split_ifs
  · simp
  · simp

/-- The suffix determines what it is for, whatever stands before it. -/
theorem append_nameSuffix_inj {front front' : List Char}
    (h : front ++ (nameSuffix version poolIndex).toList =
      front' ++ (nameSuffix version' poolIndex').toList) :
    version = version' ∧ poolIndex = poolIndex' := by
  rw [toList_nameSuffix, toList_nameSuffix, ← List.append_assoc, ← List.append_assoc,
    Slices.append_cons_inj (hyphen_notMem_lastPart _ _) (hyphen_notMem_lastPart _ _)] at h
  obtain ⟨hfront, hlast⟩ := h
  unfold lastPart at hlast
  split_ifs at hfront hlast with hindex hindex'
  · have hpool := repr_inj_of_toList (List.cons.inj hlast).2
    rw [Slices.append_cons_inj (hyphen_notMem_cons_repr (by decide) _)
      (hyphen_notMem_cons_repr (by decide) _)] at hfront
    exact ⟨repr_inj_of_toList (List.cons.inj hfront.2).2, hpool⟩
  · exact absurd (List.cons.inj hlast).1 (by decide)
  · exact absurd (List.cons.inj hlast).1 (by decide)
  · exact ⟨repr_inj_of_toList (List.cons.inj hlast).2, by omega⟩

theorem toList_sanitizeContainerName (functionId : String) (version : ℤ) (poolIndex : ℕ) :
    (sanitizeContainerName lower functionId version poolIndex).toList =
      "fn-".toList ++ takeUpTo (slugOf lower functionId)
        (63 - "fn-".length - (nameSuffix version poolIndex).length) ++
          (nameSuffix version poolIndex).toList := by
  simp only [sanitizeContainerName, String.toList_append, String.toList_ofList]

/-- A name tells the version and the index. -/
theorem sanitizeContainerName_inj
    (h : sanitizeContainerName lower functionId version poolIndex =
      sanitizeContainerName lower functionId' version' poolIndex') :
    version = version' ∧ poolIndex = poolIndex' := by
  have htexts := congrArg String.toList h
  rw [toList_sanitizeContainerName, toList_sanitizeContainerName] at htexts
  exact append_nameSuffix_inj htexts

/-- A DNS label of at most 63 characters that starts with a letter and ends with a digit. -/
structure IsDnsLabel (text : String) : Prop where
  length_le : text.length ≤ 63
  chars : ∀ c ∈ text.toList, isNameChar c = true
  starts : text.toList.head?.any (fun c => decide ('a' ≤ c ∧ c ≤ 'z')) = true
  ends : text.toList.getLast?.any Char.isDigit = true

/-- The suffix leaves room. -/
def LeavesRoom (version : ℤ) (poolIndex : ℕ) : Prop :=
  "fn-".length + (nameSuffix version poolIndex).length ≤ 63

theorem isNameChar_of_mem_slugOf {c : Char} (h : c ∈ slugOf lower functionId) :
    isNameChar c = true := by
  unfold slugOf at h
  dsimp only at h
  split_ifs at h
  · have hfn : "fn".toList.all isNameChar = true := by decide
    exact List.all_eq_true.1 hfn c h
  · have hdrop := (List.rdropWhile_prefix _ _).subset h
    exact (List.mem_filter.1 ((List.dropWhile_suffix _).subset hdrop)).2

theorem isNameChar_of_mem_cons_repr {c d : Char} {n : ℕ} (hd : isNameChar d = true)
    (h : c ∈ d :: n.repr.toList) : isNameChar c = true := by
  rcases List.mem_cons.1 h with rfl | h
  · exact hd
  · simp [isNameChar, isDigit_of_mem_repr h]

theorem isNameChar_of_mem_nameSuffix {c : Char} (h : c ∈ (nameSuffix version poolIndex).toList) :
    isNameChar c = true := by
  rw [toList_nameSuffix, List.mem_append] at h
  rcases h with h | h
  · split_ifs at h
    · rcases List.mem_cons.1 h with rfl | h
      · decide
      · exact isNameChar_of_mem_cons_repr (by decide) h
    · cases h
  · rcases List.mem_cons.1 h with rfl | h
    · decide
    · obtain ⟨d, n, rfl | rfl, hpart⟩ := exists_lastPart version poolIndex
      all_goals
        rw [hpart] at h
        exact isNameChar_of_mem_cons_repr (by decide) h

theorem mem_of_mem_takeUpTo {text : List Char} {n : ℤ} {c : Char} (h : c ∈ takeUpTo text n) :
    c ∈ text := by
  unfold takeUpTo at h
  split_ifs at h
  · exact List.mem_of_mem_take h
  · exact List.mem_of_mem_take h

/-- The last character of a suffix is a digit. -/
theorem getLast_nameSuffix (front : List Char) (version poolIndex : ℕ) :
    (front ++ (nameSuffix version poolIndex).toList).getLast?.any Char.isDigit = true := by
  obtain ⟨c, n, -, hpart⟩ := exists_lastPart version poolIndex
  have hne : n.repr.toList ≠ [] := by
    rw [Nat.toList_repr]
    exact Nat.toDigits_ne_nil
  have hlast : (n.repr.toList).getLast? = some (n.repr.toList.getLast hne) :=
    List.getLast?_eq_some_getLast hne
  rw [toList_nameSuffix, hpart, ← List.append_assoc, List.getLast?_append_cons]
  rw [List.getLast?_cons_cons, List.getLast?_cons, hlast]
  exact isDigit_of_mem_repr (List.getLast_mem hne)

/-- Docker accepts the name, whatever the function id is. -/
theorem isDnsLabel_sanitizeContainerName (h : LeavesRoom version poolIndex) :
    IsDnsLabel (sanitizeContainerName lower functionId version poolIndex) where
  length_le := by
    have hroom : (0 : ℤ) ≤ 63 - "fn-".length - (nameSuffix version poolIndex).length := by
      unfold LeavesRoom at h
      omega
    rw [← String.length_toList, toList_sanitizeContainerName, List.length_append,
      List.length_append, takeUpTo, if_pos hroom, List.length_take]
    simp only [String.length_toList]
    unfold LeavesRoom at h
    omega
  chars := by
    have hfn : "fn-".toList.all isNameChar = true := by decide
    intro c hc
    rw [toList_sanitizeContainerName] at hc
    rcases List.mem_append.1 hc with hc | hc
    · rcases List.mem_append.1 hc with hc | hc
      · exact List.all_eq_true.1 hfn c hc
      · exact isNameChar_of_mem_slugOf (mem_of_mem_takeUpTo hc)
    · exact isNameChar_of_mem_nameSuffix hc
  starts := by
    rw [toList_sanitizeContainerName]
    rfl
  ends := by
    rw [toList_sanitizeContainerName]
    exact getLast_nameSuffix _ _ _

end NameFacts

/-! ### Handles with their names -/

namespace HandleLife

variable {maxInvocations : ℕ} {h t : HandleLife}

/-- In the pool, and neither crashed nor dismissed. -/
def live (h : HandleLife) : Bool := h.fields.inPool && !h.fields.status.dead

/-- Whoever is given a job is live, and stays so. -/
theorem live_of_assign {job : JobId} {asAvailable : Bool}
    (hstep : h.step maxInvocations (.assign job asAvailable) = some t) :
    h.live = true ∧ t.live = true := by
  simp only [step, Option.ite_none_right_eq_some, Option.some.injEq] at hstep
  obtain ⟨⟨⟨hpool, hdead⟩, -⟩, rfl⟩ := hstep
  exact ⟨by simp [live, hpool, hdead], by simp [live, hpool, hdead]⟩

/-- The step makes a crashed or dismissed handle a live one again. -/
def revives (maxInvocations : ℕ) (h : HandleLife) (act : HandleAct) : Bool :=
  !h.live && (h.step maxInvocations act).any live

end HandleLife

/-- A handle, with its index and its name. -/
structure NamedHandle where
  member : PoolMember
  poolIndex : ℕ
  serviceName : String

namespace NamedHandle

def functionId (m : NamedHandle) : String := m.member.functionId

def version (m : NamedHandle) : ℤ := m.member.version

def live (m : NamedHandle) : Bool := m.member.life.live

/-- Both are handles of one version of a function. -/
def SamePool (m n : NamedHandle) : Prop := m.functionId = n.functionId ∧ m.version = n.version

instance (m n : NamedHandle) : Decidable (m.SamePool n) := inferInstanceAs (Decidable (_ ∧ _))

theorem SamePool.symm {m n : NamedHandle} (h : m.SamePool n) : n.SamePool m :=
  ⟨h.1.symm, h.2.symm⟩

/-- The handle after a step of its threads. -/
def withLife (m : NamedHandle) (life : HandleLife) : NamedHandle :=
  { m with member := { m.member with life := life } }

end NamedHandle

/-- The handles of a `ContainerSummoner`, in the order in which they were reserved. -/
abbrev Summoner := List NamedHandle

/-- The steps. -/
inductive SummonAct
  /-- the part of `summon` in the lock, for a call of `invoke` -/
  | summon (functionId : String) (version : ℕ) (maxConcurrency maxDurationSeconds : ℤ) (job : JobId)
  /-- a thread of a handle goes on; `_dismiss_stale` is among those that dismiss it -/
  | thread (i : ℕ) (act : HandleAct)

namespace Summoner

/-- The handles without their names. -/
def handles (s : Summoner) : HandlePool := s.map NamedHandle.member

/-- The pool of a version, with its crashed and dismissed members. -/
def pool (s : Summoner) (functionId : String) (version : ℤ) : List NamedHandle :=
  s.filter fun m => decide (m.functionId = functionId ∧ m.version = version) &&
    m.member.life.fields.inPool

section Step

variable (lower : String → String) (maxInvocations : ℕ) (s : Summoner)

/-- A step of one handle. -/
def perform (i : ℕ) (act : HandleAct) : Option Summoner :=
  s[i]?.bind fun m =>
    (m.member.life.step maxInvocations act).map fun life => s.set i (m.withLife life)

/-- The last part of `summon`: a handle is reserved, with the length of the pool as its index. -/
def grow (functionId : String) (version : ℕ) (maxDurationSeconds : ℤ) (job : JobId) :
    Option Summoner :=
  ((HandleLife.reserved maxDurationSeconds).step maxInvocations (.assign job false)).map fun life =>
    let poolIndex := (s.pool functionId version).length
    s ++ [{
      member := ⟨functionId, version, life⟩
      poolIndex := poolIndex
      serviceName := sanitizeContainerName lower functionId version poolIndex }]

/-- One step. -/
def step : SummonAct → Option Summoner
  | .summon functionId version maxConcurrency maxDurationSeconds job =>
    match s.handles.findIdle functionId version with
    | some e => s.perform maxInvocations e.2 (.assign job true)
    | none =>
      if max 1 maxConcurrency ≤ (s.handles.live functionId version).length then
        (s.handles.leastBusy functionId version).bind fun e =>
          s.perform maxInvocations e.2 (.assign job false)
      else s.grow lower maxInvocations functionId version maxDurationSeconds job
  | .thread i act => if act.isAssign = true then none else s.perform maxInvocations i act

/-- `summon` will reserve a handle. -/
def Grows (functionId : String) (version : ℕ) (maxConcurrency : ℤ) : Prop :=
  s.handles.findIdle functionId version = none ∧
    (s.handles.live functionId version).length < max 1 maxConcurrency

end Step

variable {lower : String → String} {maxInvocations : ℕ} {s t : Summoner}

/-- Two live handles of one version differ in their indices and names. -/
def LiveApart (s : Summoner) : Prop :=
  ∀ (i j : ℕ) (m n : NamedHandle), s[i]? = some m → s[j]? = some n → i ≠ j →
    m.live = true → n.live = true → m.SamePool n →
      m.poolIndex ≠ n.poolIndex ∧ m.serviceName ≠ n.serviceName

/-- The names of the handles are what they should be. -/
structure NamesLive (s : Summoner) : Prop where
  apart : s.LiveApart
  versions : ∀ m ∈ s, ∀ n ∈ s, m.functionId = n.functionId → m.version ≠ n.version →
    m.serviceName ≠ n.serviceName
  valid : ∀ m ∈ s, LeavesRoom m.version m.poolIndex → IsDnsLabel m.serviceName

/-- The guard: when a pool grows, its length is not the index of a live member, and a handle comes
back to life only when no live one has its index. -/
def Apart (maxInvocations : ℕ) (s : Summoner) : SummonAct → Prop
  | .summon functionId version maxConcurrency _ _ =>
    s.Grows functionId version maxConcurrency →
      ∀ m ∈ s.pool functionId version, m.live = true →
        m.poolIndex ≠ (s.pool functionId version).length
  | .thread i act =>
    ∀ m ∈ s[i]?, m.member.life.revives maxInvocations act = true →
      ∀ n ∈ s, n.live = true → m.SamePool n → m.poolIndex ≠ n.poolIndex

instance (functionId : String) (version : ℕ) (maxConcurrency : ℤ) :
    Decidable (s.Grows functionId version maxConcurrency) :=
  inferInstanceAs (Decidable (_ ∧ _))

instance (maxInvocations : ℕ) (s : Summoner) : (a : SummonAct) → Decidable (s.Apart maxInvocations a)
  | .summon functionId version maxConcurrency _ _ =>
    inferInstanceAs (Decidable (s.Grows functionId version maxConcurrency →
      ∀ m ∈ s.pool functionId version, m.live = true →
        m.poolIndex ≠ (s.pool functionId version).length))
  | .thread i act =>
    inferInstanceAs (Decidable (∀ m ∈ s[i]?, m.member.life.revives maxInvocations act = true →
      ∀ n ∈ s, n.live = true → m.SamePool n → m.poolIndex ≠ n.poolIndex))

/-- Every handle is named after its version and its index. -/
def Named (lower : String → String) (s : Summoner) : Prop :=
  ∀ m ∈ s, ∃ version : ℕ, m.version = version ∧
    m.serviceName = sanitizeContainerName lower m.functionId version m.poolIndex

/-- Live handles of one version differ in their indices. -/
def IndexApart (s : Summoner) : Prop :=
  ∀ (i j : ℕ) (m n : NamedHandle), s[i]? = some m → s[j]? = some n → i ≠ j →
    m.live = true → n.live = true → m.SamePool n → m.poolIndex ≠ n.poolIndex

/-- Handles with one name have one version and one index. -/
theorem Named.eq_of_serviceName (h : s.Named lower) {m n : NamedHandle} (hm : m ∈ s) (hn : n ∈ s)
    (hname : m.serviceName = n.serviceName) : m.version = n.version ∧ m.poolIndex = n.poolIndex := by
  obtain ⟨v, hv, hmname⟩ := h m hm
  obtain ⟨v', hv', hnname⟩ := h n hn
  obtain ⟨rfl, hindex⟩ := sanitizeContainerName_inj (hmname.symm.trans (hname.trans hnname))
  exact ⟨hv.trans hv'.symm, hindex⟩

theorem namesLive_of_indexApart (hnamed : s.Named lower) (h : s.IndexApart) : s.NamesLive where
  apart := by
    intro i j m n hm hn hij hlive hlive' hpool
    have hindex := h i j m n hm hn hij hlive hlive' hpool
    refine ⟨hindex, fun hname => hindex ?_⟩
    exact (hnamed.eq_of_serviceName (List.mem_of_getElem? hm) (List.mem_of_getElem? hn) hname).2
  versions := fun m hm n hn _ hversion hname =>
    hversion (hnamed.eq_of_serviceName hm hn hname).1
  valid := by
    intro m hm hroom
    obtain ⟨v, hv, hname⟩ := hnamed m hm
    rw [hv] at hroom
    rw [hname]
    exact isDnsLabel_sanitizeContainerName hroom

/-! ### Steps -/

/-- What a step does: a thread of a handle goes on, or a handle is reserved. -/
inductive StepTo (lower : String → String) (maxInvocations : ℕ) (s : Summoner) :
    SummonAct → Summoner → Prop
  | assign {functionId version maxConcurrency maxDurationSeconds job i m life asAvailable}
      (hm : s[i]? = some m)
      (hlife : m.member.life.step maxInvocations (.assign job asAvailable) = some life)
      (hfull : ¬ s.Grows functionId version maxConcurrency) :
      StepTo lower maxInvocations s
        (.summon functionId version maxConcurrency maxDurationSeconds job) (s.set i (m.withLife life))
  | reserve {functionId} {version : ℕ} {maxConcurrency maxDurationSeconds job life}
      (hgrows : s.Grows functionId version maxConcurrency) (hlive : life.live = true) :
      StepTo lower maxInvocations s
        (.summon functionId version maxConcurrency maxDurationSeconds job)
        (s ++ [⟨⟨functionId, version, life⟩, (s.pool functionId version).length,
          sanitizeContainerName lower functionId version (s.pool functionId version).length⟩])
  | thread {i m act life} (hm : s[i]? = some m)
      (hlife : m.member.life.step maxInvocations act = some life) :
      StepTo lower maxInvocations s (.thread i act) (s.set i (m.withLife life))

theorem stepTo_of_step {a : SummonAct} (h : s.step lower maxInvocations a = some t) :
    s.StepTo lower maxInvocations a t := by
  cases a with
  | summon functionId version maxConcurrency maxDurationSeconds job =>
    simp only [step] at h
    split at h
    · rename_i e he
      obtain ⟨m, hm, hrest⟩ := Option.bind_eq_some_iff.1 h
      obtain ⟨life, hlife, rfl⟩ := Option.map_eq_some_iff.1 hrest
      exact .assign hm hlife fun hgrows => absurd (he.symm.trans hgrows.1) (by simp)
    · rename_i hidle
      split_ifs at h with hfull
      · obtain ⟨e, he, h⟩ := Option.bind_eq_some_iff.1 h
        obtain ⟨m, hm, hrest⟩ := Option.bind_eq_some_iff.1 h
        obtain ⟨life, hlife, rfl⟩ := Option.map_eq_some_iff.1 hrest
        exact .assign hm hlife fun hgrows => absurd hgrows.2 (not_lt.2 hfull)
      · obtain ⟨life, hlife, rfl⟩ := Option.map_eq_some_iff.1 h
        exact .reserve ⟨hidle, not_le.1 hfull⟩ (HandleLife.live_of_assign hlife).2
  | thread i act =>
    simp only [step] at h
    split_ifs at h
    obtain ⟨m, hm, hrest⟩ := Option.bind_eq_some_iff.1 h
    obtain ⟨life, hlife, rfl⟩ := Option.map_eq_some_iff.1 hrest
    exact .thread hm hlife

theorem handles_perform (i : ℕ) (act : HandleAct) :
    (s.perform maxInvocations i act).map handles = s.handles.perform maxInvocations i act := by
  unfold perform HandlePool.perform handles
  rw [List.getElem?_map]
  cases s[i]? with
  | none => rfl
  | some m =>
    simp only [Option.bind_some, Option.map_some]
    cases m.member.life.step maxInvocations act with
    | none => rfl
    | some life => simp [List.map_set, NamedHandle.withLife]

/-- Without the names a step is one of the pool of handles. -/
theorem exists_step_handles {a : SummonAct} (h : s.step lower maxInvocations a = some t) :
    ∃ act, s.handles.step maxInvocations act = some t.handles := by
  have hperform {i : ℕ} {act : HandleAct} (hs : s.perform maxInvocations i act = some t) :
      s.handles.perform maxInvocations i act = some t.handles := by
    rw [← handles_perform, hs, Option.map_some]
  cases a with
  | summon functionId version maxConcurrency maxDurationSeconds job =>
    simp only [step] at h
    split at h
    · rename_i e he
      refine ⟨.reuse functionId version job, ?_⟩
      rw [HandlePool.step, he, Option.bind_some, hperform h]
    · split_ifs at h
      · obtain ⟨e, he, h⟩ := Option.bind_eq_some_iff.1 h
        refine ⟨.queueUp functionId version job, ?_⟩
        rw [HandlePool.step, he, Option.bind_some, hperform h]
      · obtain ⟨life, hlife, rfl⟩ := Option.map_eq_some_iff.1 h
        refine ⟨.grow functionId version maxDurationSeconds job, ?_⟩
        rw [HandlePool.step, hlife, Option.map_some, handles, handles, List.map_append]
        rfl
  | thread i act =>
    simp only [step] at h
    split_ifs at h with hassign
    exact ⟨.thread i act, by rw [HandlePool.step, if_neg hassign, hperform h]⟩

/-- One handle changes, and keeps its index apart from those of the others. -/
theorem IndexApart.set (h : s.IndexApart) {i : ℕ} {m : NamedHandle} {life : HandleLife}
    (hm : s[i]? = some m)
    (hnew : life.live = true → ∀ (j : ℕ) (n : NamedHandle), s[j]? = some n → i ≠ j →
      n.live = true → m.SamePool n → m.poolIndex ≠ n.poolIndex) :
    IndexApart (s.set i (m.withLife life)) := by
  have hself : (s.set i (m.withLife life))[i]? = some (m.withLife life) :=
    List.getElem?_set_self (List.getElem?_eq_some_iff.1 hm).1
  intro j k a b ha hb hjk hlive hlive' hpool
  rcases eq_or_ne i j with rfl | hij
  · rw [hself] at ha
    cases ha
    rw [List.getElem?_set_ne hjk] at hb
    exact hnew hlive k b hb hjk hlive' hpool
  · rw [List.getElem?_set_ne hij] at ha
    rcases eq_or_ne i k with rfl | hik
    · rw [hself] at hb
      cases hb
      exact (hnew hlive' j a ha hij hlive hpool.symm).symm
    · rw [List.getElem?_set_ne hik] at hb
      exact h j k a b ha hb hjk hlive hlive' hpool

/-- One more handle, with an index that no live one has. -/
theorem IndexApart.append (h : s.IndexApart) {new : NamedHandle}
    (hnew : ∀ m ∈ s, m.live = true → m.SamePool new → m.poolIndex ≠ new.poolIndex) :
    IndexApart (s ++ [new]) := by
  have hcases (j : ℕ) (m : NamedHandle) (hm : (s ++ [new])[j]? = some m) :
      s[j]? = some m ∨ (j = s.length ∧ m = new) := by
    rw [List.getElem?_append] at hm
    split_ifs at hm with hlt
    · exact .inl hm
    · obtain ⟨hlt', hnew'⟩ := List.getElem?_eq_some_iff.1 hm
      rw [List.length_singleton] at hlt'
      exact .inr ⟨by omega, by simpa using hnew'.symm⟩
  intro j k a b ha hb hjk hlive hlive' hpool
  rcases hcases j a ha with hold | ⟨rfl, rfl⟩
  · rcases hcases k b hb with hold' | ⟨-, rfl⟩
    · exact h j k a b hold hold' hjk hlive hlive' hpool
    · exact hnew a (List.mem_of_getElem? hold) hlive hpool
  · rcases hcases k b hb with hold' | ⟨rfl, -⟩
    · exact (hnew b (List.mem_of_getElem? hold') hlive' hpool.symm).symm
    · exact absurd rfl hjk

theorem mem_pool {functionId : String} {version : ℤ} {m : NamedHandle} :
    m ∈ s.pool functionId version ↔
      m ∈ s ∧ (m.functionId = functionId ∧ m.version = version) ∧
        m.member.life.fields.inPool = true := by
  simp [pool, and_assoc]

theorem inPool_of_live {m : NamedHandle} (h : m.live = true) :
    m.member.life.fields.inPool = true :=
  (Bool.and_eq_true_iff.1 h).1

/-- The invariant under the guard. -/
def SummonInv (lower : String → String) (s : Summoner) : Prop := s.Named lower ∧ s.IndexApart

theorem SummonInv.init : SummonInv lower [] :=
  ⟨fun m hm => (by cases hm), fun i j m n hm => (by cases hm)⟩

/-- A handle is named before and after a step of its threads. -/
theorem Named.set (h : s.Named lower) {i : ℕ} {m : NamedHandle} (hm : s[i]? = some m)
    (life : HandleLife) : Named lower (s.set i (m.withLife life)) := by
  intro n hn
  rcases List.mem_or_eq_of_mem_set hn with hn | rfl
  · exact h n hn
  · exact h m (List.mem_of_getElem? hm)

/-- One step under the guard. -/
theorem SummonInv.step {a : SummonAct} (h : SummonInv lower s) (hG : s.Apart maxInvocations a)
    (hstep : s.step lower maxInvocations a = some t) : SummonInv lower t := by
  cases stepTo_of_step hstep with
  | @assign functionId version maxConcurrency maxDurationSeconds job i m life asAvailable hm
      hlife hfull =>
    have hlive : m.live = true := (HandleLife.live_of_assign hlife).1
    exact ⟨h.1.set hm life, h.2.set hm fun _ j n hn hij hlive' hpool =>
      h.2 i j m n hm hn hij hlive hlive' hpool⟩
  | @reserve functionId version maxConcurrency maxDurationSeconds job life hgrows hlive =>
    refine ⟨fun n hn => ?_, h.2.append fun m hm hlive' hpool => ?_⟩
    · rcases List.mem_append.1 hn with hn | hn
      · exact h.1 n hn
      · obtain rfl := List.mem_singleton.1 hn
        exact ⟨version, rfl, rfl⟩
    · exact hG hgrows m (mem_pool.2 ⟨hm, hpool, inPool_of_live hlive'⟩) hlive'
  | @thread i m act life hm hlife =>
    refine ⟨h.1.set hm life, h.2.set hm fun hnext j n hn hij hlive' hpool => ?_⟩
    cases hlive : m.live with
    | true => exact h.2 i j m n hm hn hij hlive hlive' hpool
    | false =>
      have hrevives : m.member.life.revives maxInvocations act = true := by
        have hdead : m.member.life.live = false := hlive
        simp [HandleLife.revives, hdead, hlife, hnext]
      exact hG m hm hrevives n (List.mem_of_getElem? hn) hlive' hpool

/-- The guard is what a step needs. -/
theorem apart_of_step {a : SummonAct} (hstep : s.step lower maxInvocations a = some t)
    (ht : t.NamesLive) : s.Apart maxInvocations a := by
  cases stepTo_of_step hstep with
  | assign hm hlife hfull => exact fun hgrows => absurd hgrows hfull
  | @reserve functionId version maxConcurrency maxDurationSeconds job life hgrows hlive =>
    intro _ m hm hlive'
    obtain ⟨hmem, hpool, -⟩ := mem_pool.1 hm
    obtain ⟨j, hj⟩ := List.getElem?_of_mem hmem
    have hlt := (List.getElem?_eq_some_iff.1 hj).1
    exact (ht.apart j s.length m _ (by rw [List.getElem?_append_left hlt, hj])
      List.getElem?_concat_length hlt.ne hlive' hlive hpool).1
  | @thread i m act life hm hlife =>
    intro m' hm' hrevives n hn hlive' hpool
    obtain rfl : m = m' := Option.some.inj (hm.symm.trans hm')
    obtain ⟨hdead, hnext⟩ := Bool.and_eq_true_iff.1 hrevives
    rw [hlife, Option.any_some] at hnext
    obtain ⟨j, hj⟩ := List.getElem?_of_mem hn
    have hij : i ≠ j := by
      rintro rfl
      obtain rfl : m = n := Option.some.inj (hm.symm.trans hj)
      rw [show m.member.life.live = true from hlive'] at hdead
      cases hdead
    exact (ht.apart i j (m.withLife life) n
      (List.getElem?_set_self (List.getElem?_eq_some_iff.1 hm).1)
      (by rw [List.getElem?_set_ne hij, hj]) hij hnext hlive' hpool).1

/-- The names of live handles are kept apart throughout a run exactly when its steps meet the
guard. -/
theorem namesLive_throughout_iff {as : List SummonAct}
    (hrun : run (step lower maxInvocations) [] as = some t) :
    Throughout (step lower maxInvocations) NamesLive [] as ↔
      EachStep (step lower maxInvocations) (Apart maxInvocations) [] as :=
  throughout_iff_eachStep (I := SummonInv lower) (fun _ h => namesLive_of_indexApart h.1 h.2)
    (fun _ _ _ h hG hstep => h.step hG hstep) (fun _ _ _ _ hstep ht => apart_of_step hstep ht)
    .init hrun

/-- A handle is dismissed by an operator. -/
def dismissed (i : ℕ) : List SummonAct :=
  [.select .operator, .dismiss .marking true, .dismiss .stopping true, .dismiss .removing true].map
    (.thread i)

/-- Two containers, the second of which is dismissed and replaced. -/
def lastReplaced : List SummonAct :=
  [.summon "f" 1 2 0 "a", .summon "f" 1 2 0 "b"] ++ dismissed 1 ++ [.summon "f" 1 2 0 "c"]

/-- Two containers, the first of which is dismissed and replaced. -/
def firstReplaced : List SummonAct :=
  [.summon "f" 1 2 0 "a", .summon "f" 1 2 0 "b"] ++ dismissed 0 ++ [.summon "f" 1 2 0 "c"]

theorem namesLive_lastReplaced : ∃ t, run (step String.toLower 0) [] lastReplaced = some t ∧
    t.map NamedHandle.serviceName = ["fn-f-v1", "fn-f-v1-p1", "fn-f-v1-p1"] ∧
      Throughout (step String.toLower 0) NamesLive [] lastReplaced := by
  obtain ⟨t, ht, hmeets, htest⟩ := exists_eachStep_of_guarded_run (step String.toLower 0) (Apart 0) []
    (fun t => t.map NamedHandle.serviceName = ["fn-f-v1", "fn-f-v1-p1", "fn-f-v1-p1"]) lastReplaced
    (by decide +kernel)
  exact ⟨t, ht, of_decide_eq_true htest, (namesLive_throughout_iff ht).2 hmeets⟩

/-- The new container has the index and the name of the second one, which lives. -/
theorem not_namesLive_firstReplaced : ∃ t, Reach (step String.toLower 0) Always [] t ∧
    ¬ t.NamesLive := by
  obtain ⟨t, ht, htest⟩ := exists_reach_of_run (step String.toLower 0) []
    (fun t => t.map (fun m => (m.live, m.poolIndex, m.functionId, m.version)) =
      [(false, 0, "f", 1), (true, 1, "f", 1), (true, 1, "f", 1)]) firstReplaced (by decide +kernel)
  rw [decide_eq_true_iff] at htest
  refine ⟨t, ht, fun h => ?_⟩
  have hat (k : ℕ) := (List.getElem?_map ..).symm.trans (congrArg (fun l => l[k]?) htest)
  obtain ⟨m, hm, hmfacts⟩ := Option.map_eq_some_iff.1 (hat 1)
  obtain ⟨n, hn, hnfacts⟩ := Option.map_eq_some_iff.1 (hat 2)
  simp only [Prod.mk.injEq] at hmfacts hnfacts
  obtain ⟨hmlive, hmindex, hmid, hmversion⟩ := hmfacts
  obtain ⟨hnlive, hnindex, hnid, hnversion⟩ := hnfacts
  have hpool : m.SamePool n := ⟨hmid.trans hnid.symm, hmversion.trans hnversion.symm⟩
  exact (h.apart 1 2 m n hm hn (by decide) hmlive hnlive hpool).1 (hmindex.trans hnindex.symm)

end Summoner

end Axo
