import Mathlib.Data.List.Infix
import Axo.Consensus.KeyText
import Axo.Wire.Frames

/-!
# Operations on decoded values

What Python's operators do with a value that came out of a JSON document, whatever it is: `v[key]`,
`v.get(key)`, `key in v`, the truth of a value, `str(v)`, and the conversions `list(v)`, `dict(v)`,
`int(v)` and `float(v)`.  Each returns in `Except PyException` where the operator may raise.

The code checks few types.  Where it passes a value on to a field of a record that is declared with
another type, the result here is `untyped`: that value is beyond the typed records of this
development.

`Returns` is a computation that does not raise, `ReturnsWhen` one that returns under a condition.
-/

namespace Axo

namespace Value

/-- `v[key]`. -/
def item (v : Value) (key : String) : Except PyException Value :=
  match v with
  | .dict fields =>
    match fields.lookup key with
    | .some value => .ok value
    | .none => .error .keyError
  | _ => .error .typeError

/-- `v.get(key, default)`. -/
def getItem (v : Value) (key : String) (default : Value) : Except PyException Value :=
  match v with
  | .dict fields => .ok ((fields.lookup key).getD default)
  | _ => .error .attributeError

/-- `key in v`: a key of a dict, an element of a list, a part of a text. -/
def contains (v : Value) (key : String) : Except PyException Bool :=
  match v with
  | .dict fields => .ok ((fields.lookup key).isSome)
  | .list items => .ok (decide (.str key ∈ items))
  | .str text => .ok (decide (key.toList <:+: text.toList))
  | _ => .error .typeError

/-- `bool(v)`. -/
def truthy : Value → Bool
  | .none => false
  | .bool b => b
  | .int n => n ≠ 0
  | .float text => text ≠ "0.0" ∧ text ≠ "-0.0"
  | .str text => text ≠ ""
  | .list items => !items.isEmpty
  | .dict fields => !fields.isEmpty

mutual

/-- `repr(v)`. -/
def pyRepr : Value → String
  | .none => "None"
  | .bool b => if b then "True" else "False"
  | .int n => n.repr
  | .float text => text
  | .str text => reprStr text
  | .list items => "[" ++ reprItems items ++ "]"
  | .dict fields => "\x7b" ++ reprFields fields ++ "\x7d"

def reprItems : List Value → String
  | [] => ""
  | [v] => pyRepr v
  | v :: w :: rest => pyRepr v ++ ", " ++ reprItems (w :: rest)

def reprFields : List (String × Value) → String
  | [] => ""
  | [(key, v)] => reprStr key ++ ": " ++ pyRepr v
  | (key, v) :: field :: rest => reprStr key ++ ": " ++ pyRepr v ++ ", " ++ reprFields (field :: rest)

end

/-- `str(v)`. -/
def pyStr : Value → String
  | .str text => text
  | v => pyRepr v

/-! ### Conversions -/

/-- A field that is declared as `str`. -/
def asText : Value → Except PyException String
  | .str text => .ok text
  | _ => .error .untyped

/-- A field that is declared as `Optional[str]`. -/
def asTextOrNone : Value → Except PyException (Option String)
  | .none => .ok .none
  | v => (asText v).map .some

/-- A field that is declared as `int`. -/
def asInt : Value → Except PyException ℤ
  | .int n => .ok n
  | _ => .error .untyped

/-- `list(v)`. -/
def toList : Value → Except PyException (List Value)
  | .list items => .ok items
  | .str text => .ok (text.toList.map fun c => .str (String.singleton c))
  | .dict fields => .ok (fields.map fun field => .str field.1)
  | _ => .error .typeError

/-- One element of what `dict` is called with: a pair whose first part is a key. -/
def toPair (v : Value) : Except PyException (String × Value) := do
  match ← toList v with
  | [key, value] =>
    match key with
    | .str key => return (key, value)
    | .list _ | .dict _ => .error .typeError
    | _ => .error .untyped
  | _ => .error .valueError

/-- `dict(v)`; of several values of one key the last one stays. -/
def toFields : Value → Except PyException (List (String × Value))
  | .dict fields => .ok fields
  | v => do (← toList v).mapM toPair

/-- A value that may be in a set. -/
def hashable : Value → Bool
  | .list _ | .dict _ => false
  | _ => true

/-- The keys of a dict; other values have none. -/
def keys : Value → List String
  | .dict fields => fields.map Prod.fst
  | _ => []

variable {fields : List (String × Value)} {key : String} {v w : Value}

theorem lookup_isSome_iff : (fields.lookup key).isSome = true ↔ key ∈ fields.map Prod.fst := by
  induction fields with
  | nil => simp
  | cons field fields ih =>
    obtain ⟨name, value⟩ := field
    rw [List.lookup_cons]
    by_cases hkey : key = name
    · simp [hkey]
    · have hbeq : (key == name) = false := by simpa using hkey
      simp [hbeq, hkey, ih]

theorem item_dict_eq_ok : (Value.dict fields).item key = .ok w ↔ fields.lookup key = .some w := by
  unfold item
  cases hlookup : fields.lookup key with
  | none => simp [hlookup]
  | some value => simp [hlookup]

/-- Indexing works for the keys of a dict. -/
theorem item_isOk_iff : (∃ w, v.item key = .ok w) ↔ key ∈ v.keys := by
  cases v with
  | dict fields =>
    rw [keys, ← lookup_isSome_iff, Option.isSome_iff_exists]
    unfold item
    cases hlookup : fields.lookup key <;> simp [hlookup]
  | none | bool _ | int _ | float _ | str _ | list _ => simp [item, keys]

end Value

/-! ### Numbers -/

/-- What the code uses of Python's `float`.  A float is written as its `repr` in a `Value`, and is a
rational in the typed records. -/
structure PyFloats where
  /-- `repr(float(n))`; none is an `OverflowError` -/
  ofInt : ℤ → Option String
  /-- `repr(float(text))`; none is a `ValueError` -/
  ofStr : String → Option String
  /-- `int(x)`, of which infinities and `nan` have none -/
  trunc : String → Except PyException ℤ
  /-- the `repr` of a float -/
  text : ℚ → String
  /-- the float of a `repr`, where it is finite -/
  value : String → Option ℚ

/-- Floats of which none is read. -/
instance : Inhabited PyFloats :=
  ⟨fun _ => none, fun _ => none, fun _ => .error .valueError, fun _ => "", fun _ => none⟩

namespace PyFloats

variable (floats : PyFloats)

/-- `float(v)`, by its `repr`. -/
def ofValue : Value → Except PyException String
  | .float text => .ok text
  | .int n =>
    match floats.ofInt n with
    | some text => .ok text
    | none => .error .overflowError
  | .bool b =>
    match floats.ofInt b.toInt with
    | some text => .ok text
    | none => .error .overflowError
  | .str text =>
    match floats.ofStr text with
    | some text => .ok text
    | none => .error .valueError
  | _ => .error .typeError

/-- `int(v)`. -/
def intOf : Value → Except PyException ℤ
  | .int n => .ok n
  | .bool b => .ok b.toInt
  | .float text => floats.trunc text
  | .str text =>
    match intOfText text with
    | some n => .ok n
    | none => .error .valueError
  | _ => .error .typeError

/-- The number of a `repr`, in a field that is declared as `float`. -/
def number (text : String) : Except PyException ℚ :=
  match floats.value text with
  | some q => .ok q
  | none => .error .untyped

/-- A field that is declared as `float`, and that is not converted. -/
def asFloat : Value → Except PyException ℚ
  | .float text => floats.number text
  | .int n => .ok n
  | _ => .error .untyped

/-- `float(v)` in a field that is declared as `float`. -/
def floatOf (v : Value) : Except PyException ℚ := do
  floats.number (← floats.ofValue v)

/-- A number is read back from its `repr`. -/
def Faithful (q : ℚ) : Prop := floats.value (floats.text q) = some q

variable {floats} {q : ℚ}

theorem number_text (h : floats.Faithful q) : floats.number (floats.text q) = .ok q := by
  have hvalue : floats.value (floats.text q) = some q := h
  rw [number, hvalue]

theorem floatOf_text (h : floats.Faithful q) : floats.floatOf (.float (floats.text q)) = .ok q :=
  number_text h

theorem asFloat_text (h : floats.Faithful q) : floats.asFloat (.float (floats.text q)) = .ok q :=
  number_text h

end PyFloats

/-! ### Computations that return -/

/-- A computation that does not raise. -/
def Returns {α : Type*} (x : Except PyException α) : Prop := ∃ a, x = .ok a

theorem returns_ok {α : Type*} (a : α) : Returns (.ok a) := ⟨a, rfl⟩

theorem not_returns_error {α : Type*} (e : PyException) : ¬ Returns (.error e : Except _ α) := by
  rintro ⟨a, ha⟩
  cases ha

/-- One computation after the other. -/
theorem returns_bind {α β : Type} {x : Except PyException α} {f : α → Except PyException β} :
    Returns (x >>= f) ↔ ∃ a, x = .ok a ∧ Returns (f a) := by
  cases x with
  | ok a =>
    constructor
    · exact fun h => ⟨a, rfl, h⟩
    · rintro ⟨b, hb, h⟩
      cases hb
      exact h
  | error e =>
    constructor
    · exact fun h => absurd h (not_returns_error e)
    · rintro ⟨a, ha, -⟩
      cases ha

theorem exists_mapM_forall_iff {α β : Type} {f : α → Except PyException β} {p : β → Prop}
    {as : List α} :
    (∃ bs, as.mapM f = .ok bs ∧ ∀ b ∈ bs, p b) ↔ ∀ a ∈ as, ∃ b, f a = .ok b ∧ p b := by
  induction as with
  | nil => exact iff_of_true ⟨[], rfl, by simp⟩ (by simp)
  | cons a as ih =>
    rw [List.forall_mem_cons, ← ih, List.mapM_cons]
    constructor
    · rintro ⟨bs, hbs, hall⟩
      cases ha : f a with
      | error e => rw [ha] at hbs; cases hbs
      | ok b =>
        cases has : as.mapM f with
        | error e => rw [ha, has] at hbs; cases hbs
        | ok rest =>
          rw [ha, has] at hbs
          obtain rfl := Except.ok.inj hbs
          rw [List.forall_mem_cons] at hall
          exact ⟨⟨b, rfl, hall.1⟩, rest, rfl, hall.2⟩
    · rintro ⟨⟨b, hb, hpb⟩, rest, hrest, hall⟩
      exact ⟨b :: rest, by rw [hb, hrest]; rfl, List.forall_mem_cons.2 ⟨hpb, hall⟩⟩

theorem returns_mapM {α β : Type} {f : α → Except PyException β} {as : List α} :
    Returns (as.mapM f) ↔ ∀ a ∈ as, Returns (f a) := by
  have h := @exists_mapM_forall_iff _ _ f (fun _ => True) as
  simpa only [Returns, implies_true, and_true] using h

theorem returns_item {v : Value} {key : String} : Returns (v.item key) ↔ key ∈ v.keys :=
  Value.item_isOk_iff

theorem returns_item_bind {β : Type} {v : Value} {key : String}
    {f : Value → Except PyException β} (hf : ∀ w, Returns (f w)) :
    Returns (v.item key >>= f) ↔ key ∈ v.keys := by
  rw [returns_bind, ← returns_item]
  constructor
  · rintro ⟨w, hw, -⟩
    exact ⟨w, hw⟩
  · rintro ⟨w, hw⟩
    exact ⟨w, hw, hf w⟩

/-- A computation that returns a value under a condition and raises otherwise. -/
def ReturnsWhen {α : Type*} (p : Prop) (x : Except PyException α) (a : α) : Prop :=
  p ∧ x = .ok a ∨ ¬ p ∧ ∃ e, x = .error e

namespace ReturnsWhen

variable {α : Type*} {p q : Prop} {x : Except PyException α} {a : α}

theorem eq_iff (h : ReturnsWhen p x a) : x = .ok a ↔ p := by
  rcases h with ⟨hp, hx⟩ | ⟨hp, e, hx⟩
  · exact iff_of_true hx hp
  · refine iff_of_false (fun ha => ?_) hp
    rw [hx] at ha
    cases ha

theorem returns_iff (h : ReturnsWhen p x a) : Returns x ↔ p := by
  rcases h with ⟨hp, hx⟩ | ⟨hp, e, hx⟩
  · exact iff_of_true ⟨a, hx⟩ hp
  · rw [hx]
    exact iff_of_false (not_returns_error e) hp

theorem congr (h : ReturnsWhen p x a) (hpq : p ↔ q) : ReturnsWhen q x a := by
  rcases h with ⟨hp, hx⟩ | ⟨hp, hx⟩
  · exact Or.inl ⟨hpq.1 hp, hx⟩
  · exact Or.inr ⟨mt hpq.2 hp, hx⟩

end ReturnsWhen

end Axo
