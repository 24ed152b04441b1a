import Axo.Lib.Dict
import Mathlib.Data.List.Sort
import Mathlib.Data.String.Basic
import Mathlib.Tactic

/-!
# Parameter validation

`validate_and_fill_params` and the schema it reads, after `params_schema.py` and
`core/functions/params_validation.py`.

* `Value` is what JSON decodes to in Python, `ParamSpec` one declared parameter;
* `validateAndFillParams` is the function, with the texts and contexts of its errors;
* `validateAndFillParams_eq_ok` says what it accepts and what it returns;
* `validateAndFillParams_filled_iff` says when its own output passes again.
-/

namespace Axo

/-! ### Values and schemas -/

/-- A Python value of a JSON document.  A float is kept by its `repr`, since nothing here
computes with it. -/
inductive Value
  | none
  | bool (b : Bool)
  | int (n : ℤ)
  | float (repr : String)
  | str (s : String)
  | list (items : List Value)
  | dict (fields : List (String × Value))

mutual

/-- Equality of values, which occur in lists and in dicts of themselves. -/
def Value.decEq : (v w : Value) → Decidable (v = w)
  | .none, .none => isTrue rfl
  | .bool b, .bool c => decidable_of_iff (b = c) (by simp)
  | .int m, .int n => decidable_of_iff (m = n) (by simp)
  | .float s, .float t => decidable_of_iff (s = t) (by simp)
  | .str s, .str t => decidable_of_iff (s = t) (by simp)
  | .list vs, .list ws =>
    have := Value.decEqList vs ws
    decidable_of_iff (vs = ws) (by simp)
  | .dict fs, .dict gs =>
    have := Value.decEqFields fs gs
    decidable_of_iff (fs = gs) (by simp)
  | .none, .bool _ | .none, .int _ | .none, .float _ | .none, .str _ | .none, .list _
  | .none, .dict _ | .bool _, .none | .bool _, .int _ | .bool _, .float _ | .bool _, .str _
  | .bool _, .list _ | .bool _, .dict _ | .int _, .none | .int _, .bool _ | .int _, .float _
  | .int _, .str _ | .int _, .list _ | .int _, .dict _ | .float _, .none | .float _, .bool _
  | .float _, .int _ | .float _, .str _ | .float _, .list _ | .float _, .dict _ | .str _, .none
  | .str _, .bool _ | .str _, .int _ | .str _, .float _ | .str _, .list _ | .str _, .dict _
  | .list _, .none | .list _, .bool _ | .list _, .int _ | .list _, .float _ | .list _, .str _
  | .list _, .dict _ | .dict _, .none | .dict _, .bool _ | .dict _, .int _ | .dict _, .float _
  | .dict _, .str _ | .dict _, .list _ => isFalse (by simp)

def Value.decEqList : (vs ws : List Value) → Decidable (vs = ws)
  | [], [] => isTrue rfl
  | [], _ :: _ | _ :: _, [] => isFalse (by simp)
  | v :: vs, w :: ws =>
    have := Value.decEq v w
    have := Value.decEqList vs ws
    decidable_of_iff (v = w ∧ vs = ws) (by simp)

def Value.decEqFields : (fs gs : List (String × Value)) → Decidable (fs = gs)
  | [], [] => isTrue rfl
  | [], _ :: _ | _ :: _, [] => isFalse (by simp)
  | (s, v) :: fs, (t, w) :: gs =>
    have := Value.decEq v w
    have := Value.decEqFields fs gs
    decidable_of_iff ((s = t ∧ v = w) ∧ fs = gs) (by simp)

end

instance : DecidableEq Value := Value.decEq

/-- `value is None`. -/
def Value.isNone : Value → Bool
  | .none => true
  | _ => false

/-- `isinstance(value, str)`. -/
def Value.isStr : Value → Bool
  | .str _ => true
  | _ => false

/-- A params dict. -/
abbrev Params := Dict String Value

/-- `ParamType`, and any other text that a schema may carry, since `from_dict` does not check
it. -/
inductive ParamType
  | string
  | number
  | boolean
  | json
  | dataRef
  | other (text : String)
  deriving DecidableEq

/-- The text of a type in a schema and in an error. -/
def ParamType.text : ParamType → String
  | .string => "string"
  | .number => "number"
  | .boolean => "boolean"
  | .json => "json"
  | .dataRef => "data_ref"
  | .other text => text

/-- `ParamSpec`. -/
structure ParamSpec where
  name : String
  type : ParamType := .string
  required : Bool := true
  default : Value := .none
  deriving DecidableEq

/-- An `AxoError`: its class's code and name, its message and its context. -/
structure AxoError where
  code : ℕ
  name : String
  message : String
  context : List (String × Value) := []

/-- `InvalidFieldError`. -/
def invalidFieldError (message : String) (context : List (String × Value)) : AxoError :=
  { code := 1002, name := "INVALID_FIELD", message := message, context := context }

/-! ### The text of a list of names -/

/-- A character inside `repr` of a string with the given quote; characters beyond ASCII are
printable ones. -/
def reprChar (quote c : Char) : String :=
  if c = '\\' then "\\\\"
  else if c = quote then "\\" ++ String.singleton quote
  else if c = '\n' then "\\n"
  else if c = '\r' then "\\r"
  else if c = '\t' then "\\t"
  else if c.toNat < 32 ∨ c.toNat = 127 then
    "\\x" ++ String.ofList [Nat.digitChar (c.toNat / 16), Nat.digitChar (c.toNat % 16)]
  else String.singleton c

/-- `repr(s)`: single quotes, unless the text has some and no double ones. -/
def reprStr (s : String) : String :=
  let quote := if '\'' ∈ s.toList ∧ '"' ∉ s.toList then '"' else '\''
  String.singleton quote ++ String.join (s.toList.map (reprChar quote)) ++ String.singleton quote

/-- `str(names)` of a list of strings. -/
def reprNames (names : List String) : String :=
  "[" ++ ", ".intercalate (names.map reprStr) ++ "]"

example : reprNames ["a", "it's"] = "['a', \"it's\"]" := by decide

/-! ### Validation -/

/-- `_type_matches`. -/
def typeMatches (value : Value) : ParamType → Bool
  | .string => value.isStr
  | .number =>
    match value with
    | .int _ | .float _ => true
    | _ => false
  | .boolean =>
    match value with
    | .bool _ => true
    | _ => false
  | .json => true
  | .dataRef =>
    match value with
    | .dict fields =>
      ((fields.lookup "kind").any Value.isStr) && ((fields.lookup "location").any Value.isStr)
    | _ => false
  | .other _ => false

/-- The error for keys that the schema does not declare. -/
def unknownParamsError (unknown : List String) : AxoError :=
  invalidFieldError ("unknown params not declared in params_schema: " ++ reprNames unknown)
    [("unknown_fields", .list (unknown.map .str))]

/-- The error for a required parameter that is absent and has no default. -/
def missingParamError (spec : ParamSpec) : AxoError :=
  invalidFieldError ("missing required param '" ++ spec.name ++ "'") [("field", .str spec.name)]

/-- The error for a value of another type than declared. -/
def paramTypeError (spec : ParamSpec) : AxoError :=
  invalidFieldError
    ("param '" ++ spec.name ++ "' does not match declared type '" ++ spec.type.text ++ "'")
    [("field", .str spec.name), ("expected_type", .str spec.type.text)]

/-- The body of the loop over the schema. -/
def fillParam (params filled : Params) (spec : ParamSpec) : Except AxoError Params :=
  match params.lookup spec.name with
  | none =>
    if spec.required && spec.default.isNone then .error (missingParamError spec)
    else .ok (filled.insert spec.name spec.default)
  | some value =>
    if typeMatches value spec.type then .ok (filled.insert spec.name value)
    else .error (paramTypeError spec)

/-- `sorted(set(params.keys()) - declared_names)`. -/
def unknownParams (schema : List ParamSpec) (params : Params) : List String :=
  (params.keys.filter fun name => name ∉ schema.map ParamSpec.name).insertionSort (· ≤ ·)

/-- `validate_and_fill_params`. -/
def validateAndFillParams (schema : List ParamSpec) (params : Params) : Except AxoError Params :=
  if unknownParams schema params ≠ [] then .error (unknownParamsError (unknownParams schema params))
  else schema.foldlM (fillParam params) ∅

/-! ### What it accepts, and what it returns -/

/-- The loop goes on past the declaration. -/
def ParamSpec.Accepts (spec : ParamSpec) (params : Params) : Prop :=
  match params.lookup spec.name with
  | none => ¬ (spec.required = true ∧ spec.default.isNone = true)
  | some value => typeMatches value spec.type = true

/-- The value that the loop stores for a declaration. -/
def valueFor (params : Params) (spec : ParamSpec) : Value :=
  (params.lookup spec.name).getD spec.default

/-- The dictionary that the loop builds. -/
def fillAll (params : Params) (schema : List ParamSpec) (filled : Params) : Params :=
  schema.foldl (fun filled spec => filled.insert spec.name (valueFor params spec)) filled

/-- The declaration that has the last word on a name. -/
def lastSpec (schema : List ParamSpec) (name : String) : Option ParamSpec :=
  schema.reverse.find? fun spec => spec.name = name

section Validation

variable {schema : List ParamSpec} {params p filled : Params} {spec : ParamSpec}

theorem unknownParams_eq_nil :
    unknownParams schema params = [] ↔ ∀ name ∈ params, name ∈ schema.map ParamSpec.name := by
  rw [unknownParams, ← List.length_eq_zero_iff, List.length_insertionSort,
    List.length_eq_zero_iff, List.filter_eq_nil_iff]
  simp [AList.mem_keys]

theorem fillParam_eq_ok :
    fillParam params filled spec = .ok p ↔
      spec.Accepts params ∧ p = filled.insert spec.name (valueFor params spec) := by
  unfold fillParam ParamSpec.Accepts valueFor
  cases params.lookup spec.name with
  | none =>
    simp only [Bool.and_eq_true, Option.getD_none]
    split_ifs with hmissing
    · simp [hmissing]
    · rw [Except.ok.injEq, and_iff_right hmissing, eq_comm]
  | some value =>
    simp only [Option.getD_some]
    split_ifs with htype
    · rw [Except.ok.injEq, and_iff_right htype, eq_comm]
    · simp [htype]

theorem foldlM_fillParam_eq_ok :
    schema.foldlM (fillParam params) filled = .ok p ↔
      (∀ spec ∈ schema, spec.Accepts params) ∧ p = fillAll params schema filled := by
  induction schema generalizing filled with
  | nil => simp [fillAll, pure, Except.pure, eq_comm]
  | cons spec schema ih =>
    rw [List.foldlM_cons, List.forall_mem_cons]
    cases hfill : fillParam params filled spec with
    | error e =>
      have hno : ¬ spec.Accepts params := fun hacc => by
        have hok : fillParam params filled spec = .ok _ := fillParam_eq_ok.2 ⟨hacc, rfl⟩
        rw [hfill] at hok
        cases hok
      simp [bind, Except.bind, hno]
    | ok filled' =>
      obtain ⟨hacc, rfl⟩ := fillParam_eq_ok.1 hfill
      rw [and_iff_right hacc]
      exact ih

/-- The validation succeeds when every key is declared and every declaration goes through, and
then returns the filled dictionary. -/
theorem validateAndFillParams_eq_ok :
    validateAndFillParams schema params = .ok p ↔
      (∀ name ∈ params, name ∈ schema.map ParamSpec.name) ∧
        (∀ spec ∈ schema, spec.Accepts params) ∧ p = fillAll params schema ∅ := by
  rw [← unknownParams_eq_nil, ← foldlM_fillParam_eq_ok]
  unfold validateAndFillParams
  split_ifs with hunknown
  · simp [hunknown]
  · rw [and_iff_right (not_ne_iff.1 hunknown)]

/-! ### The filled dictionary -/

theorem lastSpec_isSome {name : String} :
    (∃ spec ∈ schema, spec.name = name) → (lastSpec schema name).isSome := by
  rintro ⟨spec, hmem, hname⟩
  rw [lastSpec, List.find?_isSome]
  exact ⟨spec, List.mem_reverse.2 hmem, by simp [hname]⟩

theorem lastSpec_some {name : String} (h : lastSpec schema name = some spec) :
    spec ∈ schema ∧ spec.name = name :=
  ⟨List.mem_reverse.1 (List.mem_of_find?_eq_some h), by simpa using List.find?_some h⟩

theorem keys_fillAll_congr (params p : Params) (schema : List ParamSpec) (filled : Params) :
    (fillAll params schema filled).keys = (fillAll p schema filled).keys := by
  induction schema using List.reverseRecOn with
  | nil => rfl
  | append_singleton schema spec ih =>
    simp only [fillAll, List.foldl_append, List.foldl_cons, List.foldl_nil, AList.keys_insert]
    simp only [fillAll] at ih
    rw [ih]

/-- The last declaration of a name decides its value. -/
theorem lookup_fillAll (params : Params) (schema : List ParamSpec) (name : String) :
    (fillAll params schema ∅).lookup name = (lastSpec schema name).map (valueFor params) := by
  induction schema using List.reverseRecOn with
  | nil => rfl
  | append_singleton schema spec ih =>
    rw [fillAll, List.foldl_append, List.foldl_cons, List.foldl_nil, ← fillAll, lastSpec,
      List.reverse_append, List.reverse_singleton, List.singleton_append, List.find?_cons]
    rcases eq_or_ne name spec.name with rfl | hne
    · simp
    · rw [AList.lookup_insert_ne hne, ih]
      simp [hne.symm, lastSpec]

theorem mem_fillAll {name : String} :
    name ∈ fillAll params schema ∅ ↔ name ∈ schema.map ParamSpec.name := by
  rw [← AList.lookup_isSome, lookup_fillAll, Option.isSome_map, List.mem_map]
  refine ⟨fun h => ?_, lastSpec_isSome⟩
  obtain ⟨spec, hspec⟩ := Option.isSome_iff_exists.1 h
  exact ⟨spec, lastSpec_some hspec⟩

/-- Filling again from a filled dictionary gives it back. -/
theorem fillAll_fillAll : fillAll (fillAll params schema ∅) schema ∅ = fillAll params schema ∅ := by
  refine Dict.ext_keys_lookup (keys_fillAll_congr _ _ _ _) fun name => ?_
  rw [lookup_fillAll]
  cases hlast : lastSpec schema name with
  | none => rw [lookup_fillAll, hlast, Option.map_none, Option.map_none]
  | some spec =>
    rw [Option.map_some, valueFor, (lastSpec_some hlast).2, lookup_fillAll, hlast]
    rfl

/-! ### Passing twice -/

/-- Each absent parameter is filled with a value of every type declared for its name. -/
def DefaultsMatch (schema : List ParamSpec) (params : Params) : Prop :=
  ∀ spec ∈ schema, spec.name ∉ params →
    ∀ last, lastSpec schema spec.name = some last → typeMatches last.default spec.type = true

theorem accepts_fillAll_iff (hspec : spec ∈ schema) (hacc : spec.Accepts params) :
    spec.Accepts (fillAll params schema ∅) ↔
      (spec.name ∉ params →
        ∀ last, lastSpec schema spec.name = some last →
          typeMatches last.default spec.type = true) := by
  obtain ⟨last, hlast⟩ := Option.isSome_iff_exists.1 (lastSpec_isSome ⟨spec, hspec, rfl⟩)
  rw [ParamSpec.Accepts, lookup_fillAll, hlast, Option.map_some, valueFor, (lastSpec_some hlast).2]
  cases hval : params.lookup spec.name with
  | none =>
    have habs : spec.name ∉ params := AList.lookup_eq_none.1 hval
    simp [habs]
  | some value =>
    have hpres : spec.name ∈ params := Dict.mem_of_lookup hval
    rw [ParamSpec.Accepts, hval] at hacc
    simp [hpres, hacc]

/-- The output of a successful validation passes again, unchanged, exactly when each default
that was filled in has the declared type. -/
theorem validateAndFillParams_filled_iff (h : validateAndFillParams schema params = .ok p) :
    validateAndFillParams schema p = .ok p ↔ DefaultsMatch schema params := by
  obtain ⟨-, hacc, rfl⟩ := validateAndFillParams_eq_ok.1 h
  rw [validateAndFillParams_eq_ok, fillAll_fillAll]
  simp only [and_true]
  rw [and_iff_right fun name => mem_fillAll.1, DefaultsMatch]
  exact forall₂_congr fun spec hspec => accepts_fillAll_iff hspec (hacc spec hspec)

end Validation

end Axo
