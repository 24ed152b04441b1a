import Axo.Wire.Ingestion
import Axo.Wire.RoundTrip

/-!
# Which messages the ingestion loop survives

* `eventOf` says which messages are events, and for which stream: the wire frames, the envelope and
  the fields all have to be as they are written by a publisher;
* `AsClaimed`: an event is offered to the appender until it is taken or the attempts are used up, and
  any other message is dropped;
* `MessageSafe` is the exact condition under which this is so (`handleFrames_asClaimed_iff`);
* `ingest_returns_iff` is about the whole loop.
-/

namespace Axo

variable {json : JsonLib} {maxAttempts : ℕ} {succeeds : ℕ → Bool} {frames : List Frame}

/-! ### Events and streams -/

/-- The names of datasets that a bucket can be read from. -/
def NamesBucket : Value → Prop
  | .str _ => True
  | .list items => .str "/" ∉ items
  | .dict fields => "/" ∉ fields.map Prod.fst
  | _ => False

/-- The type is one that has a stream, and the data has the fields that name it. -/
def StreamFields (eventType data : Value) : Prop :=
  if eventType.isOneOf endpointEvents then True
  else if eventType.isOneOf functionEvents then
    "function_id" ∈ data.keys ∧ "version" ∈ data.keys
  else if eventType.isOneOf buildEvents then
    ∃ functionId, data.getItem "function_id" .none = .ok functionId ∧
      (functionId.truthy = true ∨ "python_version" ∈ data.keys)
  else if eventType.isOneOf consensusEvents then True
  else if eventType.isOneOf jobEvents then "function_id" ∈ data.keys
  else if eventType.isOneOf bucketEvents then "name" ∈ data.keys
  else if eventType.isOneOf dataEvents then ∃ name, data.item "name" = .ok name ∧ NamesBucket name
  else False

theorem returns_bucketOfName (name : Value) : Returns (bucketOfName name) ↔ NamesBucket name := by
  unfold bucketOfName NamesBucket Value.contains
  cases name with
  | str text =>
    refine iff_of_true ?_ trivial
    by_cases hslash : "/".toList <:+: text.toList
    · simp only [hslash, decide_true]
      exact returns_ok _
    · simp only [hslash, decide_false]
      exact returns_ok _
  | list items =>
    by_cases hslash : Value.str "/" ∈ items
    · refine iff_of_false ?_ (not_not.2 hslash)
      simp only [hslash, decide_true]
      exact not_returns_error _
    · refine iff_of_true ?_ hslash
      simp only [hslash, decide_false]
      exact returns_ok _
  | dict fields =>
    by_cases hslash : "/" ∈ fields.map Prod.fst
    · refine iff_of_false ?_ (not_not.2 hslash)
      simp only [Value.lookup_isSome_iff.2 hslash]
      exact not_returns_error _
    · have hnone : (fields.lookup "/").isSome = false :=
        Bool.eq_false_iff.2 fun h => hslash (Value.lookup_isSome_iff.1 h)
      refine iff_of_true ?_ hslash
      simp only [hnone]
      exact returns_ok _
  | none | bool _ | int _ | float _ => exact iff_of_false (not_returns_error _) id

/-- `stream_name_for` returns for known types with the fields that they need. -/
theorem returns_streamNameFor (eventType endpointId data : Value) :
    Returns (streamNameFor eventType endpointId data) ↔ StreamFields eventType data := by
  unfold streamNameFor StreamFields
  split_ifs
  · exact iff_of_true (returns_ok _) trivial
  · rw [returns_bind]
    constructor
    · rintro ⟨functionId, hfunction, hrest⟩
      exact ⟨returns_item.1 ⟨_, hfunction⟩, (returns_item_bind fun _ => returns_ok _).1 hrest⟩
    · rintro ⟨hfunction, hversion⟩
      obtain ⟨functionId, hfunction⟩ := returns_item.2 hfunction
      exact ⟨functionId, hfunction, (returns_item_bind fun _ => returns_ok _).2 hversion⟩
  · rw [returns_bind]
    refine exists_congr fun functionId => and_congr_right fun _ => ?_
    split_ifs with htruthy
    · exact iff_of_true (returns_ok _) (Or.inl htruthy)
    · exact (returns_item_bind fun _ => returns_ok _).trans (or_iff_right htruthy).symm
  · exact iff_of_true (returns_ok _) trivial
  · exact returns_item_bind fun _ => returns_ok _
  · exact returns_item_bind fun _ => returns_ok _
  · rw [returns_bind]
    refine exists_congr fun name => and_congr_right fun _ => ?_
    rw [← returns_bucketOfName, returns_bind]
    constructor
    · rintro ⟨bucket, hbucket, -⟩
      exact ⟨bucket, hbucket⟩
    · rintro ⟨bucket, hbucket⟩
      exact ⟨bucket, hbucket, returns_ok _⟩
  · exact iff_of_false (not_returns_error _) id

/-! ### Envelopes -/

/-- The keys that an envelope lacks. -/
theorem missingKeys_eq {envelope : Value} {has : String → Bool}
    (h : ∀ key, envelope.contains key = .ok (has key)) :
    missingKeys envelope = .ok (eventKeys.filter fun key => !has key) := by
  have hloop : ∀ (ks missing : List String),
      ks.foldlM (fun missing key => return if ← envelope.contains key then missing
        else missing ++ [key]) missing =
        (.ok (missing ++ ks.filter fun key => !has key) : Except PyException _) := by
    intro ks
    induction ks with
    | nil =>
      intro missing
      rw [List.filter_nil, List.append_nil]
      rfl
    | cons key ks ih =>
      intro missing
      rw [List.foldlM_cons, h key]
      cases hkey : has key with
      | true =>
        rw [List.filter_cons_of_neg (by simp [hkey])]
        exact ih missing
      | false =>
        rw [List.filter_cons_of_pos (by simp [hkey])]
        exact (ih (missing ++ [key])).trans (by rw [List.append_assoc, List.singleton_append])
  exact (hloop eventKeys []).trans (by rw [List.nil_append])

/-- An envelope without one of the keys is refused. -/
theorem decodeEvent_of_missing {envelope : Value} {has : String → Bool}
    (h : ∀ key, envelope.contains key = .ok (has key)) {key : String} (hkey : key ∈ eventKeys)
    (hmissing : has key = false) :
    ∃ err, decodeEvent envelope = .ok (.error err) := by
  have hne : (eventKeys.filter fun key => !has key) ≠ [] :=
    List.ne_nil_of_mem (List.mem_filter.2 ⟨hkey, by rw [hmissing]; rfl⟩)
  refine ⟨malformedEventEnvelopeError (eventKeys.filter fun key => !has key), ?_⟩
  unfold decodeEvent
  rw [missingKeys_eq h]
  exact if_pos hne

/-- An envelope with all the keys is taken apart. -/
theorem decodeEvent_of_all {envelope : Value} {has : String → Bool}
    (h : ∀ key, envelope.contains key = .ok (has key)) (hall : ∀ key ∈ eventKeys, has key = true) :
    decodeEvent envelope = (do
      let eventType ← envelope.item "event_type"
      let endpointId ← envelope.item "endpoint_id"
      let data ← envelope.item "data"
      return .ok { eventType, endpointId, data }) := by
  have hnil : (eventKeys.filter fun key => !has key) = [] := by
    refine List.filter_eq_nil_iff.2 fun key hkey => ?_
    rw [hall key hkey]
    exact Bool.false_ne_true
  unfold decodeEvent
  rw [missingKeys_eq h, hnil]
  rfl

/-- What `decode_event` takes apart or refuses, without raising. -/
def EnvelopeSafe : Value → Prop
  | .dict fields => (∃ key ∈ eventKeys, key ∉ fields.map Prod.fst) ∨
      ∃ eventType data, fields.lookup "event_type" = some eventType ∧
        fields.lookup "data" = some data ∧ StreamFields eventType data
  | .list items => ∃ key ∈ eventKeys, .str key ∉ items
  | .str text => ∃ key ∈ eventKeys, ¬ key.toList <:+: text.toList
  | _ => False

/-- The event of an envelope, with its stream. -/
def eventOfEnvelope : Value → Option (String × DecodedEvent)
  | .dict fields =>
    match fields.lookup "event_type", fields.lookup "endpoint_id", fields.lookup "data" with
    | some eventType, some endpointId, some data =>
      match streamNameFor eventType endpointId data with
      | .ok stream => some (stream, { eventType, endpointId, data })
      | .error _ => none
    | _, _, _ => none
  | _ => none

/-- What is done with a decoded envelope. -/
def handleEnvelope (maxAttempts : ℕ) (succeeds : ℕ → Bool) (envelope : Value) :
    Except PyException (Option Ingested) := do
  match ← decodeEvent envelope with
  | .error _ => return none
  | .ok event =>
    let stream ← streamNameFor event.eventType event.endpointId event.data
    return some { stream, event, appended := retryWithBackoff succeeds maxAttempts 0 }

/-- What is made of an event: it was offered to the appender, or there was none to offer. -/
def offered (maxAttempts : ℕ) (succeeds : ℕ → Bool) (event : String × DecodedEvent) : Ingested :=
  { stream := event.1, event := event.2, appended := retryWithBackoff succeeds maxAttempts 0 }

/-- An envelope without one of the keys is dropped. -/
theorem handleEnvelope_of_missing {envelope : Value} {has : String → Bool}
    (h : ∀ key, envelope.contains key = .ok (has key)) {key : String} (hkey : key ∈ eventKeys)
    (hmissing : has key = false) : handleEnvelope maxAttempts succeeds envelope = .ok none := by
  obtain ⟨err, herr⟩ := decodeEvent_of_missing h hkey hmissing
  unfold handleEnvelope
  rw [herr]
  rfl

/-- A text or a list with all the keys in it cannot be indexed with them. -/
theorem handleEnvelope_of_all {envelope : Value} {has : String → Bool}
    (h : ∀ key, envelope.contains key = .ok (has key)) (hall : ∀ key ∈ eventKeys, has key = true)
    (hitem : ∀ key, envelope.item key = .error .typeError) :
    handleEnvelope maxAttempts succeeds envelope = .error .typeError := by
  unfold handleEnvelope
  rw [decodeEvent_of_all h hall, hitem]
  rfl

/-- The keys that are looked for are all there, or one of them is not. -/
theorem handleEnvelope_noItems {envelope : Value} {has : String → Bool}
    (h : ∀ key, envelope.contains key = .ok (has key))
    (hitem : ∀ key, envelope.item key = .error .typeError) :
    ReturnsWhen (∃ key ∈ eventKeys, has key = false)
      (handleEnvelope maxAttempts succeeds envelope) none := by
  by_cases hmissing : ∃ key ∈ eventKeys, has key = false
  · obtain ⟨key, hkey, hfalse⟩ := hmissing
    exact Or.inl ⟨⟨key, hkey, hfalse⟩, handleEnvelope_of_missing h hkey hfalse⟩
  · have hall : ∀ key ∈ eventKeys, has key = true := fun key hkey =>
      (Bool.not_eq_false _).mp fun hfalse => hmissing ⟨key, hkey, hfalse⟩
    exact Or.inr ⟨hmissing, _, handleEnvelope_of_all h hall hitem⟩

theorem forall_eventKeys {p : String → Prop} :
    (∀ key ∈ eventKeys, p key) ↔ p "event_type" ∧ p "endpoint_id" ∧ p "data" := by
  simp only [eventKeys, List.forall_mem_cons, List.not_mem_nil, false_imp_iff, implies_true, and_true]

/-- An envelope that lacks a key has no event. -/
theorem eventOfEnvelope_of_missing {fields : List (String × Value)} {key : String}
    (hkey : key ∈ eventKeys) (hmissing : (fields.lookup key).isSome = false) :
    eventOfEnvelope (.dict fields) = none := by
  simp only [eventOfEnvelope]
  split
  · next eventType endpointId data htype hendpoint hdata =>
    have hall : ∀ key ∈ eventKeys, (fields.lookup key).isSome = true :=
      forall_eventKeys.2 ⟨by rw [htype]; rfl, by rw [hendpoint]; rfl, by rw [hdata]; rfl⟩
    rw [hall key hkey] at hmissing
    cases hmissing
  · rfl

/-- An object with all the keys goes to the stream of its type. -/
theorem handleEnvelope_dict {fields : List (String × Value)} {eventType endpointId data : Value}
    (htype : fields.lookup "event_type" = some eventType)
    (hendpoint : fields.lookup "endpoint_id" = some endpointId)
    (hdata : fields.lookup "data" = some data) :
    handleEnvelope maxAttempts succeeds (.dict fields) = (do
      let stream ← streamNameFor eventType endpointId data
      return some (offered maxAttempts succeeds (stream, { eventType, endpointId, data }))) := by
  have hcontains : ∀ key, (Value.dict fields).contains key =
      .ok ((fields.lookup key).isSome) := fun _ => rfl
  have hall : ∀ key ∈ eventKeys, (fields.lookup key).isSome = true :=
    forall_eventKeys.2 ⟨by rw [htype]; rfl, by rw [hendpoint]; rfl, by rw [hdata]; rfl⟩
  unfold handleEnvelope
  rw [decodeEvent_of_all hcontains hall]
  simp only [Value.item, htype, hendpoint, hdata]
  rfl

/-- The safe envelopes are handled as they should be, and the others raise. -/
theorem handleEnvelope_returnsWhen (envelope : Value) :
    ReturnsWhen (EnvelopeSafe envelope) (handleEnvelope maxAttempts succeeds envelope)
      ((eventOfEnvelope envelope).map (offered maxAttempts succeeds)) := by
  cases envelope with
  | none | bool _ | int _ | float _ => exact Or.inr ⟨id, .typeError, rfl⟩
  | str text =>
    refine (@handleEnvelope_noItems maxAttempts succeeds (.str text)
      (fun key => decide (key.toList <:+: text.toList)) (fun _ => rfl) fun _ => rfl).congr ?_
    simp only [decide_eq_false_iff_not]
    rfl
  | list items =>
    refine (@handleEnvelope_noItems maxAttempts succeeds (.list items)
      (fun key => decide (.str key ∈ items)) (fun _ => rfl) fun _ => rfl).congr ?_
    simp only [decide_eq_false_iff_not]
    rfl
  | dict fields =>
    have hcontains : ∀ key, (Value.dict fields).contains key =
        .ok ((fields.lookup key).isSome) := fun _ => rfl
    by_cases hall : ∀ key ∈ eventKeys, key ∈ fields.map Prod.fst
    · have hsome : ∀ key ∈ eventKeys, ∃ v, fields.lookup key = some v := fun key hkey =>
        Option.isSome_iff_exists.1 (Value.lookup_isSome_iff.2 (hall key hkey))
      obtain ⟨⟨eventType, htype⟩, ⟨endpointId, hendpoint⟩, data, hdata⟩ := forall_eventKeys.1 hsome
      have hsafe : Returns (streamNameFor eventType endpointId data) ↔
          EnvelopeSafe (.dict fields) := by
        rw [returns_streamNameFor]
        constructor
        · exact fun h => Or.inr ⟨eventType, data, htype, hdata, h⟩
        · rintro (⟨key, hkey, hmissing⟩ | ⟨eventType', data', htype', hdata', h⟩)
          · exact absurd (hall key hkey) hmissing
          · rw [htype, Option.some.injEq] at htype'
            rw [hdata, Option.some.injEq] at hdata'
            rwa [htype', hdata']
      rw [handleEnvelope_dict htype hendpoint hdata]
      unfold eventOfEnvelope
      simp only [htype, hendpoint, hdata]
      cases hstream : streamNameFor eventType endpointId data with
      | ok stream => exact Or.inl ⟨hsafe.1 ⟨stream, hstream⟩, rfl⟩
      | error e =>
        refine Or.inr ⟨fun h => ?_, e, rfl⟩
        exact not_returns_error e (hstream ▸ hsafe.2 h)
    · push Not at hall
      obtain ⟨key, hkey, hmissing⟩ := hall
      have hfalse : (fields.lookup key).isSome = false :=
        Bool.eq_false_iff.2 fun h => hmissing (Value.lookup_isSome_iff.1 h)
      refine Or.inl ⟨Or.inl ⟨key, hkey, hmissing⟩, ?_⟩
      rw [handleEnvelope_of_missing hcontains hkey hfalse, eventOfEnvelope_of_missing hkey hfalse]
      rfl

/-! ### Retries -/

/-- An event that was offered to the appender until it was taken, or as often as configured. -/
structure OfferedAsConfigured (maxAttempts : ℕ) (succeeds : ℕ → Bool) (appended : Appended) :
    Prop where
  attempts_pos : 1 ≤ appended.attempts
  attempts_le : appended.attempts ≤ max 1 maxAttempts
  failed : ∀ attempt, 1 ≤ attempt → attempt < appended.attempts → succeeds attempt = false
  last : succeeds appended.attempts = appended.ok
  given_up : appended.ok = false → appended.attempts = max 1 maxAttempts

/-- The retries after some attempts. -/
theorem retryWithBackoff_spec (succeeds : ℕ → Bool) (maxAttempts attempts : ℕ) :
    let appended := retryWithBackoff succeeds maxAttempts attempts
    attempts < appended.attempts ∧ appended.attempts ≤ max (attempts + 1) maxAttempts ∧
      (∀ attempt, attempts < attempt → attempt < appended.attempts → succeeds attempt = false) ∧
      succeeds appended.attempts = appended.ok ∧
      (appended.ok = false → appended.attempts = max (attempts + 1) maxAttempts) := by
  fun_induction retryWithBackoff succeeds maxAttempts attempts with
  | case1 attempts hsucceeds =>
    refine ⟨Nat.lt_succ_self _, le_max_left _ _, fun attempt h₁ h₂ => ?_, hsucceeds, ?_⟩
    · exact absurd h₂ (not_lt.2 h₁)
    · exact fun h => absurd h.symm Bool.false_ne_true
  | case2 attempts hfailed hlast =>
    refine ⟨Nat.lt_succ_self _, le_max_left _ _, fun attempt h₁ h₂ => ?_, ?_, fun _ => ?_⟩
    · exact absurd h₂ (not_lt.2 h₁)
    · exact Bool.eq_false_iff.2 hfailed
    · exact (max_eq_left hlast).symm
  | case3 attempts hfailed hmore ih =>
    obtain ⟨hlt, hle, hbefore, hat, hgiven⟩ := ih
    have hmax : max (attempts + 1 + 1) maxAttempts = max (attempts + 1) maxAttempts := by omega
    rw [hmax] at hle hgiven
    refine ⟨by omega, hle, fun attempt h₁ h₂ => ?_, hat, hgiven⟩
    by_cases hfirst : attempt = attempts + 1
    · rw [hfirst]
      exact Bool.eq_false_iff.2 hfailed
    · exact hbefore attempt (by omega) h₂

theorem offeredAsConfigured (maxAttempts : ℕ) (succeeds : ℕ → Bool) :
    OfferedAsConfigured maxAttempts succeeds (retryWithBackoff succeeds maxAttempts 0) := by
  obtain ⟨hpos, hle, hbefore, hlast, hgiven⟩ := retryWithBackoff_spec succeeds maxAttempts 0
  rw [Nat.zero_add] at hle hgiven
  exact ⟨hpos, hle, fun attempt h => hbefore attempt h, hlast, hgiven⟩

/-- There is one way to offer an event. -/
theorem OfferedAsConfigured.eq {first second : Appended}
    (hfirst : OfferedAsConfigured maxAttempts succeeds first)
    (hsecond : OfferedAsConfigured maxAttempts succeeds second) : first = second := by
  have hle : ∀ {a b : Appended}, OfferedAsConfigured maxAttempts succeeds a →
      OfferedAsConfigured maxAttempts succeeds b → b.attempts ≤ a.attempts := by
    intro a b ha hb
    by_contra hlt
    have hfailed := hb.failed a.attempts ha.attempts_pos (not_le.1 hlt)
    have hgiven := ha.given_up (ha.last.symm.trans hfailed)
    exact hlt (hgiven ▸ hb.attempts_le)
  have hattempts : first.attempts = second.attempts :=
    le_antisymm (hle hsecond hfirst) (hle hfirst hsecond)
  have hok : first.ok = second.ok := by
    rw [← hfirst.last, ← hsecond.last, hattempts]
  obtain ⟨attempts, ok⟩ := first
  obtain ⟨attempts', ok'⟩ := second
  exact congrArg₂ Appended.mk hattempts hok

/-! ### Messages -/

/-- The document of a frame. -/
def document (json : JsonLib) (frame : Frame) : Option Value :=
  match utf8Decode frame with
  | none => none
  | some text =>
    match json.loads text with
    | .value v => some v
    | _ => none

/-- The event of a message, with its stream. -/
def eventOf (json : JsonLib) : List Frame → Option (String × DecodedEvent)
  | [_, operation, contentType, envelope, _] =>
    if (utf8Decode operation).isSome ∧ (utf8Decode contentType).isSome then
      (document json envelope).bind eventOfEnvelope
    else none
  | _ => none

/-- The messages that the loop survives: its frames are not those of a command, its envelope is no
JSON, or the operation, the content type and the envelope are as the code relies on. -/
def MessageSafe (json : JsonLib) : List Frame → Prop
  | [_, operation, contentType, envelope, _] =>
    (∃ err, loadFrame json malformedEnvelopeError envelope = .ok (.error err)) ∨
      (utf8Decode operation).isSome ∧ (utf8Decode contentType).isSome ∧
        ∃ v, document json envelope = some v ∧ EnvelopeSafe v
  | _ => True

/-- An event is appended to its stream or given up after the configured attempts, and any other message
is dropped. -/
def AsClaimed (json : JsonLib) (maxAttempts : ℕ) (succeeds : ℕ → Bool) (frames : List Frame) : Prop :=
  match eventOf json frames with
  | none => handleFrames json maxAttempts succeeds frames = .ok none
  | some (stream, event) => ∃ appended, OfferedAsConfigured maxAttempts succeeds appended ∧
      handleFrames json maxAttempts succeeds frames = .ok (some { stream, event, appended })

/-- The document of a frame is what is loaded from it. -/
theorem document_eq_some {frame : Frame} {v : Value} :
    document json frame = some v ↔
      loadFrame json malformedEnvelopeError frame = .ok (.ok v) := by
  unfold document loadFrame
  cases utf8Decode frame with
  | none => simp
  | some text => cases hloads : json.loads text <;> simp [hloads]

theorem decodeText_eq_ok {frame : Frame} {text : String} :
    decodeText frame = .ok text ↔ utf8Decode frame = some text := by
  unfold decodeText
  cases utf8Decode frame <;> simp

/-- The steps that a message of five frames goes through. -/
theorem handleFrames_five (identity operation contentType envelope payload : Frame) :
    handleFrames json maxAttempts succeeds [identity, operation, contentType, envelope, payload] =
      (do
        match ← loadFrame json malformedEnvelopeError envelope with
        | .error _ => return none
        | .ok v =>
          let _ ← decodeText operation
          let _ ← decodeText contentType
          handleEnvelope maxAttempts succeeds v) := by
  unfold handleFrames decodeCommand
  dsimp only
  cases loadFrame json malformedEnvelopeError envelope with
  | error e => rfl
  | ok loaded =>
    cases loaded with
    | error err => rfl
    | ok v => cases decodeText operation <;> cases decodeText contentType <;> rfl

theorem asClaimed_of_eventOf {event : Option (String × DecodedEvent)}
    (h : eventOf json frames = event) :
    AsClaimed json maxAttempts succeeds frames ↔
      handleFrames json maxAttempts succeeds frames =
        .ok (event.map (offered maxAttempts succeeds)) := by
  unfold AsClaimed
  rw [h]
  cases event with
  | none => rfl
  | some event =>
    constructor
    · rintro ⟨appended, hoffered, hhandle⟩
      rw [hhandle, hoffered.eq (offeredAsConfigured maxAttempts succeeds)]
      rfl
    · exact fun hhandle => ⟨_, offeredAsConfigured maxAttempts succeeds, hhandle⟩

/-- A text that the operation or the content type is not. -/
theorem decodeText_eq_error {frame : Frame} (h : ¬ (utf8Decode frame).isSome) :
    decodeText frame = .error .unicodeDecodeError := by
  unfold decodeText
  rw [Option.not_isSome_iff_eq_none.1 h]

/-- A message of five frames. -/
theorem handleFrames_five_returnsWhen (identity operation contentType envelope payload : Frame) :
    let frames := [identity, operation, contentType, envelope, payload]
    ReturnsWhen (MessageSafe json frames) (handleFrames json maxAttempts succeeds frames)
      ((eventOf json frames).map (offered maxAttempts succeeds)) := by
  intro frames
  rw [handleFrames_five]
  simp only [frames, eventOf, MessageSafe]
  cases hload : loadFrame json malformedEnvelopeError envelope with
  | error e =>
    refine Or.inr ⟨?_, e, rfl⟩
    rintro (⟨err, herr⟩ | ⟨-, -, v, hv, -⟩)
    · cases herr
    · rw [document_eq_some, hload] at hv
      cases hv
  | ok loaded =>
    cases loaded with
    | error err =>
      have hnone : document json envelope = none := by
        refine Option.eq_none_iff_forall_ne_some.2 fun v hv => ?_
        rw [document_eq_some, hload] at hv
        cases hv
      refine Or.inl ⟨Or.inl ⟨err, rfl⟩, ?_⟩
      rw [hnone, Option.bind_none, ite_self]
      rfl
    | ok v =>
      have hv : document json envelope = some v := document_eq_some.2 hload
      have hnot : ¬ ∃ err, (.ok (.ok v) : Except PyException (Except AxoError Value)) =
          .ok (.error err) := by
        rintro ⟨err, herr⟩
        cases herr
      by_cases htexts : (utf8Decode operation).isSome ∧ (utf8Decode contentType).isSome
      · obtain ⟨operation', hoperation⟩ := Option.isSome_iff_exists.1 htexts.1
        obtain ⟨contentType', hcontentType⟩ := Option.isSome_iff_exists.1 htexts.2
        rw [if_pos htexts, hv, Option.bind_some, decodeText_eq_ok.2 hoperation,
          decodeText_eq_ok.2 hcontentType]
        refine (handleEnvelope_returnsWhen v).congr ⟨?_, ?_⟩
        · exact fun h => Or.inr ⟨htexts.1, htexts.2, v, rfl, h⟩
        · rintro (herr | ⟨-, -, v', hv', h⟩)
          · exact absurd herr hnot
          · rwa [Option.some.inj hv']
      · refine Or.inr ⟨?_, ?_⟩
        · rintro (herr | ⟨hoperation, hcontentType, -⟩)
          · exact hnot herr
          · exact htexts ⟨hoperation, hcontentType⟩
        · cases hoperation : decodeText operation with
          | error e => exact ⟨e, rfl⟩
          | ok text =>
            have hcontentType : ¬ (utf8Decode contentType).isSome := fun h =>
              htexts ⟨Option.isSome_iff_exists.2 ⟨text, decodeText_eq_ok.1 hoperation⟩, h⟩
            rw [decodeText_eq_error hcontentType]
            exact ⟨_, rfl⟩

/-- Any message is handled as it should be, or raises. -/
theorem handleFrames_returnsWhen (frames : List Frame) :
    ReturnsWhen (MessageSafe json frames) (handleFrames json maxAttempts succeeds frames)
      ((eventOf json frames).map (offered maxAttempts succeeds)) := by
  rcases frames with _ | ⟨identity, _ | ⟨operation, _ | ⟨contentType, _ | ⟨envelope, _ | ⟨payload,
    _ | ⟨more, rest⟩⟩⟩⟩⟩⟩
  · exact Or.inl ⟨trivial, rfl⟩
  · exact Or.inl ⟨trivial, rfl⟩
  · exact Or.inl ⟨trivial, rfl⟩
  · exact Or.inl ⟨trivial, rfl⟩
  · exact Or.inl ⟨trivial, rfl⟩
  · exact handleFrames_five_returnsWhen identity operation contentType envelope payload
  · exact Or.inl ⟨trivial, rfl⟩

/-- The loop does as it should with the messages that are safe, and with no others. -/
theorem handleFrames_asClaimed_iff (json : JsonLib) (maxAttempts : ℕ) (succeeds : ℕ → Bool)
    (frames : List Frame) :
    AsClaimed json maxAttempts succeeds frames ↔ MessageSafe json frames := by
  rw [asClaimed_of_eventOf rfl]
  exact (handleFrames_returnsWhen frames).eq_iff

/-- An event of a type that has no stream. -/
def rebootedEvent : Value :=
  .dict [("event_type", .str "NodeRebooted"), ("endpoint_id", .str "e1"), ("data", .dict [])]

/-- The message that carries it. -/
def rebootedText : String :=
  "\x7b\"event_type\": \"NodeRebooted\", \"endpoint_id\": \"e1\", \"data\": \x7b\x7d\x7d"

/-- It was to be dropped, and raises. -/
theorem ingestion_nodeRebooted :
    let json := jsonOf rebootedEvent rebootedText
    let frames := [utf8Encode "id"] ++
      encodeCommand json ⟨"EVENT_PUBLISH", "application/json", rebootedEvent, []⟩
    handleFrames json 10 (fun _ => true) frames = .error .valueError ∧
      ¬ AsClaimed json 10 (fun _ => true) frames := by
  intro json frames
  have hraise : handleFrames json 10 (fun _ => true) frames = .error .valueError := by
    decide +kernel
  have hevent : eventOf json frames = none := by decide +kernel
  refine ⟨hraise, fun h => ?_⟩
  rw [asClaimed_of_eventOf hevent, hraise] at h
  cases h

/-- The loop goes through all messages when they are safe, and ends with the first that is not. -/
theorem ingest_returns_iff (succeeds : ℕ → ℕ → Bool) (messages : List (List Frame)) (no : ℕ) :
    Returns (ingest json maxAttempts succeeds no messages) ↔
      ∀ frames ∈ messages, MessageSafe json frames := by
  induction messages generalizing no with
  | nil => exact iff_of_true (returns_ok _) fun _ h => absurd h List.not_mem_nil
  | cons frames rest ih =>
    have hfirst := @handleFrames_returnsWhen json maxAttempts (succeeds no) frames
    rw [List.forall_mem_cons, ← ih (no + 1), ← hfirst.returns_iff, ingest, returns_bind]
    constructor
    · rintro ⟨first, hfirst, hrest⟩
      obtain ⟨others, hothers, -⟩ := returns_bind.1 hrest
      exact ⟨⟨first, hfirst⟩, others, hothers⟩
    · rintro ⟨⟨first, hfirst⟩, others, hothers⟩
      exact ⟨first, hfirst, returns_bind.2 ⟨others, hothers, returns_ok _⟩⟩

end Axo
