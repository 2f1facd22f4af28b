/-
  The options of the mock driver (`protocols/mock.py`).

  A `MockTagBehavior` has at most one mode, and an error mode has both of its texts.
  `fromProtocolOptions_eq_ok_iff` says which options are accepted: every option has its
  type, and every tag behaviour is well formed.  Of two entries whose keys differ in
  surrounding whitespace only, the later one counts.
-/
import PlcGateway.Domain.Configuration
import PlcGateway.Library.Tables

namespace PlcGateway

open Fallible Tables

/-- A configured value, or the default value of a binary tag. -/
inductive RawValue where
  | json (x : Json)
  | bytes (b : Bytes)

/-- How many modes are enabled. -/
def enabledModes (value : Option Json) (sequence : List Json) (errorCode errorMessage : Option Stripped) :
    ℕ :=
  value.isSome.toNat + (!sequence.isEmpty).toNat + (errorCode.isSome || errorMessage.isSome).toNat

/-- The behaviour configured for one mock tag; no value stands for `None`. -/
structure MockTagBehavior where
  value : Option Json
  sequence : List Json
  errorCode : Option Stripped
  errorMessage : Option Stripped
  one_mode : enabledModes value sequence errorCode errorMessage ≤ 1
  both : errorCode.isSome = errorMessage.isSome

def mockTagBehaviorError (message : String) : PyError :=
  ⟨.configurationError, "ConfigurationError", message, .text "invalid_mock_tag_behavior"⟩

def mockOptionsError (message : String) : PyError :=
  ⟨.configurationError, "ConfigurationError", message, .text "invalid_mock_options"⟩

/-- `MockTagBehavior.__post_init__` -/
def MockTagBehavior.init (value : Option Json) (sequence : List Json)
    (errorCode errorMessage : Option Stripped) : Except PyError MockTagBehavior :=
  if one_mode : enabledModes value sequence errorCode errorMessage ≤ 1 then
    if both : errorCode.isSome = errorMessage.isSome then
      .ok { value, sequence, errorCode, errorMessage, one_mode, both }
    else .error (mockTagBehaviorError
      "Mock tag error behavior requires error_code and error_message.")
  else .error (mockTagBehaviorError
    "Mock tag behavior must define only one of value, sequence, or error.")

structure MockDriverConfig where
  delayMs : ℕ
  connectFailuresBeforeSuccess : ℕ
  timeoutOnRead : Bool
  timeoutOnConnect : Bool
  tagBehaviors : Table String MockTagBehavior

/-! ## Reading the options -/

namespace MockOptions

/-- `_require_non_negative` -/
def requireNonNegative (value : ℤ) (fieldName : String) : Except PyError ℕ :=
  if value < 0 then
    .error (mockOptionsError s!"Mock protocol option '{fieldName}' must be non-negative.")
  else .ok value.toNat

/-- `_read_non_negative_int`, with the default 0 -/
def readNonNegativeInt (options : JsonDict) (key : String) : Except PyError ℕ :=
  match (options.lookup key).getD (.int 0) with
  | .int value => requireNonNegative value key
  | _ => .error (mockOptionsError s!"Mock protocol option '{key}' must be a non-negative integer.")

/-- `_read_bool`, with the default `False` -/
def readBool (options : JsonDict) (key : String) : Except PyError Bool :=
  match (options.lookup key).getD (.bool false) with
  | .bool value => .ok value
  | _ => .error (mockOptionsError s!"Mock protocol option '{key}' must be a boolean.")

/-- `_optional_str` -/
def optionalStr (value : Json) (fieldName : String) : Except PyError (Option Stripped) :=
  match value with
  | .null => .ok none
  | .str s => .ok (Stripped.ofText s)
  | _ => .error (mockOptionsError s!"Mock tag field '{fieldName}' must be a string.")

/-- The sequence of `_read_tag_behavior`. -/
def readSequence : Option Json → Except PyError (List Json)
  | none => .ok []
  | some (.list []) => .error (mockOptionsError "Mock tag sequence cannot be empty.")
  | some (.list (x :: xs)) => .ok (x :: xs)
  | some _ => .error (mockOptionsError "Mock tag sequence must be an array.")

/-- The value of `_read_tag_behavior`: a JSON null is `None`. -/
def readValue (raw : JsonDict) : Option Json :=
  match raw.get "value" with
  | .null => none
  | x => some x

/-- `_read_tag_behavior` -/
def readTagBehavior (raw : JsonDict) : Except PyError MockTagBehavior := do
  let errorCode ← optionalStr (raw.get "error_code") "error_code"
  let errorMessage ← optionalStr (raw.get "error_message") "error_message"
  let sequence ← readSequence (raw.lookup "sequence")
  MockTagBehavior.init (readValue raw) sequence errorCode errorMessage

/-- The entry of one tag in `_read_tag_behaviors`. -/
def readTagEntry (entry : String × Json) : Except PyError (String × MockTagBehavior) :=
  if strip entry.1 = "" then
    .error (mockOptionsError "Mock tag behavior keys must be non-empty strings.")
  else match entry.2 with
    | .dict raw => (strip entry.1, ·) <$> readTagBehavior raw
    | _ => .error (mockOptionsError s!"Mock tag behavior for '{entry.1}' must be an object.")

/-- `_read_tag_behaviors` -/
def readTagBehaviors (options : JsonDict) : Except PyError (Table String MockTagBehavior) :=
  match (options.lookup "tags").getD (.dict []) with
  | .dict tags => (insertAll · ∅) <$> tags.mapM readTagEntry
  | _ => .error (mockOptionsError "Mock protocol option 'tags' must be an object.")

end MockOptions

open MockOptions in
/-- `MockDriverConfig.from_protocol_options` -/
def MockDriverConfig.fromProtocolOptions (options : JsonDict) : Except PyError MockDriverConfig := do
  let delayMs ← readNonNegativeInt options "delay_ms"
  let connectFailuresBeforeSuccess ← readNonNegativeInt options "connect_failures_before_success"
  let timeoutOnRead ← readBool options "timeout_on_read"
  let timeoutOnConnect ← readBool options "timeout_on_connect"
  let tagBehaviors ← readTagBehaviors options
  return { delayMs, connectFailuresBeforeSuccess, timeoutOnRead, timeoutOnConnect, tagBehaviors }

/-! ## What is accepted -/

namespace MockOptions

/-- The option is absent, and `default` stands for it, or it is `value` itself. -/
def HoldsOption (options : JsonDict) (key : String) (default value : Json) : Prop :=
  (options.lookup key).getD default = value

/-- A text option: blank texts count as absent. -/
def HoldsText (raw : JsonDict) (key : String) (text : Option Stripped) : Prop :=
  raw.get key = .null ∧ text = none ∨ ∃ s, raw.get key = .str s ∧ text = Stripped.ofText s

/-- The behaviour that an object describes. -/
structure Describes (raw : JsonDict) (b : MockTagBehavior) : Prop where
  value : b.value = readValue raw
  sequence : raw.lookup "sequence" = none ∧ b.sequence = [] ∨
    raw.lookup "sequence" = some (.list b.sequence) ∧ b.sequence ≠ []
  errorCode : HoldsText raw "error_code" b.errorCode
  errorMessage : HoldsText raw "error_message" b.errorMessage

/-- The entry describes a behaviour under a key that is not blank. -/
def Entry (entry : String × Json) (b : MockTagBehavior) : Prop :=
  strip entry.1 ≠ "" ∧ ∃ raw, entry.2 = .dict raw ∧ Describes raw b

variable {options raw : JsonDict} {key : String}

theorem readNonNegativeInt_eq_ok_iff {n : ℕ} :
    readNonNegativeInt options key = .ok n ↔ HoldsOption options key (.int 0) (.int n) := by
  rw [readNonNegativeInt, HoldsOption]
  cases (options.lookup key).getD (.int 0) with
  | int value =>
    simp only [requireNonNegative, Json.int.injEq]
    split_ifs with hneg
    · refine iff_of_false (by rintro ⟨⟩) ?_
      rintro rfl
      omega
    · rw [Except.ok.injEq]
      omega
  | null | bool | float | str | list | dict => exact iff_of_false (by rintro ⟨⟩) (by rintro ⟨⟩)

theorem readBool_eq_ok_iff {b : Bool} :
    readBool options key = .ok b ↔ HoldsOption options key (.bool false) (.bool b) := by
  rw [readBool, HoldsOption]
  cases (options.lookup key).getD (.bool false) with
  | bool value => rw [Except.ok.injEq, Json.bool.injEq]
  | null | int | float | str | list | dict => exact iff_of_false (by rintro ⟨⟩) (by rintro ⟨⟩)

theorem optionalStr_eq_ok_iff {text : Option Stripped} :
    optionalStr (raw.get key) key = .ok text ↔ HoldsText raw key text := by
  rw [HoldsText]
  cases raw.get key with
  | null =>
    constructor
    · intro h
      cases h
      exact Or.inl ⟨rfl, rfl⟩
    · rintro (⟨-, rfl⟩ | ⟨s, h, -⟩)
      · rfl
      · cases h
  | str s =>
    constructor
    · intro h
      cases h
      exact Or.inr ⟨s, rfl, rfl⟩
    · rintro (⟨h, -⟩ | ⟨s', h, rfl⟩)
      · cases h
      · cases h
        rfl
  | bool | int | float | list | dict =>
    refine iff_of_false (by rintro ⟨⟩) ?_
    rintro (⟨h, -⟩ | ⟨s, h, -⟩) <;> cases h

theorem readSequence_eq_ok_iff {o : Option Json} {xs : List Json} :
    readSequence o = .ok xs ↔ o = none ∧ xs = [] ∨ o = some (.list xs) ∧ xs ≠ [] := by
  cases o with
  | none =>
    constructor
    · intro h
      cases h
      exact Or.inl ⟨rfl, rfl⟩
    · rintro (⟨-, rfl⟩ | ⟨h, -⟩)
      · rfl
      · cases h
  | some x =>
    cases x with
    | list items =>
      cases items with
      | nil =>
        refine iff_of_false (by rintro ⟨⟩) ?_
        rintro (⟨h, -⟩ | ⟨h, hne⟩)
        · cases h
        · cases h
          exact hne rfl
      | cons y ys =>
        constructor
        · intro h
          cases h
          exact Or.inr ⟨rfl, List.cons_ne_nil y ys⟩
        · rintro (⟨h, -⟩ | ⟨h, -⟩)
          · cases h
          · cases h
            rfl
    | null | bool | int | float | str | dict =>
      refine iff_of_false (by rintro ⟨⟩) ?_
      rintro (⟨h, -⟩ | ⟨h, -⟩) <;> cases h

theorem init_eq_ok_iff {value : Option Json} {sequence : List Json}
    {errorCode errorMessage : Option Stripped} {b : MockTagBehavior} :
    MockTagBehavior.init value sequence errorCode errorMessage = .ok b ↔
      b.value = value ∧ b.sequence = sequence ∧ b.errorCode = errorCode ∧
        b.errorMessage = errorMessage := by
  rw [MockTagBehavior.init]
  constructor
  · intro h
    split_ifs at h
    cases h
    exact ⟨rfl, rfl, rfl, rfl⟩
  · obtain ⟨value, sequence, errorCode, errorMessage, one_mode, both⟩ := b
    rintro ⟨rfl, rfl, rfl, rfl⟩
    rw [dif_pos one_mode, dif_pos both]

theorem readTagBehavior_eq_ok_iff {b : MockTagBehavior} :
    readTagBehavior raw = .ok b ↔ Describes raw b := by
  simp only [readTagBehavior, bind_eq_ok_iff, optionalStr_eq_ok_iff, readSequence_eq_ok_iff,
    init_eq_ok_iff]
  constructor
  · rintro ⟨_, hcode, _, hmessage, _, hsequence, hvalue, rfl, rfl, rfl⟩
    exact ⟨hvalue, hsequence, hcode, hmessage⟩
  · rintro ⟨hvalue, hsequence, hcode, hmessage⟩
    exact ⟨_, hcode, _, hmessage, _, hsequence, hvalue, rfl, rfl, rfl⟩

theorem readTagEntry_eq_ok_iff {entry : String × Json} {r : String × MockTagBehavior} :
    readTagEntry entry = .ok r ↔ r.1 = strip entry.1 ∧ Entry entry r.2 := by
  rw [readTagEntry, Entry]
  split_ifs with hblank
  · exact iff_of_false (by rintro ⟨⟩) fun h => h.2.1 hblank
  · cases hvalue : entry.2 with
    | dict raw =>
      simp only
      cases hread : readTagBehavior raw with
      | error e =>
        refine iff_of_false (by rintro ⟨⟩) ?_
        rintro ⟨-, -, raw', hraw', hdescribes⟩
        cases hraw'
        rw [readTagBehavior_eq_ok_iff.2 hdescribes] at hread
        cases hread
      | ok b =>
        constructor
        · intro h
          cases h
          exact ⟨rfl, hblank, raw, rfl, readTagBehavior_eq_ok_iff.1 hread⟩
        · obtain ⟨id, b'⟩ := r
          rintro ⟨rfl, -, raw', hraw', hdescribes⟩
          cases hraw'
          rw [readTagBehavior_eq_ok_iff.2 hdescribes] at hread
          cases hread
          rfl
    | null | bool | int | float | str | list =>
      refine iff_of_false (by rintro ⟨⟩) ?_
      rintro ⟨-, -, raw, hraw, -⟩
      cases hraw

theorem Entry.unique {entry : String × Json} {b b' : MockTagBehavior} (h : Entry entry b)
    (h' : Entry entry b') : b = b' := by
  have hread : readTagEntry entry = .ok (strip entry.1, b) := readTagEntry_eq_ok_iff.2 ⟨rfl, h⟩
  have hread' : readTagEntry entry = .ok (strip entry.1, b') := readTagEntry_eq_ok_iff.2 ⟨rfl, h'⟩
  rw [hread] at hread'
  exact congrArg Prod.snd (Except.ok.inj hread')

/-- The behaviour under an id is that of the last of its entries. -/
def Latest (tags : List (String × Json)) (id : String) (behavior : Option MockTagBehavior) : Prop :=
  match tags.reverse.find? fun entry => strip entry.1 = id with
  | none => behavior = none
  | some entry => ∃ b, behavior = some b ∧ Entry entry b

/-- The behaviours that the options describe. -/
def HoldsTags (options : JsonDict) (behaviors : Table String MockTagBehavior) : Prop :=
  ∃ tags, HoldsOption options "tags" (.dict []) (.dict tags) ∧ (∀ entry ∈ tags, ∃ b, Entry entry b) ∧
    ∀ id, Latest tags id (behaviors.lookup id)

theorem Latest.unique {tags : List (String × Json)} {id : String} {o o' : Option MockTagBehavior}
    (h : Latest tags id o) (h' : Latest tags id o') : o = o' := by
  rw [Latest] at h h'
  cases hfind : tags.reverse.find? fun entry => strip entry.1 = id with
  | none =>
    rw [hfind] at h h'
    exact h.trans h'.symm
  | some entry =>
    rw [hfind] at h h'
    obtain ⟨b, rfl, hb⟩ := h
    obtain ⟨b', rfl, hb'⟩ := h'
    rw [hb.unique hb']

theorem latest_insertAll {tags : List (String × Json)} {rows : List (String × MockTagBehavior)}
    (h : List.Forall₂ (fun entry row => readTagEntry entry = .ok row) tags rows) (id : String) :
    Latest tags id ((insertAll rows ∅).lookup id) := by
  rw [lookup_insertAll, Finmap.lookup_empty, Option.or_none, Latest]
  have hreverse := List.forall₂_reverse_iff.2 h
  -- from the last entry on
  generalize tags.reverse = entries at hreverse ⊢
  generalize rows.reverse = found at hreverse ⊢
  induction hreverse with
  | nil => rfl
  | @cons entry row entries rows hrow _ ih =>
    obtain ⟨hid, hentry⟩ := readTagEntry_eq_ok_iff.1 hrow
    rw [List.find?_cons, List.lookup_cons, hid]
    by_cases heq : strip entry.1 = id
    · rw [heq, decide_eq_true rfl, beq_self_eq_true]
      exact ⟨row.2, rfl, hentry⟩
    · rw [decide_eq_false heq, beq_false_of_ne (Ne.symm heq)]
      exact ih

theorem readTagBehaviors_eq_ok_iff {behaviors : Table String MockTagBehavior} :
    readTagBehaviors options = .ok behaviors ↔ HoldsTags options behaviors := by
  rw [readTagBehaviors, HoldsTags]
  simp only [HoldsOption]
  cases (options.lookup "tags").getD (.dict []) with
  | dict tags =>
    simp only [Json.dict.injEq, exists_eq_left']
    cases hread : tags.mapM readTagEntry with
    | error e =>
      refine iff_of_false (by rintro ⟨⟩) ?_
      rintro ⟨hentries, -⟩
      obtain ⟨rows, hrows⟩ : ∃ rows, tags.mapM readTagEntry = .ok rows := by
        refine exists_mapM_eq_ok_iff.2 fun entry hentry => ?_
        obtain ⟨b, hb⟩ := hentries entry hentry
        exact ⟨(strip entry.1, b), readTagEntry_eq_ok_iff.2 ⟨rfl, hb⟩⟩
      rw [hrows] at hread
      cases hread
    | ok rows =>
      have hrows := mapM_eq_ok_iff.1 hread
      constructor
      · intro h
        cases h
        refine ⟨fun entry hentry => ?_, latest_insertAll hrows⟩
        obtain ⟨row, -, hrow⟩ := exists_of_mem_left hrows hentry
        exact ⟨row.2, (readTagEntry_eq_ok_iff.1 hrow).2⟩
      · rintro ⟨-, hlatest⟩
        refine congrArg Except.ok (Finmap.ext_lookup fun id => ?_)
        exact (latest_insertAll hrows id).unique (hlatest id)
  | null | bool | int | float | str | list =>
    refine iff_of_false (by rintro ⟨⟩) ?_
    rintro ⟨tags, h, -⟩
    cases h

end MockOptions

open MockOptions in
/-- **When the options of a mock connection are accepted**, and what they configure. -/
theorem MockDriverConfig.fromProtocolOptions_eq_ok_iff {options : JsonDict}
    {config : MockDriverConfig} :
    fromProtocolOptions options = .ok config ↔
      HoldsOption options "delay_ms" (.int 0) (.int config.delayMs) ∧
      HoldsOption options "connect_failures_before_success" (.int 0)
        (.int config.connectFailuresBeforeSuccess) ∧
      HoldsOption options "timeout_on_read" (.bool false) (.bool config.timeoutOnRead) ∧
      HoldsOption options "timeout_on_connect" (.bool false) (.bool config.timeoutOnConnect) ∧
      HoldsTags options config.tagBehaviors := by
  simp only [fromProtocolOptions, bind_eq_ok_iff, pure_eq_ok_iff, readNonNegativeInt_eq_ok_iff,
    readBool_eq_ok_iff, readTagBehaviors_eq_ok_iff]
  constructor
  · rintro ⟨_, hdelay, _, hfailures, _, hread, _, hconnect, _, htags, rfl⟩
    exact ⟨hdelay, hfailures, hread, hconnect, htags⟩
  · rintro ⟨hdelay, hfailures, hread, hconnect, htags⟩
    exact ⟨_, hdelay, _, hfailures, _, hread, _, hconnect, _, htags, rfl⟩

end PlcGateway
