/-
  The domain models (`domain/models.py`).

  The validation in `__post_init__` is in the types: a `Stripped` is a non-empty
  text without surrounding whitespace, a `TagValue` has exactly one payload, a
  `TagResult` is a success with a value or a failure with error details, and a
  `PollExecution` has consistent times and counts.  The `init` functions are the
  constructors of the source, which take unchecked arguments.
-/
import PlcGateway.Domain.Exceptions
import PlcGateway.Library.Calendar
import Mathlib.Data.List.DropRight

namespace PlcGateway

open Calendar

/-! ## Texts -/

/-- The characters that `str.strip` removes. -/
def isSpace (c : Char) : Bool :=
  let n := c.toNat
  (9 ≤ n && n ≤ 13) || (28 ≤ n && n ≤ 32) || n == 0x85 || n == 0xA0 || n == 0x1680 ||
    (0x2000 ≤ n && n ≤ 0x200A) || n == 0x2028 || n == 0x2029 || n == 0x202F || n == 0x205F ||
    n == 0x3000

def stripChars (l : List Char) : List Char := (l.dropWhile isSpace).rdropWhile isSpace

/-- `str.strip` -/
def strip (s : String) : String := String.ofList (stripChars s.toList)

theorem stripChars_idem (l : List Char) : stripChars (stripChars l) = stripChars l := by
  unfold stripChars
  have h : ((l.dropWhile isSpace).rdropWhile isSpace).dropWhile isSpace =
      (l.dropWhile isSpace).rdropWhile isSpace := by
    rw [List.dropWhile_eq_self_iff]
    intro hl
    have hp := List.rdropWhile_prefix isSpace (l.dropWhile isSpace)
    rw [hp.getElem hl]
    have hi := List.dropWhile_idempotent (p := isSpace) l
    exact List.dropWhile_eq_self_iff.1 hi (hl.trans_le hp.length_le)
  rw [h]
  exact List.rdropWhile_idempotent isSpace _

theorem strip_idem (s : String) : strip (strip s) = strip s := by
  simp only [strip, String.toList_ofList, stripChars_idem]

/-- A text with a character that is no space is not blank. -/
theorem strip_ne_empty {s : String} {c : Char} (hc : c ∈ s.toList) (hspace : isSpace c = false) :
    strip s ≠ "" := by
  intro hempty
  have hnil : stripChars s.toList = [] := by
    have := congrArg String.toList hempty
    rwa [strip, String.toList_ofList] at this
  rw [stripChars, List.rdropWhile_eq_nil_iff] at hnil
  rw [← List.takeWhile_append_dropWhile (p := isSpace) (l := s.toList), List.mem_append] at hc
  rcases hc with hc | hc
  · rw [List.mem_takeWhile_imp hc] at hspace
    cases hspace
  · rw [hnil c hc] at hspace
    cases hspace

/-- A non-empty text without surrounding whitespace. -/
structure Stripped where
  text : String
  ne : text ≠ ""
  stripped : strip text = text
  deriving DecidableEq, Repr

@[ext] theorem Stripped.ext {a b : Stripped} (h : a.text = b.text) : a = b := by
  cases a; cases b; cases h; rfl

theorem Stripped.strip_ne (a : Stripped) : strip a.text ≠ "" := by
  rw [a.stripped]
  exact a.ne

/-- `value.strip()`, if something is left. -/
def Stripped.ofText (s : String) : Option Stripped :=
  if h : strip s ≠ "" then some ⟨strip s, h, strip_idem s⟩ else none

theorem Stripped.ofText_text (a : Stripped) : ofText a.text = some a := by
  obtain ⟨t, ne, hs⟩ := a
  simp only [ofText, hs, ne_eq, ne, not_false_eq_true, dite_true]

theorem Stripped.ofText_eq_some_iff {s : String} {a : Stripped} :
    ofText s = some a ↔ a.text = strip s := by
  rw [ofText]
  split_ifs with h
  · rw [Option.some.injEq, Stripped.ext_iff, eq_comm]
  · rw [not_not] at h
    rw [h]
    exact iff_of_false nofun a.ne

theorem Stripped.ofText_eq_none_iff {s : String} : ofText s = none ↔ strip s = "" := by
  rw [ofText]
  split_ifs with h
  · exact iff_of_false nofun h
  · exact iff_of_true rfl (not_not.1 h)

/-- `_set_stripped` -/
def setStripped (fieldName value : String) : Except PyError Stripped :=
  match Stripped.ofText value with
  | some s => .ok s
  | none => .error (.configuration s!"{fieldName} cannot be empty.")

/-- `_set_optional_stripped` -/
def setOptionalStripped (value : Option String) : Option Stripped := value.bind Stripped.ofText

@[simp] theorem setStripped_text (f : String) (a : Stripped) : setStripped f a.text = .ok a := by
  rw [setStripped, Stripped.ofText_text]

@[simp] theorem setOptionalStripped_text (a : Option Stripped) :
    setOptionalStripped (a.map Stripped.text) = a := by
  cases a with
  | none => rfl
  | some a => rw [setOptionalStripped, Option.map_some, Option.bind_some, Stripped.ofText_text]

/-! ## Enumerations -/

inductive Quality where
  | good
  | uncertain
  | bad
  deriving DecidableEq, Repr

inductive ValueType where
  | numeric
  | integer
  | boolean
  | text
  | binary
  deriving DecidableEq, Repr

inductive WorkerState where
  | stopped
  | starting
  | running
  | degraded
  | stopping
  | failed
  deriving DecidableEq, Repr

inductive PollStatus where
  | running
  | success
  | partialFailure
  | failed
  | skipped
  | cancelled
  deriving DecidableEq, Repr

/-- `Quality.value` -/
def Quality.value : Quality → String
  | good => "good"
  | uncertain => "uncertain"
  | bad => "bad"

/-- `ValueType.value` -/
def ValueType.value : ValueType → String
  | numeric => "numeric"
  | integer => "integer"
  | boolean => "boolean"
  | text => "text"
  | binary => "binary"

/-- `PollStatus.value` -/
def PollStatus.value : PollStatus → String
  | running => "running"
  | success => "success"
  | partialFailure => "partial_failure"
  | failed => "failed"
  | skipped => "skipped"
  | cancelled => "cancelled"

/-- `Quality(value)` -/
def Quality.ofValue : String → Except PyError Quality
  | "good" => .ok good
  | "uncertain" => .ok uncertain
  | "bad" => .ok bad
  | s => .error (.valueError s!"'{s}' is not a valid Quality")

/-- `ValueType(value)` -/
def ValueType.ofValue : String → Except PyError ValueType
  | "numeric" => .ok numeric
  | "integer" => .ok integer
  | "boolean" => .ok boolean
  | "text" => .ok text
  | "binary" => .ok binary
  | s => .error (.valueError s!"'{s}' is not a valid ValueType")

/-- `PollStatus(value)` -/
def PollStatus.ofValue : String → Except PyError PollStatus
  | "running" => .ok running
  | "success" => .ok success
  | "partial_failure" => .ok partialFailure
  | "failed" => .ok failed
  | "skipped" => .ok skipped
  | "cancelled" => .ok cancelled
  | s => .error (.valueError s!"'{s}' is not a valid PollStatus")

@[simp] theorem Quality.ofValue_value (q : Quality) : ofValue q.value = .ok q := by cases q <;> rfl

@[simp] theorem ValueType.ofValue_value (t : ValueType) : ofValue t.value = .ok t := by
  cases t <;> rfl

@[simp] theorem PollStatus.ofValue_value (p : PollStatus) : ofValue p.value = .ok p := by
  cases p <;> rfl

/-! ## Values -/

/-- The bits of a double that are a NaN. -/
def isNaNBits (b : BitVec 64) : Bool :=
  b.extractLsb' 52 11 == 0x7FF && b.extractLsb' 0 52 != 0

def nanBits : BitVec 64 := 0x7FF8000000000000

/-- A Python float: the bits of an IEEE-754 double, with one NaN. -/
structure PyFloat where
  bits : BitVec 64
  one_nan : isNaNBits bits → bits = nanBits
  deriving DecidableEq, Repr

namespace PyFloat

def ofBits (b : BitVec 64) : PyFloat :=
  if h : isNaNBits b then ⟨nanBits, fun _ => rfl⟩ else ⟨b, fun h' => absurd h' h⟩

/-- `math.isnan` -/
def isNaN (x : PyFloat) : Bool := isNaNBits x.bits

/-- `float(n)`: the nearest double, ties to even. -/
def ofInt (n : ℤ) : Except PyError PyFloat :=
  let m := n.natAbs
  let exponent := m.log2
  let rounded :=
    if exponent ≤ 52 then m * 2 ^ (52 - exponent)
    else
      let unit := 2 ^ (exponent - 52)
      let half := unit / 2
      let q := m / unit
      let r := m % unit
      if half < r ∨ half = r ∧ q % 2 = 1 then q + 1 else q
  -- a rounding up to the next power of two carries into the exponent
  let magnitude := if m = 0 then 0 else (exponent + 1022) * 2 ^ 52 + rounded
  if 0x7FF * 2 ^ 52 ≤ magnitude then throw (.overflowError "int too large to convert to float")
  else return ofBits (BitVec.ofNat 64 (magnitude + if n < 0 then 2 ^ 63 else 0))

end PyFloat

/-- Bytes of a Python `bytes` object. -/
abbrev Bytes := List UInt8

/-- A normalized value with its type: exactly one payload, of the value type. -/
inductive TagValue where
  | numeric (x : PyFloat)
  | integer (n : ℤ)
  | boolean (b : Bool)
  | text (s : String)
  | binary (b : Bytes)
  deriving DecidableEq, Repr

namespace TagValue

def valueType : TagValue → ValueType
  | numeric _ => .numeric
  | integer _ => .integer
  | boolean _ => .boolean
  | text _ => .text
  | binary _ => .binary

def numericValue : TagValue → Option PyFloat
  | numeric x => some x
  | _ => none

def integerValue : TagValue → Option ℤ
  | integer n => some n
  | _ => none

def booleanValue : TagValue → Option Bool
  | boolean b => some b
  | _ => none

def textValue : TagValue → Option String
  | text s => some s
  | _ => none

def binaryValue : TagValue → Option Bytes
  | binary b => some b
  | _ => none

end TagValue

/-! ## Results and executions -/

/-- What reading a tag gave: a value of good or uncertain quality, or error
    details (and then the quality is bad). -/
inductive TagOutcome where
  | success (value : TagValue) (quality : Quality) (hq : quality ≠ .bad)
  | failure (errorCode errorMessage : Stripped)
  deriving DecidableEq, Repr

structure TagResult where
  tagId : Stripped
  receivedAt : DateTime
  sourceTimestamp : Option DateTime
  outcome : TagOutcome
  deriving DecidableEq, Repr

namespace TagResult

def quality (r : TagResult) : Quality :=
  match r.outcome with
  | .success _ q _ => q
  | .failure .. => .bad

def value (r : TagResult) : Option TagValue :=
  match r.outcome with
  | .success v _ _ => some v
  | .failure .. => none

def errorCode (r : TagResult) : Option Stripped :=
  match r.outcome with
  | .success .. => none
  | .failure c _ => some c

def errorMessage (r : TagResult) : Option Stripped :=
  match r.outcome with
  | .success .. => none
  | .failure _ m => some m

def isSuccess (r : TagResult) : Bool := r.value.isSome

/-- `TagResult.__post_init__` -/
def init (tagId : String) (quality : Quality) (receivedAt : DateTime)
    (sourceTimestamp : Option DateTime) (value : Option TagValue)
    (errorCode errorMessage : Option String) : Except PyError TagResult := do
  let tagId ← setStripped "tag_id" tagId
  match value with
  | some v =>
    if hq : quality = .bad then
      throw (.configuration "Successful TagResult cannot be bad quality.")
    else if errorCode.isSome || errorMessage.isSome then
      throw (.configuration "Successful TagResult cannot contain errors.")
    else return ⟨tagId, receivedAt, sourceTimestamp, .success v quality hq⟩
  | none =>
    if quality ≠ .bad then throw (.configuration "Failed TagResult must have bad quality.")
    match setOptionalStripped errorCode, setOptionalStripped errorMessage with
    | some c, some m => return ⟨tagId, receivedAt, sourceTimestamp, .failure c m⟩
    | _, _ => throw (.configuration "Failed TagResult requires error details.")

/-- A result passes its own validation. -/
theorem init_self (r : TagResult) :
    init r.tagId.text r.quality r.receivedAt r.sourceTimestamp r.value
      (r.errorCode.map Stripped.text) (r.errorMessage.map Stripped.text) = .ok r := by
  obtain ⟨tagId, receivedAt, sourceTimestamp, outcome⟩ := r
  cases outcome with
  | success v q hq => simp [init, quality, value, errorCode, errorMessage, hq]
  | failure c m =>
    have hc : setOptionalStripped (some c.text) = some c := setOptionalStripped_text (some c)
    have hm : setOptionalStripped (some m.text) = some m := setOptionalStripped_text (some m)
    simp [init, quality, value, errorCode, errorMessage, hc, hm]

end TagResult

/-- A poll has finished after it started, or is still running. -/
def Finished (status : PollStatus) (startedAt : DateTime) : Option DateTime → Prop
  | some t => startedAt ≤ t
  | none => status = .running

structure PollExecution where
  executionId : Stripped
  connectionId : Stripped
  tagGroupId : Stripped
  status : PollStatus
  startedAt : DateTime
  finishedAt : Option DateTime
  requestedTags : ℕ
  successfulTags : ℕ
  failedTags : ℕ
  errorMessage : Option Stripped
  finished : Finished status startedAt finishedAt
  counts : successfulTags + failedTags ≤ requestedTags
  deriving DecidableEq

/-- `_require_non_negative_int` -/
def requireNonNegativeInt (value : ℤ) (fieldName : String) : Except PyError ℕ :=
  if value < 0 then .error (.configuration s!"{fieldName} must be a non-negative integer.")
  else .ok value.toNat

@[simp] theorem requireNonNegativeInt_natCast (n : ℕ) (f : String) :
    requireNonNegativeInt n f = .ok n := by
  simp [requireNonNegativeInt]

namespace PollExecution

/-- `PollExecution.__post_init__` -/
def init (executionId connectionId tagGroupId : String) (status : PollStatus)
    (startedAt : DateTime) (finishedAt : Option DateTime)
    (requestedTags successfulTags failedTags : ℤ) (errorMessage : Option String) :
    Except PyError PollExecution := do
  let executionId ← setStripped "execution_id" executionId
  let connectionId ← setStripped "connection_id" connectionId
  let tagGroupId ← setStripped "tag_group_id" tagGroupId
  let finish := fun finishedAt (finished : Finished status startedAt finishedAt) => do
    let requested ← requireNonNegativeInt requestedTags "requested_tags"
    let successful ← requireNonNegativeInt successfulTags "successful_tags"
    let failed ← requireNonNegativeInt failedTags "failed_tags"
    if counts : successful + failed ≤ requested then
      return ⟨executionId, connectionId, tagGroupId, status, startedAt, finishedAt, requested,
        successful, failed, setOptionalStripped errorMessage, finished, counts⟩
    else throw (.configuration "Poll result counts exceed requested_tags.")
  match finishedAt with
  | some t =>
    if h : startedAt ≤ t then finish (some t) h
    else throw (.configuration "finished_at cannot be before started_at.")
  | none =>
    if h : status = .running then finish none h
    else throw (.configuration "Finished poll statuses require finished_at.")

/-- An execution passes its own validation. -/
theorem init_self (e : PollExecution) :
    init e.executionId.text e.connectionId.text e.tagGroupId.text e.status e.startedAt e.finishedAt
      e.requestedTags e.successfulTags e.failedTags (e.errorMessage.map Stripped.text) = .ok e := by
  obtain ⟨i, c, g, st, sa, fa, rq, su, fl, em, fin, cnt⟩ := e
  cases fa with
  | some t =>
    have h : sa ≤ t := fin
    simp only [init, setStripped_text, h, dite_true, requireNonNegativeInt_natCast,
      setOptionalStripped_text]
    exact dif_pos cnt
  | none =>
    have h : st = .running := fin
    simp only [init, setStripped_text, h, dite_true, requireNonNegativeInt_natCast,
      setOptionalStripped_text]
    exact dif_pos cnt

end PollExecution

/-- The result of one poll of a tag group (`runtime/connection_worker.py`). -/
structure WorkerPollResult where
  execution : PollExecution
  results : List TagResult
  deriving DecidableEq

/-- The key under which a poll result is stored. -/
def WorkerPollResult.executionId (r : WorkerPollResult) : String := r.execution.executionId.text

/-! ## A poll result, as the tests make them -/

def timestamp : DateTime := ⟨⟨2026, 7, 13, by decide, by decide, by decide⟩, 12, 0, 0, 0, by decide⟩

def mockConnection : Stripped := ⟨"mock_connection", by decide, by decide⟩

def fastGroup : Stripped := ⟨"fast", by decide, by decide⟩

def temperatureTag : Stripped := ⟨"temperature", by decide, by decide⟩

def pressureTag : Stripped := ⟨"pressure", by decide, by decide⟩

/-- A poll of one tag that gave `value`. -/
def makePollResult (executionId : Stripped) (value : TagValue) : WorkerPollResult where
  execution := {
    executionId
    connectionId := mockConnection
    tagGroupId := fastGroup
    status := .success
    startedAt := timestamp
    finishedAt := some timestamp
    requestedTags := 1
    successfulTags := 1
    failedTags := 0
    errorMessage := none
    finished := timestamp.le_refl
    counts := by decide }
  results := [⟨temperatureTag, timestamp, some timestamp, .success value .good (by decide)⟩]

def pollOne : Stripped := ⟨"poll-1", by decide, by decide⟩

def pollTwo : Stripped := ⟨"poll-2", by decide, by decide⟩

end PlcGateway
