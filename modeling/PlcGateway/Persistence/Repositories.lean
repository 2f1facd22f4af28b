/-
  The reading repository over its SQLite tables (`persistence/repositories.py`,
  `persistence/schema.py`, `persistence/types.py`).

  A `Database` has the configuration that the repository reads and the two tables
  that it writes.  A column holds what SQLite stores: date-times as ISO-8601 texts,
  integers of 64 bits only, and NULL for a NaN.  `savePollResults` is one
  transaction: when it raises there is no new database.
-/
import PlcGateway.Domain.Models
import Mathlib.Data.Finmap

namespace PlcGateway

open Calendar

/-- A signed integer of 64 bits. -/
def FitsInt64 (n : ℤ) : Prop := -2 ^ 63 ≤ n ∧ n < 2 ^ 63

instance (n : ℤ) : Decidable (FitsInt64 n) :=
  decidable_of_iff (n.natAbs < 2 ^ 63 ∨ n = -2 ^ 63) (by unfold FitsInt64; omega)

/-- What an integer column holds. -/
abbrev SqlInteger := { n : ℤ // FitsInt64 n }

/-- What a float column holds: SQLite has no NaN. -/
abbrev SqlReal := { x : PyFloat // x.isNaN = false }

/-- A row of `poll_executions`, under its `execution_id`. -/
structure PollExecutionRow where
  connectionId : String
  tagGroupId : String
  status : String
  startedAt : String
  finishedAt : Option String
  requestedTags : SqlInteger
  successfulTags : SqlInteger
  failedTags : SqlInteger
  errorMessage : Option String
  deriving DecidableEq, Repr

/-- A row of `tag_readings`, under its `event_id`. -/
structure TagReadingRow where
  connectionId : String
  tagGroupId : String
  tagId : String
  sourceTimestamp : Option String
  receivedAt : String
  quality : String
  valueType : String
  numericValue : Option SqlReal
  integerValue : Option SqlInteger
  booleanValue : Option Bool
  textValue : Option String
  binaryValue : Option Bytes
  errorCode : Option String
  errorMessage : Option String
  deriving DecidableEq, Repr

/-- The configuration tables: what the foreign keys refer to, and the value type
    of every tag. -/
structure ConfigurationTables where
  connections : Finset String
  tagGroups : Finset String
  tags : Finmap fun _ : String => Option String

structure Database where
  config : ConfigurationTables
  pollExecutions : Finmap fun _ : String => PollExecutionRow
  tagReadings : Finmap fun _ : String => TagReadingRow

/-- `_event_id` -/
def eventId (executionId : String) (resultIndex : ℕ) : String :=
  executionId ++ ":" ++ Nat.repr resultIndex

/-- A tag reading ready to be stored (`persistence/records.py`).  Its ids are not blank, and
    kept as they are. -/
structure TagReadingRecord where
  eventId : String
  connectionId : String
  tagGroupId : String
  result : TagResult
  eventId_ne : strip eventId ≠ ""
  connectionId_ne : strip connectionId ≠ ""
  tagGroupId_ne : strip tagGroupId ≠ ""

/-! ## Columns -/

/-- The parameter of an `Integer` column. -/
def bindInteger (n : ℤ) : Except PyError SqlInteger :=
  if h : FitsInt64 n then .ok ⟨n, h⟩
  else .error (.overflowError "Python int too large to convert to SQLite INTEGER")

/-- The parameter of a nullable `Integer` column. -/
def bindOptionalInteger : Option ℤ → Except PyError (Option SqlInteger)
  | none => .ok none
  | some n => some <$> bindInteger n

/-- What a `Float` column stores: NULL for a NaN. -/
def storeFloat (x : PyFloat) : Option SqlReal :=
  if h : x.isNaN = false then some ⟨x, h⟩ else none

/-- `UTCDateTime.process_bind_param` -/
def bindDateTime (value : DateTime) : String := isoformat value

/-- `UTCDateTime.process_result_value` -/
def resultDateTime (value : String) : Except PyError DateTime :=
  match fromisoformat value with
  | some d => .ok d
  | none => .error (.valueError s!"Invalid isoformat string: '{value}'")

/-! ## Statements -/

/-- `_reading_value_type` -/
def readingValueType (config : ConfigurationTables) (record : TagReadingRecord) :
    Except PyError String :=
  match record.result.value with
  | some value => .ok value.valueType.value
  | none =>
    match (config.tags.lookup record.result.tagId.text).join with
    | some configured =>
      if configured ≠ "" then .ok configured
      else .error (.storage "Cannot persist failed tag reading without configured value_type."
        (.text "missing_tag_value_type"))
    | none => .error (.storage "Cannot persist failed tag reading without configured value_type."
        (.text "missing_tag_value_type"))

/-- `_reading_values`, as the statement binds them. -/
def readingValues (config : ConfigurationTables) (record : TagReadingRecord) :
    Except PyError TagReadingRow := do
  let result := record.result
  let valueType ← readingValueType config record
  let integerValue ← bindOptionalInteger (result.value.bind TagValue.integerValue)
  return {
    connectionId := record.connectionId
    tagGroupId := record.tagGroupId
    tagId := result.tagId.text
    sourceTimestamp := result.sourceTimestamp.map bindDateTime
    receivedAt := bindDateTime result.receivedAt
    quality := result.quality.value
    valueType
    numericValue := (result.value.bind TagValue.numericValue).bind storeFloat
    integerValue
    booleanValue := result.value.bind TagValue.booleanValue
    textValue := result.value.bind TagValue.textValue
    binaryValue := result.value.bind TagValue.binaryValue
    errorCode := result.errorCode.map Stripped.text
    errorMessage := result.errorMessage.map Stripped.text }

/-- The values of `_save_poll_execution`, as the statement binds them. -/
def executionValues (execution : PollExecution) : Except PyError PollExecutionRow := do
  let requestedTags ← bindInteger execution.requestedTags
  let successfulTags ← bindInteger execution.successfulTags
  let failedTags ← bindInteger execution.failedTags
  return {
    connectionId := execution.connectionId.text
    tagGroupId := execution.tagGroupId.text
    status := execution.status.value
    startedAt := bindDateTime execution.startedAt
    finishedAt := execution.finishedAt.map bindDateTime
    requestedTags, successfulTags, failedTags
    errorMessage := execution.errorMessage.map Stripped.text }

/-- `ON CONFLICT DO UPDATE SET …` of `poll_executions` -/
def PollExecutionRow.updateWith (old excluded : PollExecutionRow) : PollExecutionRow :=
  { old with
    status := excluded.status
    finishedAt := excluded.finishedAt
    requestedTags := excluded.requestedTags
    successfulTags := excluded.successfulTags
    failedTags := excluded.failedTags
    errorMessage := excluded.errorMessage }

def foreignKeyFailed : PyError := .integrityError "FOREIGN KEY constraint failed"

/-- `_save_poll_execution` -/
def savePollExecution (execution : PollExecution) (db : Database) : Except PyError Database := do
  let row ← executionValues execution
  match db.pollExecutions.lookup execution.executionId.text with
  | some old =>
    return { db with pollExecutions :=
      db.pollExecutions.insert execution.executionId.text (old.updateWith row) }
  | none =>
    if row.connectionId ∈ db.config.connections ∧ row.tagGroupId ∈ db.config.tagGroups then
      return { db with pollExecutions := db.pollExecutions.insert execution.executionId.text row }
    else throw foreignKeyFailed

/-- `_save_tag_reading`, with the row count of the statement. -/
def saveTagReading (record : TagReadingRecord) (db : Database) : Except PyError (ℕ × Database) := do
  let row ← readingValues db.config record
  if record.eventId ∈ db.tagReadings then return (0, db)
  else if row.connectionId ∈ db.config.connections ∧ row.tagGroupId ∈ db.config.tagGroups ∧
      row.tagId ∈ db.config.tags then
    return (1, { db with tagReadings := db.tagReadings.insert record.eventId row })
  else throw foreignKeyFailed

theorem colon_mem_eventId (i : String) (n : ℕ) : ':' ∈ (eventId i n).toList := by
  simp [eventId, String.toList_append]

/-- The record of a result in its poll. -/
def readingRecord (execution : PollExecution) (index : ℕ) (result : TagResult) :
    TagReadingRecord where
  eventId := eventId execution.executionId.text index
  connectionId := execution.connectionId.text
  tagGroupId := execution.tagGroupId.text
  result := result
  eventId_ne := strip_ne_empty (colon_mem_eventId _ _) (by decide)
  connectionId_ne := execution.connectionId.strip_ne
  tagGroupId_ne := execution.tagGroupId.strip_ne

/-- The inner loop of `save_poll_results`, from `index` on. -/
def saveTagReadings (execution : PollExecution) :
    ℕ → List TagResult → Database → Except PyError (ℕ × Database)
  | _, [], db => return (0, db)
  | index, result :: results, db => do
    let (n, db) ← saveTagReading (readingRecord execution index result) db
    let (m, db) ← saveTagReadings execution (index + 1) results db
    return (n + m, db)

/-- One poll result of `save_poll_results`. -/
def savePollResult (pollResult : WorkerPollResult) (db : Database) :
    Except PyError (ℕ × Database) := do
  let db ← savePollExecution pollResult.execution db
  saveTagReadings pollResult.execution 0 pollResult.results db

/-- **`save_poll_results`**: the inserted readings, and the new database. -/
def savePollResults : List WorkerPollResult → Database → Except PyError (ℕ × Database)
  | [], db => return (0, db)
  | pollResult :: pollResults, db => do
    let (n, db) ← savePollResult pollResult db
    let (m, db) ← savePollResults pollResults db
    return (n + m, db)

/-! ## Event ids -/

theorem isDigit_of_mem_repr {n : ℕ} {c : Char} (h : c ∈ (Nat.repr n).toList) : c.isDigit = true :=
  Nat.isDigit_of_mem_toDigits (b := 10) (by decide) (by decide) (by simpa [Nat.repr] using h)

/-- A text is split at its last colon in one way, when only digits follow it. -/
theorem append_colon_inj {a b u v : List Char} (hu : ∀ c ∈ u, c.isDigit = true)
    (hv : ∀ c ∈ v, c.isDigit = true) (h : a ++ ':' :: u = b ++ ':' :: v) : a = b ∧ u = v := by
  rcases List.append_eq_append_iff.1 h with ⟨w, rfl, hw⟩ | ⟨w, rfl, hw⟩
  · cases w with
    | nil => exact ⟨(List.append_nil a).symm, (List.cons.inj hw).2⟩
    | cons c w =>
      obtain ⟨-, rfl⟩ := List.cons.inj hw
      exact absurd (hu ':' (by simp)) (by decide)
  · cases w with
    | nil => exact ⟨List.append_nil b, (List.cons.inj hw).2.symm⟩
    | cons c w =>
      obtain ⟨-, rfl⟩ := List.cons.inj hw
      exact absurd (hv ':' (by simp)) (by decide)

/-- **An event id names one result of one execution**, whatever the execution id contains. -/
theorem eventId_injective {i j : String} {m n : ℕ} (h : eventId i m = eventId j n) :
    i = j ∧ m = n := by
  have h' : i.toList ++ ':' :: (Nat.repr m).toList = j.toList ++ ':' :: (Nat.repr n).toList := by
    have := congrArg String.toList h
    simpa [eventId, String.toList_append] using this
  obtain ⟨hi, hm⟩ := append_colon_inj (fun _ => isDigit_of_mem_repr) (fun _ => isDigit_of_mem_repr) h'
  refine ⟨String.toList_inj.1 hi, ?_⟩
  have hd := congrArg (Nat.ofDigitChars 10 · 0) hm
  simpa [Nat.repr] using hd

end PlcGateway
