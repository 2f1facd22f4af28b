/-
  The whole database, and the repositories over it (`persistence/repositories.py`,
  `persistence/schema.py`).

  A `GatewayDatabase` has the six tables of the schema; the reading repository works on its
  part `readingTables`.  A `RepositoryCall` is one call of a repository method and one
  transaction: `commit` leaves the database as it was when the call raises.
-/
import PlcGateway.Library.Tables
import PlcGateway.Persistence.Acceptance
import PlcGateway.Runtime.ConnectionWorker

namespace PlcGateway

open Calendar Tables

/-! ## Rows -/

/-- What an integer column with a positivity check holds. -/
abbrev SqlPositive := { n : SqlInteger // 0 < n.1 }

/-- A row of `connections`, under its `id`. -/
structure ConnectionRow where
  protocol : String
  endpoint : String
  enabled : Bool
  timeoutMs : SqlPositive
  protocolOptions : JsonDict

/-- A row of `tag_groups`, under its `id`. -/
structure TagGroupRow where
  connectionId : String
  intervalMs : SqlPositive
  timeoutMs : SqlPositive
  overlapPolicy : String
  enabled : Bool

/-- A row of `tags`, under its `id`. -/
structure TagRow where
  tagGroupId : String
  name : String
  address : String
  valueType : Option String
  enabled : Bool
  metadataJson : JsonDict

/-- A row of `runtime_components`, under its `component_id`. -/
structure RuntimeComponentRow where
  state : String
  updatedAt : String
  message : Option String
  errorCode : Option String
  errorMessage : Option String

structure GatewayDatabase where
  connections : Table String ConnectionRow
  tagGroups : Table String TagGroupRow
  tags : Table String TagRow
  pollExecutions : Table String PollExecutionRow
  tagReadings : Table String TagReadingRow
  runtimeComponents : Table String RuntimeComponentRow

namespace GatewayDatabase

/-- `initialize_schema`, on a new file -/
def empty : GatewayDatabase := ⟨∅, ∅, ∅, ∅, ∅, ∅⟩

/-- What the reading repository reads and writes. -/
def readingTables (db : GatewayDatabase) : Database where
  config := {
    connections := db.connections.keys
    tagGroups := db.tagGroups.keys
    tags := mapRows TagRow.valueType db.tags }
  pollExecutions := db.pollExecutions
  tagReadings := db.tagReadings

/-- The database after the reading repository has written. -/
def withReadings (db : GatewayDatabase) (tables : Database) : GatewayDatabase :=
  { db with pollExecutions := tables.pollExecutions, tagReadings := tables.tagReadings }

end GatewayDatabase

/-! ## Values -/

/-- The parameter of an `Integer` column with a positivity check. -/
def bindPositive (n : ℕ) : Except PyError SqlPositive :=
  match bindInteger n with
  | .ok m => if hm : 0 < m.1 then .ok ⟨m, hm⟩ else .error (.integrityError "CHECK constraint failed")
  | .error e => .error e

/-- The values of `upsert_connections`, as the statement binds them. -/
def connectionValues (config : ConnectionConfig) : Except PyError (String × ConnectionRow) := do
  let timeoutMs ← bindPositive config.timeoutMs
  return (config.id.text, {
    protocol := config.protocol.text
    endpoint := config.endpoint.text
    enabled := config.enabled
    timeoutMs
    protocolOptions := config.protocolOptions })

/-- The values of `upsert_tag_groups`, as the statement binds them. -/
def tagGroupValues (config : TagGroupConfig) : Except PyError (String × TagGroupRow) := do
  let intervalMs ← bindPositive config.intervalMs
  let timeoutMs ← bindPositive config.timeoutMs
  return (config.id.text, {
    connectionId := config.connectionId.text
    intervalMs, timeoutMs
    overlapPolicy := config.overlapPolicy.value
    enabled := config.enabled })

/-- The values of `upsert_tags`, as the statement binds them. -/
def tagValues (config : TagConfig) : String × TagRow :=
  (config.id.text, {
    tagGroupId := config.tagGroupId.text
    name := config.name.text
    address := config.address.text
    valueType := some config.valueType.value
    enabled := config.enabled
    metadataJson := config.metadata })

/-- `WorkerState.value` -/
def WorkerState.value : WorkerState → String
  | stopped => "stopped"
  | starting => "starting"
  | running => "running"
  | degraded => "degraded"
  | stopping => "stopping"
  | failed => "failed"

/-- The values of `upsert_status`, as the statement binds them. -/
def statusValues (status : RuntimeComponentStatus) : String × RuntimeComponentRow :=
  (status.componentId, {
    state := status.state.value
    updatedAt := bindDateTime status.updatedAt
    message := status.message.map Stripped.text
    errorCode := status.errorCode.map Stripped.text
    errorMessage := status.errorMessage.map Stripped.text })

/-! ## Repositories -/

namespace ConfigurationRepository

/-- `upsert_connections` -/
def upsertConnections (configs : List ConnectionConfig) (db : GatewayDatabase) :
    Except PyError GatewayDatabase := do
  let connections ← upsertAll connectionValues (fun _ => True) foreignKeyFailed configs db.connections
  return { db with connections }

/-- `upsert_tag_groups` -/
def upsertTagGroups (configs : List TagGroupConfig) (db : GatewayDatabase) :
    Except PyError GatewayDatabase := do
  let tagGroups ← upsertAll tagGroupValues (fun row => row.connectionId ∈ db.connections.keys)
    foreignKeyFailed configs db.tagGroups
  return { db with tagGroups }

/-- `upsert_tags` -/
def upsertTags (configs : List TagConfig) (db : GatewayDatabase) : Except PyError GatewayDatabase := do
  let tags ← upsertAll (fun config => .ok (tagValues config))
    (fun row => row.tagGroupId ∈ db.tagGroups.keys) foreignKeyFailed configs db.tags
  return { db with tags }

end ConfigurationRepository

namespace ReadingRepository

/-- The loop of `save_tag_readings`. -/
def saveRecords : List TagReadingRecord → Database → Except PyError (ℕ × Database)
  | [], tables => return (0, tables)
  | record :: records, tables => do
    let (n, tables) ← saveTagReading record tables
    let (m, tables) ← saveRecords records tables
    return (n + m, tables)

/-- `save_poll_execution` -/
def savePollExecution (execution : PollExecution) (db : GatewayDatabase) :
    Except PyError GatewayDatabase := do
  return db.withReadings (← PlcGateway.savePollExecution execution db.readingTables)

/-- `save_tag_readings` -/
def saveTagReadings (records : List TagReadingRecord) (db : GatewayDatabase) :
    Except PyError (ℕ × GatewayDatabase) := do
  let (n, tables) ← saveRecords records db.readingTables
  return (n, db.withReadings tables)

/-- `save_poll_results` -/
def savePollResults (pollResults : List WorkerPollResult) (db : GatewayDatabase) :
    Except PyError (ℕ × GatewayDatabase) := do
  let (n, tables) ← PlcGateway.savePollResults pollResults db.readingTables
  return (n, db.withReadings tables)

/-- `count_tag_readings` -/
def countTagReadings (db : GatewayDatabase) : ℕ := db.tagReadings.keys.card

/-- `count_poll_executions` -/
def countPollExecutions (db : GatewayDatabase) : ℕ := db.pollExecutions.keys.card

end ReadingRepository

/-- `RuntimeStatusRepository.upsert_status` -/
def RuntimeStatusRepository.upsertStatus (status : RuntimeComponentStatus) (db : GatewayDatabase) :
    GatewayDatabase :=
  { db with runtimeComponents :=
    db.runtimeComponents.insert (statusValues status).1 (statusValues status).2 }

/-! ## Calls -/

/-- One call of a repository method. -/
inductive RepositoryCall where
  | upsertConnections (configs : List ConnectionConfig)
  | upsertTagGroups (configs : List TagGroupConfig)
  | upsertTags (configs : List TagConfig)
  | savePollExecution (execution : PollExecution)
  | saveTagReadings (records : List TagReadingRecord)
  | savePollResults (pollResults : List WorkerPollResult)
  | upsertStatus (status : RuntimeComponentStatus)

namespace RepositoryCall

/-- The transaction of a call: the number of readings that it returns, and the database. -/
def execute (db : GatewayDatabase) : RepositoryCall → Except PyError (ℕ × GatewayDatabase)
  | upsertConnections configs => (0, ·) <$> ConfigurationRepository.upsertConnections configs db
  | upsertTagGroups configs => (0, ·) <$> ConfigurationRepository.upsertTagGroups configs db
  | upsertTags configs => (0, ·) <$> ConfigurationRepository.upsertTags configs db
  | savePollExecution execution => (0, ·) <$> ReadingRepository.savePollExecution execution db
  | saveTagReadings records => ReadingRepository.saveTagReadings records db
  | savePollResults pollResults => ReadingRepository.savePollResults pollResults db
  | upsertStatus status => .ok (0, RuntimeStatusRepository.upsertStatus status db)

/-- A call that raises is rolled back. -/
def commit (call : RepositoryCall) (db : GatewayDatabase) : ℕ × GatewayDatabase :=
  match call.execute db with
  | .ok result => result
  | .error _ => (0, db)

/-- The calls one after the other, with the readings that they count together. -/
def commitAll : List RepositoryCall → GatewayDatabase → ℕ × GatewayDatabase
  | [], db => (0, db)
  | call :: calls, db =>
    let (n, db) := call.commit db
    let (m, db) := commitAll calls db
    (n + m, db)

end RepositoryCall

end PlcGateway
