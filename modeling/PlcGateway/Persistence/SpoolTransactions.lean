/-
  The statements of the durable spool (`persistence/spool.py`).

  Handles in several threads and processes are open on one file.  Every operation has a
  connection of its own, and its statements take turns with those of the others.
  `SpoolOperation.execute` is the operation on a handle that nobody shares.
-/
import PlcGateway.Library.Transactions
import PlcGateway.Persistence.SpoolRefinement

namespace PlcGateway

open Calendar Coroutine Transactions

abbrev SpoolFile := Store SpoolTable

abbrev SpoolProg (α : Type) := TransactionProg SpoolTable PyError α

/-- What a statement raises that does not get the write lock. -/
def databaseLocked : PyError := .operationalError "database is locked"

/-- A new handle on the table. -/
def SpoolTable.handle (maxItems : ℕ+) (t : SpoolTable) : DurableSqliteSpool :=
  ⟨maxItems, 0, 0, 0, t, maxItems.pos⟩

@[simp] theorem SpoolTable.handle_maxItems (maxItems : ℕ+) (t : SpoolTable) :
    (t.handle maxItems).maxItems = maxItems := rfl

@[simp] theorem SpoolTable.handle_table (maxItems : ℕ+) (t : SpoolTable) :
    (t.handle maxItems).table = t := rfl

/-- An operation on a handle, with the readings of the clock that it makes. -/
inductive SpoolOperation where
  | append (now : DateTime) (pollResults : List WorkerPollResult)
  | fetchDue (limit : ℤ) (now : AwareDateTime)
  | markReplayed (executionIds : List String)
  | markFailed (executionIds : List String) (retryDelayS : ℚ) (now : AwareDateTime)
  | count

inductive SpoolReply where
  | number (n : ℕ)
  | entries (entries : List SpoolEntry)

namespace SpoolOperation

/-! ## The operations as statements -/

section
variable (c : ℕ)

/-- `_count_items` -/
def countItems : SpoolProg ℕ := view c fun t => t.rows.length

/-- `_existing_ids` -/
def existingIds (executionIds : List String) : SpoolProg (List String) :=
  if executionIds.isEmpty then return [] else view c fun t => t.ids.filter (· ∈ executionIds)

/-- Insert the rows one by one, and count them. -/
def insertRows : List SpoolRow → ℕ → SpoolProg ℕ
  | [], inserted => return inserted
  | row :: rows, inserted => do
    statement (Store.write databaseLocked c fun t => (t.insert row).map ((), ·))
    insertRows rows (inserted + 1)

/-- The `try` block of `append`. -/
def insertNewItems (maxItems : ℕ+) (now : DateTime) (items : List WorkerPollResult) :
    SpoolProg ℕ := do
  let existing ← countItems c
  let ids ← existingIds c (items.map WorkerPollResult.executionId)
  let newItems := items.filter fun item => item.executionId ∉ ids
  let available : ℤ := maxItems - existing
  if available < newItems.length then
    .raise (.error (.storage "Durable spool is full." (.text "durable_spool_full")))
  else insertRows c (newItems.map (spoolRow now)) 0

def appendProg (maxItems : ℕ+) (now : DateTime) (pollResults : List WorkerPollResult) :
    SpoolProg ℕ :=
  if pollResults.isEmpty then return 0
  else withConnection c do
    statement (Store.beginImmediate databaseLocked c)
    match ← .attempt (insertNewItems c maxItems now pollResults) with
    | .error e => do rollback c; .raise (.error e)
    | .ok inserted => do commit c; return inserted

/-- The `SELECT` of `fetch_due`: its parameters are bound before it runs. -/
def dueRowsProg (limit : ℤ) (dueAt : DateTime) : SpoolProg (List SpoolRow) :=
  if 2 ^ 63 ≤ limit then
    .raise (.error (.overflowError "Python int too large to convert to SQLite INTEGER"))
  else view c fun t => t.dueRows (datetimeToJson dueAt) limit.toNat

def fetchDueProg (limit : ℤ) (now : AwareDateTime) : SpoolProg (List SpoolEntry) :=
  if limit ≤ 0 then .raise (.error (.valueError "limit must be positive."))
  else match now.astimezone with
    | none => .raise (.error (.overflowError "date value out of range"))
    | some dueAt => do
      let rows ← withConnection c (dueRowsProg c limit dueAt)
      .conclude (ofExcept (rows.mapM spoolEntry))

/-- A transaction of one statement that writes, and returns the number of its rows. -/
def updateRows (f : SpoolTable → ℕ × SpoolTable) : SpoolProg ℕ :=
  withConnection c (statement (Store.write databaseLocked c fun t => .ok (f t)))

def markReplayedProg (executionIds : List String) : SpoolProg ℕ :=
  if executionIds.isEmpty then return 0
  else updateRows c fun t =>
    (t.rows.length - (t.delete executionIds).rows.length, t.delete executionIds)

def markFailedProg (executionIds : List String) (retryDelayS : ℚ) (now : AwareDateTime) :
    SpoolProg ℕ :=
  if retryDelayS < 0 then .raise (.error (.valueError "retry_delay_s must be non-negative."))
  else if executionIds.isEmpty then return 0
  else
    match (now.addMicros (microsOfSeconds retryDelayS)).bind AwareDateTime.astimezone with
    | none => .raise (.error (.overflowError "date value out of range"))
    | some nextRetryAt => updateRows c fun t =>
      ((t.rows.filter fun row => row.executionId ∈ executionIds).length,
        t.reschedule (datetimeToJson nextRetryAt) executionIds)

def countProg : SpoolProg ℕ := withConnection c (countItems c)

end

/-- The operation as statements on the connection `c`. -/
def run (maxItems : ℕ+) (c : ℕ) : SpoolOperation → SpoolProg SpoolReply
  | append now pollResults => .mapResult .number (appendProg c maxItems now pollResults)
  | fetchDue limit now => .mapResult .entries (fetchDueProg c limit now)
  | markReplayed executionIds => .mapResult .number (markReplayedProg c executionIds)
  | markFailed executionIds retryDelayS now =>
    .mapResult .number (markFailedProg c executionIds retryDelayS now)
  | count => .mapResult .number (countProg c)

/-! ## The operations on a handle of one's own -/

/-- The operation on a handle that nobody shares. -/
def execute (s : DurableSqliteSpool) : SpoolOperation → Except PyError SpoolReply × DurableSqliteSpool
  | append now pollResults => (s.append now pollResults).map (.map .number) id
  | fetchDue limit now => ((s.fetchDueAt limit now).map .entries, s)
  | markReplayed executionIds => (s.markReplayed executionIds).map (.map .number) id
  | markFailed executionIds retryDelayS now =>
    (s.markFailedAt executionIds retryDelayS now).map (.map .number) id
  | count => (.ok (.number s.count), s)

/-- The operation returned `reply` and made the commits `made`, as it does alone on a
    table. -/
def Serial (maxItems : ℕ+) (c : ℕ) (op : SpoolOperation) (reply : SpoolReply)
    (made : List (Commit SpoolTable)) : Prop :=
  ∃ b t, (made = [] ∧ t = b ∨ made = [⟨c, b, t⟩]) ∧
    (op.execute (b.handle maxItems)).1 = .ok reply ∧ (op.execute (b.handle maxItems)).2.table = t

end SpoolOperation

end PlcGateway
