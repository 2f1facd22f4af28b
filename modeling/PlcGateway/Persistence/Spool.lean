/-
  The durable spool (`persistence/spool.py`).

  A `SpoolTable` is the content of the table `spooled_poll_results`, with its
  primary key; a `DurableSqliteSpool` is a handle on it, with the counters of the
  handle.  The clock is an argument.  An operation that raises leaves the table as
  it was.
-/
import PlcGateway.Persistence.SpoolCodec
import Mathlib.Data.List.Sort

namespace PlcGateway

open Calendar

/-- A due entry. -/
structure SpoolEntry where
  executionId : String
  pollResult : WorkerPollResult
  retryCount : ℕ
  nextRetryAt : DateTime

/-- A row of `spooled_poll_results`. -/
structure SpoolRow where
  executionId : String
  payloadJson : JsonDict
  retryCount : ℕ
  nextRetryAt : String
  createdAt : String

/-- `ORDER BY created_at, execution_id` -/
def SpoolRow.Before (a b : SpoolRow) : Prop :=
  a.createdAt < b.createdAt ∨ a.createdAt = b.createdAt ∧ a.executionId ≤ b.executionId

instance : DecidableRel SpoolRow.Before := fun a b =>
  inferInstanceAs (Decidable (a.createdAt < b.createdAt ∨ _))

structure SpoolTable where
  rows : List SpoolRow
  primary_key : (rows.map SpoolRow.executionId).Nodup

namespace SpoolTable

def empty : SpoolTable := ⟨[], List.nodup_nil⟩

def ids (t : SpoolTable) : List String := t.rows.map SpoolRow.executionId

/-- `INSERT`: the key of the row must be new. -/
def insert (row : SpoolRow) (t : SpoolTable) : Except PyError SpoolTable :=
  if h : row.executionId ∈ t.ids then
    .error (.integrityError "UNIQUE constraint failed: spooled_poll_results.execution_id")
  else .ok ⟨t.rows ++ [row], by
    rw [List.map_append, List.nodup_append]
    refine ⟨t.primary_key, List.nodup_singleton _, ?_⟩
    rintro _ ha _ hb rfl
    exact h (List.mem_singleton.1 hb ▸ ha)⟩

def insertAll : List SpoolRow → SpoolTable → Except PyError SpoolTable
  | [], t => .ok t
  | row :: rows, t => do insertAll rows (← t.insert row)

/-- `DELETE … WHERE execution_id IN (…)` -/
def delete (executionIds : List String) (t : SpoolTable) : SpoolTable where
  rows := t.rows.filter fun row => row.executionId ∉ executionIds
  primary_key := t.primary_key.sublist (List.filter_sublist.map _)

/-- `UPDATE … SET retry_count = retry_count + 1, next_retry_at = ? WHERE execution_id IN (…)` -/
def reschedule (nextRetryAt : String) (executionIds : List String) (t : SpoolTable) :
    SpoolTable where
  rows := t.rows.map fun row =>
    if row.executionId ∈ executionIds then
      { row with retryCount := row.retryCount + 1, nextRetryAt }
    else row
  primary_key := by
    rw [List.map_map]
    convert t.primary_key using 2
    funext row
    simp only [Function.comp_apply]
    split_ifs <;> rfl

/-- The rows that a replay at `dueAt` takes, the oldest first. -/
def dueRows (dueAt : String) (limit : ℕ) (t : SpoolTable) : List SpoolRow :=
  ((t.rows.filter fun row => row.nextRetryAt ≤ dueAt).insertionSort SpoolRow.Before).take limit

theorem mem_of_mem_dueRows {dueAt : String} {limit : ℕ} {t : SpoolTable} {row : SpoolRow}
    (h : row ∈ t.dueRows dueAt limit) : row ∈ t.rows ∧ row.nextRetryAt ≤ dueAt := by
  have h' := List.mem_of_mem_take h
  rw [List.mem_insertionSort, List.mem_filter] at h'
  exact ⟨h'.1, of_decide_eq_true h'.2⟩

theorem insertAll_rows {rows : List SpoolRow} {t t' : SpoolTable} (h : t.insertAll rows = .ok t') :
    t'.rows = t.rows ++ rows := by
  induction rows generalizing t with
  | nil => cases h; exact (List.append_nil _).symm
  | cons row rows ih =>
    rw [insertAll, insert] at h
    split_ifs at h with hk
    · cases h
    · rw [ih h, List.append_assoc, List.singleton_append]

end SpoolTable

/-- A handle on the spool. -/
structure DurableSqliteSpool where
  maxItems : ℕ
  rejectedItems : ℕ
  replayedItems : ℕ
  failedReplays : ℕ
  table : SpoolTable
  maxItems_pos : 0 < maxItems

/-- The row that `append` inserts. -/
def spoolRow (now : DateTime) (pollResult : WorkerPollResult) : SpoolRow where
  executionId := pollResult.executionId
  payloadJson := pollResultToJson pollResult
  retryCount := 0
  nextRetryAt := datetimeToJson now
  createdAt := datetimeToJson now

/-- The entry of a row. -/
def spoolEntry (row : SpoolRow) : Except PyError SpoolEntry := do
  let pollResult ← pollResultFromJson row.payloadJson
  let nextRetryAt ← datetimeFromJson row.nextRetryAt
  return { executionId := row.executionId, pollResult, retryCount := row.retryCount, nextRetryAt }

namespace DurableSqliteSpool

/-- Open the spool file with the content `table`. -/
def init (table : SpoolTable) (maxItems : ℤ) : Except PyError DurableSqliteSpool :=
  if h : maxItems ≤ 0 then throw (.valueError "max_items must be positive.")
  else return ⟨maxItems.toNat, 0, 0, 0, table, by omega⟩

/-- The items whose execution is not stored yet. -/
def newItems (pollResults : List WorkerPollResult) (s : DurableSqliteSpool) :
    List WorkerPollResult :=
  pollResults.filter fun item => item.executionId ∉ s.table.ids

def append (now : DateTime) (pollResults : List WorkerPollResult) (s : DurableSqliteSpool) :
    Except PyError ℕ × DurableSqliteSpool :=
  if pollResults.isEmpty then (.ok 0, s)
  else
    let existing := s.table.rows.length
    let new := s.newItems pollResults
    let available : ℤ := s.maxItems - existing
    if available < new.length then
      (.error (.storage "Durable spool is full." (.text "durable_spool_full")),
        { s with rejectedItems := s.rejectedItems + (new.length - (max available 0).toNat) })
    else
      match s.table.insertAll (new.map (spoolRow now)) with
      | .error e => (.error e, s)
      | .ok table => (.ok new.length, { s with table })

/-- A limit of more than 64 bits is refused as it is bound. -/
def fetchDue (limit : ℕ) (now : DateTime) (s : DurableSqliteSpool) :
    Except PyError (List SpoolEntry) :=
  if limit = 0 then .error (.valueError "limit must be positive.")
  else if 2 ^ 63 ≤ limit then
    .error (.overflowError "Python int too large to convert to SQLite INTEGER")
  else (s.table.dueRows (datetimeToJson now) limit).mapM spoolEntry

def markReplayed (executionIds : List String) (s : DurableSqliteSpool) :
    Except PyError ℕ × DurableSqliteSpool :=
  if executionIds.isEmpty then (.ok 0, s)
  else
    let table := s.table.delete executionIds
    let deleted := s.table.rows.length - table.rows.length
    (.ok deleted, { s with table, replayedItems := s.replayedItems + deleted })

def markFailed (executionIds : List String) (retryDelayS : ℚ) (now : DateTime)
    (s : DurableSqliteSpool) : Except PyError ℕ × DurableSqliteSpool :=
  if retryDelayS < 0 then (.error (.valueError "retry_delay_s must be non-negative."), s)
  else if executionIds.isEmpty then (.ok 0, s)
  else
    match now.addMicros (microsOfSeconds retryDelayS) with
    | none => (.error (.overflowError "date value out of range"), s)
    | some nextRetryAt =>
      let table := s.table.reschedule (datetimeToJson nextRetryAt) executionIds
      let updated := (s.table.rows.filter fun row => row.executionId ∈ executionIds).length
      (.ok updated, { s with table, failedReplays := s.failedReplays + updated })

def count (s : DurableSqliteSpool) : ℕ := s.table.rows.length

end DurableSqliteSpool

/-! ## What the operations do to the rows -/

/-- A row is the one of a poll result, whatever its retries. -/
def SpoolRow.Holds (row : SpoolRow) (r : WorkerPollResult) : Prop :=
  row.executionId = r.executionId ∧ row.payloadJson = pollResultToJson r

/-- The spool has an entry for the poll result. -/
def SpoolTable.Holds (t : SpoolTable) (r : WorkerPollResult) : Prop := ∃ row ∈ t.rows, row.Holds r

theorem SpoolRow.holds_spoolRow (now : DateTime) (r : WorkerPollResult) : (spoolRow now r).Holds r :=
  ⟨rfl, rfl⟩

/-- The rows of different executions have different keys. -/
theorem nodup_spoolRow {now : DateTime} {rs : List WorkerPollResult}
    (h : (rs.map WorkerPollResult.executionId).Nodup) :
    ((rs.map (spoolRow now)).map SpoolRow.executionId).Nodup := by
  rw [List.map_map]
  exact h

/-- A row gives back the poll result it was made of. -/
theorem spoolEntry_of_holds {row : SpoolRow} {r : WorkerPollResult} {e : SpoolEntry}
    (h : row.Holds r) (he : spoolEntry row = .ok e) :
    e.executionId = r.executionId ∧ e.pollResult = r := by
  rw [spoolEntry, h.2, pollResultFromJson_toJson, ok_bind] at he
  cases hd : datetimeFromJson row.nextRetryAt with
  | error x => rw [hd] at he; cases he
  | ok d => rw [hd] at he; cases he; exact ⟨h.1, rfl⟩

/-- **What the spool stores is read back as it was**, from its payload with the keys
    sorted, and under the key of the poll result. -/
theorem spool_codec_round_trip (now : DateTime) (r : WorkerPollResult) :
    pollResultFromJson (sortKeysDict (spoolRow now r).payloadJson) = .ok r ∧
      (spoolRow now r).executionId = r.execution.executionId.text := by
  refine ⟨?_, rfl⟩
  rw [pollResultFromJson_sortKeys]
  exact pollResultFromJson_toJson r

namespace DurableSqliteSpool
variable {s : DurableSqliteSpool} {now : DateTime} {rs : List WorkerPollResult}

/-- `fetch_due` with a limit that can be bound. -/
theorem fetchDue_of_bound {limit : ℕ} (hpos : 0 < limit) (hbound : limit < 2 ^ 63) :
    s.fetchDue limit now = (s.table.dueRows (datetimeToJson now) limit).mapM spoolEntry := by
  rw [fetchDue, if_neg hpos.ne', if_neg hbound.not_ge]

/-- `fetch_due` returns entries of rows of the table. -/
theorem mapM_of_fetchDue {limit : ℕ} {entries : List SpoolEntry}
    (h : s.fetchDue limit now = .ok entries) :
    (s.table.dueRows (datetimeToJson now) limit).mapM spoolEntry = .ok entries := by
  unfold fetchDue at h
  split_ifs at h
  exact h

/-- What `append` can do. -/
theorem append_cases (s : DurableSqliteSpool) (now : DateTime) (rs : List WorkerPollResult) :
    rs = [] ∧ s.append now rs = (.ok 0, s) ∨
    (∃ e n, s.append now rs = (.error e, { s with rejectedItems := n })) ∨
    ∃ t, s.table.insertAll ((s.newItems rs).map (spoolRow now)) = .ok t ∧
      s.append now rs = (.ok (s.newItems rs).length, { s with table := t }) := by
  simp only [append]
  split_ifs with he
  · exact .inl ⟨List.isEmpty_iff.1 he, rfl⟩
  · exact .inr (.inl ⟨_, _, rfl⟩)
  · cases hi : s.table.insertAll ((s.newItems rs).map (spoolRow now)) with
    | error e => exact .inr (.inl ⟨e, s.rejectedItems, rfl⟩)
    | ok t => exact .inr (.inr ⟨t, rfl, rfl⟩)

theorem append_error {e : PyError} (h : (s.append now rs).1 = .error e) :
    (s.append now rs).2.table = s.table := by
  obtain ⟨-, ha⟩ | ⟨e, n, ha⟩ | ⟨t, -, ha⟩ := append_cases s now rs
  · rw [ha]
  · rw [ha]
  · rw [ha] at h; cases h

theorem append_ok {n : ℕ} (h : (s.append now rs).1 = .ok n) :
    (s.append now rs).2.table.rows = s.table.rows ++ (s.newItems rs).map (spoolRow now) ∧
      n = (s.newItems rs).length := by
  obtain ⟨rfl, ha⟩ | ⟨e, m, ha⟩ | ⟨t, ht, ha⟩ := append_cases s now rs <;> rw [ha] at h ⊢ <;> cases h
  · exact ⟨(List.append_nil _).symm, rfl⟩
  · exact ⟨SpoolTable.insertAll_rows ht, rfl⟩

/-- A row stays where it is under `append`. -/
theorem mem_append {row : SpoolRow} (h : row ∈ s.table.rows) :
    row ∈ (s.append now rs).2.table.rows := by
  cases hr : (s.append now rs).1 with
  | error e => rw [append_error hr]; exact h
  | ok n => rw [(append_ok hr).1]; exact List.mem_append_left _ h

/-- Every row after `append` was there, or is the one of an item. -/
theorem of_mem_append {row : SpoolRow} (h : row ∈ (s.append now rs).2.table.rows) :
    row ∈ s.table.rows ∨ ∃ r ∈ rs, row = spoolRow now r := by
  cases hr : (s.append now rs).1 with
  | error e => rw [append_error hr] at h; exact .inl h
  | ok n =>
    rw [(append_ok hr).1, List.mem_append] at h
    refine h.imp_right fun h => ?_
    obtain ⟨r, hm, rfl⟩ := List.mem_map.1 h
    exact ⟨r, (List.mem_filter.1 hm).1, rfl⟩

/-- After `append` has returned, every item has a row under its execution. -/
theorem ids_append {n : ℕ} (h : (s.append now rs).1 = .ok n) {r : WorkerPollResult} (hr : r ∈ rs) :
    r.executionId ∈ (s.append now rs).2.table.ids := by
  rw [SpoolTable.ids, (append_ok h).1, List.map_append, List.mem_append]
  by_cases hk : r.executionId ∈ s.table.ids
  · exact .inl hk
  · have hm : r ∈ s.newItems rs := List.mem_filter.2 ⟨hr, decide_eq_true hk⟩
    exact .inr (List.mem_map.2 ⟨spoolRow now r, List.mem_map.2 ⟨r, hm, rfl⟩, rfl⟩)

theorem mem_markReplayed {ids : List String} {row : SpoolRow} :
    row ∈ (s.markReplayed ids).2.table.rows ↔ row ∈ s.table.rows ∧ row.executionId ∉ ids := by
  unfold markReplayed
  split_ifs with he
  · rw [List.isEmpty_iff] at he
    simp only [he, List.not_mem_nil, not_false_eq_true, and_true]
  · simp only [SpoolTable.delete, List.mem_filter, decide_eq_true_eq]

/-- `mark_failed` leaves the table as it is, or postpones the entries. -/
theorem markFailed_table (ids : List String) (delay : ℚ) (now : DateTime) (s : DurableSqliteSpool) :
    (s.markFailed ids delay now).2.table = s.table ∨
      ∃ next, now.addMicros (microsOfSeconds delay) = some next ∧
        (s.markFailed ids delay now).2.table = s.table.reschedule (datetimeToJson next) ids := by
  unfold markFailed
  split_ifs
  · exact .inl rfl
  · exact .inl rfl
  · cases now.addMicros (microsOfSeconds delay) with
    | none => exact .inl rfl
    | some next => exact .inr ⟨next, rfl, rfl⟩

/-- `mark_failed` keeps the execution and the payload of every row. -/
theorem markFailed_rows {ids : List String} {delay : ℚ} {row : SpoolRow}
    (h : row ∈ (s.markFailed ids delay now).2.table.rows) :
    ∃ row' ∈ s.table.rows, row'.executionId = row.executionId ∧
      row'.payloadJson = row.payloadJson := by
  obtain ht | ⟨next, -, ht⟩ := markFailed_table ids delay now s <;> rw [ht] at h
  · exact ⟨row, h, rfl, rfl⟩
  · obtain ⟨row', hm, rfl⟩ := List.mem_map.1 h
    refine ⟨row', hm, ?_⟩
    split_ifs <;> exact ⟨rfl, rfl⟩

theorem mem_markFailed {ids : List String} {delay : ℚ} {row : SpoolRow} (h : row ∈ s.table.rows) :
    ∃ row' ∈ (s.markFailed ids delay now).2.table.rows, row'.executionId = row.executionId ∧
      row'.payloadJson = row.payloadJson := by
  obtain ht | ⟨next, -, ht⟩ := markFailed_table ids delay now s <;> rw [ht]
  · exact ⟨row, h, rfl, rfl⟩
  · refine ⟨_, List.mem_map_of_mem h, ?_⟩
    split_ifs <;> exact ⟨rfl, rfl⟩

end DurableSqliteSpool

end PlcGateway
