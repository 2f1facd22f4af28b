/-
  The spool as a retry queue.

  The table has the entries of a retry queue under the execution ids, with their
  instants as texts.  Every operation does to the table what the operation of the
  queue does to the entries, and `fetch_due` takes what is due: the texts that the
  statements compare are ordered as the instants.
-/
import PlcGateway.Library.Instants
import PlcGateway.Library.RetryQueue
import PlcGateway.Persistence.SpoolUnion

namespace PlcGateway

open Calendar RetryQueue

namespace DurableSqliteSpool

/-- `fetch_due`, with `now` or the clock in any timezone. -/
def fetchDueAt (limit : ℤ) (now : AwareDateTime) (s : DurableSqliteSpool) :
    Except PyError (List SpoolEntry) :=
  if limit ≤ 0 then .error (.valueError "limit must be positive.")
  else match now.astimezone with
    | none => .error (.overflowError "date value out of range")
    | some dueAt => s.fetchDue limit.toNat dueAt

/-- `mark_failed`, with `now` or the clock in any timezone. -/
def markFailedAt (executionIds : List String) (retryDelayS : ℚ) (now : AwareDateTime)
    (s : DurableSqliteSpool) : Except PyError ℕ × DurableSqliteSpool :=
  if retryDelayS < 0 then (.error (.valueError "retry_delay_s must be non-negative."), s)
  else if executionIds.isEmpty then (.ok 0, s)
  else
    match (now.addMicros (microsOfSeconds retryDelayS)).bind AwareDateTime.astimezone with
    | none => (.error (.overflowError "date value out of range"), s)
    | some nextRetryAt =>
      let table := s.table.reschedule (datetimeToJson nextRetryAt) executionIds
      let updated := (s.table.rows.filter fun row => row.executionId ∈ executionIds).length
      (.ok updated, { s with table, failedReplays := s.failedReplays + updated })

theorem fetchDueAt_ofUtc (limit : ℕ) (now : DateTime) (s : DurableSqliteSpool) :
    s.fetchDueAt limit (.ofUtc now) = s.fetchDue limit now := by
  rw [fetchDueAt, AwareDateTime.astimezone_ofUtc]
  rcases limit.eq_zero_or_pos with rfl | hpos
  · rfl
  · rw [if_neg (by omega)]
    rfl

theorem markFailedAt_ofUtc (ids : List String) (delay : ℚ) (now : DateTime) (s : DurableSqliteSpool) :
    s.markFailedAt ids delay (.ofUtc now) = s.markFailed ids delay now := by
  have hnext : ((AwareDateTime.ofUtc now).addMicros (microsOfSeconds delay)).bind
      AwareDateTime.astimezone = now.addMicros (microsOfSeconds delay) := by
    rw [AwareDateTime.addMicros_ofUtc]
    cases now.addMicros (microsOfSeconds delay) with
    | none => rfl
    | some d => rw [Option.map_some, Option.bind_some, AwareDateTime.astimezone_ofUtc]
  rw [markFailedAt, hnext]
  rfl

end DurableSqliteSpool

/-! ## Rows and entries -/

/-- What a row was written of. -/
structure StoredEntry extends SpoolEntry where
  createdAt : DateTime

namespace StoredEntry

def row (e : StoredEntry) : SpoolRow where
  executionId := e.executionId
  payloadJson := pollResultToJson e.pollResult
  retryCount := e.retryCount
  nextRetryAt := datetimeToJson e.nextRetryAt
  createdAt := datetimeToJson e.createdAt

/-- The entry of the queue, with instants in microseconds. -/
def entry (e : StoredEntry) : String × Entry WorkerPollResult ℤ :=
  (e.executionId, ⟨e.pollResult, e.retryCount, e.nextRetryAt.toMicros, e.createdAt.toMicros⟩)

/-- What `append` stores of a poll result. -/
def ofPollResult (now : DateTime) (r : WorkerPollResult) : StoredEntry :=
  ⟨⟨r.executionId, r, 0, now⟩, now⟩

/-- The entry after a failed replay. -/
def postpone (next : DateTime) (e : StoredEntry) : StoredEntry :=
  { e with retryCount := e.retryCount + 1, nextRetryAt := next }

/-- A row is read back as it was written. -/
theorem spoolEntry_row (e : StoredEntry) : spoolEntry e.row = .ok e.toSpoolEntry := by
  rw [spoolEntry]
  simp only [row, pollResultFromJson_toJson, ok_bind, datetimeFromJson, datetimeToJson,
    fromisoformat_isoformat]
  rfl

/-- Rows are ordered as the entries are. -/
theorem before_row (a b : StoredEntry) :
    a.row.Before b.row ↔ Queue.rank a.entry ≤ Queue.rank b.entry := by
  rw [SpoolRow.Before, Queue.rank, Queue.rank, Prod.Lex.toLex_le_toLex]
  simp only [row, entry, datetimeToJson, isoformat_lt_iff, isoformat_eq_iff, Nat.cast_lt, Nat.cast_inj]

end StoredEntry

/-- The table has just the entries of the queue. -/
def SpoolTable.Represents (t : SpoolTable) (q : Queue String WorkerPollResult ℤ) : Prop :=
  ∃ l : List StoredEntry, t.rows = l.map StoredEntry.row ∧
    ∀ p, p ∈ q.entries ↔ p ∈ l.map StoredEntry.entry

namespace SpoolTable
variable {t : SpoolTable} {q : Queue String WorkerPollResult ℤ}

theorem represents_empty : SpoolTable.empty.Represents .empty := ⟨[], rfl, fun _ => Iff.rfl⟩

theorem Represents.mem_iff (h : t.Represents q) (k : String) : q.Mem k ↔ k ∈ t.ids := by
  obtain ⟨l, hrows, hmem⟩ := h
  simp only [Queue.Mem, hmem, ids, hrows, List.map_map, List.mem_map]
  constructor
  · rintro ⟨_, ⟨e, he, rfl⟩, rfl⟩
    exact ⟨e, he, rfl⟩
  · rintro ⟨e, he, rfl⟩
    exact ⟨_, ⟨e, he, rfl⟩, rfl⟩

/-- The rows stand for different keys. -/
theorem nodup_of_rows {l : List StoredEntry} (h : t.rows = l.map StoredEntry.row) :
    ((l.map StoredEntry.entry).map Prod.fst).Nodup := by
  have hkey := t.primary_key
  rw [h, List.map_map] at hkey
  rwa [List.map_map]

theorem Represents.card (h : t.Represents q) : q.entries.card = t.rows.length := by
  classical
  obtain ⟨l, hrows, hmem⟩ := h
  have hset : q.entries = (l.map StoredEntry.entry).toFinset := by
    ext p
    rw [hmem, List.mem_toFinset]
  rw [hset, List.toFinset_card_of_nodup (List.Nodup.of_map _ (nodup_of_rows hrows)), List.length_map,
    hrows, List.length_map]

theorem eq_of_rows {t t' : SpoolTable} (h : t.rows = t'.rows) : t = t' := by
  cases t
  cases t'
  cases h
  rfl

theorem delete_nil (t : SpoolTable) : t.delete [] = t := by
  refine eq_of_rows (List.filter_eq_self.2 fun row _ => ?_)
  simp

theorem reschedule_nil (t : SpoolTable) (next : String) : t.reschedule next [] = t := by
  refine eq_of_rows ((List.map_congr_left fun row _ => ?_).trans (List.map_id _))
  exact if_neg (List.not_mem_nil)

/-- Deleting rows removes entries. -/
theorem Represents.delete (h : t.Represents q) (ids : List String) :
    (t.delete ids).Represents (q.remove {k | k ∈ ids}) := by
  obtain ⟨l, hrows, hmem⟩ := h
  refine ⟨l.filter fun e => e.executionId ∉ ids, ?_, fun p => ?_⟩
  · show t.rows.filter _ = _
    rw [hrows, List.filter_map]
    rfl
  · simp only [Queue.mem_remove, hmem, List.mem_map, List.mem_filter, decide_eq_true_eq]
    constructor
    · rintro ⟨⟨e, he, rfl⟩, hk⟩
      exact ⟨e, ⟨he, hk⟩, rfl⟩
    · rintro ⟨e, ⟨he, hk⟩, rfl⟩
      exact ⟨⟨e, he, rfl⟩, hk⟩

/-- Updating rows postpones entries. -/
theorem Represents.reschedule (h : t.Represents q) (next : DateTime) (ids : List String) :
    (t.reschedule (datetimeToJson next) ids).Represents (q.postpone {k | k ∈ ids} next.toMicros) := by
  obtain ⟨l, hrows, hmem⟩ := h
  refine ⟨l.map fun e => if e.executionId ∈ ids then e.postpone next else e, ?_, fun p => ?_⟩
  · show t.rows.map _ = _
    rw [hrows, List.map_map, List.map_map]
    refine List.map_congr_left fun e _ => ?_
    simp only [Function.comp_apply]
    by_cases hk : e.executionId ∈ ids
    · rw [if_pos hk, if_pos (show e.row.executionId ∈ ids from hk)]
      rfl
    · rw [if_neg hk, if_neg (show e.row.executionId ∉ ids from hk)]
  · simp only [Queue.mem_postpone, hmem, List.mem_map]
    constructor
    · rintro (⟨_, ⟨e, he, rfl⟩, hk, rfl⟩ | ⟨⟨e, he, rfl⟩, hk⟩)
      · exact ⟨_, ⟨e, he, rfl⟩, congrArg StoredEntry.entry (if_pos hk)⟩
      · exact ⟨_, ⟨e, he, rfl⟩, congrArg StoredEntry.entry (if_neg hk)⟩
    · rintro ⟨_, ⟨e, he, rfl⟩, rfl⟩
      by_cases hk : e.executionId ∈ ids
      · rw [if_pos hk]
        exact Or.inl ⟨_, ⟨e, he, rfl⟩, hk, rfl⟩
      · rw [if_neg hk]
        exact Or.inr ⟨⟨e, he, rfl⟩, hk⟩

/-- The rows that are due are those of the entries that are due. -/
theorem Represents.dueRows (h : t.Represents q) (dueAt : DateTime) (limit : ℕ) :
    ∃ l : List StoredEntry, t.dueRows (datetimeToJson dueAt) limit = l.map StoredEntry.row ∧
      l.map (fun e => e.executionId) = q.due limit (dueAt.toMicros : ℤ) ∧ ∀ e ∈ l, e.entry ∈ q.entries := by
  obtain ⟨l, hrows, hmem⟩ := h
  let due := l.filter fun e => e.nextRetryAt.toMicros ≤ dueAt.toMicros
  let before (a b : StoredEntry) : Prop := a.row.Before b.row
  have htotal : Std.Total before := ⟨fun a b => by
    simp only [before, StoredEntry.before_row]
    exact le_total _ _⟩
  have htrans : IsTrans StoredEntry before := ⟨fun a b c => by
    simp only [before, StoredEntry.before_row]
    exact le_trans⟩
  have hdue : t.rows.filter (fun row => row.nextRetryAt ≤ datetimeToJson dueAt) =
      due.map StoredEntry.row := by
    rw [hrows, List.filter_map]
    refine congrArg _ (List.filter_congr fun e _ => ?_)
    have hle : e.row.nextRetryAt ≤ datetimeToJson dueAt ↔ e.nextRetryAt.toMicros ≤ dueAt.toMicros :=
      isoformat_le_iff _ _
    simp only [Function.comp_apply, hle]
  have hperm := List.perm_insertionSort before due
  refine ⟨(due.insertionSort before).take limit, ?_, ?_, ?_⟩
  · rw [SpoolTable.dueRows, hdue, List.map_take,
      List.map_insertionSort before SpoolRow.Before StoredEntry.row due fun _ _ _ _ => Iff.rfl]
  · have hkeys : (((due.insertionSort before).map StoredEntry.entry).map Prod.fst).Nodup := by
      refine ((hperm.map _).map _).nodup_iff.2 ?_
      exact (nodup_of_rows hrows).sublist ((List.filter_sublist.map _).map _)
    have hsorted : ((due.insertionSort before).map StoredEntry.entry).Pairwise
        fun p r => Queue.rank p ≤ Queue.rank r := by
      rw [List.pairwise_map]
      exact (List.pairwise_insertionSort before due).imp fun {a b} => (StoredEntry.before_row a b).1
    rw [Queue.due_eq (fun p => ?_) hkeys hsorted, ← List.map_take, List.map_map]
    · rfl
    · rw [(hperm.map _).mem_iff, hmem]
      simp only [due, List.mem_map, List.mem_filter, decide_eq_true_eq]
      constructor
      · rintro ⟨e, ⟨he, hle⟩, rfl⟩
        exact ⟨⟨e, he, rfl⟩, Int.ofNat_le.2 hle⟩
      · rintro ⟨⟨e, he, rfl⟩, hle⟩
        exact ⟨e, ⟨he, Int.ofNat_le.1 hle⟩, rfl⟩
  · intro e he
    rw [hmem]
    have hmem' : e ∈ due := hperm.mem_iff.1 (List.mem_of_mem_take he)
    exact List.mem_map_of_mem (List.mem_filter.1 hmem').1

end SpoolTable

/-! ## The operations -/

namespace DurableSqliteSpool
variable {s : DurableSqliteSpool} {q : Queue String WorkerPollResult ℤ}

/-- A poll result under its key. -/
def item (r : WorkerPollResult) : String × WorkerPollResult := (r.executionId, r)

theorem fresh_eq (h : s.table.Represents q) (rs : List WorkerPollResult) :
    q.fresh (rs.map item) = (s.newItems rs).map item := by
  classical
  rw [Queue.fresh, newItems, List.filter_map]
  refine congrArg _ (List.filter_congr fun r _ => ?_)
  exact decide_eq_decide.2 (not_congr (h.mem_iff r.executionId))

theorem accepts_iff_fits (h : s.table.Represents q) (rs : List WorkerPollResult) :
    q.Accepts s.maxItems (rs.map item) ↔
      ¬ (s.maxItems : ℤ) - s.count < (s.newItems rs).length ∧ (s.newKeys rs).Nodup := by
  have hkeys : ((s.newItems rs).map item).map Prod.fst = s.newKeys rs := by
    rw [← newKeys_eq, List.map_map]
    rfl
  rw [Queue.Accepts, fresh_eq h, hkeys, h.card, List.length_map, count]
  refine and_congr_left fun _ => ?_
  omega

/-- The new rows are those of the new entries. -/
theorem represents_added (h : s.table.Represents q) {now : DateTime} {rs : List WorkerPollResult} {n : ℕ}
    (hok : (s.append now rs).1 = .ok n) (haccepts : q.Accepts s.maxItems (rs.map item)) :
    (s.append now rs).2.table.Represents (q.append s.maxItems (now.toMicros : ℤ) (rs.map item)) := by
  have hfresh := fresh_eq h rs
  obtain ⟨l, hrows, hmem⟩ := h
  refine ⟨l ++ (s.newItems rs).map (StoredEntry.ofPollResult now), ?_, fun p => ?_⟩
  · rw [(append_ok hok).1, hrows, List.map_append, List.map_map]
    rfl
  · rw [Queue.mem_append haccepts, hfresh, hmem, List.map_append, List.mem_append, List.map_map]
    simp only [List.mem_map, Function.comp_apply]
    refine or_congr_right ⟨?_, ?_⟩
    · rintro ⟨_, ⟨r, hr, rfl⟩, rfl⟩
      exact ⟨r, hr, rfl⟩
    · rintro ⟨r, hr, rfl⟩
      exact ⟨_, ⟨r, hr, rfl⟩, rfl⟩

theorem represents_append (h : s.table.Represents q) (now : DateTime) (rs : List WorkerPollResult) :
    (s.append now rs).2.table.Represents (q.append s.maxItems (now.toMicros : ℤ) (rs.map item)) := by
  by_cases haccepts : q.Accepts s.maxItems (rs.map item)
  · rcases eq_or_ne rs [] with rfl | hne
    · exact represents_added h rfl haccepts
    · obtain ⟨hplace, hnodup⟩ := (accepts_iff_fits h rs).1 haccepts
      rcases append_fits now hne hplace with ⟨-, hok⟩ | ⟨hdup, -⟩
      · exact represents_added h hok haccepts
      · exact absurd hnodup hdup
  · have htable : (s.append now rs).2.table = s.table := by
      rcases eq_or_ne rs [] with rfl | hne
      · rfl
      · by_cases hplace : (s.maxItems : ℤ) - s.count < (s.newItems rs).length
        · exact (append_full now hne hplace).2
        · rcases append_fits now hne hplace with ⟨hnodup, -⟩ | ⟨-, e, herr, -⟩
          · exact absurd ((accepts_iff_fits h rs).2 ⟨hplace, hnodup⟩) haccepts
          · exact append_error herr
    rw [Queue.append_of_not_accepts haccepts, htable]
    exact h

theorem represents_markReplayed (h : s.table.Represents q) (ids : List String) :
    (s.markReplayed ids).2.table.Represents (q.remove {k | k ∈ ids}) := by
  have hdelete : (s.markReplayed ids).2.table = s.table.delete ids := by
    rw [markReplayed]
    split_ifs with hempty
    · rw [List.isEmpty_iff.1 hempty, SpoolTable.delete_nil]
    · rfl
  rw [hdelete]
  exact h.delete ids

theorem represents_markFailed (h : s.table.Represents q) (ids : List String) {delay : ℚ}
    (hdelay : 0 ≤ delay) (now : AwareDateTime) :
    (s.markFailedAt ids delay now).2.table.Represents (match now.later (microsOfSeconds delay) with
      | some next => q.postpone {k | k ∈ ids} next
      | none => q) := by
  rw [AwareDateTime.later_eq, markFailedAt, if_neg (not_lt.2 hdelay)]
  cases hnext : (now.addMicros (microsOfSeconds delay)).bind AwareDateTime.astimezone with
  | none =>
    split_ifs <;> exact h
  | some next =>
    split_ifs with hempty
    · have hsame := h.reschedule next ids
      rw [List.isEmpty_iff.1 hempty, SpoolTable.reschedule_nil] at hsame
      rw [List.isEmpty_iff.1 hempty]
      exact hsame
    · exact h.reschedule next ids

theorem mapM_spoolEntry (l : List StoredEntry) :
    (l.map StoredEntry.row).mapM spoolEntry = .ok (l.map StoredEntry.toSpoolEntry) := by
  induction l with
  | nil => rfl
  | cons e l ih =>
    rw [List.map_cons, List.mapM_cons, StoredEntry.spoolEntry_row, ok_bind, ih, ok_bind]
    rfl

/-- What `fetch_due` returns. -/
theorem fetchDueAt_due (h : s.table.Represents q) {limit : ℤ} (hlimit : 0 < limit)
    (hbound : limit < 2 ^ 63) {now : AwareDateTime} (hnow : now.InRange) :
    ∃ entries, s.fetchDueAt limit now = .ok entries ∧
      entries.map SpoolEntry.executionId = q.due limit.toNat now.instant ∧
      ∀ e ∈ entries, ∃ created, (e.executionId,
        ⟨e.pollResult, e.retryCount, e.nextRetryAt.toMicros, created⟩) ∈ q.entries := by
  obtain ⟨dueAt, hdue, hinstant⟩ | ⟨-, hout⟩ := now.astimezone_spec
  · obtain ⟨l, hl, hkeys, hentries⟩ := h.dueRows dueAt limit.toNat
    refine ⟨l.map StoredEntry.toSpoolEntry, ?_, ?_, ?_⟩
    · rw [fetchDueAt, if_neg (by omega), hdue]
      have hfetch : s.fetchDue limit.toNat dueAt =
          (s.table.dueRows (datetimeToJson dueAt) limit.toNat).mapM spoolEntry :=
        fetchDue_of_bound (by omega) (by omega)
      rw [hl, mapM_spoolEntry] at hfetch
      exact hfetch
    · rw [List.map_map, ← hinstant]
      exact hkeys
    · intro e he
      obtain ⟨stored, hstored, rfl⟩ := List.mem_map.1 he
      exact ⟨_, hentries stored hstored⟩
  · exact absurd hnow hout

/-- The operations of the queue are those of the spool. -/
structure Refines (s : DurableSqliteSpool) (q : Queue String WorkerPollResult ℤ) : Prop where
  stored : s.table.Represents q
  fetch_due : ∀ (limit : ℤ) (now : AwareDateTime), 0 < limit → limit < 2 ^ 63 → now.InRange →
    ∃ entries, s.fetchDueAt limit now = .ok entries ∧
      entries.map SpoolEntry.executionId = q.due limit.toNat now.instant ∧
      ∀ e ∈ entries, ∃ created, (e.executionId,
        ⟨e.pollResult, e.retryCount, e.nextRetryAt.toMicros, created⟩) ∈ q.entries
  mark_failed : ∀ (ids : List String) (delay : ℚ) (now : AwareDateTime), 0 ≤ delay →
    (s.markFailedAt ids delay now).2.table.Represents (match now.later (microsOfSeconds delay) with
      | some next => q.postpone {k | k ∈ ids} next
      | none => q)
  mark_replayed : ∀ ids : List String,
    (s.markReplayed ids).2.table.Represents (q.remove {k | k ∈ ids})

theorem refines_of_represents (h : s.table.Represents q) : s.Refines q where
  stored := h
  fetch_due _ _ hlimit hbound hnow := fetchDueAt_due h hlimit hbound hnow
  mark_failed ids _ now hdelay := represents_markFailed h ids hdelay now
  mark_replayed ids := represents_markReplayed h ids

/-- A spool on a new file. -/
def fresh (maxItems : ℕ+) : DurableSqliteSpool := ⟨maxItems, 0, 0, 0, .empty, maxItems.pos⟩

end DurableSqliteSpool

/-! ## Sequences of calls -/

/-- A call of the spool, with its argument `now` or the clock. -/
inductive SpoolCall where
  | append (clock : DateTime) (pollResults : List WorkerPollResult)
  | fetchDue (limit : ℤ) (now : AwareDateTime)
  | markReplayed (executionIds : List String)
  | markFailed (executionIds : List String) (retryDelayS : ℚ) (now : AwareDateTime)

namespace SpoolCall

/-- What the call leaves of the spool. -/
def run (s : DurableSqliteSpool) : SpoolCall → DurableSqliteSpool
  | append clock pollResults => (s.append clock pollResults).2
  | fetchDue _ _ => s
  | markReplayed executionIds => (s.markReplayed executionIds).2
  | markFailed executionIds retryDelayS now => (s.markFailedAt executionIds retryDelayS now).2

/-- What the call means for the queue. -/
noncomputable def queue (capacity : ℕ) (q : Queue String WorkerPollResult ℤ) :
    SpoolCall → Queue String WorkerPollResult ℤ
  | append clock pollResults =>
    q.append capacity (clock.toMicros : ℤ) (pollResults.map DurableSqliteSpool.item)
  | fetchDue _ _ => q
  | markReplayed executionIds => q.remove {k | k ∈ executionIds}
  | markFailed executionIds retryDelayS now =>
    if 0 ≤ retryDelayS then
      match now.later (microsOfSeconds retryDelayS) with
      | some next => q.postpone {k | k ∈ executionIds} next
      | none => q
    else q

variable {s : DurableSqliteSpool} {q : Queue String WorkerPollResult ℤ}

theorem maxItems_run (c : SpoolCall) : (run s c).maxItems = s.maxItems := by
  cases c with
  | append clock rs => exact DurableSqliteSpool.append_maxItems
  | fetchDue limit now => rfl
  | markReplayed ids =>
    rw [run, DurableSqliteSpool.markReplayed]
    split_ifs <;> rfl
  | markFailed ids delay now =>
    rw [run, DurableSqliteSpool.markFailedAt]
    cases (now.addMicros (microsOfSeconds delay)).bind AwareDateTime.astimezone <;> split_ifs <;> rfl

/-- A call does to the rows what it means for the queue. -/
theorem represents_run (h : s.table.Represents q) (c : SpoolCall) :
    (run s c).table.Represents (queue s.maxItems q c) := by
  cases c with
  | append clock rs => exact DurableSqliteSpool.represents_append h clock rs
  | fetchDue limit now => exact h
  | markReplayed ids => exact DurableSqliteSpool.represents_markReplayed h ids
  | markFailed ids delay now =>
    rw [run, queue]
    split_ifs with hdelay
    · exact DurableSqliteSpool.represents_markFailed h ids hdelay now
    · rw [DurableSqliteSpool.markFailedAt, if_pos (not_le.1 hdelay)]
      exact h

theorem represents_foldl (calls : List SpoolCall) (h : s.table.Represents q) :
    (calls.foldl run s).table.Represents (calls.foldl (queue s.maxItems) q) := by
  induction calls generalizing s q with
  | nil => exact h
  | cons c calls ih =>
    have hstep := ih (represents_run h c)
    rwa [maxItems_run] at hstep

end SpoolCall

/-- **The spool refines a retry queue**, and the texts in its table are ordered as
    the instants. -/
theorem spool_refines_retry_queue (maxItems : ℕ+) (calls : List SpoolCall) :
    (calls.foldl SpoolCall.run (.fresh maxItems)).Refines
        (calls.foldl (SpoolCall.queue maxItems) .empty) ∧
      ∀ a b : DateTime, datetimeToJson a ≤ datetimeToJson b ↔ a.toMicros ≤ b.toMicros :=
  ⟨DurableSqliteSpool.refines_of_represents
    (SpoolCall.represents_foldl calls SpoolTable.represents_empty), isoformat_le_iff⟩

/-- The last second of year 9999, one hour west of UTC. -/
def lastSecondWest : AwareDateTime where
  wall := ⟨⟨9999, 12, 31, by decide, by decide, by decide⟩, 23, 59, 59, 0, by decide⟩
  fold := false
  tzinfo := .fixed (-3600000000) (by decide)

/-- `fetch_due` raises when `now` is past the last year in UTC, when `limit` is 0, and when
    it does not fit into 64 bits. -/
theorem fetch_due_raises :
    let q : Queue String WorkerPollResult ℤ := .empty
    ((DurableSqliteSpool.fresh 1).fetchDueAt 1 lastSecondWest).isOk = false ∧
      ((DurableSqliteSpool.fresh 1).fetchDueAt 0 (.ofUtc timestamp)).isOk = false ∧
      ((DurableSqliteSpool.fresh 1).fetchDueAt (2 ^ 63) (.ofUtc timestamp)).isOk = false ∧
      ¬ ∀ (limit : ℤ) (now : AwareDateTime), ∃ entries,
        (DurableSqliteSpool.fresh 1).fetchDueAt limit now = .ok entries ∧
          entries.map SpoolEntry.executionId = q.due limit.toNat now.instant := by
  have hlate : ((DurableSqliteSpool.fresh 1).fetchDueAt 1 lastSecondWest).isOk = false := by
    decide +kernel
  have hbound : ((DurableSqliteSpool.fresh 1).fetchDueAt (2 ^ 63) (.ofUtc timestamp)).isOk = false := by
    decide +kernel
  intro q
  refine ⟨hlate, rfl, hbound, fun h => ?_⟩
  obtain ⟨entries, hok, -⟩ := h 1 lastSecondWest
  rw [hok] at hlate
  cases hlate

end PlcGateway
