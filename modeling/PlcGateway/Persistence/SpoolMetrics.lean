/-
  The balance of the spool's metrics.

  Every new poll result that is offered to `append` should be stored, replayed or
  counted as rejected.  An `append` that has no place for all of its batch stores
  nothing, but counts as rejected only what exceeds the free places.
-/
import PlcGateway.Persistence.SpoolRefinement

namespace PlcGateway

open Calendar

structure SpoolMetrics where
  maxItems : ℕ
  storedItems : ℕ
  full : Bool
  rejectedItems : ℕ
  replayedItems : ℕ
  failedReplays : ℕ
  deriving DecidableEq, Repr

/-- `DurableSqliteSpool.metrics` -/
def DurableSqliteSpool.metrics (s : DurableSqliteSpool) : SpoolMetrics where
  maxItems := s.maxItems
  storedItems := s.count
  full := s.maxItems ≤ s.count
  rejectedItems := s.rejectedItems
  replayedItems := s.replayedItems
  failedReplays := s.failedReplays

/-- The new results that the metrics account for. -/
def SpoolMetrics.accounted (m : SpoolMetrics) : ℕ :=
  m.storedItems + m.replayedItems + m.rejectedItems

namespace SpoolCall

/-- The new poll results that the call offers to `append`. -/
def offers (s : DurableSqliteSpool) : SpoolCall → ℕ
  | append _ pollResults => (s.newItems pollResults).length
  | _ => 0

/-- The new poll results that the calls offer. -/
def offered (s : DurableSqliteSpool) : List SpoolCall → ℕ
  | [] => 0
  | c :: calls => c.offers s + offered (c.run s) calls

/-- No batch has an execution twice. -/
def DistinctIds : SpoolCall → Prop
  | append _ pollResults => (pollResults.map WorkerPollResult.executionId).Nodup
  | _ => True

/-- The new results of an `append` fit, or there is no free place. -/
def FitsOrFull (s : DurableSqliteSpool) : SpoolCall → Prop
  | append _ pollResults => s.count + (s.newItems pollResults).length ≤ s.maxItems ∨ s.maxItems ≤ s.count
  | _ => True

instance (s : DurableSqliteSpool) : DecidablePred (FitsOrFull s)
  | append _ pollResults => inferInstanceAs
    (Decidable (s.count + (s.newItems pollResults).length ≤ s.maxItems ∨ s.maxItems ≤ s.count))
  | fetchDue .. | markReplayed .. | markFailed .. => inferInstanceAs (Decidable True)

/-- Every call of the run finds the spool so. -/
def AllFitOrFull (s : DurableSqliteSpool) : List SpoolCall → Prop
  | [] => True
  | c :: calls => c.FitsOrFull s ∧ AllFitOrFull (c.run s) calls

/-- The free places that an `append` leaves free when it raises. -/
def uncounted (s : DurableSqliteSpool) : SpoolCall → ℕ
  | append _ pollResults =>
    if s.count + (s.newItems pollResults).length ≤ s.maxItems then 0 else s.maxItems - s.count
  | _ => 0

variable {s : DurableSqliteSpool}

theorem uncounted_eq_zero_iff (c : SpoolCall) : c.uncounted s = 0 ↔ c.FitsOrFull s := by
  cases c with
  | append clock rs =>
    rw [uncounted, FitsOrFull]
    split_ifs with hfits
    · exact iff_of_true rfl (Or.inl hfits)
    · rw [Nat.sub_eq_zero_iff_le, or_iff_right hfits]
  | fetchDue limit now => exact iff_of_true rfl trivial
  | markReplayed ids => exact iff_of_true rfl trivial
  | markFailed ids delay now => exact iff_of_true rfl trivial

theorem accounted_append (clock : DateTime) (rs : List WorkerPollResult)
    (hids : DistinctIds (append clock rs)) :
    ((append clock rs).run s).metrics.accounted + (append clock rs).uncounted s =
      s.metrics.accounted + (append clock rs).offers s := by
  have hnodup : (s.newKeys rs).Nodup := List.Nodup.filter _ hids
  by_cases hempty : rs = []
  · subst hempty
    have hnone : s.newItems [] = [] := rfl
    rw [uncounted, offers, hnone, List.length_nil]
    show s.metrics.accounted + _ = _
    split_ifs <;> omega
  by_cases hfull : (s.maxItems : ℤ) - s.count < (s.newItems rs).length
  · -- it raises, and counts what exceeds the free places
    have happend : (s.append clock rs).2 = { s with rejectedItems := s.rejectedItems +
        ((s.newItems rs).length - (max ((s.maxItems : ℤ) - s.count) 0).toNat) } := by
      rw [DurableSqliteSpool.append, if_neg (by rwa [List.isEmpty_iff])]
      exact congrArg Prod.snd (if_pos hfull)
    have hnot : ¬ s.count + (s.newItems rs).length ≤ s.maxItems := by omega
    rw [run, happend, uncounted, if_neg hnot, offers]
    simp only [SpoolMetrics.accounted, DurableSqliteSpool.metrics, DurableSqliteSpool.count] at *
    omega
  · -- every new result becomes a row
    have hfits : s.count + (s.newItems rs).length ≤ s.maxItems := by omega
    obtain ⟨-, hok⟩ | ⟨hdup, -⟩ := DurableSqliteSpool.append_fits clock hempty hfull
    · obtain ⟨rfl, -⟩ | ⟨e, n, ha⟩ | ⟨t, ht, ha⟩ := s.append_cases clock rs
      · exact absurd rfl hempty
      · rw [ha] at hok
        cases hok
      · have hrows : t.rows.length = s.table.rows.length + (s.newItems rs).length := by
          rw [SpoolTable.insertAll_rows ht, List.length_append, List.length_map]
        rw [run, ha, uncounted, if_pos hfits, offers]
        simp only [SpoolMetrics.accounted, DurableSqliteSpool.metrics, DurableSqliteSpool.count,
          hrows]
        omega
    · exact absurd hnodup hdup

theorem accounted_markReplayed (ids : List String) :
    ((markReplayed ids).run s).metrics.accounted = s.metrics.accounted := by
  rw [run, DurableSqliteSpool.markReplayed]
  split_ifs
  · rfl
  · have hle : (s.table.delete ids).rows.length ≤ s.table.rows.length := List.length_filter_le _ _
    simp only [SpoolMetrics.accounted, DurableSqliteSpool.metrics, DurableSqliteSpool.count]
    omega

theorem accounted_markFailed (ids : List String) (delay : ℚ) (now : AwareDateTime) :
    ((markFailed ids delay now).run s).metrics.accounted = s.metrics.accounted := by
  rw [run, DurableSqliteSpool.markFailedAt]
  split_ifs
  · rfl
  · rfl
  · cases (now.addMicros (microsOfSeconds delay)).bind AwareDateTime.astimezone with
    | none => rfl
    | some next =>
      simp only [SpoolMetrics.accounted, DurableSqliteSpool.metrics, DurableSqliteSpool.count,
        SpoolTable.reschedule, List.length_map]

/-- One call accounts for what it is offered, but for the places that a raising
    `append` leaves free. -/
theorem accounted_run (c : SpoolCall) (hids : c.DistinctIds) :
    (c.run s).metrics.accounted + c.uncounted s = s.metrics.accounted + c.offers s := by
  cases c with
  | append clock rs => exact accounted_append clock rs hids
  | fetchDue limit now => rfl
  | markReplayed ids =>
    rw [accounted_markReplayed]
    rfl
  | markFailed ids delay now =>
    rw [accounted_markFailed]
    rfl

/-- The calls never account for more than they are offered, and for all of it when
    every `append` fits or finds the spool full. -/
theorem accounted_foldl (calls : List SpoolCall) (hids : ∀ c ∈ calls, c.DistinctIds) :
    (calls.foldl run s).metrics.accounted ≤ s.metrics.accounted + offered s calls ∧
      ((calls.foldl run s).metrics.accounted = s.metrics.accounted + offered s calls ↔
        AllFitOrFull s calls) := by
  induction calls generalizing s with
  | nil => exact ⟨le_refl _, iff_of_true rfl trivial⟩
  | cons c calls ih =>
    obtain ⟨hc, hrest⟩ := List.forall_mem_cons.1 hids
    have hstep := accounted_run (s := s) c hc
    obtain ⟨hle, hiff⟩ := ih (s := c.run s) hrest
    rw [List.foldl_cons, offered, AllFitOrFull, ← uncounted_eq_zero_iff, ← hiff]
    refine ⟨by omega, ?_⟩
    constructor
    · intro heq
      omega
    · rintro ⟨hzero, heq⟩
      omega

end SpoolCall

/-- **The metrics of a spool on a new file account for every new result** offered to
    `append` exactly if each `append` had room for all of them or for none. -/
theorem spool_metrics_account (maxItems : ℕ+) (calls : List SpoolCall)
    (hids : ∀ c ∈ calls, c.DistinctIds) :
    (calls.foldl SpoolCall.run (.fresh maxItems)).metrics.accounted =
        SpoolCall.offered (.fresh maxItems) calls ↔
      SpoolCall.AllFitOrFull (.fresh maxItems) calls := by
  have hzero : (DurableSqliteSpool.fresh maxItems).metrics.accounted = 0 := rfl
  have h := (SpoolCall.accounted_foldl (s := .fresh maxItems) calls hids).2
  rwa [hzero, Nat.zero_add] at h

/-- Two results fit into a spool of two. -/
theorem spool_metrics_account_two :
    let calls : List SpoolCall := [.append timestamp
      [makePollResult pollOne (.boolean true), makePollResult pollTwo (.boolean true)]]
    (calls.foldl SpoolCall.run (.fresh 2)).metrics.accounted =
        SpoolCall.offered (.fresh 2) calls ↔
      SpoolCall.AllFitOrFull (.fresh 2) calls := by
  refine spool_metrics_account 2 _ (List.forall_mem_singleton.2 ?_)
  show List.Nodup _
  decide +kernel

/-- A batch of two for a spool of one: nothing is stored and one is counted. -/
theorem partly_fitting_batch_uncounted :
    let calls : List SpoolCall := [.append timestamp
      [makePollResult pollOne (.boolean true), makePollResult pollTwo (.boolean true)]]
    (∀ c ∈ calls, c.DistinctIds) ∧ SpoolCall.offered (.fresh 1) calls = 2 ∧
      (calls.foldl SpoolCall.run (.fresh 1)).metrics =
        { maxItems := 1, storedItems := 0, full := false, rejectedItems := 1, replayedItems := 0,
          failedReplays := 0 } ∧
      (calls.foldl SpoolCall.run (.fresh 1)).metrics.accounted ≠
        SpoolCall.offered (.fresh 1) calls := by
  refine ⟨List.forall_mem_singleton.2 ?_, ?_, ?_, ?_⟩
  · show List.Nodup _
    decide +kernel
  · decide +kernel
  · decide +kernel
  · decide +kernel

end PlcGateway
