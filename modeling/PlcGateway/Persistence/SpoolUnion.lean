/-
  `append` as a set union.

  The spool has one row per execution, so that appending a list should add the
  executions that it does not have, or raise when there is no place for them.
  It does, unless the new items repeat an execution, or nothing is new and the
  spool holds more than it may.
-/
import PlcGateway.Persistence.Spool
import Mathlib.Data.Finset.Card

namespace PlcGateway

open Calendar

namespace SpoolTable

/-- Rows under new and different keys are inserted. -/
theorem insertAll_total {rows : List SpoolRow} {t : SpoolTable}
    (hnew : ∀ row ∈ rows, row.executionId ∉ t.ids)
    (hnodup : (rows.map SpoolRow.executionId).Nodup) : ∃ t', t.insertAll rows = .ok t' := by
  induction rows generalizing t with
  | nil => exact ⟨t, rfl⟩
  | cons row rows ih =>
    obtain ⟨hrow, hrows⟩ := List.forall_mem_cons.1 hnew
    obtain ⟨hhead, htail⟩ := List.nodup_cons.1 hnodup
    rw [insertAll, insert, dif_neg hrow]
    refine ih (fun r hr hmem => ?_) htail
    rw [ids, List.map_append, List.mem_append] at hmem
    rcases hmem with hmem | hmem
    · exact hrows r hr hmem
    · rw [List.map_singleton, List.mem_singleton] at hmem
      exact hhead (List.mem_map.2 ⟨r, hr, hmem⟩)

/-- Rows that are inserted have different keys. -/
theorem nodup_of_insertAll {rows : List SpoolRow} {t t' : SpoolTable}
    (h : t.insertAll rows = .ok t') : (rows.map SpoolRow.executionId).Nodup := by
  have hkey := t'.primary_key
  rw [insertAll_rows h, List.map_append] at hkey
  exact hkey.of_append_right

theorem insertAll_error {rows : List SpoolRow} {t : SpoolTable} {e : PyError}
    (h : t.insertAll rows = .error e) : e.kind ≠ .storageError := by
  induction rows generalizing t with
  | nil => cases h
  | cons row rows ih =>
    rw [insertAll, insert] at h
    split_ifs at h with hk
    · cases h
      intro hkind
      cases hkind
    · exact ih h

end SpoolTable

/-! ## The union -/

namespace DurableSqliteSpool
variable {s : DurableSqliteSpool} {rs : List WorkerPollResult} {now : DateTime}

/-- The ids of the list that are not stored, with their repetitions. -/
def newKeys (s : DurableSqliteSpool) (rs : List WorkerPollResult) : List String :=
  (rs.map WorkerPollResult.executionId).filter fun id => id ∉ s.table.ids

/-- The set of the ids of the list that are not stored. -/
def newIds (s : DurableSqliteSpool) (rs : List WorkerPollResult) : Finset String :=
  (s.newKeys rs).toFinset

/-- There is something new, and no place for it. -/
def Full (s : DurableSqliteSpool) (rs : List WorkerPollResult) : Prop :=
  (s.newIds rs).Nonempty ∧ (s.maxItems : ℤ) - s.count < (s.newIds rs).card

/-- The result is the error of a full spool. -/
def IsFull (r : Except PyError ℕ) : Prop :=
  ∃ e, r = .error e ∧ e.kind = .storageError ∧ e.code = .text "durable_spool_full"

/-- `append` adds one row for each new id, or raises when there is no place for
    them; appending the list again adds nothing. -/
structure AppendsUnion (s : DurableSqliteSpool) (now : DateTime) (rs : List WorkerPollResult) :
    Prop where
  full : IsFull (s.append now rs).1 ∧ (s.append now rs).2.table = s.table ↔ s.Full rs
  added : ¬ s.Full rs → (s.append now rs).1 = .ok (s.newIds rs).card ∧
    ∃ added, (s.append now rs).2.table.rows = s.table.rows ++ added ∧
      (∀ row ∈ added, ∃ r ∈ rs, row = spoolRow now r) ∧
      (added.map SpoolRow.executionId).Nodup ∧
      (added.map SpoolRow.executionId).toFinset = s.newIds rs
  again : ∀ n, (s.append now rs).1 = .ok n →
    ∀ now', ((s.append now rs).2.append now' rs).1 = .ok 0

/-- Nothing is new and the spool is not over-full, or the new ids are different
    from each other, or there is no place for them anyway. -/
def Mergeable (s : DurableSqliteSpool) (rs : List WorkerPollResult) : Prop :=
  (s.newIds rs = ∅ → rs = [] ∨ s.count ≤ s.maxItems) ∧
    (s.newIds rs ≠ ∅ → (s.newKeys rs).Nodup ∨ (s.maxItems : ℤ) - s.count < (s.newIds rs).card)

theorem newKeys_eq (s : DurableSqliteSpool) (rs : List WorkerPollResult) :
    (s.newItems rs).map WorkerPollResult.executionId = s.newKeys rs := by
  rw [newItems, newKeys, List.filter_map]
  rfl

theorem length_newItems : (s.newItems rs).length = (s.newKeys rs).length := by
  rw [← newKeys_eq, List.length_map]

theorem newIds_card_le : (s.newIds rs).card ≤ (s.newItems rs).length := by
  rw [length_newItems]
  exact List.toFinset_card_le _

theorem newIds_card (h : (s.newKeys rs).Nodup) : (s.newIds rs).card = (s.newItems rs).length := by
  rw [length_newItems]
  exact List.toFinset_card_of_nodup h

theorem newIds_eq_empty : s.newIds rs = ∅ ↔ s.newItems rs = [] := by
  rw [newIds, List.toFinset_eq_empty_iff, ← newKeys_eq, List.map_eq_nil_iff]

/-! ## What `append` does -/

theorem append_nil : s.append now [] = (.ok 0, s) := rfl

theorem append_full (now : DateTime) (hne : rs ≠ []) (h : (s.maxItems : ℤ) - s.count < (s.newItems rs).length) :
    IsFull (s.append now rs).1 ∧ (s.append now rs).2.table = s.table := by
  have hempty : ¬ rs.isEmpty := by rwa [List.isEmpty_iff]
  rw [count] at h
  rw [append, if_neg hempty]
  simp only
  rw [if_pos h]
  exact ⟨⟨_, rfl, rfl, rfl⟩, rfl⟩

/-- The new rows fit: they are inserted, unless two of them have one key. -/
theorem append_fits (now : DateTime) (hne : rs ≠ []) (h : ¬ (s.maxItems : ℤ) - s.count < (s.newItems rs).length) :
    (s.newKeys rs).Nodup ∧ (s.append now rs).1 = .ok (s.newItems rs).length ∨
      ¬ (s.newKeys rs).Nodup ∧ ∃ e, (s.append now rs).1 = .error e ∧ e.kind ≠ .storageError := by
  have hempty : ¬ rs.isEmpty := by rwa [List.isEmpty_iff]
  have hkeys : ((s.newItems rs).map (spoolRow now)).map SpoolRow.executionId = s.newKeys rs := by
    rw [← newKeys_eq, List.map_map]
    rfl
  rw [count] at h
  rw [append, if_neg hempty]
  simp only
  rw [if_neg h]
  cases hi : s.table.insertAll ((s.newItems rs).map (spoolRow now)) with
  | ok t =>
    have hnodup := SpoolTable.nodup_of_insertAll hi
    rw [hkeys] at hnodup
    exact .inl ⟨hnodup, rfl⟩
  | error e =>
    refine .inr ⟨fun hnodup => ?_, e, rfl, SpoolTable.insertAll_error hi⟩
    obtain ⟨t, ht⟩ : ∃ t, s.table.insertAll ((s.newItems rs).map (spoolRow now)) = .ok t := by
      refine SpoolTable.insertAll_total (fun row hrow => ?_) (hkeys ▸ hnodup)
      obtain ⟨r, hr, rfl⟩ := List.mem_map.1 hrow
      exact of_decide_eq_true (List.mem_filter.1 hr).2
    rw [hi] at ht
    cases ht

theorem append_maxItems : (s.append now rs).2.maxItems = s.maxItems := by
  obtain ⟨-, ha⟩ | ⟨e, n, ha⟩ | ⟨t, -, ha⟩ := append_cases s now rs <;> rw [ha]

/-- After a list was appended, nothing of it is new. -/
theorem append_again {n : ℕ} (h : (s.append now rs).1 = .ok n) (now' : DateTime) :
    ((s.append now rs).2.append now' rs).1 = .ok 0 := by
  by_cases hne : rs = []
  · rw [hne, append_nil, append_nil]
  have hnone : (s.append now rs).2.newItems rs = [] := by
    refine List.filter_eq_nil_iff.2 fun r hr hnew => ?_
    exact of_decide_eq_true hnew (ids_append h hr)
  have hplace : ¬ (s.maxItems : ℤ) - s.count < (s.newItems rs).length := by
    intro hfull
    obtain ⟨⟨e, he, -⟩, -⟩ := append_full now hne hfull
    rw [h] at he
    cases he
  have hcount : (s.append now rs).2.count = s.count + (s.newItems rs).length := by
    rw [count, (append_ok h).1, List.length_append, List.length_map]
    rfl
  have hfits := append_fits (s := (s.append now rs).2) now' hne (by
    rw [append_maxItems, hcount, hnone, List.length_nil]
    omega)
  rcases hfits with ⟨-, hok⟩ | ⟨hdup, -⟩
  · rw [hok, hnone]
    rfl
  · rw [← newKeys_eq, hnone] at hdup
    exact absurd List.nodup_nil hdup

theorem not_isFull_ok (n : ℕ) : ¬ IsFull (.ok n) := by
  rintro ⟨e, he, -⟩
  cases he

/-- An `append` that returns has added one row for each new id. -/
theorem added_of_append {n : ℕ} (h : (s.append now rs).1 = .ok n) (hnodup : (s.newKeys rs).Nodup) :
    n = (s.newIds rs).card ∧ ∃ added, (s.append now rs).2.table.rows = s.table.rows ++ added ∧
      (∀ row ∈ added, ∃ r ∈ rs, row = spoolRow now r) ∧
      (added.map SpoolRow.executionId).Nodup ∧
      (added.map SpoolRow.executionId).toFinset = s.newIds rs := by
  obtain ⟨hrows, hn⟩ := append_ok h
  have hkeys : ((s.newItems rs).map (spoolRow now)).map SpoolRow.executionId = s.newKeys rs := by
    rw [← newKeys_eq, List.map_map]
    rfl
  refine ⟨hn.trans (newIds_card hnodup).symm, _, hrows, fun row hrow => ?_, ?_, ?_⟩
  · obtain ⟨r, hr, rfl⟩ := List.mem_map.1 hrow
    exact ⟨r, (List.mem_filter.1 hr).1, rfl⟩
  · rwa [hkeys]
  · rw [hkeys]
    rfl

/-- **When `append` is a set union.** -/
theorem append_is_union_iff (s : DurableSqliteSpool) (now : DateTime) (rs : List WorkerPollResult) :
    s.AppendsUnion now rs ↔ s.Mergeable rs := by
  by_cases hrs : rs = []
  · -- nothing is appended
    subst hrs
    have hids : s.newIds [] = ∅ := rfl
    have hfull : ¬ s.Full [] := fun h => Finset.not_nonempty_empty h.1
    refine iff_of_true ⟨iff_of_false (fun h => not_isFull_ok 0 h.1) hfull, fun _ => ⟨rfl, [], ?_⟩,
      fun n h now' => append_again h now'⟩ ⟨fun _ => .inl rfl, fun h => absurd hids h⟩
    exact ⟨(List.append_nil _).symm, fun row hrow => (by cases hrow), List.nodup_nil, rfl⟩
  have hmergeable : s.Mergeable rs ↔ (s.newIds rs = ∅ → s.count ≤ s.maxItems) ∧
      (s.newIds rs ≠ ∅ → (s.newKeys rs).Nodup ∨ (s.maxItems : ℤ) - s.count < (s.newIds rs).card) := by
    simp only [Mergeable, hrs, false_or]
  rw [hmergeable]
  have hcard : (s.newIds rs).card ≤ (s.newItems rs).length := newIds_card_le
  have hempty : s.newIds rs = ∅ ↔ s.newItems rs = [] := newIds_eq_empty
  by_cases hplace : (s.maxItems : ℤ) - s.count < (s.newItems rs).length
  · -- it raises
    have hraises := append_full now hrs hplace
    have hnever : ∀ n, (s.append now rs).1 ≠ .ok n := fun n h => not_isFull_ok n (h ▸ hraises.1)
    constructor
    · intro h
      have hfull : s.Full rs := h.full.1 hraises
      exact ⟨fun h0 => absurd h0 hfull.1.ne_empty, fun _ => .inr hfull.2⟩
    · rintro ⟨hnone, hsome⟩
      have hne : s.newIds rs ≠ ∅ := by
        intro h0
        have hcount := hnone h0
        rw [hempty.1 h0, List.length_nil] at hplace
        omega
      have hfull : s.Full rs := by
        refine ⟨Finset.nonempty_iff_ne_empty.2 hne, ?_⟩
        rcases hsome hne with hnodup | hlt
        · rwa [newIds_card hnodup]
        · exact hlt
      exact ⟨iff_of_true hraises hfull, fun h => absurd hfull h, fun n h => absurd h (hnever n)⟩
  · -- there is place for every new item
    have hnot : ¬ s.Full rs := fun h => hplace (h.2.trans_le (by exact_mod_cast hcard))
    have hnone : s.newIds rs = ∅ → s.count ≤ s.maxItems := by
      intro h0
      rw [hempty.1 h0, List.length_nil] at hplace
      omega
    rcases append_fits now hrs hplace with ⟨hnodup, hok⟩ | ⟨hdup, e, herr, hkind⟩
    · refine iff_of_true ⟨iff_of_false (fun h => ?_) hnot, fun _ => ?_, fun n h now' =>
        append_again h now'⟩ ⟨hnone, fun _ => .inl hnodup⟩
      · rw [hok] at h
        exact not_isFull_ok _ h.1
      · obtain ⟨hn, hadded⟩ := added_of_append hok hnodup
        exact ⟨hn ▸ hok, hadded⟩
    · refine iff_of_false (fun h => ?_) ?_
      · have hok := (h.added hnot).1
        rw [herr] at hok
        cases hok
      · rintro ⟨-, hsome⟩
        have hne : s.newIds rs ≠ ∅ := by
          intro h0
          rw [← newKeys_eq, hempty.1 h0] at hdup
          exact hdup List.nodup_nil
        rcases hsome hne with hnodup | hlt
        · exact hdup hnodup
        · exact hnot ⟨Finset.nonempty_iff_ne_empty.2 hne, hlt⟩

/-- A spool with the rows of the poll results. -/
def holding (maxItems : ℕ) (h : 0 < maxItems) (rs : List WorkerPollResult)
    (hkeys : (rs.map WorkerPollResult.executionId).Nodup) : DurableSqliteSpool where
  maxItems := maxItems
  rejectedItems := 0
  replayedItems := 0
  failedReplays := 0
  table := ⟨rs.map (spoolRow timestamp), nodup_spoolRow hkeys⟩
  maxItems_pos := h

/-- A list that repeats a new execution raises, and so does a stored list when the
    spool was reopened with fewer places. -/
theorem append_is_no_union :
    let one := makePollResult pollOne (.boolean true)
    let two := makePollResult pollTwo (.boolean true)
    let fresh := holding 8 (by decide) [] List.nodup_nil
    let shrunk := holding 1 (by decide) [one, two] (by decide)
    ¬ fresh.AppendsUnion timestamp [one, one] ∧ ¬ shrunk.AppendsUnion timestamp [one] := by
  intro one two fresh shrunk
  have hone : (fresh.append timestamp [one, one]).1.isOk = false ∧
      (fresh.newIds [one, one]).card = 1 := by
    decide +kernel
  have htwo : (shrunk.append timestamp [one]).1.isOk = false ∧ shrunk.newIds [one] = ∅ := by
    decide +kernel
  refine ⟨fun h => ?_, fun h => ?_⟩
  · have hplace : ¬ fresh.Full [one, one] := by
      rintro ⟨-, hlt⟩
      rw [hone.2] at hlt
      exact absurd hlt (by decide)
    rw [(h.added hplace).1] at hone
    cases hone.1
  · have hnothing : ¬ shrunk.Full [one] := fun hf => hf.1.ne_empty htwo.2
    rw [(h.added hnothing).1] at htwo
    cases htwo.1

end DurableSqliteSpool

end PlcGateway
