/-
  What a saved poll result does to the tables.

  The statements of `save_poll_results` are elementary puts: an upsert of an
  execution, and an insertion that keeps a stored reading.  `savePollResults_ok`
  says that a transaction that commits does the puts of its poll results, and
  `puts_absorbing` that puts under consistent keys commute and absorb repetition.
-/
import PlcGateway.Library.Absorption
import PlcGateway.Persistence.Repositories

namespace PlcGateway

open Absorption

/-- The row that an upsert leaves. -/
def PollExecutionRow.upsert (row : PollExecutionRow) : Option PollExecutionRow → PollExecutionRow
  | some old => old.updateWith row
  | none => row

/-- One statement of a transaction, with the values that it binds. -/
inductive Put where
  | execution (executionId : String) (row : PollExecutionRow)
  | reading (eventId : String) (row : TagReadingRow)

namespace Put

def apply : Put → Database → Database
  | execution executionId row, db =>
    let row := row.upsert (db.pollExecutions.lookup executionId)
    { db with pollExecutions := db.pollExecutions.insert executionId row }
  | reading eventId row, db =>
    if eventId ∈ db.tagReadings then db
    else { db with tagReadings := db.tagReadings.insert eventId row }

@[simp] theorem apply_config (p : Put) (db : Database) : (p.apply db).config = db.config := by
  cases p with
  | execution i row => rfl
  | reading e row => simp only [apply]; split_ifs <;> rfl

@[simp] theorem actAll_config (ps : List Put) (db : Database) :
    (actAll apply ps db).config = db.config := by
  induction ps generalizing db with
  | nil => rfl
  | cons p ps ih => rw [actAll_cons, ih, apply_config]

/-- Two puts under one key are the same put. -/
def Consistent : Put → Put → Prop
  | execution i row, execution j row' => i = j → row = row'
  | reading e row, reading f row' => e = f → row = row'
  | _, _ => True

end Put

theorem PollExecutionRow.upsert_idem (row : PollExecutionRow) (old : Option PollExecutionRow) :
    row.upsert (some (row.upsert old)) = row.upsert old := by
  cases old <;> rfl

theorem Put.idem (p : Put) (db : Database) : p.apply (p.apply db) = p.apply db := by
  cases p with
  | execution i row =>
    simp only [apply, Finmap.lookup_insert, Finmap.insert_insert, PollExecutionRow.upsert_idem]
  | reading e row =>
    by_cases h : e ∈ db.tagReadings
    · simp only [apply, if_pos h]
    · have h' : e ∈ db.tagReadings.insert e row := Finmap.mem_insert.2 (.inl rfl)
      simp only [apply, if_neg h, if_pos h']

theorem Put.comm {p q : Put} (h : Consistent p q) (db : Database) :
    p.apply (q.apply db) = q.apply (p.apply db) := by
  cases p with
  | execution i row =>
    cases q with
    | execution j row' =>
      by_cases hij : i = j
      · subst hij; rw [h rfl]
      · simp only [apply, Finmap.lookup_insert_of_ne _ hij,
          Finmap.lookup_insert_of_ne _ (Ne.symm hij)]
        rw [Finmap.insert_insert_of_ne _ (Ne.symm hij)]
    | reading f row' => by_cases hf : f ∈ db.tagReadings <;> simp only [apply, hf, if_true, if_false]
  | reading e row =>
    cases q with
    | execution j row' => by_cases he : e ∈ db.tagReadings <;> simp only [apply, he, if_true, if_false]
    | reading f row' =>
      by_cases hef : e = f
      · subst hef; rw [h rfl]
      · by_cases he : e ∈ db.tagReadings <;> by_cases hf : f ∈ db.tagReadings <;>
          simp only [apply, he, hf, if_true, if_false, Finmap.mem_insert, hef, Ne.symm hef, or_true,
            or_false]
        rw [Finmap.insert_insert_of_ne _ (Ne.symm hef)]

/-- **Puts under consistent keys commute and absorb repetition.** -/
theorem puts_absorbing {P : Put → Prop} (h : ∀ p q, P p → P q → p.Consistent q) :
    Absorbing Put.apply P :=
  ⟨fun p q hp hq => Put.comm (h p q hp hq), fun p _ => Put.idem p⟩

/-! ## The puts of a poll result -/

/-- The puts of the readings, from `index` on. -/
def readingPuts (config : ConfigurationTables) (execution : PollExecution) :
    ℕ → List TagResult → Except PyError (List Put)
  | _, [] => return []
  | index, result :: results => do
    let row ← readingValues config (readingRecord execution index result)
    let puts ← readingPuts config execution (index + 1) results
    return .reading (eventId execution.executionId.text index) row :: puts

def putsOf (config : ConfigurationTables) (r : WorkerPollResult) : Except PyError (List Put) := do
  let row ← executionValues r.execution
  let puts ← readingPuts config r.execution 0 r.results
  return .execution r.executionId row :: puts

/-- What the foreign keys of a poll result refer to is configured. -/
def ForeignKeys (config : ConfigurationTables) (r : WorkerPollResult) : Prop :=
  r.execution.connectionId.text ∈ config.connections ∧
    r.execution.tagGroupId.text ∈ config.tagGroups ∧
    ∀ result ∈ r.results, result.tagId.text ∈ config.tags

/-- The tables of the tests: one tag, of type numeric. -/
def testDatabase : Database where
  config := {
    connections := {"mock_connection"}
    tagGroups := {"fast"}
    tags := Finmap.singleton "temperature" (some "numeric") }
  pollExecutions := ∅
  tagReadings := ∅

theorem testDatabase_keys (id : Stripped) (v : TagValue) :
    ForeignKeys testDatabase.config (makePollResult id v) :=
  ⟨Finset.mem_singleton_self _, Finset.mem_singleton_self _, fun result hr => by
    rw [List.mem_singleton.1 hr]
    exact (Finmap.mem_singleton _ _ _).2 rfl⟩

theorem executionValues_keys {e : PollExecution} {row : PollExecutionRow}
    (h : executionValues e = .ok row) :
    row.connectionId = e.connectionId.text ∧ row.tagGroupId = e.tagGroupId.text := by
  unfold executionValues bindInteger at h
  split_ifs at h <;> cases h
  exact ⟨rfl, rfl⟩

theorem readingValues_keys {config : ConfigurationTables} {rec : TagReadingRecord}
    {row : TagReadingRow} (h : readingValues config rec = .ok row) :
    row.connectionId = rec.connectionId ∧ row.tagGroupId = rec.tagGroupId ∧
      row.tagId = rec.result.tagId.text := by
  simp only [readingValues] at h
  cases hv : readingValueType config rec with
  | error e => rw [hv] at h; cases h
  | ok t =>
    cases hi : bindOptionalInteger (rec.result.value.bind TagValue.integerValue) with
    | error e => rw [hv, hi] at h; cases h
    | ok n => rw [hv, hi] at h; cases h; exact ⟨rfl, rfl, rfl⟩

/-- What `_save_poll_execution` does when it does not raise. -/
theorem savePollExecution_ok {e : PollExecution} {db db' : Database}
    (h : savePollExecution e db = .ok db') :
    ∃ row, executionValues e = .ok row ∧ db' = (Put.execution e.executionId.text row).apply db := by
  unfold savePollExecution at h
  cases hr : executionValues e with
  | error x => rw [hr] at h; cases h
  | ok row =>
    rw [hr, ok_bind] at h
    refine ⟨row, rfl, ?_⟩
    cases hl : db.pollExecutions.lookup e.executionId.text with
    | some old => rw [hl] at h; cases h; simp only [Put.apply, hl, PollExecutionRow.upsert]
    | none =>
      rw [hl] at h
      simp only at h
      split_ifs at h
      · cases h; simp only [Put.apply, hl, PollExecutionRow.upsert]

/-- What `_save_tag_reading` does when it does not raise. -/
theorem saveTagReading_ok {rec : TagReadingRecord} {db db' : Database} {n : ℕ}
    (h : saveTagReading rec db = .ok (n, db')) :
    ∃ row, readingValues db.config rec = .ok row ∧ db' = (Put.reading rec.eventId row).apply db ∧
      db'.tagReadings.keys.card = db.tagReadings.keys.card + n := by
  unfold saveTagReading at h
  cases hr : readingValues db.config rec with
  | error x => rw [hr] at h; cases h
  | ok row =>
    rw [hr, ok_bind] at h
    refine ⟨row, rfl, ?_⟩
    split_ifs at h with hm hk
    · cases h; simp only [Put.apply, if_pos hm, Nat.add_zero, and_self]
    · cases h
      have hk : (db.tagReadings.insert rec.eventId row).keys =
          insert rec.eventId db.tagReadings.keys := by
        ext x; simp only [Finmap.mem_keys, Finmap.mem_insert, Finset.mem_insert]
      simp only [Put.apply, if_neg hm, hk, true_and]
      exact Finset.card_insert_of_notMem fun h' => hm (Finmap.mem_keys.1 h')

/-- A reading whose row can be bound and whose foreign keys are configured is saved. -/
theorem saveTagReading_total {rec : TagReadingRecord} {db : Database} {row : TagReadingRow}
    (hr : readingValues db.config rec = .ok row)
    (hk : rec.connectionId ∈ db.config.connections ∧ rec.tagGroupId ∈ db.config.tagGroups ∧
      rec.result.tagId.text ∈ db.config.tags) :
    ∃ n, saveTagReading rec db = .ok (n, (Put.reading rec.eventId row).apply db) := by
  obtain ⟨h1, h2, h3⟩ := readingValues_keys hr
  rw [← h1, ← h2, ← h3] at hk
  simp only [saveTagReading, hr, ok_bind, hk, and_self, if_true, Put.apply]
  split_ifs
  · exact ⟨0, rfl⟩
  · exact ⟨1, rfl⟩

theorem savePollExecution_total {e : PollExecution} {db : Database} {row : PollExecutionRow}
    (hr : executionValues e = .ok row)
    (hk : e.connectionId.text ∈ db.config.connections ∧ e.tagGroupId.text ∈ db.config.tagGroups) :
    savePollExecution e db = .ok ((Put.execution e.executionId.text row).apply db) := by
  obtain ⟨h1, h2⟩ := executionValues_keys hr
  rw [← h1, ← h2] at hk
  simp only [savePollExecution, hr, ok_bind, Put.apply]
  cases db.pollExecutions.lookup e.executionId.text with
  | some old => rfl
  | none => exact if_pos hk

/-! ## Transactions -/

theorem saveTagReadings_ok {e : PollExecution} {results : List TagResult} {index n : ℕ}
    {db db' : Database} (h : saveTagReadings e index results db = .ok (n, db')) :
    ∃ ps, readingPuts db.config e index results = .ok ps ∧ db' = actAll Put.apply ps db ∧
      db'.tagReadings.keys.card = db.tagReadings.keys.card + n := by
  induction results generalizing index n db with
  | nil => cases h; exact ⟨[], rfl, rfl, rfl⟩
  | cons result results ih =>
    simp only [saveTagReadings] at h
    cases h₁ : saveTagReading (readingRecord e index result) db with
    | error x => rw [h₁] at h; cases h
    | ok p =>
      obtain ⟨n₁, db₁⟩ := p
      rw [h₁, ok_bind] at h
      obtain ⟨row, hrow, rfl, hc₁⟩ := saveTagReading_ok h₁
      cases h₂ : saveTagReadings e (index + 1) results
          ((Put.reading (readingRecord e index result).eventId row).apply db) with
      | error x => simp only [h₂] at h; cases h
      | ok p =>
        obtain ⟨n₂, db₂⟩ := p
        simp only [h₂] at h
        cases h
        obtain ⟨ps, hps, rfl, hc₂⟩ := ih h₂
        rw [Put.apply_config] at hps
        refine ⟨_ :: ps, ?_, rfl, by omega⟩
        rw [readingPuts, hrow, hps]
        rfl

theorem saveTagReadings_total {e : PollExecution} {results : List TagResult} {index : ℕ}
    {db : Database} {ps : List Put} (h : readingPuts db.config e index results = .ok ps)
    (hk : e.connectionId.text ∈ db.config.connections ∧ e.tagGroupId.text ∈ db.config.tagGroups ∧
      ∀ result ∈ results, result.tagId.text ∈ db.config.tags) :
    ∃ n, saveTagReadings e index results db = .ok (n, actAll Put.apply ps db) := by
  induction results generalizing index db ps with
  | nil => cases h; exact ⟨0, rfl⟩
  | cons result results ih =>
    rw [readingPuts] at h
    cases hrow : readingValues db.config (readingRecord e index result) with
    | error x => rw [hrow] at h; cases h
    | ok row =>
      cases hps : readingPuts db.config e (index + 1) results with
      | error x => rw [hrow, ok_bind, hps] at h; cases h
      | ok ps' =>
        rw [hrow, ok_bind, hps] at h
        cases h
        obtain ⟨hc, hg, ht⟩ := hk
        obtain ⟨n₁, h₁⟩ := saveTagReading_total hrow ⟨hc, hg, ht _ List.mem_cons_self⟩
        have hcfg := Put.apply_config (.reading (readingRecord e index result).eventId row) db
        rw [← hcfg] at hps hc hg ht
        obtain ⟨n₂, h₂⟩ := ih hps ⟨hc, hg, fun r hr => ht r (List.mem_cons_of_mem _ hr)⟩
        refine ⟨n₁ + n₂, ?_⟩
        simp only [saveTagReadings, h₁, ok_bind, h₂]
        rfl

/-- What one poll result of a transaction does when it does not raise. -/
theorem savePollResult_ok {r : WorkerPollResult} {db db' : Database} {n : ℕ}
    (h : savePollResult r db = .ok (n, db')) :
    ∃ ps, putsOf db.config r = .ok ps ∧ db' = actAll Put.apply ps db ∧
      db'.tagReadings.keys.card = db.tagReadings.keys.card + n := by
  simp only [savePollResult] at h
  cases h₁ : savePollExecution r.execution db with
  | error x => rw [h₁] at h; cases h
  | ok db₁ =>
    rw [h₁, ok_bind] at h
    obtain ⟨row, hrow, rfl⟩ := savePollExecution_ok h₁
    obtain ⟨ps, hps, rfl, hc⟩ := saveTagReadings_ok h
    rw [Put.apply_config] at hps
    refine ⟨_ :: ps, ?_, rfl, hc⟩
    rw [putsOf, hrow, ok_bind, hps]
    rfl

theorem savePollResult_total {r : WorkerPollResult} {db : Database} {ps : List Put}
    (h : putsOf db.config r = .ok ps) (hk : ForeignKeys db.config r) :
    ∃ n, savePollResult r db = .ok (n, actAll Put.apply ps db) := by
  rw [putsOf] at h
  cases hrow : executionValues r.execution with
  | error x => rw [hrow] at h; cases h
  | ok row =>
    cases hps : readingPuts db.config r.execution 0 r.results with
    | error x => rw [hrow, ok_bind, hps] at h; cases h
    | ok ps' =>
      rw [hrow, ok_bind, hps] at h
      cases h
      have hexec := savePollExecution_total hrow ⟨hk.1, hk.2.1⟩
      have hcfg := Put.apply_config (.execution r.execution.executionId.text row) db
      rw [← hcfg] at hps hk
      obtain ⟨n, hn⟩ := saveTagReadings_total hps hk
      exact ⟨n, by simp only [savePollResult, hexec, ok_bind, hn]; rfl⟩

/-- The puts of a poll result that can be stored. -/
def puts (config : ConfigurationTables) (r : WorkerPollResult) : List Put :=
  match putsOf config r with
  | .ok ps => ps
  | .error _ => []

theorem puts_eq {config : ConfigurationTables} {r : WorkerPollResult} {ps : List Put}
    (h : putsOf config r = .ok ps) : puts config r = ps := by
  rw [puts, h]

/-- **A transaction that commits** does the puts of its poll results, and returns
    the number of readings that it creates. -/
theorem savePollResults_ok {rs : List WorkerPollResult} {db db' : Database} {n : ℕ}
    (h : savePollResults rs db = .ok (n, db')) :
    (∀ r ∈ rs, ∃ ps, putsOf db.config r = .ok ps) ∧
      db' = actAll Put.apply (rs.flatMap (puts db.config)) db ∧
      db'.tagReadings.keys.card = db.tagReadings.keys.card + n := by
  induction rs generalizing n db with
  | nil => cases h; exact ⟨by simp, rfl, rfl⟩
  | cons r rs ih =>
    simp only [savePollResults] at h
    cases h₁ : savePollResult r db with
    | error x => rw [h₁] at h; cases h
    | ok p =>
      obtain ⟨n₁, db₁⟩ := p
      rw [h₁, ok_bind] at h
      obtain ⟨ps, hps, rfl, hc₁⟩ := savePollResult_ok h₁
      cases h₂ : savePollResults rs (actAll Put.apply ps db) with
      | error x => simp only [h₂] at h; cases h
      | ok p =>
        obtain ⟨n₂, db₂⟩ := p
        simp only [h₂] at h
        cases h
        obtain ⟨hs, rfl, hc₂⟩ := ih h₂
        rw [Put.actAll_config] at hs
        refine ⟨List.forall_mem_cons.2 ⟨⟨ps, hps⟩, hs⟩, ?_, by omega⟩
        rw [List.flatMap_cons, actAll_append, puts_eq hps, Put.actAll_config]

/-- A transaction of poll results that can be stored commits. -/
theorem savePollResults_total {rs : List WorkerPollResult} {db : Database}
    (h : ∀ r ∈ rs, (∃ ps, putsOf db.config r = .ok ps) ∧ ForeignKeys db.config r) :
    ∃ n, savePollResults rs db = .ok (n, actAll Put.apply (rs.flatMap (puts db.config)) db) := by
  induction rs generalizing db with
  | nil => exact ⟨0, rfl⟩
  | cons r rs ih =>
    obtain ⟨⟨⟨ps, hps⟩, hk⟩, hrs⟩ := List.forall_mem_cons.1 h
    obtain ⟨n₁, h₁⟩ := savePollResult_total hps hk
    rw [← Put.actAll_config ps db] at hrs
    obtain ⟨n₂, h₂⟩ := ih hrs
    refine ⟨n₁ + n₂, ?_⟩
    simp only [savePollResults, h₁, ok_bind, h₂, List.flatMap_cons, actAll_append,
      puts_eq hps, Put.actAll_config]
    rfl

end PlcGateway
