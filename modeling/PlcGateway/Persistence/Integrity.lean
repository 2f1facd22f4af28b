/-
  The integrity of the database over every run of repository calls.

  `GatewayDatabase.Integrity` is what the schema asks for (foreign keys and checks), and
  what the domain models promise of a stored execution and a stored reading.
  `GatewayDatabase.Evolves` relates a database to a later one: no row is ever lost, a
  stored reading never changes, and an execution keeps its origin.  Each call that commits
  keeps both, so every run of calls does (`commitAll_integrity`).
-/
import PlcGateway.Persistence.ConfigurationRepository

namespace PlcGateway

open Calendar Tables Fallible

/-! ## Rows -/

/-- The counts of a stored execution add up, and it has ended unless it is running. -/
structure PollExecutionRow.Consistent (row : PollExecutionRow) : Prop where
  successful : 0 ≤ row.successfulTags.1
  failed : 0 ≤ row.failedTags.1
  counts : row.successfulTags.1 + row.failedTags.1 ≤ row.requestedTags.1
  finished : row.finishedAt = none → row.status = PollStatus.running.value

/-- The value columns that are not NULL. -/
def TagReadingRow.filled (row : TagReadingRow) : List ValueType :=
  (if row.numericValue.isSome then [.numeric] else []) ++
    (if row.integerValue.isSome then [.integer] else []) ++
    (if row.booleanValue.isSome then [.boolean] else []) ++
    (if row.textValue.isSome then [.text] else []) ++
    (if row.binaryValue.isSome then [.binary] else [])

/-- A stored reading is bad and has an error, or is not and has the column of its type
    alone.  Only a NaN leaves that column NULL. -/
structure TagReadingRow.Consistent (row : TagReadingRow) : Prop where
  quality : ∃ q : Quality, row.quality = q.value
  errorCode : row.errorCode.isSome ↔ row.quality = Quality.bad.value
  errorMessage : row.errorMessage.isSome ↔ row.quality = Quality.bad.value
  filled : ∀ t ∈ row.filled, t.value = row.valueType ∧ row.quality ≠ Quality.bad.value
  stored : row.quality ≠ Quality.bad.value → row.valueType ≠ ValueType.numeric.value →
    ∃ t, row.filled = [t]

theorem bindInteger_eq_ok_iff {n : ℤ} {m : SqlInteger} : bindInteger n = .ok m ↔ m.1 = n := by
  rw [bindInteger]
  split_ifs with h
  · rw [Except.ok.injEq, ← Subtype.coe_inj]
    exact eq_comm
  · refine iff_of_false (by rintro ⟨⟩) ?_
    rintro rfl
    exact h m.2

theorem bindOptionalInteger_some {n : ℤ} {stored : Option SqlInteger}
    (h : bindOptionalInteger (some n) = .ok stored) : ∃ m, bindInteger n = .ok m ∧ stored = some m := by
  rw [bindOptionalInteger] at h
  cases hbind : bindInteger n with
  | error e =>
    rw [hbind] at h
    cases h
  | ok m =>
    rw [hbind] at h
    cases h
    exact ⟨m, rfl, rfl⟩

theorem executionValues_consistent {e : PollExecution} {row : PollExecutionRow}
    (h : executionValues e = .ok row) : row.Consistent := by
  simp only [executionValues, bind_eq_ok_iff, bindInteger_eq_ok_iff, pure_eq_ok_iff] at h
  obtain ⟨requested, hrequested, successful, hsuccessful, failed, hfailed, rfl⟩ := h
  have hcounts := e.counts
  have hfinished := e.finished
  refine ⟨by simp only; omega, by simp only; omega, by simp only; omega, fun hnone => ?_⟩
  rw [Option.map_eq_none_iff] at hnone
  rw [hnone] at hfinished
  exact congrArg PollStatus.value hfinished

theorem Quality.value_injective {q q' : Quality} (h : q.value = q'.value) : q = q' := by
  have hof := congrArg Quality.ofValue h
  rw [Quality.ofValue_value, Quality.ofValue_value] at hof
  exact Except.ok.inj hof

theorem readingValues_consistent {config : ConfigurationTables} {rec : TagReadingRecord}
    {row : TagReadingRow} (h : readingValues config rec = .ok row) : row.Consistent := by
  obtain ⟨eventId, connectionId, tagGroupId, ⟨tagId, receivedAt, sourceTimestamp, outcome⟩, hne⟩ := rec
  simp only [readingValues, bind_eq_ok_iff, pure_eq_ok_iff] at h
  obtain ⟨valueType, hvalueType, integerValue, hinteger, rfl⟩ := h
  cases outcome with
  | failure code message =>
    cases hinteger
    refine ⟨⟨.bad, rfl⟩, iff_of_true rfl rfl, iff_of_true rfl rfl, ?_, fun hbad => absurd rfl hbad⟩
    intro t ht
    cases ht
  | success value quality hq =>
    have hgood : quality.value ≠ Quality.bad.value := fun heq => hq (Quality.value_injective heq)
    cases hvalueType
    refine ⟨⟨quality, rfl⟩, iff_of_false Bool.false_ne_true hgood, iff_of_false Bool.false_ne_true hgood,
      ?_, ?_⟩
    · intro t ht
      refine ⟨?_, hgood⟩
      cases value with
      | integer n =>
        obtain ⟨m, -, rfl⟩ := bindOptionalInteger_some hinteger
        rw [List.mem_singleton.1 ht]
        rfl
      | numeric x =>
        cases hinteger
        -- a NaN fills no column
        change t ∈ (if (storeFloat x).isSome then [ValueType.numeric] else []) ++ [] ++ [] ++ [] ++ [] at ht
        simp only [List.append_nil] at ht
        split_ifs at ht
        · rw [List.mem_singleton.1 ht]
          rfl
        · cases ht
      | boolean b =>
        cases hinteger
        rw [List.mem_singleton.1 ht]
        rfl
      | text s =>
        cases hinteger
        rw [List.mem_singleton.1 ht]
        rfl
      | binary b =>
        cases hinteger
        rw [List.mem_singleton.1 ht]
        rfl
    · intro _ hnumeric
      cases value with
      | numeric x => exact absurd rfl hnumeric
      | integer n =>
        obtain ⟨m, -, rfl⟩ := bindOptionalInteger_some hinteger
        exact ⟨.integer, rfl⟩
      | boolean b =>
        cases hinteger
        exact ⟨.boolean, rfl⟩
      | text s =>
        cases hinteger
        exact ⟨.text, rfl⟩
      | binary b =>
        cases hinteger
        exact ⟨.binary, rfl⟩

/-! ## The reading tables -/

/-- What a stored execution keeps when it is saved again. -/
structure PollExecutionRow.Revises (old new : PollExecutionRow) : Prop where
  connectionId : new.connectionId = old.connectionId
  tagGroupId : new.tagGroupId = old.tagGroupId
  startedAt : new.startedAt = old.startedAt

namespace Database

/-- The foreign keys of the reading tables, and what their rows promise. -/
structure Integrity (tables : Database) : Prop where
  executions : Every PollExecutionRow.Consistent tables.pollExecutions
  executionKeys : Every (fun row => row.connectionId ∈ tables.config.connections ∧
    row.tagGroupId ∈ tables.config.tagGroups) tables.pollExecutions
  readings : Every TagReadingRow.Consistent tables.tagReadings
  readingKeys : Every (fun row => row.connectionId ∈ tables.config.connections ∧
    row.tagGroupId ∈ tables.config.tagGroups ∧ row.tagId ∈ tables.config.tags) tables.tagReadings

/-- Nothing of the reading tables is lost. -/
structure Evolves (tables tables' : Database) : Prop where
  config : tables'.config = tables.config
  integrity : tables.Integrity → tables'.Integrity
  pollExecutions : Retained PollExecutionRow.Revises tables.pollExecutions tables'.pollExecutions
  tagReadings : Retained Eq tables.tagReadings tables'.tagReadings

end Database

theorem PollExecutionRow.Revises.refl (row : PollExecutionRow) : row.Revises row := ⟨rfl, rfl, rfl⟩

theorem PollExecutionRow.Revises.trans {a b c : PollExecutionRow} (h : a.Revises b)
    (h' : b.Revises c) : a.Revises c :=
  ⟨h'.1.trans h.1, h'.2.trans h.2, h'.3.trans h.3⟩

namespace Database

theorem Evolves.refl (tables : Database) : tables.Evolves tables :=
  ⟨rfl, id, Retained.refl PollExecutionRow.Revises.refl _, Retained.refl (fun _ => rfl) _⟩

theorem Evolves.trans {tables tables' tables'' : Database} (h : tables.Evolves tables')
    (h' : tables'.Evolves tables'') : tables.Evolves tables'' :=
  ⟨h'.config.trans h.config, fun hi => h'.integrity (h.integrity hi),
    h.pollExecutions.trans PollExecutionRow.Revises.trans h'.pollExecutions,
    h.tagReadings.trans Eq.trans h'.tagReadings⟩

/-- An upsert of an execution that is allowed. -/
theorem evolves_execution {tables : Database} {executionId : String} {row : PollExecutionRow}
    (hrow : row.Consistent) (hallowed : (Put.execution executionId row).Allowed tables) :
    tables.Evolves ((Put.execution executionId row).apply tables) := by
  simp only [Put.apply]
  cases hold : tables.pollExecutions.lookup executionId with
  | none =>
    refine ⟨rfl, fun h => ?_, ?_, Retained.refl (fun _ => rfl) _⟩
    · have hkeys := hallowed.resolve_left (Finmap.lookup_eq_none.1 hold)
      exact ⟨h.executions.insert hrow _, h.executionKeys.insert hkeys _, h.readings, h.readingKeys⟩
    · refine retained_insert PollExecutionRow.Revises.refl fun old hold' => ?_
      rw [hold] at hold'
      cases hold'
  | some old =>
    refine ⟨rfl, fun h => ?_, ?_, Retained.refl (fun _ => rfl) _⟩
    · have hconsistent : (old.updateWith row).Consistent := ⟨hrow.1, hrow.2, hrow.3, hrow.4⟩
      have hkeys : (old.updateWith row).connectionId ∈ tables.config.connections ∧
          (old.updateWith row).tagGroupId ∈ tables.config.tagGroups :=
        h.executionKeys executionId old hold
      exact ⟨h.executions.insert hconsistent _, h.executionKeys.insert hkeys _, h.readings,
        h.readingKeys⟩
    · refine retained_insert PollExecutionRow.Revises.refl fun old' hold' => ?_
      rw [hold] at hold'
      cases hold'
      exact ⟨rfl, rfl, rfl⟩

/-- An insertion of a reading that is allowed. -/
theorem evolves_reading {tables : Database} {eventId : String} {row : TagReadingRow}
    (hrow : row.Consistent) (hallowed : (Put.reading eventId row).Allowed tables) :
    tables.Evolves ((Put.reading eventId row).apply tables) := by
  simp only [Put.apply]
  split_ifs with hmem
  · exact Evolves.refl tables
  · refine ⟨rfl, fun h => ?_, Retained.refl PollExecutionRow.Revises.refl _, ?_⟩
    · have hkeys := hallowed.resolve_left hmem
      exact ⟨h.executions, h.executionKeys, h.readings.insert hrow _, h.readingKeys.insert hkeys _⟩
    · refine retained_insert (fun _ => rfl) fun old hold => ?_
      exact absurd (Finmap.mem_of_lookup_eq_some hold) hmem

theorem evolves_savePollExecution {e : PollExecution} {tables tables' : Database}
    (h : savePollExecution e tables = .ok tables') : tables.Evolves tables' := by
  obtain ⟨row, hrow, hallowed⟩ := savePollExecution_accepts.1 ⟨tables', h⟩
  obtain ⟨row', hrow', rfl⟩ := savePollExecution_ok h
  rw [hrow] at hrow'
  cases hrow'
  exact evolves_execution (executionValues_consistent hrow) hallowed

theorem evolves_saveTagReading {rec : TagReadingRecord} {tables tables' : Database} {n : ℕ}
    (h : saveTagReading rec tables = .ok (n, tables')) : tables.Evolves tables' := by
  obtain ⟨row, hrow, hallowed⟩ := saveTagReading_accepts.1 ⟨n, tables', h⟩
  obtain ⟨row', hrow', rfl, -⟩ := saveTagReading_ok h
  rw [hrow] at hrow'
  cases hrow'
  exact evolves_reading (readingValues_consistent hrow) hallowed

theorem evolves_saveTagReadings {e : PollExecution} {results : List TagResult} {index n : ℕ}
    {tables tables' : Database} (h : saveTagReadings e index results tables = .ok (n, tables')) :
    tables.Evolves tables' := by
  induction results generalizing index n tables with
  | nil =>
    cases h
    exact Evolves.refl _
  | cons result results ih =>
    simp only [saveTagReadings, bind_eq_ok_iff, pure_eq_ok_iff, Prod.exists] at h
    obtain ⟨n₁, tables₁, h₁, n₂, tables₂, h₂, heq⟩ := h
    cases heq
    exact (evolves_saveTagReading h₁).trans (ih h₂)

theorem evolves_savePollResults {rs : List WorkerPollResult} {n : ℕ} {tables tables' : Database}
    (h : savePollResults rs tables = .ok (n, tables')) : tables.Evolves tables' := by
  induction rs generalizing n tables with
  | nil =>
    cases h
    exact Evolves.refl _
  | cons r rs ih =>
    simp only [savePollResults, savePollResult, bind_eq_ok_iff, pure_eq_ok_iff, Prod.exists] at h
    obtain ⟨n₁, tables₁, ⟨tables₀, h₀, h₁⟩, n₂, tables₂, h₂, heq⟩ := h
    cases heq
    exact ((evolves_savePollExecution h₀).trans (evolves_saveTagReadings h₁)).trans (ih h₂)

/-- The readings that the loop of `save_tag_readings` stores, and how many it counts. -/
theorem evolves_saveRecords {records : List TagReadingRecord} {n : ℕ} {tables tables' : Database}
    (h : ReadingRepository.saveRecords records tables = .ok (n, tables')) :
    tables.Evolves tables' ∧ tables'.tagReadings.keys.card = tables.tagReadings.keys.card + n := by
  induction records generalizing n tables with
  | nil =>
    cases h
    exact ⟨Evolves.refl _, rfl⟩
  | cons record records ih =>
    simp only [ReadingRepository.saveRecords, bind_eq_ok_iff, pure_eq_ok_iff, Prod.exists] at h
    obtain ⟨n₁, tables₁, h₁, n₂, tables₂, h₂, heq⟩ := h
    cases heq
    obtain ⟨hevolves, hcard⟩ := ih h₂
    obtain ⟨-, -, -, hcard₁⟩ := saveTagReading_ok h₁
    exact ⟨(evolves_saveTagReading h₁).trans hevolves, by omega⟩

end Database

/-! ## The whole database -/

/-- The tag has a value type. -/
def TagRow.Typed (row : TagRow) : Prop := ∃ t : ValueType, row.valueType = some t.value

/-- A tag with a value type has one again. -/
def TagRow.KeepsType (old new : TagRow) : Prop := old.Typed → new.Typed

theorem TagRow.KeepsType.refl (row : TagRow) : row.KeepsType row := id

theorem TagRow.KeepsType.trans {a b c : TagRow} (h : a.KeepsType b) (h' : b.KeepsType c) :
    a.KeepsType c :=
  fun ha => h' (h ha)

namespace GatewayDatabase

/-- Every foreign key of the schema refers to a row, and the rows of the reading tables
    are consistent. -/
structure Integrity (db : GatewayDatabase) : Prop where
  tagGroups : Every (fun row => row.connectionId ∈ db.connections.keys) db.tagGroups
  tags : Every (fun row => row.tagGroupId ∈ db.tagGroups.keys) db.tags
  readings : db.readingTables.Integrity

/-- No row is lost, a tag with a value type keeps one, an execution keeps its origin, and a
    reading does not change. -/
structure Evolves (db db' : GatewayDatabase) : Prop where
  connections : db.connections.keys ⊆ db'.connections.keys
  tagGroups : db.tagGroups.keys ⊆ db'.tagGroups.keys
  tags : Retained TagRow.KeepsType db.tags db'.tags
  pollExecutions : Retained PollExecutionRow.Revises db.pollExecutions db'.pollExecutions
  tagReadings : Retained Eq db.tagReadings db'.tagReadings
  runtimeComponents : db.runtimeComponents.keys ⊆ db'.runtimeComponents.keys

theorem integrity_empty : empty.Integrity :=
  ⟨every_empty _, every_empty _, every_empty _, every_empty _, every_empty _, every_empty _⟩

theorem Evolves.refl (db : GatewayDatabase) : db.Evolves db :=
  ⟨subset_rfl, subset_rfl, Retained.refl TagRow.KeepsType.refl _, Retained.refl PollExecutionRow.Revises.refl _,
    Retained.refl (fun _ => rfl) _, subset_rfl⟩

theorem Evolves.trans {db db' db'' : GatewayDatabase} (h : db.Evolves db') (h' : db'.Evolves db'') :
    db.Evolves db'' :=
  ⟨h.connections.trans h'.connections, h.tagGroups.trans h'.tagGroups,
    h.tags.trans TagRow.KeepsType.trans h'.tags,
    h.pollExecutions.trans PollExecutionRow.Revises.trans h'.pollExecutions,
    h.tagReadings.trans Eq.trans h'.tagReadings, h.runtimeComponents.trans h'.runtimeComponents⟩

/-- The foreign keys of the reading tables survive a configuration that gains rows. -/
theorem readings_of_config {db db' : GatewayDatabase} (h : db.readingTables.Integrity)
    (hconnections : db.connections.keys ⊆ db'.connections.keys)
    (htagGroups : db.tagGroups.keys ⊆ db'.tagGroups.keys) (htags : db.tags.keys ⊆ db'.tags.keys)
    (hexecutions : db'.pollExecutions = db.pollExecutions)
    (hreadings : db'.tagReadings = db.tagReadings) : db'.readingTables.Integrity := by
  have hexec : db'.readingTables.pollExecutions = db.readingTables.pollExecutions := hexecutions
  have hread : db'.readingTables.tagReadings = db.readingTables.tagReadings := hreadings
  refine ⟨?_, ?_, ?_, ?_⟩
  · rw [hexec]
    exact h.executions
  · rw [hexec]
    exact h.executionKeys.mono fun row hrow => ⟨hconnections hrow.1, htagGroups hrow.2⟩
  · rw [hread]
    exact h.readings
  · rw [hread]
    refine h.readingKeys.mono fun row hrow => ⟨hconnections hrow.1, htagGroups hrow.2.1, ?_⟩
    have htag : row.tagId ∈ db.tags.keys := Finmap.mem_keys.2 (mem_mapRows.1 hrow.2.2)
    exact mem_mapRows.2 (Finmap.mem_keys.1 (htags htag))

/-- What the reading repository does to its tables, it does to the database. -/
theorem of_readings {db : GatewayDatabase} {tables : Database} (h : db.readingTables.Evolves tables) :
    (db.Integrity → (db.withReadings tables).Integrity) ∧ db.Evolves (db.withReadings tables) := by
  have htables : (db.withReadings tables).readingTables = tables := by
    obtain ⟨config, pollExecutions, tagReadings⟩ := tables
    have hconfig : config = db.readingTables.config := h.config
    subst hconfig
    rfl
  refine ⟨fun hi => ⟨hi.tagGroups, hi.tags, ?_⟩, subset_rfl, subset_rfl,
    Retained.refl TagRow.KeepsType.refl _, h.pollExecutions, h.tagReadings, subset_rfl⟩
  rw [htables]
  exact h.integrity hi.readings

/-- What a transaction that counts `n` new readings does. -/
structure Transacts (db : GatewayDatabase) (n : ℕ) (db' : GatewayDatabase) : Prop where
  integrity : db.Integrity → db'.Integrity
  evolves : db.Evolves db'
  count : ReadingRepository.countTagReadings db' = ReadingRepository.countTagReadings db + n

theorem Transacts.refl (db : GatewayDatabase) : db.Transacts 0 db := ⟨id, Evolves.refl db, rfl⟩

theorem Transacts.trans {db db' db'' : GatewayDatabase} {n m : ℕ} (h : db.Transacts n db')
    (h' : db'.Transacts m db'') : db.Transacts (n + m) db'' :=
  ⟨fun hi => h'.integrity (h.integrity hi), h.evolves.trans h'.evolves, by
    rw [h'.count, h.count, Nat.add_assoc]⟩

end GatewayDatabase

/-! ## One call -/

section
variable {db db' : GatewayDatabase}

theorem transacts_upsertConnections {configs : List ConnectionConfig}
    (h : ConfigurationRepository.upsertConnections configs db = .ok db') : db.Transacts 0 db' := by
  simp only [ConfigurationRepository.upsertConnections, bind_eq_ok_iff, pure_eq_ok_iff] at h
  obtain ⟨_, h, rfl⟩ := h
  have hkeys := keys_subset_upsertAll h
  obtain ⟨rows, -, -, rfl⟩ := upsertAll_eq_ok_iff.1 h
  refine ⟨fun hi => ⟨hi.tagGroups.mono fun _ hrow => hkeys hrow, hi.tags, ?_⟩, ?_, rfl⟩
  · exact GatewayDatabase.readings_of_config hi.readings hkeys subset_rfl subset_rfl rfl rfl
  · exact { GatewayDatabase.Evolves.refl db with connections := hkeys }

theorem transacts_upsertTagGroups {configs : List TagGroupConfig}
    (h : ConfigurationRepository.upsertTagGroups configs db = .ok db') : db.Transacts 0 db' := by
  simp only [ConfigurationRepository.upsertTagGroups, bind_eq_ok_iff, pure_eq_ok_iff] at h
  obtain ⟨_, h, rfl⟩ := h
  have hkeys := keys_subset_upsertAll h
  obtain ⟨rows, -, hrefers, rfl⟩ := upsertAll_eq_ok_iff.1 h
  refine ⟨fun hi => ⟨hi.tagGroups.insertAll hrefers, hi.tags.mono fun _ hrow => hkeys hrow, ?_⟩, ?_, rfl⟩
  · exact GatewayDatabase.readings_of_config hi.readings subset_rfl hkeys subset_rfl rfl rfl
  · exact { GatewayDatabase.Evolves.refl db with tagGroups := hkeys }

theorem transacts_upsertTags {configs : List TagConfig}
    (h : ConfigurationRepository.upsertTags configs db = .ok db') : db.Transacts 0 db' := by
  simp only [ConfigurationRepository.upsertTags, bind_eq_ok_iff, pure_eq_ok_iff] at h
  obtain ⟨_, h, rfl⟩ := h
  have hkeys := keys_subset_upsertAll h
  obtain ⟨rows, hrows, hrefers, rfl⟩ := upsertAll_eq_ok_iff.1 h
  have htyped : ∀ r ∈ rows, ∀ old, TagRow.KeepsType old r.2 := by
    intro r hr old _
    obtain ⟨config, -, hvalues⟩ := exists_of_mem_right hrows hr
    cases hvalues
    exact ⟨config.valueType, rfl⟩
  refine ⟨fun hi => ⟨hi.tagGroups, hi.tags.insertAll hrefers, ?_⟩, ?_, rfl⟩
  · exact GatewayDatabase.readings_of_config hi.readings subset_rfl subset_rfl hkeys rfl rfl
  · have hkept := retained_insertAll TagRow.KeepsType.refl TagRow.KeepsType.trans htyped db.tags
    exact { GatewayDatabase.Evolves.refl db with tags := hkept }

theorem transacts_savePollExecution {execution : PollExecution}
    (h : ReadingRepository.savePollExecution execution db = .ok db') : db.Transacts 0 db' := by
  simp only [ReadingRepository.savePollExecution, bind_eq_ok_iff, pure_eq_ok_iff] at h
  obtain ⟨tables, htables, rfl⟩ := h
  obtain ⟨hintegrity, hevolves⟩ :=
    GatewayDatabase.of_readings (Database.evolves_savePollExecution htables)
  obtain ⟨row, -, rfl⟩ := savePollExecution_ok htables
  exact ⟨hintegrity, hevolves, rfl⟩

theorem transacts_saveTagReadings {records : List TagReadingRecord} {n : ℕ}
    (h : ReadingRepository.saveTagReadings records db = .ok (n, db')) : db.Transacts n db' := by
  simp only [ReadingRepository.saveTagReadings, bind_eq_ok_iff, pure_eq_ok_iff, Prod.exists] at h
  obtain ⟨n, tables, htables, heq⟩ := h
  cases heq
  obtain ⟨hrecords, hcount⟩ := Database.evolves_saveRecords htables
  obtain ⟨hintegrity, hevolves⟩ := GatewayDatabase.of_readings hrecords
  exact ⟨hintegrity, hevolves, hcount⟩

theorem transacts_savePollResults {rs : List WorkerPollResult} {n : ℕ}
    (h : ReadingRepository.savePollResults rs db = .ok (n, db')) : db.Transacts n db' := by
  simp only [ReadingRepository.savePollResults, bind_eq_ok_iff, pure_eq_ok_iff, Prod.exists] at h
  obtain ⟨n, tables, htables, heq⟩ := h
  cases heq
  obtain ⟨hintegrity, hevolves⟩ :=
    GatewayDatabase.of_readings (Database.evolves_savePollResults htables)
  obtain ⟨-, -, hcount⟩ := savePollResults_ok htables
  exact ⟨hintegrity, hevolves, hcount⟩

theorem transacts_upsertStatus (status : RuntimeComponentStatus) (db : GatewayDatabase) :
    db.Transacts 0 (RuntimeStatusRepository.upsertStatus status db) := by
  refine ⟨fun hi => ⟨hi.tagGroups, hi.tags, hi.readings⟩, ?_, rfl⟩
  refine { GatewayDatabase.Evolves.refl db with runtimeComponents := ?_ }
  intro k hk
  exact Finmap.mem_keys.2 (Finmap.mem_insert.2 (.inr (Finmap.mem_keys.1 hk)))

theorem map_zero_eq_ok_iff {x : Except PyError GatewayDatabase} {n : ℕ} :
    ((0, ·) <$> x) = .ok (n, db') ↔ n = 0 ∧ x = .ok db' := by
  cases x with
  | error e => exact iff_of_false (by rintro ⟨⟩) (by rintro ⟨-, ⟨⟩⟩)
  | ok db =>
    constructor
    · intro h
      cases h
      exact ⟨rfl, rfl⟩
    · rintro ⟨rfl, h⟩
      cases h
      rfl

/-- A call that does not raise. -/
theorem transacts_execute {call : RepositoryCall} {n : ℕ} (h : call.execute db = .ok (n, db')) :
    db.Transacts n db' := by
  cases call with
  | upsertConnections configs =>
    rw [RepositoryCall.execute, map_zero_eq_ok_iff] at h
    obtain ⟨rfl, h⟩ := h
    exact transacts_upsertConnections h
  | upsertTagGroups configs =>
    rw [RepositoryCall.execute, map_zero_eq_ok_iff] at h
    obtain ⟨rfl, h⟩ := h
    exact transacts_upsertTagGroups h
  | upsertTags configs =>
    rw [RepositoryCall.execute, map_zero_eq_ok_iff] at h
    obtain ⟨rfl, h⟩ := h
    exact transacts_upsertTags h
  | savePollExecution execution =>
    rw [RepositoryCall.execute, map_zero_eq_ok_iff] at h
    obtain ⟨rfl, h⟩ := h
    exact transacts_savePollExecution h
  | saveTagReadings records => exact transacts_saveTagReadings h
  | savePollResults pollResults => exact transacts_savePollResults h
  | upsertStatus status =>
    cases h
    exact transacts_upsertStatus status db

end

namespace RepositoryCall

theorem transacts_commit (call : RepositoryCall) (db : GatewayDatabase) :
    db.Transacts (call.commit db).1 (call.commit db).2 := by
  rw [commit]
  cases h : call.execute db with
  | error e => exact .refl db
  | ok result => exact transacts_execute h

theorem transacts_commitAll (calls : List RepositoryCall) (db : GatewayDatabase) :
    db.Transacts (commitAll calls db).1 (commitAll calls db).2 := by
  induction calls generalizing db with
  | nil => exact .refl db
  | cons call calls ih => exact (call.transacts_commit db).trans (ih _)

/-- **The database keeps its integrity over every run of repository calls**, whichever of
    them are rolled back; no row is lost, a stored reading never changes, a stored execution
    keeps its connection, its group and its start, a tag its having a value type, and the
    counts that the calls return add up to the readings that are new. -/
theorem commitAll_integrity (calls : List RepositoryCall) {db : GatewayDatabase}
    (h : db.Integrity) :
    (commitAll calls db).2.Integrity ∧ db.Evolves (commitAll calls db).2 ∧
      ReadingRepository.countTagReadings (commitAll calls db).2 =
        ReadingRepository.countTagReadings db + (commitAll calls db).1 := by
  obtain ⟨hintegrity, hevolves, hcount⟩ := transacts_commitAll calls db
  exact ⟨hintegrity h, hevolves, hcount⟩

/-- A poll that is saved before its tag is configured, and twice afterwards. -/
def releaseCalls : List RepositoryCall := [
  .upsertConnections [fakeConfig.connection],
  .upsertTagGroups [fastGroupConfig],
  .savePollResults [makePollResult pollOne (.boolean true)],
  .upsertTags [temperatureConfig],
  .savePollResults [makePollResult pollOne (.boolean true)],
  .savePollResults [makePollResult pollOne (.boolean false), makePollResult pollTwo (.boolean true)]]

theorem commitAll_integrity_release :
    (commitAll releaseCalls .empty).2.Integrity ∧
      ReadingRepository.countTagReadings (commitAll releaseCalls .empty).2 = 2 := by
  obtain ⟨hintegrity, -, hcount⟩ := commitAll_integrity releaseCalls GatewayDatabase.integrity_empty
  refine ⟨hintegrity, hcount.trans ?_⟩
  rfl

end RepositoryCall

end PlcGateway
