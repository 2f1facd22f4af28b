/-
  Storing a poll result and reading its rows back.

  A row is faithful to a result when it gives back every field of it, with its
  value as the one column that is not NULL.  Only an integer of more than 64 bits
  and a NaN are not stored faithfully.
-/
import PlcGateway.Persistence.ExactlyOnce

namespace PlcGateway

open Absorption Calendar

/-- The value columns of a row that are not NULL. -/
def TagReadingRow.values (row : TagReadingRow) : List TagValue :=
  (row.numericValue.map fun x => .numeric x.1).toList ++
    (row.integerValue.map fun n => .integer n.1).toList ++
    (row.booleanValue.map TagValue.boolean).toList ++ (row.textValue.map TagValue.text).toList ++
    (row.binaryValue.map TagValue.binary).toList

/-- The row gives the result back: the value type of a failed one is the
    configured type of its tag. -/
structure TagReadingRow.Faithful (row : TagReadingRow) (config : ConfigurationTables)
    (result : TagResult) : Prop where
  tagId : row.tagId = result.tagId.text
  quality : Quality.ofValue row.quality = .ok result.quality
  receivedAt : resultDateTime row.receivedAt = .ok result.receivedAt
  sourceTimestamp : row.sourceTimestamp.mapM resultDateTime = .ok result.sourceTimestamp
  valueType : some row.valueType = match result.value with
    | some value => some value.valueType.value
    | none => (config.tags.lookup result.tagId.text).join
  errorCode : row.errorCode = result.errorCode.map Stripped.text
  errorMessage : row.errorMessage = result.errorMessage.map Stripped.text
  values : row.values = result.value.toList

/-- The connection, the group and the tags of a poll result are configured, each
    tag with a value type. -/
structure Configured (config : ConfigurationTables) (r : WorkerPollResult) : Prop where
  keys : ForeignKeys config r
  valueTypes : ∀ result ∈ r.results, ∃ t, config.tags.lookup result.tagId.text = some (some t) ∧ t ≠ ""

/-- Every reading of the poll result is stored, faithfully and in its place. -/
def ReadsBack (db : Database) (r : WorkerPollResult) : Prop :=
  ∀ i result, r.results[i]? = some result → ∃ row,
    db.tagReadings.lookup (eventId r.executionId i) = some row ∧ row.Faithful db.config result

/-- A value that a column can hold. -/
def TagValue.Storable : TagValue → Prop
  | numeric x => x.isNaN = false
  | integer n => FitsInt64 n
  | _ => True

/-- The numbers of the poll result fit their columns, and what is stored under
    its event ids already is its own. -/
structure Storable (db : Database) (r : WorkerPollResult) : Prop where
  requested : FitsInt64 r.execution.requestedTags
  values : ∀ result ∈ r.results, ∀ v, result.value = some v → v.Storable
  own : ∀ i result, r.results[i]? = some result → ∀ row,
    db.tagReadings.lookup (eventId r.executionId i) = some row → row.Faithful db.config result

/-! ## One reading -/

theorem resultDateTime_bindDateTime (d : DateTime) : resultDateTime (bindDateTime d) = .ok d := by
  rw [resultDateTime, bindDateTime, fromisoformat_isoformat]

theorem mapM_resultDateTime (d : Option DateTime) :
    (d.map bindDateTime).mapM resultDateTime = .ok d := by
  cases d with
  | none => rfl
  | some d =>
    show some <$> resultDateTime (bindDateTime d) = _
    rw [resultDateTime_bindDateTime]; rfl

/-- What the columns of a row hold can be stored. -/
theorem storable_of_mem_values {row : TagReadingRow} {v : TagValue} (h : v ∈ row.values) :
    v.Storable := by
  simp only [TagReadingRow.values, List.mem_append, Option.mem_toList, Option.map_eq_some_iff] at h
  rcases h with (((⟨x, -, rfl⟩ | ⟨n, -, rfl⟩) | ⟨b, -, rfl⟩) | ⟨t, -, rfl⟩) | ⟨b, -, rfl⟩
  · exact x.2
  · exact n.2
  · trivial
  · trivial
  · trivial

/-- The columns of a bound value hold the value. -/
theorem bound_values {v : Option TagValue} {n : Option SqlInteger} {row : TagReadingRow}
    (hv : ∀ w, v = some w → w.Storable)
    (hn : bindOptionalInteger (v.bind TagValue.integerValue) = .ok n)
    (h₁ : row.numericValue = (v.bind TagValue.numericValue).bind storeFloat)
    (h₂ : row.integerValue = n) (h₃ : row.booleanValue = v.bind TagValue.booleanValue)
    (h₄ : row.textValue = v.bind TagValue.textValue)
    (h₅ : row.binaryValue = v.bind TagValue.binaryValue) : row.values = v.toList := by
  rw [TagReadingRow.values, h₁, h₂, h₃, h₄, h₅]
  cases v with
  | none => cases hn; rfl
  | some v =>
    cases v with
    | numeric x =>
      have hx : x.isNaN = false := hv _ rfl
      cases hn
      simp [TagValue.numericValue, TagValue.booleanValue, TagValue.textValue, TagValue.binaryValue,
        storeFloat, hx]
    | integer m =>
      have hm : FitsInt64 m := hv _ rfl
      have hb : bindInteger m = .ok ⟨m, hm⟩ := dif_pos hm
      simp only [Option.bind_some, TagValue.integerValue, bindOptionalInteger, hb] at hn
      cases hn
      rfl
    | boolean b => cases hn; rfl
    | text t => cases hn; rfl
    | binary b => cases hn; rfl

/-- The value type that is stored. -/
theorem readingValueType_eq {config : ConfigurationTables} {rec : TagReadingRecord} {t : String}
    (h : readingValueType config rec = .ok t) :
    some t = match rec.result.value with
      | some value => some value.valueType.value
      | none => (config.tags.lookup rec.result.tagId.text).join := by
  unfold readingValueType at h
  cases hv : rec.result.value with
  | some v => rw [hv] at h; cases h; rfl
  | none =>
    rw [hv] at h
    cases hl : (config.tags.lookup rec.result.tagId.text).join with
    | none => simp only [hl] at h; cases h
    | some c =>
      simp only [hl] at h
      split_ifs at h
      cases h
      rfl

/-- A bound row is faithful, if the value can be stored. -/
theorem faithful_of_readingValues {config : ConfigurationTables} {rec : TagReadingRecord}
    {row : TagReadingRow} (h : readingValues config rec = .ok row)
    (hv : ∀ v, rec.result.value = some v → v.Storable) : row.Faithful config rec.result := by
  simp only [readingValues] at h
  cases ht : readingValueType config rec with
  | error e => rw [ht] at h; cases h
  | ok t =>
    cases hn : bindOptionalInteger (rec.result.value.bind TagValue.integerValue) with
    | error e => rw [ht, hn] at h; cases h
    | ok n =>
      rw [ht, hn] at h
      cases h
      exact ⟨rfl, Quality.ofValue_value _, resultDateTime_bindDateTime _, mapM_resultDateTime _,
        readingValueType_eq ht, rfl, rfl, bound_values hv hn rfl rfl rfl rfl rfl⟩

/-- A reading of a configured tag can be bound, if its integer fits. -/
theorem readingValues_total {config : ConfigurationTables} {rec : TagReadingRecord}
    (ht : ∃ t, config.tags.lookup rec.result.tagId.text = some (some t) ∧ t ≠ "")
    (hv : ∀ v, rec.result.value = some v → v.Storable) : ∃ row, readingValues config rec = .ok row := by
  have htype : ∃ t, readingValueType config rec = .ok t := by
    unfold readingValueType
    cases rec.result.value with
    | some v => exact ⟨_, rfl⟩
    | none =>
      obtain ⟨t, hl, hne⟩ := ht
      exact ⟨t, by simp only [hl, Option.join_some, ne_eq, hne, not_false_eq_true, if_true]⟩
  have hint : ∃ n, bindOptionalInteger (rec.result.value.bind TagValue.integerValue) = .ok n := by
    cases hr : rec.result.value with
    | none => exact ⟨none, rfl⟩
    | some v =>
      cases v with
      | integer m =>
        have hm : FitsInt64 m := hv _ hr
        have hb : bindInteger m = .ok ⟨m, hm⟩ := dif_pos hm
        exact ⟨some ⟨m, hm⟩, by
          simp only [Option.bind_some, TagValue.integerValue, bindOptionalInteger, hb]; rfl⟩
      | _ => exact ⟨none, rfl⟩
  obtain ⟨t, ht⟩ := htype
  obtain ⟨n, hn⟩ := hint
  exact ⟨_, by simp only [readingValues, ht, hn, ok_bind]; rfl⟩

/-! ## A poll result -/

theorem executionValues_fits {e : PollExecution} {row : PollExecutionRow}
    (h : executionValues e = .ok row) : FitsInt64 e.requestedTags := by
  unfold executionValues bindInteger at h
  split_ifs at h with hr <;> first | exact hr | cases h

theorem executionValues_total {e : PollExecution} (h : FitsInt64 e.requestedTags) :
    ∃ row, executionValues e = .ok row := by
  have hc := e.counts
  have hs : FitsInt64 e.successfulTags := by unfold FitsInt64 at h ⊢; omega
  have hf : FitsInt64 e.failedTags := by unfold FitsInt64 at h ⊢; omega
  exact ⟨_, by simp only [executionValues, bindInteger, dif_pos h, dif_pos hs, dif_pos hf, ok_bind]; rfl⟩

theorem readingPuts_total {config : ConfigurationTables} {e : PollExecution}
    {results : List TagResult} (index : ℕ)
    (h : ∀ result ∈ results, ∀ i, ∃ row, readingValues config (readingRecord e i result) = .ok row) :
    ∃ ps, readingPuts config e index results = .ok ps := by
  induction results generalizing index with
  | nil => exact ⟨[], rfl⟩
  | cons result results ih =>
    obtain ⟨hr, hrs⟩ := List.forall_mem_cons.1 h
    obtain ⟨row, hrow⟩ := hr index
    obtain ⟨ps, hps⟩ := ih (index + 1) hrs
    exact ⟨_, by rw [readingPuts, hrow, ok_bind, hps]; rfl⟩

theorem putsOf_execution {config : ConfigurationTables} {r : WorkerPollResult} {ps : List Put}
    (h : putsOf config r = .ok ps) : ∃ row, executionValues r.execution = .ok row := by
  unfold putsOf at h
  cases hrow : executionValues r.execution with
  | error x => rw [hrow] at h; cases h
  | ok row => exact ⟨row, rfl⟩

/-- A poll result whose numbers fit can be stored. -/
theorem putsOf_total {config : ConfigurationTables} {r : WorkerPollResult}
    (hc : Configured config r) (hr : FitsInt64 r.execution.requestedTags)
    (hv : ∀ result ∈ r.results, ∀ v, result.value = some v → v.Storable) :
    ∃ ps, putsOf config r = .ok ps := by
  obtain ⟨row, hrow⟩ := executionValues_total hr
  have hrows : ∀ result ∈ r.results, ∀ i, ∃ row,
      readingValues config (readingRecord r.execution i result) = .ok row := fun result hm i =>
    readingValues_total (hc.valueTypes result hm) (hv result hm)
  obtain ⟨ps, hps⟩ := readingPuts_total 0 hrows
  exact ⟨_, by rw [putsOf, hrow, ok_bind, hps]; rfl⟩

/-- A transaction of one poll result. -/
theorem savePollResults_singleton {r : WorkerPollResult} {db db' : Database} {n : ℕ}
    (h : savePollResults [r] db = .ok (n, db')) :
    (∃ ps, putsOf db.config r = .ok ps) ∧ db' = actAll Put.apply (puts db.config r) db := by
  obtain ⟨hs, hdb, -⟩ := savePollResults_ok h
  refine ⟨hs r List.mem_cons_self, hdb.trans ?_⟩
  rw [List.flatMap_cons, List.flatMap_nil, List.append_nil]

/-- What a saved poll result has under one of its event ids: its own row, or the
    row that was there. -/
theorem lookup_saved {r : WorkerPollResult} {db : Database} {i : ℕ} {result : TagResult}
    (hs : ∃ ps, putsOf db.config r = .ok ps) (hi : r.results[i]? = some result) :
    ∃ row, readingValues db.config (readingRecord r.execution i result) = .ok row ∧
      (actAll Put.apply (puts db.config r) db).tagReadings.lookup (eventId r.executionId i) =
        some ((db.tagReadings.lookup (eventId r.executionId i)).getD row) := by
  obtain ⟨ps, hps⟩ := hs
  obtain ⟨row, hrow, hput⟩ := reading_mem_puts hps hi
  refine ⟨row, hrow, ?_⟩
  cases hl : db.tagReadings.lookup (eventId r.executionId i) with
  | some old => exact lookup_reading_actAll _ hl
  | none =>
    refine lookup_reading_put hput (fun p hp => ?_) fun hm => ?_
    · exact puts_consistent (P := (· = r)) (fun _ _ h h' _ => h.trans h'.symm) rfl rfl hput hp
    · rw [← Finmap.lookup_isSome, hl] at hm
      cases hm

/-- **When a poll result is stored faithfully.**  Saving a configured poll result
    succeeds and gives every reading back if and only if its integers have at most
    64 bits, no value is a NaN, and no other reading has one of its event ids. -/
theorem save_poll_results_reads_back_iff (r : WorkerPollResult) (db : Database)
    (hc : Configured db.config r) :
    (∃ n db', savePollResults [r] db = .ok (n, db') ∧ ReadsBack db' r) ↔ Storable db r := by
  constructor
  · rintro ⟨n, db', hsave, hback⟩
    obtain ⟨hs, rfl⟩ := savePollResults_singleton hsave
    obtain ⟨row, hrow⟩ := putsOf_execution hs.choose_spec
    have hfaith : ∀ i result, r.results[i]? = some result → ∀ row,
        db.tagReadings.lookup (eventId r.executionId i) = some row →
          row.Faithful db.config result := by
      intro i result hi row hl
      obtain ⟨row', hl', hf⟩ := hback i result hi
      rw [lookup_reading_actAll _ hl] at hl'
      cases hl'
      rwa [Put.actAll_config] at hf
    refine ⟨executionValues_fits hrow, fun result hm => ?_, hfaith⟩
    obtain ⟨i, hlt, hi⟩ := List.mem_iff_getElem.1 hm
    have hi' : r.results[i]? = some result := by rw [List.getElem?_eq_getElem hlt, hi]
    obtain ⟨row', -, hf⟩ := hback i result hi'
    intro v hv
    have hm : v ∈ row'.values := by rw [hf.values, hv]; exact List.mem_singleton_self v
    exact storable_of_mem_values hm
  · rintro ⟨hr, hv, hown⟩
    have hs := putsOf_total hc hr hv
    obtain ⟨ps, hps⟩ := hs
    have hall : ∀ x ∈ [r], (∃ ps, putsOf db.config x = .ok ps) ∧ ForeignKeys db.config x := by
      intro x hx
      rw [List.mem_singleton.1 hx]
      exact ⟨⟨ps, hps⟩, hc.keys⟩
    obtain ⟨n, hn⟩ := savePollResults_total hall
    refine ⟨n, _, hn, fun i result hi => ?_⟩
    rw [List.flatMap_cons, List.flatMap_nil, List.append_nil, Put.actAll_config]
    obtain ⟨row, hrow, hl⟩ := lookup_saved ⟨ps, hps⟩ hi
    refine ⟨_, hl, ?_⟩
    cases ho : db.tagReadings.lookup (eventId r.executionId i) with
    | some old => exact hown i result hi old ho
    | none => exact faithful_of_readingValues hrow (hv result (List.mem_of_getElem? hi))

theorem testDatabase_configured (id : Stripped) (v : TagValue) :
    Configured testDatabase.config (makePollResult id v) :=
  ⟨testDatabase_keys id v, fun result hr => by
    rw [List.mem_singleton.1 hr]
    exact ⟨"numeric", rfl, by decide⟩⟩

/-- A boolean is stored and read back. -/
theorem save_poll_results_reads_back_boolean :
    ∃ n db', savePollResults [makePollResult pollOne (.boolean true)] testDatabase = .ok (n, db') ∧
      ReadsBack db' (makePollResult pollOne (.boolean true)) := by
  refine (save_poll_results_reads_back_iff _ _ (testDatabase_configured _ _)).2 ⟨by decide, ?_, ?_⟩
  · intro result hr v hv
    rw [List.mem_singleton.1 hr] at hv
    cases hv
    trivial
  · intro i result _ row hl
    exact absurd hl (by simp [testDatabase])

/-- The largest OPC UA integers are rejected, and a NaN leaves a reading without a value. -/
theorem save_poll_results_loses_values :
    (Configured testDatabase.config (makePollResult pollOne (.integer (2 ^ 63))) ∧
      savePollResults [makePollResult pollOne (.integer (2 ^ 63))] testDatabase =
        .error (.overflowError "Python int too large to convert to SQLite INTEGER")) ∧
    Configured testDatabase.config (makePollResult pollOne (.numeric (.ofBits nanBits))) ∧
      ¬ ∃ n db', savePollResults [makePollResult pollOne (.numeric (.ofBits nanBits))] testDatabase =
          .ok (n, db') ∧
        ReadsBack db' (makePollResult pollOne (.numeric (.ofBits nanBits))) := by
  refine ⟨⟨testDatabase_configured _ _, rfl⟩, testDatabase_configured _ _, ?_⟩
  rintro ⟨n, db', hs, hb⟩
  obtain ⟨row, hl, hf⟩ := hb 0 _ rfl
  have hv := hf.values
  cases hs
  cases hl
  exact absurd hv (by decide)

end PlcGateway
