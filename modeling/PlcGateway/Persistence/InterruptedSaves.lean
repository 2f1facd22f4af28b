/-
  Poll results that are saved call by call.

  `save_poll_execution` and `save_tag_readings` are transactions of their own.  Calls that are
  broken off, or that raise in between, leave executions without their readings, which the one
  transaction of `save_poll_results` never does.  A later `save_poll_results` repairs this: it
  ends where it would have ended without them (`interrupted_saves_repaired`).
-/
import PlcGateway.Persistence.Integrity

namespace PlcGateway

open Absorption Fallible

/-! ## Puts -/

/-- The whole database after the puts. -/
def GatewayDatabase.putAll (ps : List Put) (db : GatewayDatabase) : GatewayDatabase :=
  db.withReadings (actAll Put.apply ps db.readingTables)

namespace GatewayDatabase

theorem readingTables_withReadings {db : GatewayDatabase} {tables : Database}
    (h : tables.config = db.readingTables.config) : (db.withReadings tables).readingTables = tables := by
  obtain ⟨config, pollExecutions, tagReadings⟩ := tables
  have hconfig : config = db.readingTables.config := h
  subst hconfig
  rfl

theorem readingTables_putAll (ps : List Put) (db : GatewayDatabase) :
    (db.putAll ps).readingTables = actAll Put.apply ps db.readingTables :=
  readingTables_withReadings (Put.actAll_config ps _)

theorem putAll_append (ps qs : List Put) (db : GatewayDatabase) :
    db.putAll (ps ++ qs) = (db.putAll ps).putAll qs := by
  rw [putAll, actAll_append, putAll, readingTables_putAll]
  rfl

theorem putAll_nil (db : GatewayDatabase) : db.putAll [] = db := rfl

end GatewayDatabase

section
variable {config : ConfigurationTables} {rs : List WorkerPollResult} {db : Database}

/-- Puts that are consistent are allowed one after the other if each one is at the start. -/
theorem putsAllowed_iff (hsame : SameContent (· ∈ rs)) {ps : List Put}
    (hps : ∀ p ∈ ps, p ∈ rs.flatMap (puts config)) :
    PutsAllowed ps db ↔ ∀ p ∈ ps, p.Allowed db := by
  refine ⟨fun h => ?_, allowedAll_of_forall fun a b s ha => ha.apply b⟩
  refine forall_of_allowedAll (P := (· ∈ rs.flatMap (puts config))) ?_ hps h
  intro a b s ha hb
  obtain ⟨r, hr, ha⟩ := List.mem_flatMap.1 ha
  obtain ⟨r', hr', hb⟩ := List.mem_flatMap.1 hb
  exact Put.allowed_of_apply (puts_consistent hsame hr hr' ha hb)

/-- Puts that were done neither forbid nor enable the puts of the poll results. -/
theorem putsAllowed_after (hsame : SameContent (· ∈ rs)) {done : List Put}
    (hdone : ∀ p ∈ done, p ∈ rs.flatMap (puts config)) (hallowed : PutsAllowed done db) :
    PutsAllowed (rs.flatMap (puts config)) (actAll Put.apply done db) ↔
      PutsAllowed (rs.flatMap (puts config)) db := by
  have hboth : ∀ p ∈ done ++ rs.flatMap (puts config), p ∈ rs.flatMap (puts config) :=
    fun p hp => (List.mem_append.1 hp).elim (hdone p) id
  have happend : PutsAllowed (rs.flatMap (puts config)) (actAll Put.apply done db) ↔
      PutsAllowed (done ++ rs.flatMap (puts config)) db := by
    rw [PutsAllowed, PutsAllowed, allowedAll_append]
    exact (and_iff_right hallowed).symm
  rw [happend, putsAllowed_iff hsame hboth, putsAllowed_iff hsame fun p hp => hp]
  exact ⟨fun h p hp => h p (List.mem_append_right _ hp), fun h p hp => h p (hboth p hp)⟩

/-- Puts that were done already change nothing in the end. -/
theorem actAll_after (hsame : SameContent (· ∈ rs)) {done : List Put}
    (hdone : ∀ p ∈ done, p ∈ rs.flatMap (puts config)) (db : Database) :
    actAll Put.apply (done ++ rs.flatMap (puts config)) db =
      actAll Put.apply (rs.flatMap (puts config)) db := by
  have hboth : ∀ p ∈ done ++ rs.flatMap (puts config), p ∈ rs.flatMap (puts config) :=
    fun p hp => (List.mem_append.1 hp).elim (hdone p) id
  refine (puts_absorb config hsame).actAll_congr
    (fun p => ⟨hboth p, List.mem_append_right _⟩) (fun p hp => ?_) db
  obtain ⟨r, hr, hp⟩ := List.mem_flatMap.1 (hboth p hp)
  exact ⟨r, hr, hp⟩

end

/-! ## Calls -/

namespace RepositoryCall

/-- The records of the results, from `index` on. -/
def records (execution : PollExecution) : ℕ → List TagResult → List TagReadingRecord
  | _, [] => []
  | index, result :: results =>
    readingRecord execution index result :: records execution (index + 1) results

/-- Two calls for each poll result: its execution, then its readings. -/
def stepwise (rs : List WorkerPollResult) : List RepositoryCall :=
  rs.flatMap fun r => [.savePollExecution r.execution, .saveTagReadings (records r.execution 0 r.results)]

theorem mem_stepwise {rs : List WorkerPollResult} {call : RepositoryCall} :
    call ∈ stepwise rs ↔ ∃ r ∈ rs, call = .savePollExecution r.execution ∨
      call = .saveTagReadings (records r.execution 0 r.results) := by
  simp only [stepwise, List.mem_flatMap, List.mem_cons, List.not_mem_nil, or_false]

theorem saveRecords_records (execution : PollExecution) (index : ℕ) (results : List TagResult)
    (tables : Database) :
    ReadingRepository.saveRecords (records execution index results) tables =
      PlcGateway.saveTagReadings execution index results tables := by
  induction results generalizing index tables with
  | nil => rfl
  | cons result results ih =>
    rw [records, ReadingRepository.saveRecords, PlcGateway.saveTagReadings]
    simp only [ih]

/-- What a repository has done to the reading tables. -/
def lift (db : GatewayDatabase) (x : Except PyError (ℕ × Database)) :
    Except PyError (ℕ × GatewayDatabase) :=
  x.map fun p => (p.1, db.withReadings p.2)

theorem execute_saveTagReadings (records : List TagReadingRecord) (db : GatewayDatabase) :
    (saveTagReadings records).execute db =
      lift db (ReadingRepository.saveRecords records db.readingTables) := by
  rw [execute, ReadingRepository.saveTagReadings]
  cases ReadingRepository.saveRecords records db.readingTables <;> rfl

theorem execute_savePollResults (rs : List WorkerPollResult) (db : GatewayDatabase) :
    (savePollResults rs).execute db = lift db (PlcGateway.savePollResults rs db.readingTables) := by
  rw [execute, ReadingRepository.savePollResults]
  cases PlcGateway.savePollResults rs db.readingTables <;> rfl

theorem execute_savePollExecution (execution : PollExecution) (db : GatewayDatabase) :
    (savePollExecution execution).execute db =
      lift db ((PlcGateway.savePollExecution execution db.readingTables).map fun tables => (0, tables)) := by
  rw [execute, ReadingRepository.savePollExecution]
  cases PlcGateway.savePollExecution execution db.readingTables <;> rfl

/-- The call does the puts if all of them are allowed, and raises otherwise. -/
structure Does (config : ConfigurationTables) (ps : List Put) (call : RepositoryCall) : Prop where
  commits : ∀ db : GatewayDatabase, db.readingTables.config = config →
    PutsAllowed ps db.readingTables → ∃ n, call.execute db = .ok (n, db.putAll ps)
  raises : ∀ db : GatewayDatabase, db.readingTables.config = config →
    ¬ PutsAllowed ps db.readingTables → ∃ e, call.execute db = .error e

section
variable {config : ConfigurationTables} {ps : List Put} {call : RepositoryCall}

theorem does_of_save (save : Database → Except PyError (ℕ × Database))
    (hexecute : ∀ db, call.execute db = lift db (save db.readingTables))
    (haccepts : ∀ tables, tables.config = config →
      ((∃ n tables', save tables = .ok (n, tables')) ↔ PutsAllowed ps tables))
    (hputs : ∀ tables n tables', tables.config = config → save tables = .ok (n, tables') →
      tables' = actAll Put.apply ps tables) : Does config ps call := by
  constructor
  · intro db hdb hallowed
    obtain ⟨n, tables, hsave⟩ := (haccepts _ hdb).2 hallowed
    refine ⟨n, ?_⟩
    rw [hexecute, hsave, hputs _ _ _ hdb hsave]
    rfl
  · intro db hdb hnot
    rw [hexecute]
    cases hsave : save db.readingTables with
    | error e => exact ⟨e, rfl⟩
    | ok p => exact absurd ((haccepts _ hdb).1 ⟨p.1, p.2, hsave⟩) hnot

theorem does_savePollExecution {e : PollExecution} {row : PollExecutionRow}
    (hrow : executionValues e = .ok row) :
    Does config [.execution e.executionId.text row] (.savePollExecution e) := by
  refine does_of_save (fun tables => (PlcGateway.savePollExecution e tables).map fun tables => (0, tables))
    (execute_savePollExecution e) (fun tables _ => ?_) fun tables n tables' _ h => ?_
  · have haccepts : PutsAllowed [.execution e.executionId.text row] tables ↔
        ∃ tables', PlcGateway.savePollExecution e tables = .ok tables' := by
      rw [savePollExecution_accepts, hrow]
      simp only [AllowedAll, and_true, Except.ok.injEq, exists_eq_left']
    rw [haccepts]
    cases PlcGateway.savePollExecution e tables with
    | error x => exact iff_of_false (by rintro ⟨n, tables', h⟩; cases h) (by rintro ⟨tables', h⟩; cases h)
    | ok tables' => exact iff_of_true ⟨0, tables', rfl⟩ ⟨tables', rfl⟩
  · cases hsave : PlcGateway.savePollExecution e tables with
    | error x =>
      rw [hsave] at h
      cases h
    | ok tables₁ =>
      rw [hsave] at h
      cases h
      obtain ⟨row', hrow', rfl⟩ := savePollExecution_ok hsave
      rw [hrow] at hrow'
      cases hrow'
      rfl

theorem does_saveTagReadings {e : PollExecution} {results : List TagResult}
    (hps : readingPuts config e 0 results = .ok ps) :
    Does config ps (.saveTagReadings (records e 0 results)) := by
  refine does_of_save _ (execute_saveTagReadings _) (fun tables hconfig => ?_)
    fun tables n tables' hconfig h => ?_
  · rw [saveRecords_records, saveTagReadings_accepts, hconfig, hps]
    simp only [Except.ok.injEq, exists_eq_left']
  · rw [saveRecords_records] at h
    obtain ⟨ps', hps', htables, -⟩ := saveTagReadings_ok h
    rw [hconfig, hps] at hps'
    cases hps'
    exact htables

theorem does_savePollResults {rs : List WorkerPollResult}
    (hps : ∀ r ∈ rs, ∃ ps, putsOf config r = .ok ps) :
    Does config (rs.flatMap (puts config)) (.savePollResults rs) := by
  refine does_of_save _ (execute_savePollResults rs) (fun tables hconfig => ?_)
    fun tables n tables' hconfig h => ?_
  · rw [savePollResults_accepts, hconfig]
    exact and_iff_right hps
  · rw [← hconfig]
    exact (savePollResults_ok h).2.1

/-- Each of the two calls does puts of its poll result. -/
theorem exists_does {rs : List WorkerPollResult} (hps : ∀ r ∈ rs, ∃ ps, putsOf config r = .ok ps)
    (hcall : call ∈ stepwise rs) :
    ∃ ps, Does config ps call ∧ ∀ p ∈ ps, p ∈ rs.flatMap (puts config) := by
  obtain ⟨r, hr, hcall⟩ := mem_stepwise.1 hcall
  obtain ⟨all, hall⟩ := hps r hr
  have hmem : ∀ p ∈ all, p ∈ rs.flatMap (puts config) := by
    intro p hp
    rw [← puts_eq hall] at hp
    exact List.mem_flatMap.2 ⟨r, hr, hp⟩
  obtain ⟨row, hrow, readings, hreadings, hcons⟩ : ∃ row, executionValues r.execution = .ok row ∧
      ∃ readings, readingPuts config r.execution 0 r.results = .ok readings ∧
        .execution r.executionId row :: readings = all := by
    simpa only [putsOf, bind_eq_ok_iff, pure_eq_ok_iff] using hall
  subst hcons
  rcases hcall with rfl | rfl
  · refine ⟨_, does_savePollExecution hrow, fun p hp => hmem p ?_⟩
    rw [List.mem_singleton.1 hp]
    exact List.mem_cons_self
  · exact ⟨_, does_saveTagReadings hreadings, fun p hp => hmem p (List.mem_cons_of_mem _ hp)⟩

/-- The calls leave the configuration. -/
theorem config_commitAll {rs : List WorkerPollResult} {calls : List RepositoryCall}
    (hcalls : ∀ call ∈ calls, call ∈ stepwise rs) (db : GatewayDatabase) :
    (commitAll calls db).2.readingTables.config = db.readingTables.config := by
  induction calls generalizing db with
  | nil => rfl
  | cons call calls ih =>
    obtain ⟨hcall, hrest⟩ := List.forall_mem_cons.1 hcalls
    have hcommit : (call.commit db).2.readingTables.config = db.readingTables.config := by
      obtain ⟨r, -, rfl | rfl⟩ := mem_stepwise.1 hcall
      · rw [commit, execute_savePollExecution]
        cases PlcGateway.savePollExecution r.execution db.readingTables <;> rfl
      · rw [commit, execute_saveTagReadings]
        cases ReadingRepository.saveRecords (records r.execution 0 r.results) db.readingTables <;> rfl
    exact (ih hrest (call.commit db).2).trans hcommit

/-- What calls leave behind, some of which may have raised: puts that were allowed. -/
theorem commitAll_puts {all : List Put} {calls : List RepositoryCall}
    (hcalls : ∀ call ∈ calls, ∃ ps, Does config ps call ∧ ∀ p ∈ ps, p ∈ all) {db : GatewayDatabase}
    (hdb : db.readingTables.config = config) :
    ∃ done, (∀ p ∈ done, p ∈ all) ∧ PutsAllowed done db.readingTables ∧
      (commitAll calls db).2 = db.putAll done := by
  induction calls generalizing db with
  | nil => exact ⟨[], fun p hp => absurd hp List.not_mem_nil, trivial, db.putAll_nil.symm⟩
  | cons call calls ih =>
    obtain ⟨⟨ps, hdoes, hps⟩, hrest⟩ := List.forall_mem_cons.1 hcalls
    by_cases hallowed : PutsAllowed ps db.readingTables
    · obtain ⟨n, hexecute⟩ := hdoes.commits db hdb hallowed
      have hconfig : (db.putAll ps).readingTables.config = config := by
        rw [GatewayDatabase.readingTables_putAll, Put.actAll_config, hdb]
      obtain ⟨done, hdone, hlater, hleft⟩ := ih hrest hconfig
      rw [GatewayDatabase.readingTables_putAll] at hlater
      refine ⟨ps ++ done, ?_, allowedAll_append.2 ⟨hallowed, hlater⟩, ?_⟩
      · exact fun p hp => (List.mem_append.1 hp).elim (hps p) (hdone p)
      · rw [commitAll, commit, hexecute, GatewayDatabase.putAll_append]
        exact hleft
    · obtain ⟨e, hexecute⟩ := hdoes.raises db hdb hallowed
      obtain ⟨done, hdone, hlater, hleft⟩ := ih hrest hdb
      refine ⟨done, hdone, hlater, ?_⟩
      rw [commitAll, commit, hexecute]
      exact hleft

/-- When `save_poll_results` returns, what it returns, and what it leaves. -/
theorem execute_savePollResults_eq_ok_iff {rs : List WorkerPollResult} {db db' : GatewayDatabase}
    {n : ℕ} :
    (savePollResults rs).execute db = .ok (n, db') ↔
      (∀ r ∈ rs, ∃ ps, putsOf db.readingTables.config r = .ok ps) ∧
        PutsAllowed (rs.flatMap (puts db.readingTables.config)) db.readingTables ∧
        db' = db.putAll (rs.flatMap (puts db.readingTables.config)) ∧
        ReadingRepository.countTagReadings db' = ReadingRepository.countTagReadings db + n := by
  constructor
  · intro h
    have hcount := (transacts_execute h).count
    rw [execute_savePollResults] at h
    cases hsave : PlcGateway.savePollResults rs db.readingTables with
    | error e =>
      rw [hsave] at h
      cases h
    | ok p =>
      obtain ⟨hps, hallowed⟩ := savePollResults_accepts.1 ⟨p.1, p.2, hsave⟩
      rw [hsave] at h
      cases h
      exact ⟨hps, hallowed, congrArg db.withReadings (savePollResults_ok hsave).2.1, hcount⟩
  · rintro ⟨hps, hallowed, rfl, hcount⟩
    obtain ⟨m, hexecute⟩ := (does_savePollResults hps).commits db rfl hallowed
    have hm := (transacts_execute hexecute).count
    have hnm : n = m := by omega
    rw [hnm]
    exact hexecute

end

/-! ## What is left behind -/

/-- The readings of the poll result are all stored, or none of them is new. -/
def WholeOrNone (r : WorkerPollResult) (db db' : GatewayDatabase) : Prop :=
  (∀ index < r.results.length, eventId r.executionId index ∈ db'.tagReadings) ∨
    ∀ index, eventId r.executionId index ∈ db'.tagReadings →
      eventId r.executionId index ∈ db.tagReadings

theorem mem_tagReadings_actAll {ps : List Put} {tables : Database} {e : String}
    (h : e ∈ (actAll Put.apply ps tables).tagReadings) :
    e ∈ tables.tagReadings ∨ ∃ row, .reading e row ∈ ps := by
  induction ps generalizing tables with
  | nil => exact .inl h
  | cons p ps ih =>
    rcases ih h with h | ⟨row, hrow⟩
    · cases p with
      | execution i row => exact .inl h
      | reading f row =>
        simp only [Put.apply] at h
        split_ifs at h with hf
        · exact .inl h
        · rcases Finmap.mem_insert.1 h with rfl | h
          · exact .inr ⟨row, List.mem_cons_self⟩
          · exact .inl h
    · exact .inr ⟨row, List.mem_cons_of_mem _ hrow⟩

section
variable {rs : List WorkerPollResult} {r : WorkerPollResult} {start db : GatewayDatabase}

/-- A call stores all readings of its poll result, and none of another one. -/
theorem wholeOrNone_commit (hsame : SameContent (· ∈ rs)) (hr : r ∈ rs) {call : RepositoryCall}
    (hcall : call ∈ stepwise rs) (h : WholeOrNone r start db) :
    WholeOrNone r start (call.commit db).2 := by
  rw [commit]
  cases hexecute : call.execute db with
  | error e => exact h
  | ok p =>
    obtain ⟨n, db'⟩ := p
    show WholeOrNone r start db'
    obtain ⟨r', hr', hcall⟩ := mem_stepwise.1 hcall
    rcases hcall with rfl | rfl
    · rw [execute_savePollExecution] at hexecute
      cases hsave : PlcGateway.savePollExecution r'.execution db.readingTables with
      | error e =>
        rw [hsave] at hexecute
        cases hexecute
      | ok tables =>
        rw [hsave] at hexecute
        cases hexecute
        obtain ⟨row, -, rfl⟩ := savePollExecution_ok hsave
        exact h
    · rw [execute_saveTagReadings, saveRecords_records] at hexecute
      cases hsave : PlcGateway.saveTagReadings r'.execution 0 r'.results db.readingTables with
      | error e =>
        rw [hsave] at hexecute
        cases hexecute
      | ok p =>
        rw [hsave] at hexecute
        cases hexecute
        obtain ⟨ps, hps, htables, -⟩ := saveTagReadings_ok hsave
        have hreadings : (db.withReadings p.2).tagReadings =
            (actAll Put.apply ps db.readingTables).tagReadings := by
          rw [← htables]
          rfl
        rw [WholeOrNone, hreadings]
        by_cases hid : r.executionId = r'.executionId
        · left
          intro index hindex
          rw [hsame r r' hr hr' hid] at hindex ⊢
          obtain ⟨row, hrow⟩ := readingValues_of_readingPuts hps (List.getElem?_eq_getElem hindex)
          rw [Nat.zero_add] at hrow
          have hput : .reading (eventId r'.executionId index) row ∈ ps := by
            refine (mem_readingPuts hps).2 ⟨index, _, row, List.getElem?_eq_getElem hindex, ?_, ?_⟩
            · rwa [Nat.zero_add]
            · rw [Nat.zero_add]
              rfl
          have hpresent : (Put.reading (eventId r'.executionId index) row).Present
              (actAll Put.apply ps db.readingTables) := present_actAll (.inl hput)
          exact hpresent
        · have hother : ∀ index, eventId r.executionId index ∈
              (actAll Put.apply ps db.readingTables).tagReadings →
                eventId r.executionId index ∈ db.tagReadings := by
            intro index hindex
            refine (mem_tagReadings_actAll hindex).resolve_right ?_
            rintro ⟨row, hrow⟩
            obtain ⟨i, result, row', -, -, hput⟩ := (mem_readingPuts hps).1 hrow
            exact hid (eventId_injective (Put.reading.inj hput).1).1
          rcases h with hwhole | hnone
          · refine .inl fun index hindex => ?_
            obtain ⟨row, hrow⟩ := Finmap.mem_iff.1 (hwhole index hindex)
            exact Finmap.mem_iff.2 ⟨row, lookup_reading_actAll ps hrow⟩
          · exact .inr fun index hindex => hnone index (hother index hindex)

theorem wholeOrNone_commitAll (hsame : SameContent (· ∈ rs)) (hr : r ∈ rs)
    {calls : List RepositoryCall} (hcalls : ∀ call ∈ calls, call ∈ stepwise rs)
    (h : WholeOrNone r start db) : WholeOrNone r start (commitAll calls db).2 := by
  induction calls generalizing db with
  | nil => exact h
  | cons call calls ih =>
    obtain ⟨hcall, hrest⟩ := List.forall_mem_cons.1 hcalls
    exact ih hrest (wholeOrNone_commit hsame hr hcall h)

/-- **Interrupted saves are repaired.**  However many of the single calls for some poll results
    were made, in whatever order, and whichever of them raised: `save_poll_results` returns
    afterwards just when it would have returned without them, it leaves the same database, and no
    reading is counted twice or left out.  The readings of one poll result are all there, or
    none of them is new. -/
theorem interrupted_saves_repaired (hsame : SameContent (· ∈ rs)) {calls : List RepositoryCall}
    (hcalls : ∀ call ∈ calls, call ∈ stepwise rs) (db : GatewayDatabase) :
    let left := commitAll calls db
    (∀ n db', (savePollResults rs).execute db = .ok (n, db') ↔
      ∃ m, (savePollResults rs).execute left.2 = .ok (m, db') ∧ left.1 + m = n) ∧
    ∀ r ∈ rs, WholeOrNone r db left.2 := by
  intro left
  have hcount : ReadingRepository.countTagReadings left.2 =
      ReadingRepository.countTagReadings db + left.1 := (transacts_commitAll calls db).count
  refine ⟨fun n db' => ?_, fun r hr => wholeOrNone_commitAll hsame hr hcalls (.inr fun _ h => h)⟩
  rw [execute_savePollResults_eq_ok_iff]
  simp only [execute_savePollResults_eq_ok_iff]
  by_cases hps : ∀ r ∈ rs, ∃ ps, putsOf db.readingTables.config r = .ok ps
  · obtain ⟨done, hdone, hallowed, hleft⟩ :=
      commitAll_puts (fun call hcall => exists_does hps (hcalls call hcall)) rfl
    have htables : left.2.readingTables = actAll Put.apply done db.readingTables := by
      rw [hleft, GatewayDatabase.readingTables_putAll]
    have hsame' : left.2.putAll (rs.flatMap (puts db.readingTables.config)) =
        db.putAll (rs.flatMap (puts db.readingTables.config)) := by
      rw [hleft, ← GatewayDatabase.putAll_append]
      exact congrArg db.withReadings (actAll_after hsame hdone _)
    rw [htables, Put.actAll_config, putsAllowed_after hsame hdone hallowed, hsame', hcount]
    constructor
    · rintro ⟨-, hall, hdb', hn⟩
      have hallowed' : PutsAllowed (rs.flatMap (puts db.readingTables.config)) left.2.readingTables := by
        rw [htables]
        exact (putsAllowed_after hsame hdone hallowed).2 hall
      obtain ⟨m, hsave⟩ := (does_savePollResults hps).commits left.2 (config_commitAll hcalls db) hallowed'
      have hm := (transacts_execute hsave).count
      rw [hsame', ← hdb', hcount] at hm
      exact ⟨m, ⟨hps, hall, hdb', hm⟩, by omega⟩
    · rintro ⟨m, ⟨-, hall, hdb', hm⟩, rfl⟩
      exact ⟨hps, hall, hdb', by omega⟩
  · refine iff_of_false (fun h => hps h.1) ?_
    rintro ⟨m, ⟨hps', -⟩, -⟩
    rw [config_commitAll hcalls] at hps'
    exact hps hps'

end

/-- A configured database without readings. -/
def configuredDatabase : GatewayDatabase :=
  (commitAll [.upsertConnections [fakeConfig.connection], .upsertTagGroups [fastGroupConfig],
    .upsertTags [temperatureConfig]] .empty).2

/-- Two polls, of which the second was broken off after its execution. -/
theorem interrupted_saves_repaired_execution :
    let rs := [makePollResult pollOne (.boolean true), makePollResult pollTwo (.boolean true)]
    let left := commitAll ((stepwise rs).take 3) configuredDatabase
    left.1 = 1 ∧ pollTwo.text ∈ left.2.pollExecutions.keys ∧
      eventId pollTwo.text 0 ∉ left.2.tagReadings.keys ∧
      ∃ db', (savePollResults rs).execute configuredDatabase = .ok (2, db') ∧
        (savePollResults rs).execute left.2 = .ok (1, db') := by
  intro rs left
  have hsame : SameContent (· ∈ rs) := by
    intro r r' hr hr' hid
    simp only [rs, List.mem_cons, List.not_mem_nil, or_false] at hr hr'
    rcases hr with rfl | rfl <;> rcases hr' with rfl | rfl
    · rfl
    · exact absurd hid (by decide)
    · exact absurd hid (by decide)
    · rfl
  have hone : left.1 = 1 := by decide +kernel
  have hcount : ((savePollResults rs).execute configuredDatabase).toOption.map Prod.fst = some 2 := by
    decide +kernel
  obtain ⟨hrepaired, -⟩ :=
    interrupted_saves_repaired hsame (fun call hcall => List.mem_of_mem_take hcall) configuredDatabase
  cases hsave : (savePollResults rs).execute configuredDatabase with
  | error e =>
    rw [hsave] at hcount
    cases hcount
  | ok p =>
    obtain ⟨n, db'⟩ := p
    rw [hsave] at hcount
    cases hcount
    obtain ⟨m, hlater, hm⟩ := (hrepaired 2 db').1 hsave
    have hleft : 1 + m = 2 := hone ▸ hm
    obtain rfl : m = 1 := by omega
    exact ⟨hone, by decide +kernel, by decide +kernel, db', rfl, hlater⟩

end RepositoryCall

end PlcGateway
