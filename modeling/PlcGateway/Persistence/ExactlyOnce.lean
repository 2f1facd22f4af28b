/-
  The effect of saving poll results at least once.

  When equal execution ids mean equal poll results, the puts of all transactions
  are consistent, so the final tables depend on the set of the saved poll results
  only.
-/
import PlcGateway.Persistence.Puts

namespace PlcGateway

open Absorption

/-- Equal execution ids mean equal poll results. -/
def SameContent (P : WorkerPollResult → Prop) : Prop :=
  ∀ r r', P r → P r' → r.executionId = r'.executionId → r = r'

/-- What each call returned or raised, and the final database.  A call that
    raises leaves the database as it was. -/
def runCalls : List (List WorkerPollResult) → Database →
    List (List WorkerPollResult × Except PyError ℕ) × Database
  | [], db => ([], db)
  | batch :: calls, db =>
    match savePollResults batch db with
    | .ok (n, db') => ((batch, .ok n) :: (runCalls calls db').1, (runCalls calls db').2)
    | .error e => ((batch, .error e) :: (runCalls calls db).1, (runCalls calls db).2)

/-- The batches of the calls that returned. -/
def committedCalls (outcomes : List (List WorkerPollResult × Except PyError ℕ)) :
    List (List WorkerPollResult) :=
  (outcomes.filter fun o => o.2.isOk).map Prod.fst

/-- The sum of the returned values. -/
def returnedSum (outcomes : List (List WorkerPollResult × Except PyError ℕ)) : ℕ :=
  (outcomes.map fun o => o.2.toOption.getD 0).sum

/-! ## The puts of consistent poll results -/

theorem mem_readingPuts {config : ConfigurationTables} {e : PollExecution} {results : List TagResult}
    {index : ℕ} {ps : List Put} (h : readingPuts config e index results = .ok ps) {p : Put} :
    p ∈ ps ↔ ∃ i result row, results[i]? = some result ∧
      readingValues config (readingRecord e (index + i) result) = .ok row ∧
      p = .reading (eventId e.executionId.text (index + i)) row := by
  induction results generalizing index ps with
  | nil =>
    cases h
    simp only [List.not_mem_nil, List.getElem?_nil, reduceCtorEq, false_and, exists_false]
  | cons result results ih =>
    rw [readingPuts] at h
    cases hrow : readingValues config (readingRecord e index result) with
    | error x => rw [hrow] at h; cases h
    | ok row =>
      cases hps : readingPuts config e (index + 1) results with
      | error x => rw [hrow, ok_bind, hps] at h; cases h
      | ok ps' =>
        rw [hrow, ok_bind, hps] at h
        cases h
        rw [List.mem_cons, ih hps]
        constructor
        · rintro (rfl | ⟨i, result', row', hi, hr, rfl⟩)
          · exact ⟨0, result, row, rfl, hrow, rfl⟩
          · have hix : index + 1 + i = index + (i + 1) := by omega
            rw [hix] at hr ⊢
            exact ⟨i + 1, result', row', hi, hr, rfl⟩
        · rintro ⟨i, result', row', hi, hr, rfl⟩
          cases i with
          | zero =>
            cases hi
            rw [Nat.add_zero, hrow] at hr
            cases hr
            exact .inl rfl
          | succ i =>
            have hix : index + (i + 1) = index + 1 + i := by omega
            rw [hix] at hr ⊢
            exact .inr ⟨i, result', row', hi, hr, rfl⟩

theorem readingValues_of_readingPuts {config : ConfigurationTables} {e : PollExecution}
    {results : List TagResult} {index : ℕ} {ps : List Put}
    (h : readingPuts config e index results = .ok ps) {i : ℕ} {result : TagResult}
    (hi : results[i]? = some result) :
    ∃ row, readingValues config (readingRecord e (index + i) result) = .ok row := by
  induction results generalizing index ps i with
  | nil => cases hi
  | cons result' results ih =>
    rw [readingPuts] at h
    cases hrow : readingValues config (readingRecord e index result') with
    | error x => rw [hrow] at h; cases h
    | ok row =>
      cases hps : readingPuts config e (index + 1) results with
      | error x => rw [hrow, ok_bind, hps] at h; cases h
      | ok ps' =>
        cases i with
        | zero => cases hi; exact ⟨row, hrow⟩
        | succ i =>
          rw [show index + (i + 1) = index + 1 + i by omega]
          exact ih hps hi

/-- The puts of a poll result: its execution, and its readings. -/
theorem mem_puts {config : ConfigurationTables} {r : WorkerPollResult} {p : Put}
    (h : p ∈ puts config r) :
    (∃ row, executionValues r.execution = .ok row ∧ p = .execution r.executionId row) ∨
      ∃ i result row, r.results[i]? = some result ∧
        readingValues config (readingRecord r.execution i result) = .ok row ∧
        p = .reading (eventId r.executionId i) row := by
  unfold puts putsOf at h
  cases hrow : executionValues r.execution with
  | error x => rw [hrow] at h; cases h
  | ok row =>
    cases hps : readingPuts config r.execution 0 r.results with
    | error x => rw [hrow, ok_bind, hps] at h; cases h
    | ok ps =>
      rw [hrow, ok_bind, hps] at h
      rcases List.mem_cons.1 h with rfl | h
      · exact .inl ⟨row, rfl, rfl⟩
      · obtain ⟨i, result, row', hi, hr, rfl⟩ := (mem_readingPuts hps).1 h
        rw [Nat.zero_add] at hr ⊢
        exact .inr ⟨i, result, row', hi, hr, rfl⟩

/-- The execution of a poll result that can be stored is put. -/
theorem execution_mem_puts {config : ConfigurationTables} {r : WorkerPollResult} {ps : List Put}
    (h : putsOf config r = .ok ps) :
    ∃ row, executionValues r.execution = .ok row ∧ .execution r.executionId row ∈ puts config r := by
  rw [puts_eq h]
  unfold putsOf at h
  cases hrow : executionValues r.execution with
  | error x => rw [hrow] at h; cases h
  | ok row =>
    cases hps : readingPuts config r.execution 0 r.results with
    | error x => rw [hrow, ok_bind, hps] at h; cases h
    | ok ps' =>
      rw [hrow, ok_bind, hps] at h
      cases h
      exact ⟨row, rfl, List.mem_cons_self⟩

/-- Every reading of a poll result that can be stored is put. -/
theorem reading_mem_puts {config : ConfigurationTables} {r : WorkerPollResult} {ps : List Put}
    (h : putsOf config r = .ok ps) {i : ℕ} {result : TagResult} (hi : r.results[i]? = some result) :
    ∃ row, readingValues config (readingRecord r.execution i result) = .ok row ∧
      .reading (eventId r.executionId i) row ∈ puts config r := by
  rw [puts_eq h]
  unfold putsOf at h
  cases hrow : executionValues r.execution with
  | error x => rw [hrow] at h; cases h
  | ok row =>
    cases hps : readingPuts config r.execution 0 r.results with
    | error x => rw [hrow, ok_bind, hps] at h; cases h
    | ok ps' =>
      rw [hrow, ok_bind, hps] at h
      cases h
      obtain ⟨row', hrow'⟩ := readingValues_of_readingPuts hps hi
      rw [Nat.zero_add] at hrow'
      refine ⟨row', hrow', List.mem_cons_of_mem _ ((mem_readingPuts hps).2 ⟨i, result, row', hi, ?_, ?_⟩)⟩
      · rwa [Nat.zero_add]
      · rw [Nat.zero_add]; rfl

theorem puts_consistent {config : ConfigurationTables} {P : WorkerPollResult → Prop}
    (hP : SameContent P) {r r' : WorkerPollResult} (hr : P r) (hr' : P r') {p q : Put}
    (hp : p ∈ puts config r) (hq : q ∈ puts config r') : p.Consistent q := by
  rcases mem_puts hp with ⟨row, h, rfl⟩ | ⟨i, x, row, hi, h, rfl⟩ <;>
    rcases mem_puts hq with ⟨row', h', rfl⟩ | ⟨j, y, row', hj, h', rfl⟩
  · intro hk
    rw [← hP r r' hr hr' hk, h] at h'
    exact Except.ok.inj h'
  · trivial
  · trivial
  · intro hk
    obtain ⟨hid, rfl⟩ := eventId_injective hk
    have hrr := hP r r' hr hr' hid
    subst hrr
    rw [hi] at hj
    cases hj
    rw [h] at h'
    exact Except.ok.inj h'

theorem puts_absorb (config : ConfigurationTables) {P : WorkerPollResult → Prop}
    (hP : SameContent P) : Absorbing Put.apply fun p => ∃ r, P r ∧ p ∈ puts config r :=
  puts_absorbing fun _ _ ⟨_, hr, hp⟩ ⟨_, hr', hq⟩ => puts_consistent hP hr hr' hp hq

/-! ## The rows that a put leaves -/

theorem lookup_execution_apply_other {db : Database} {i : String} {p : Put}
    (h : ∀ row, p ≠ .execution i row) :
    (p.apply db).pollExecutions.lookup i = db.pollExecutions.lookup i := by
  cases p with
  | execution j row =>
    have hne : i ≠ j := by
      rintro rfl
      exact h row rfl
    exact Finmap.lookup_insert_of_ne _ hne
  | reading f row =>
    simp only [Put.apply]
    split_ifs <;> rfl

theorem lookup_execution_actAll_other {db : Database} {i : String} {ps : List Put}
    (h : ∀ p ∈ ps, ∀ row, p ≠ .execution i row) :
    (actAll Put.apply ps db).pollExecutions.lookup i = db.pollExecutions.lookup i := by
  induction ps generalizing db with
  | nil => rfl
  | cons p ps ih =>
    rw [actAll_cons, ih fun q hq => h q (List.mem_cons_of_mem _ hq),
      lookup_execution_apply_other (h p List.mem_cons_self)]

theorem lookup_reading_apply_other {db : Database} {e : String} {p : Put}
    (h : ∀ row, p ≠ .reading e row) :
    (p.apply db).tagReadings.lookup e = db.tagReadings.lookup e := by
  cases p with
  | execution i row => rfl
  | reading f row =>
    have hne : e ≠ f := by
      rintro rfl
      exact h row rfl
    simp only [Put.apply]
    split_ifs
    · rfl
    · exact Finmap.lookup_insert_of_ne _ hne

theorem lookup_reading_actAll_other {db : Database} {e : String} {ps : List Put}
    (h : ∀ p ∈ ps, ∀ row, p ≠ .reading e row) :
    (actAll Put.apply ps db).tagReadings.lookup e = db.tagReadings.lookup e := by
  induction ps generalizing db with
  | nil => rfl
  | cons p ps ih =>
    rw [actAll_cons, ih fun q hq => h q (List.mem_cons_of_mem _ hq),
      lookup_reading_apply_other (h p List.mem_cons_self)]

/-- An execution is stored as it is put over the row that was there. -/
theorem lookup_execution_put {db : Database} {i : String} {row : PollExecutionRow} {ps : List Put}
    (hm : .execution i row ∈ ps) (hc : ∀ p ∈ ps, (Put.execution i row).Consistent p) :
    (actAll Put.apply ps db).pollExecutions.lookup i =
      some (row.upsert (db.pollExecutions.lookup i)) := by
  induction ps generalizing db with
  | nil => cases hm
  | cons p ps ih =>
    have hp := hc p List.mem_cons_self
    have hps := fun q hq => hc q (List.mem_cons_of_mem _ hq)
    rw [actAll_cons]
    by_cases hk : ∃ row', p = .execution i row'
    · obtain ⟨row', rfl⟩ := hk
      obtain rfl : row = row' := hp rfl
      have hfirst : ((Put.execution i row).apply db).pollExecutions.lookup i =
          some (row.upsert (db.pollExecutions.lookup i)) := Finmap.lookup_insert _
      by_cases hagain : .execution i row ∈ ps
      · rw [ih hagain hps, hfirst, PollExecutionRow.upsert_idem]
      · refine (lookup_execution_actAll_other fun q hq row' hq' => hagain ?_).trans hfirst
        subst hq'
        rwa [show row = row' from hps _ hq rfl]
    · have hne : ∀ row', p ≠ .execution i row' := fun row' h => hk ⟨row', h⟩
      rw [ih ((List.mem_cons.1 hm).resolve_left fun h => hne row h.symm) hps,
        lookup_execution_apply_other hne]

theorem lookup_reading_apply {db : Database} {e : String} {row : TagReadingRow} (p : Put)
    (h : db.tagReadings.lookup e = some row) : (p.apply db).tagReadings.lookup e = some row := by
  cases p with
  | execution i row' => exact h
  | reading f row' =>
    simp only [Put.apply]
    split_ifs with hf
    · exact h
    · have hne : e ≠ f := by
        rintro rfl
        exact hf (Finmap.mem_iff.2 ⟨row, h⟩)
      exact (Finmap.lookup_insert_of_ne _ hne).trans h

theorem lookup_reading_actAll {db : Database} {e : String} {row : TagReadingRow} (ps : List Put)
    (h : db.tagReadings.lookup e = some row) :
    (actAll Put.apply ps db).tagReadings.lookup e = some row := by
  induction ps generalizing db with
  | nil => exact h
  | cons p ps ih => exact ih (lookup_reading_apply p h)

/-- A reading whose key is new is stored as it is put. -/
theorem lookup_reading_put {db : Database} {e : String} {row : TagReadingRow} {ps : List Put}
    (hm : .reading e row ∈ ps) (hc : ∀ p ∈ ps, (Put.reading e row).Consistent p)
    (hn : e ∉ db.tagReadings) : (actAll Put.apply ps db).tagReadings.lookup e = some row := by
  induction ps generalizing db with
  | nil => cases hm
  | cons p ps ih =>
    have hp := hc p List.mem_cons_self
    have hps := fun q hq => hc q (List.mem_cons_of_mem _ hq)
    rw [actAll_cons]
    by_cases hk : ∃ row', p = .reading e row'
    · obtain ⟨row', rfl⟩ := hk
      rw [← show row = row' from hp rfl]
      refine lookup_reading_actAll ps ?_
      simp only [Put.apply, if_neg hn]
      exact Finmap.lookup_insert _
    · have hne : ∀ row', p ≠ .reading e row' := fun row' h => hk ⟨row', h⟩
      refine ih ((List.mem_cons.1 hm).resolve_left fun h => hne row h.symm) hps ?_
      rwa [← Finmap.lookup_eq_none, lookup_reading_apply_other hne, Finmap.lookup_eq_none]

/-! ## Sequences of calls -/

/-- A sequence of calls does the puts of the calls that returned, and returns the
    number of readings that it creates. -/
theorem runCalls_spec (calls : List (List WorkerPollResult)) (db : Database) :
    (runCalls calls db).2 =
        actAll Put.apply ((committedCalls (runCalls calls db).1).flatten.flatMap (puts db.config)) db ∧
      (runCalls calls db).2.tagReadings.keys.card =
        db.tagReadings.keys.card + returnedSum (runCalls calls db).1 ∧
      ∀ r ∈ (committedCalls (runCalls calls db).1).flatten,
        r ∈ calls.flatten ∧ ∃ ps, putsOf db.config r = .ok ps := by
  induction calls generalizing db with
  | nil => exact ⟨rfl, rfl, by simp [runCalls, committedCalls]⟩
  | cons batch calls ih =>
    cases h : savePollResults batch db with
    | error e =>
      obtain ⟨h1, h2, h3⟩ := ih db
      have hr : runCalls (batch :: calls) db =
          ((batch, .error e) :: (runCalls calls db).1, (runCalls calls db).2) := by
        rw [runCalls, h]
      rw [hr]
      refine ⟨h1, h2.trans (congrArg _ (Nat.zero_add _).symm), fun r hr => ?_⟩
      obtain ⟨hm, hp⟩ := h3 r hr
      exact ⟨List.mem_append_right _ hm, hp⟩
    | ok p =>
      obtain ⟨n, db'⟩ := p
      obtain ⟨h1, h2, h3⟩ := ih db'
      obtain ⟨hs, hdb, hc⟩ := savePollResults_ok h
      have hcfg : db'.config = db.config := by rw [hdb, Put.actAll_config]
      have hr : runCalls (batch :: calls) db =
          ((batch, .ok n) :: (runCalls calls db').1, (runCalls calls db').2) := by
        rw [runCalls, h]
      have hcom : committedCalls ((batch, .ok n) :: (runCalls calls db').1) =
          batch :: committedCalls (runCalls calls db').1 := rfl
      rw [hr]
      simp only [hcom, List.flatten_cons, List.flatMap_append, actAll_append]
      refine ⟨?_, ?_, fun r hr => ?_⟩
      · rw [← hdb, ← hcfg]; exact h1
      · rw [h2, hc, Nat.add_assoc]; rfl
      · rcases List.mem_append.1 hr with hr | hr
        · exact ⟨List.mem_append_left _ hr, hs r hr⟩
        · obtain ⟨hm, hp⟩ := h3 r hr
          exact ⟨List.mem_append_right _ hm, hcfg ▸ hp⟩

/-- Calls of poll results that can be stored all return. -/
theorem runCalls_total (calls : List (List WorkerPollResult)) (db : Database)
    (h : ∀ r ∈ calls.flatten, (∃ ps, putsOf db.config r = .ok ps) ∧ ForeignKeys db.config r) :
    committedCalls (runCalls calls db).1 = calls ∧ ∀ o ∈ (runCalls calls db).1, o.2.isOk := by
  induction calls generalizing db with
  | nil => exact ⟨rfl, by simp [runCalls]⟩
  | cons batch calls ih =>
    obtain ⟨n, hn⟩ := savePollResults_total fun r hr => h r (List.mem_append_left _ hr)
    obtain ⟨h1, h2⟩ := ih (actAll Put.apply (batch.flatMap (puts db.config)) db) fun r hr => by
      rw [Put.actAll_config]
      exact h r (List.mem_append_right _ hr)
    rw [runCalls, hn]
    exact ⟨congrArg (batch :: ·) h1, List.forall_mem_cons.2 ⟨rfl, h2⟩⟩

/-- **Saving at least once has the effect of saving once.**  The final tables are
    those of saving every poll result of the calls that returned exactly once, in
    any order and any grouping; the calls that raised contribute nothing; the
    returned values count the created rows; every execution and every reading has
    its own row; and no other row changes. -/
theorem save_poll_results_exactly_once (calls : List (List WorkerPollResult)) (db : Database)
    (hcontent : SameContent (· ∈ calls.flatten))
    (hkeys : ∀ r ∈ calls.flatten, ForeignKeys db.config r) :
    let outcomes := (runCalls calls db).1
    let final := (runCalls calls db).2
    let committed := (committedCalls outcomes).flatten
    (∀ once : List (List WorkerPollResult), once.flatten.Nodup →
      (∀ r, r ∈ once.flatten ↔ r ∈ committed) →
        (runCalls once db).2 = final ∧ ∀ o ∈ (runCalls once db).1, o.2.isOk) ∧
    (runCalls (committedCalls outcomes) db).2 = final ∧
    final.tagReadings.keys.card = db.tagReadings.keys.card + returnedSum outcomes ∧
    (∀ i j m n, eventId i m = eventId j n → i = j ∧ m = n) ∧
    (∀ r ∈ committed, ∃ row, executionValues r.execution = .ok row ∧
      final.pollExecutions.lookup r.executionId =
        some (row.upsert (db.pollExecutions.lookup r.executionId))) ∧
    (∀ r ∈ committed, ∀ i result, r.results[i]? = some result →
      eventId r.executionId i ∉ db.tagReadings →
        ∃ row, readingValues db.config (readingRecord r.execution i result) = .ok row ∧
          final.tagReadings.lookup (eventId r.executionId i) = some row) ∧
    (∀ i, (∀ r ∈ committed, r.executionId ≠ i) →
      final.pollExecutions.lookup i = db.pollExecutions.lookup i) ∧
    (∀ e row, db.tagReadings.lookup e = some row → final.tagReadings.lookup e = some row) ∧
    ∀ e, (∀ r ∈ committed, ∀ i result, r.results[i]? = some result → eventId r.executionId i ≠ e) →
      final.tagReadings.lookup e = db.tagReadings.lookup e := by
  intro outcomes final committed
  obtain ⟨hfinal, hcard, hcom⟩ := runCalls_spec calls db
  have hregroup : ∀ once : List (List WorkerPollResult), (∀ r, r ∈ once.flatten ↔ r ∈ committed) →
      (runCalls once db).2 = final ∧ ∀ o ∈ (runCalls once db).1, o.2.isOk := by
    intro once hm
    obtain ⟨hall, hok⟩ := runCalls_total once db fun r hr =>
      ⟨(hcom r ((hm r).1 hr)).2, hkeys r (hcom r ((hm r).1 hr)).1⟩
    refine ⟨?_, hok⟩
    rw [(runCalls_spec once db).1, hall]
    refine ((puts_absorb db.config hcontent).actAll_congr ?_ ?_ db).trans hfinal.symm
    · simp only [List.mem_flatMap, hm]; exact fun _ => Iff.rfl
    · intro p hp
      obtain ⟨r, hr, hp⟩ := List.mem_flatMap.1 hp
      exact ⟨r, (hcom r ((hm r).1 hr)).1, hp⟩
  have hconsistent : ∀ r ∈ committed, ∀ p ∈ puts db.config r,
      ∀ q ∈ committed.flatMap (puts db.config), p.Consistent q := by
    intro r hr p hp q hq
    obtain ⟨r', hr', hq⟩ := List.mem_flatMap.1 hq
    exact puts_consistent hcontent (hcom r hr).1 (hcom r' hr').1 hp hq
  refine ⟨fun once _ hm => hregroup once hm, (hregroup _ fun _ => Iff.rfl).1, hcard,
    fun _ _ _ _ => eventId_injective, ?_⟩
  rw [show final = _ from hfinal]
  refine ⟨?_, ?_, ?_, fun e row => lookup_reading_actAll _, ?_⟩
  · intro r hr
    obtain ⟨row, hrow, hput⟩ := execution_mem_puts (hcom r hr).2.choose_spec
    exact ⟨row, hrow,
      lookup_execution_put (List.mem_flatMap.2 ⟨r, hr, hput⟩) (hconsistent r hr _ hput)⟩
  · intro r hr i result hi hn
    obtain ⟨row, hrow, hput⟩ := reading_mem_puts (hcom r hr).2.choose_spec hi
    exact ⟨row, hrow,
      lookup_reading_put (List.mem_flatMap.2 ⟨r, hr, hput⟩) (hconsistent r hr _ hput) hn⟩
  · intro i hi
    refine lookup_execution_actAll_other fun p hp row hp' => ?_
    obtain ⟨r, hr, hput⟩ := List.mem_flatMap.1 hp
    subst hp'
    rcases mem_puts hput with ⟨row', -, h⟩ | ⟨n, result, row', -, -, h⟩ <;> cases h
    exact hi r hr rfl
  · intro e he
    refine lookup_reading_actAll_other fun p hp row hp' => ?_
    obtain ⟨r, hr, hput⟩ := List.mem_flatMap.1 hp
    subst hp'
    rcases mem_puts hput with ⟨row', -, h⟩ | ⟨n, result, row', hn, -, h⟩ <;> cases h
    exact he r hr n result hn rfl

def pollThree : Stripped := ⟨"poll-3", by decide, by decide⟩

/-- Three calls repeat two polls, and one has a third poll, whose value no column holds: the
    call with it raises, and the tables are those of one call with the two. -/
theorem save_poll_results_exactly_once_regrouped :
    let first := makePollResult pollOne (.boolean true)
    let second := makePollResult pollTwo (.integer 7)
    let large := makePollResult pollThree (.integer (2 ^ 63))
    let calls := [[first], [second, large], [second, first], [second]]
    committedCalls (runCalls calls testDatabase).1 = [[first], [second, first], [second]] ∧
    (runCalls calls testDatabase).2 = (runCalls [[second, first]] testDatabase).2 ∧
    (∃ row, executionValues second.execution = .ok row ∧
      (runCalls calls testDatabase).2.pollExecutions.lookup "poll-2" = some row) ∧
    (runCalls calls testDatabase).2.pollExecutions.lookup "poll-3" = none := by
  intro first second large calls
  have hm : ∀ x ∈ calls.flatten, x = first ∨ x = second ∨ x = large := by
    simp only [calls, List.flatten_cons, List.flatten_nil, List.mem_append, List.mem_cons,
      List.not_mem_nil, or_false]
    tauto
  have hne : second ≠ first := fun h => absurd (congrArg WorkerPollResult.executionId h) (by decide)
  have hcontent : SameContent (· ∈ calls.flatten) := by
    intro x y hx hy hid
    rcases hm x hx with rfl | rfl | rfl <;> rcases hm y hy with rfl | rfl | rfl <;>
      first | rfl | exact absurd hid (by decide)
  have hkeys : ∀ x ∈ calls.flatten, ForeignKeys testDatabase.config x := by
    intro x hx
    rcases hm x hx with rfl | rfl | rfl <;> exact testDatabase_keys _ _
  obtain ⟨honce, -, -, -, hexecutions, -, hother, -⟩ :=
    save_poll_results_exactly_once calls testDatabase hcontent hkeys
  have hcommitted : committedCalls (runCalls calls testDatabase).1 =
      [[first], [second, first], [second]] := rfl
  rw [hcommitted] at honce hexecutions hother
  refine ⟨hcommitted, ?_, ?_, ?_⟩
  · refine (honce [[second, first]] ?_ fun x => ?_).1.symm
    · exact List.nodup_cons.2 ⟨fun h => absurd (List.mem_singleton.1 h) hne, List.nodup_singleton _⟩
    · simp only [List.flatten_cons, List.flatten_nil, List.mem_append, List.mem_cons,
        List.not_mem_nil, or_false]
      tauto
  · exact hexecutions second (List.mem_append_right _ List.mem_cons_self)
  · refine hother "poll-3" fun r hr => ?_
    simp only [List.flatten_cons, List.flatten_nil, List.mem_append, List.mem_cons,
      List.not_mem_nil, or_false] at hr
    rcases hr with rfl | (rfl | rfl) | rfl <;> decide

end PlcGateway
