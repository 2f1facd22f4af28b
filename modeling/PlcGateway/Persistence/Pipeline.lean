/-
  From the poll to the main database.

  A configuration is stored, its groups are polled, and writers save the poll results in
  processes that may fail, time out and crash.  When one of them is asked to stop, every poll
  result that was put into its queue is in the main database or in the spool by the time it has
  left its loop, and the next writer replays the spool (`polls_reach_database`).
-/
import PlcGateway.Persistence.Delivery
import PlcGateway.Persistence.FailingDatabase
import PlcGateway.Persistence.StoredPolls

namespace PlcGateway

open Coroutine Calendar

/-! ## What the jobs keep -/

section
variable {Q : Stores → Prop} {F : Surroundings} {P : WorkerPollResult → Prop} {x y : System}

theorem Executes.keeps {maxItems : ℕ+} {job : Job} {st st' : Stores} {r : Except PyError job.Res}
    (hQ : ∀ job maxItems now st, Q st → Q (Job.execute maxItems now job st).2)
    (h : Executes maxItems job st r st') (hst : Q st) : Q st' := by
  cases h with
  | done now => exact hQ _ _ _ _ hst
  | failed e => exact hst
  | failedAfter now e => exact hQ _ _ _ _ hst

/-- The files change only when a job takes effect. -/
theorem SystemStep.keeps (hQ : ∀ job maxItems now st, Q st → Q (Job.execute maxItems now job st).2)
    (h : SystemStep F x y) (hx : Q x.stores) : Q y.stores := by
  cases h with
  | process hstep =>
    cases hstep with
    | execute haw hexec hF => exact hexec.keeps hQ hx
    | executeAbandoned hab hexec hF => exact hexec.keeps hQ hx
    | _ => exact hx
  | spawn hs => exact hx
  | crash => exact hx

/-- **What every job keeps holds of the files of every reachable system.** -/
theorem System.Reachable.keeps {db : Database}
    (hQ : ∀ job maxItems now st, Q st → Q (Job.execute maxItems now job st).2)
    (hdb : Q (.fresh db)) (hx : System.Reachable F P db x) : Q x.stores := by
  induction hx with
  | init => exact hdb
  | step _ hstep _ ih => exact hstep.keeps hQ ih

end

/-- What is accepted is accepted after any job. -/
theorem Accepts.execute {r : WorkerPollResult} (job : Job) (maxItems : ℕ+) (now : DateTime)
    (st : Stores) (h : Accepts st.database r) :
    Accepts (job.execute maxItems now st).2.database r := by
  by_cases hjob : ∃ batch, job = .savePollResults batch
  · obtain ⟨batch, rfl⟩ := hjob
    simp only [Job.execute, Stores.save]
    cases hsave : savePollResults batch st.database with
    | error e => exact h
    | ok p => exact h.save hsave
  · rw [Job.execute_database fun batch hb => hjob ⟨batch, hb⟩]
    exact h

/-! ## The instants of the spool -/

/-- The row is due at some instant. -/
def SpoolRow.Dated (row : SpoolRow) : Prop :=
  ∃ next : DateTime, row.nextRetryAt = datetimeToJson next

/-- A row after `mark_failed` has the instant that it had, or a new one. -/
theorem DurableSqliteSpool.dated_markFailed {s : DurableSqliteSpool} {now : DateTime}
    {ids : List String} {delay : ℚ} (hs : ∀ row ∈ s.table.rows, row.Dated) {row : SpoolRow}
    (h : row ∈ (s.markFailed ids delay now).2.table.rows) : row.Dated := by
  obtain ht | ⟨next, -, ht⟩ := markFailed_table ids delay now s <;> rw [ht] at h
  · exact hs row h
  · obtain ⟨old, hold, rfl⟩ := List.mem_map.1 h
    split_ifs
    · exact ⟨next, rfl⟩
    · exact hs old hold

/-- Every job leaves rows with an instant. -/
theorem Job.dated_execute (job : Job) (maxItems : ℕ+) (now : DateTime) (st : Stores)
    (h : ∀ row ∈ st.spool.rows, row.Dated) :
    ∀ row ∈ (job.execute maxItems now st).2.spool.rows, row.Dated := by
  cases job with
  | savePollResults batch =>
    simp only [execute, Stores.save]
    cases PlcGateway.savePollResults batch st.database <;> exact h
  | append batch =>
    simp only [execute]
    intro row hrow
    rcases DurableSqliteSpool.of_mem_append hrow with hold | ⟨r, -, rfl⟩
    · exact h row hold
    · exact ⟨now, rfl⟩
  | fetchDue limit => exact h
  | markReplayed ids =>
    simp only [execute]
    intro row hrow
    exact h row (DurableSqliteSpool.mem_markReplayed.1 hrow).1
  | markFailed ids delay =>
    simp only [execute]
    intro row hrow
    exact DurableSqliteSpool.dated_markFailed h hrow

/-- From some instant on everything is due. -/
theorem exists_due {rows : List SpoolRow} (h : ∀ row ∈ rows, row.Dated) :
    ∃ start : DateTime, ∀ row ∈ rows, ∃ next : DateTime, row.nextRetryAt = datetimeToJson next ∧
      next.toMicros ≤ start.toMicros := by
  induction rows with
  | nil => exact ⟨timestamp, fun row hrow => by cases hrow⟩
  | cons row rows ih =>
    obtain ⟨hrow, hrows⟩ := List.forall_mem_cons.1 h
    obtain ⟨next, hnext⟩ := hrow
    obtain ⟨start, hstart⟩ := ih hrows
    rcases le_total next.toMicros start.toMicros with hle | hle
    · exact ⟨start, List.forall_mem_cons.2 ⟨⟨next, hnext, hle⟩, hstart⟩⟩
    · refine ⟨next, List.forall_mem_cons.2 ⟨⟨next, hnext, le_rfl⟩, fun row' hrow' => ?_⟩⟩
      obtain ⟨next', hnext', hle'⟩ := hstart row' hrow'
      exact ⟨next', hnext', hle'.trans hle⟩

/-! ## Polls of a stored configuration -/

section
variable {config : GatewayConfig} {db db' : GatewayDatabase} {P : WorkerPollResult → Prop}

theorem System.Reachable.produced {F : Surroundings} {tables : Database} {x : System}
    (hx : System.Reachable F P tables x) : x.Produced P := by
  cases hx with
  | init => exact fun p hp => by cases hp
  | step _ _ hy => exact hy

/-- A poll of a configuration that the database knows is accepted. -/
theorem Polled.accepts {r : WorkerPollResult} (h : Polled config r) (hknown : config.KnownTo db) :
    Accepts db.readingTables r := by
  have hputs : ∀ r' ∈ [r], (∃ ps, putsOf db.readingTables.config r' = .ok ps) ∧
      ForeignKeys db.readingTables.config r' := by
    rw [List.forall_mem_singleton]
    exact h.acceptable.putsOf hknown
  obtain ⟨n, hsave⟩ := savePollResults_total hputs
  exact ⟨_, hsave⟩

/-- The files that writers share accept the polls of the configuration. -/
theorem System.Reachable.accepting {F : Surroundings} {x : System} (hknown : config.KnownTo db)
    (hP : SameContent P) (hpolled : ∀ r, P r → Polled config r)
    (hnew : DatabaseAgrees P db.readingTables)
    (hx : System.Reachable F P db.readingTables x) : x.stores.Accepting P := by
  refine ⟨(hx.safe hP hnew).stores, fun r hr => ?_⟩
  exact hx.keeps (Q := fun st => Accepts st.database r) Accepts.execute
    ((hpolled r hr).accepts hknown)

end

/-! ## Poll results on their way -/

section
variable {P : WorkerPollResult → Prop} {st : Stores}

/-- A batch that was acknowledged is kept, whatever the verdict. -/
theorem VerdictHolds.kept {cfg : WriterConfig} {h : WriterHistory} {batch : List WorkerPollResult}
    {v : Verdict} (hv : VerdictHolds cfg h batch v) (hspool : cfg.hasSpool = true)
    (hst : st.Sound P) (htold : ∀ job a, Returned h job a → Job.Told P st job a)
    (hfailed : ∀ batch, Failed h (.append batch) → ∀ r ∈ batch, P r ∧ st.Keeps r) :
    ∀ r ∈ batch, P r ∧ st.Keeps r := by
  intro r hr
  cases v with
  | persisted =>
    obtain ⟨n, hsaved⟩ := hv
    obtain ⟨hPr, hstored⟩ := htold _ _ hsaved r hr
    exact ⟨hPr, .inr hstored⟩
  | spooled =>
    obtain ⟨n, happended⟩ := hv
    exact hst.kept r (htold _ _ happended r hr)
  | failed =>
    rcases hv with hno | happend
    · rw [hspool] at hno
      cases hno
    · exact hfailed batch happend r hr

/-- What was put is still to be saved, or kept. -/
theorem Process.put_unsaved_or_kept {p : Process} (hst : st.Sound P) (hsafe : p.Safe P st)
    (hspooling : p.Spooling P st) (hspool : p.cfg.hasSpool = true)
    (hg : p.config.state.getTask = none) :
    ∀ r ∈ p.config.state.log.puts, r ∈ p.config.state.unsaved ∨ P r ∧ st.Keeps r := by
  have ha := Writer.account_of_good hsafe.good
  have hheld : p.config.state.held = [] := by rw [WriterState.held, hg]
  intro r hr
  rw [ha.queued, ha.taken, hheld, List.append_nil, List.append_assoc] at hr
  rcases List.mem_append.1 hr with hflushed | hunsaved
  · obtain ⟨batch, hbatch, hmem⟩ := List.mem_flatten.1 hflushed
    obtain ⟨b, hb, rfl⟩ := List.mem_map.1 hbatch
    exact .inr ((ha.verdicts b hb).kept hspool hst hsafe.told hspooling.failed r hmem)
  · exact .inl hunsaved

end

/-- A writer that replays the spool: it has one, nobody stops it or touches the files, and every
    job is executed, by a clock that shows `start` or later. -/
structure Replays {τ : Type} (files : τ → Stores) (maxItems : ℕ+) (start : DateTime)
    (cfg : WriterConfig) (env : ℕ → Answers τ) (s : WriterState) : Prop where
  hasSpool : cfg.hasSpool = true
  batchSize : cfg.spoolReplayBatchSize < 2 ^ 63
  serves : ∀ n, (env n).ServesFrom files maxItems start
  running : ∀ n, (env n).KeepsRunning
  pendingBatch : s.pendingBatch = []
  stopRequested : s.stopRequested = false

section
variable {config : GatewayConfig} {db db' : GatewayDatabase} {P : WorkerPollResult → Prop}
  {τ : Type} {files : τ → Stores} {maxItems : ℕ+} {t : τ} {env : ℕ → Answers τ} {x : System}
  {p : Process}

/-- **Every poll reaches the main database.**  A configuration is stored, and its polls are put
    into the queues of writers that share the database, which may fail, and a healthy spool, whose
    `append`s are in time; processes may crash.  Then one writer is asked to stop, and from then
    on its jobs are executed, and no other writer and no abandoned job touches the files.  It
    leaves its loop within a bounded number of rounds, and as soon as a later writer, alone again,
    has replayed the spool every poll that was ever put into its queue is in the main database. -/
theorem polls_reach_database (hsound : config.ReferentiallySound)
    (hseed : seedConfiguration config db = .ok db') (calls : List RepositoryCall)
    (hP : SameContent P) (hpolled : ∀ r, P r → Polled config r)
    (hnew : DatabaseAgrees P (RepositoryCall.commitAll calls db').2.readingTables)
    (hx : System.Reachable spoolInTime P (RepositoryCall.commitAll calls db').2.readingTables x)
    (hp : p ∈ x.processes) (hspool : p.cfg.hasSpool = true) (hb : p.config.control = .boundary)
    (hstop : p.config.state.stopRequested = true) (ht : files t = x.stores)
    (henv : ∀ n, (env n).Serves files maxItems) (hd : ∀ n, (env n).Drains) :
    ∃ n ≤ 2 * p.config.state.queue.items.length + p.config.state.pendingBatch.length +
        x.stores.spool.rows.length + 1,
      let z := drain p.cfg env p.config.state t n
      Drained z ∧ ∃ start : DateTime, ∀ cfg later s, Replays files maxItems start cfg later s →
        let k := cfg.spoolReplayBatchSize
        let y := drain cfg later s z.2.2 (((files z.2.2).spool.rows.length + k - 1) / k)
        (files y.2.2).spool.rows = [] ∧
          ∀ r ∈ p.config.state.log.puts, Stored (files y.2.2).database r := by
  have hknown := (storedIn_of_seed hsound hseed).knownTo.evolves
    (RepositoryCall.transacts_commitAll calls db').evolves
  have haccepting := hx.accepting hknown hP hpolled hnew
  have hdated := hx.keeps (Q := fun st => ∀ row ∈ st.spool.rows, row.Dated) Job.dated_execute
    (fun row hrow => by cases hrow)
  have hsafe := (hx.safe hP hnew).processes p hp
  have hinv := drainInv_of_good hsafe.good hb hstop
  have hputs := Process.put_unsaved_or_kept haccepting.toSound hsafe (hx.spooling hP hnew p hp)
    hspool hinv.getTask
  have hitems : ∀ r ∈ p.config.state.unsaved, P r :=
    fun r hr => hx.produced p hp r (unsaved_subset_puts hsafe.good hr)
  rw [← ht] at haccepting hdated
  have hdraining : Draining P p.cfg p.config.state (files t) := ⟨hinv, haccepting, hitems⟩
  obtain ⟨n, hn, hdrained, hstored, hadvances, haccepting'⟩ := hdraining.delivered hP henv hd
  rw [workLeft, Writer.work, ht] at hn
  obtain ⟨start, hdue⟩ := exists_due fun row hrow => hdated row (hadvances.rows.subset hrow)
  refine ⟨n, hn, hdrained, start, fun cfg later s hreplays => ?_⟩
  obtain ⟨-, hempty, hadvances'⟩ := Replaying.empties hP hreplays.hasSpool hreplays.batchSize
    hreplays.serves hreplays.running
    ⟨⟨haccepting', hdue⟩, hreplays.pendingBatch, hreplays.stopRequested⟩
  refine ⟨hempty, fun r hr => ?_⟩
  rcases hputs r hr with hunsaved | ⟨hPr, hkept⟩
  · exact hadvances'.stored r (hitems r hunsaved) (hstored r hunsaved)
  · rw [← ht] at hkept
    exact (hadvances'.kept r hPr (hadvances.kept r hPr hkept)).stored hempty

end

/-- Every job is executed, by a clock that shows `now`. -/
def serveAt (maxItems : ℕ+) (now : DateTime) : Answers Stores
  | .wait _, s, st => (.ok false, s, st)
  | .gather _, s, st => (.ok (), s, st)
  | .sleep _, s, st => (.ok (), s, st)
  | .toThread job _, s, st =>
    (jobOutcome (job.execute maxItems now st).1, s, (job.execute maxItems now st).2)

theorem replays_serveAt (start : DateTime) :
    Replays id testMaxItems start (testConfig true) (fun _ => serveAt testMaxItems start)
      testState where
  hasSpool := rfl
  batchSize := by decide
  serves _ := by
    refine ⟨fun job _ _ _ => ⟨start, le_rfl, rfl, rfl⟩, fun c s x hc => ?_, fun _ _ _ => rfl⟩
    cases c with
    | toThread job t => exact absurd rfl (hc job t)
    | _ => rfl
  running _ := by
    intro c s st
    cases c <;> exact ⟨.refl, rfl⟩
  pendingBatch := rfl
  stopRequested := rfl

/-- The save of a poll raises, and its replay too; then the next poll is put, and the writer is
    asked to stop. -/
def spoolFirstPoll : List Event :=
  [.put disconnectedResult, .enter] ++ runJob ++ [.getTakes, .waited false, .gathered] ++
    [.start, .fail (.operationalError "database is locked"), .finish, .deliver] ++ runJob ++
    [.enter] ++ runJob ++
    [.start, .fail (.operationalError "database is locked"), .finish, .deliver] ++ runJob ++
    [.put recoveredResult, .stop]

/-- The first writer at the stop, and the files. -/
def stoppedFirst : Option (Process × Stores) :=
  Process.play spoolInTime (fun c => !c.job.isAppend) [disconnectedResult, recoveredResult]
    spoolFirstPoll
    (.spawn patientConfig testMaxItems 1 testState, .fresh releaseDatabase.readingTables)

theorem sameContent_release : SameContent (· ∈ [disconnectedResult, recoveredResult]) := by
  have hne : disconnectedResult.executionId ≠ recoveredResult.executionId := by decide +kernel
  intro r r' hr hr' hid
  simp only [List.mem_cons, List.not_mem_nil, or_false] at hr hr'
  rcases hr with rfl | rfl <;> rcases hr' with rfl | rfl
  · rfl
  · exact absurd hid hne
  · exact absurd hid.symm hne
  · rfl

/-- Beside a second writer, the first one saves the poll in its queue and leaves the spooled one
    behind, which is not due yet: a later writer replays it. -/
theorem polls_reach_database_spooled : ∃ p st,
    System.Reachable spoolInTime (· ∈ [disconnectedResult, recoveredResult])
      releaseDatabase.readingTables ⟨st, [p, .spawn (testConfig true) testMaxItems 1 testState]⟩ ∧
      p.config.state.log.puts = [disconnectedResult, recoveredResult] ∧
      p.config.state.queue.items = [recoveredResult] ∧
      st.spool.ids = [disconnectedResult.executionId] ∧
      ∃ n ≤ 4,
        let z := drain p.cfg (fun _ => serveWaiting) p.config.state st n
        Drained z ∧ z.2.2.spool.rows.length = 1 ∧ ∃ start,
          let y := drain (testConfig true) (fun _ => serveAt testMaxItems start) testState z.2.2 1
          y.2.2.spool.rows = [] ∧
            ∀ r ∈ [disconnectedResult, recoveredResult], Stored y.2.2.database r := by
  have hplay : (stoppedFirst.map fun y =>
      (y.1.config.state.log.puts, y.1.config.state.queue.items, y.2.spool.ids,
        y.1.atBoundary && y.1.config.state.stopRequested && y.1.cfg.hasSpool &&
          y.1.config.state.pendingBatch.isEmpty && (List.range 5).all fun n =>
            (drain y.1.cfg (fun _ => serveWaiting) y.1.config.state y.2 n).2.2.spool.rows.length = 1)) =
      some ([disconnectedResult, recoveredResult], [recoveredResult],
        [disconnectedResult.executionId], true) := by
    decide +kernel
  obtain ⟨⟨p, st⟩, hy, hobs⟩ := Option.map_eq_some_iff.1 hplay
  simp only [Prod.mk.injEq, Bool.and_eq_true, List.isEmpty_iff, List.all_eq_true, List.mem_range,
    decide_eq_true_eq] at hobs
  obtain ⟨hputs, hqueue, hids, ⟨⟨⟨hboundary, hstop⟩, hspool⟩, hpending⟩, hleft⟩ := hobs
  have hF : ∀ c st, (!c.job.isAppend) = true → spoolInTime.timeout c st := by
    intro c st hc
    rw [Bool.not_eq_true'] at hc
    refine ⟨fun ha => ?_, dispensable_of_not_append hc⟩
    rw [hc] at ha
    cases ha
  have hfirst := Process.play_sound (P := (· ∈ [disconnectedResult, recoveredResult])) hF
    (fun r hr => hr) (Process.reachable_spawn _ _ _ _ _ _) hy
  have hx : System.Reachable spoolInTime (· ∈ [disconnectedResult, recoveredResult])
      releaseDatabase.readingTables ⟨st, [p, .spawn (testConfig true) testMaxItems 1 testState]⟩ := by
    refine hfirst.step (@SystemStep.spawn _ _ [p] (testConfig true) 8 1 1 _ rfl) fun q hq r hr => ?_
    rcases List.mem_cons.1 hq with rfl | hq
    · exact hfirst.produced q (List.mem_singleton_self _) r hr
    · rw [List.mem_singleton.1 hq] at hr
      cases hr
  have hnew : DatabaseAgrees (· ∈ [disconnectedResult, recoveredResult])
      (RepositoryCall.commitAll [] releaseDatabase).2.readingTables := by
    have hstored := storedIn_of_seed releaseConfiguration_sound seed_releaseDatabase
    rintro r' - (⟨i, row⟩ | ⟨e, row⟩) - old hold
    · have hnone : releaseDatabase.pollExecutions.lookup i = some old := hold
      rw [hstored.pollExecutions] at hnone
      cases hnone
    · have hnone : releaseDatabase.tagReadings.lookup e = some old := hold
      rw [hstored.tagReadings] at hnone
      cases hnone
  have hrows : st.spool.rows.length = 1 := by
    have hlength := congrArg List.length hids
    rwa [SpoolTable.ids, List.length_map] at hlength
  obtain ⟨n, hn, hdrained, start, hlater⟩ := polls_reach_database releaseConfiguration_sound
    seed_releaseDatabase [] sameContent_release polled_release hnew hx List.mem_cons_self hspool
    (Process.control_of_atBoundary hboundary) hstop (show id st = st from rfl)
    (fun _ => serveWaiting_serves) (fun _ => drains_ofThreads _)
  rw [hqueue, hpending, hrows] at hn
  have hrounds : 1 = (((drain p.cfg (fun _ => serveWaiting) p.config.state st n).2.2.spool.rows.length +
      (testConfig true).spoolReplayBatchSize - 1) / (testConfig true).spoolReplayBatchSize) := by
    rw [hleft n (Nat.lt_succ_of_le hn)]
    rfl
  have hreplayed := hlater _ _ _ (replays_serveAt start)
  rw [hputs] at hreplayed
  simp only [id_eq, ← hrounds] at hreplayed
  exact ⟨p, st, hx, hputs, hqueue, hids, n, hn, hdrained, hleft n (Nat.lt_succ_of_le hn), start,
    hreplayed⟩

end PlcGateway
