/-
  What the writer does once the database and the spool can be reached.

  While every job is executed and the database accepts the poll results, a replay stores
  the entries that it fetches and takes them out of the spool.  So a backlog that is due
  is gone after one round for each `spool_replay_batch_size` of its entries
  (`backlog_is_replayed`).
-/
import PlcGateway.Library.Fallible
import PlcGateway.Persistence.BadResults
import PlcGateway.Persistence.Drain
import PlcGateway.Persistence.SpoolRefinement

namespace PlcGateway

open Coroutine Relation Absorption Calendar Fallible

/-! ## Accepting files -/

/-- Sound files whose database accepts the poll results in `P`. -/
structure Stores.Accepting (P : WorkerPollResult → Prop) (st : Stores) : Prop
    extends st.Sound P where
  accepts : ∀ r, P r → Accepts st.database r

/-- Poll results have been saved, and rows of the spool that hold them deleted. -/
structure Stores.Advances (P : WorkerPollResult → Prop) (st st' : Stores) : Prop where
  stored : ∀ r, P r → Stored st.database r → Stored st'.database r
  kept : ∀ r, P r → st.Keeps r → st'.Keeps r
  appended : st'.appended = st.appended
  rows : st'.spool.rows.Sublist st.spool.rows

theorem Job.execute_markReplayed (ids : List String) (maxItems : ℕ+) (now : DateTime)
    (st : Stores) : ((Job.markReplayed ids).execute maxItems now st).2 =
      { st with spool := st.spool.delete ids } := by
  have htable : ((st.handle maxItems).markReplayed ids).2.table = st.spool.delete ids := by
    rw [DurableSqliteSpool.markReplayed]
    split_ifs with hempty
    · rw [List.isEmpty_iff.1 hempty, SpoolTable.delete_nil]
      rfl
    · rfl
  simp only [execute, htable]

theorem Put.Allowed.actAll {p : Put} {db : Database} (h : p.Allowed db) (ps : List Put) :
    p.Allowed (actAll Put.apply ps db) := by
  induction ps generalizing db with
  | nil => exact h
  | cons q ps ih => exact ih (h.apply q)

/-- What is accepted is accepted after any transaction. -/
theorem Accepts.save {db db' : Database} {rs : List WorkerPollResult} {n : ℕ} {r : WorkerPollResult}
    (h : Accepts db r) (hsave : savePollResults rs db = .ok (n, db')) : Accepts db' r := by
  obtain ⟨-, rfl, -⟩ := savePollResults_ok hsave
  obtain ⟨hs, hputs⟩ := accepts_iff.1 h
  refine accepts_iff.2 ⟨?_, fun p hp => ?_⟩
  · rw [Put.actAll_config]
    exact hs
  · rw [Put.actAll_config] at hp
    exact (hputs p hp).actAll _

section
variable {P : WorkerPollResult → Prop} {st st' st'' : Stores}

theorem Stores.Advances.refl (st : Stores) : st.Advances P st :=
  ⟨fun _ _ h => h, fun _ _ h => h, rfl, .refl _⟩

theorem Stores.Advances.trans (h : st.Advances P st') (h' : st'.Advances P st'') :
    st.Advances P st'' :=
  ⟨fun r hr hs => h'.stored r hr (h.stored r hr hs), fun r hr hk => h'.kept r hr (h.kept r hr hk),
    h'.appended.trans h.appended, h'.rows.trans h.rows⟩

variable (hP : SameContent P) (hst : st.Accepting P)
include hP hst

/-- A batch is saved. -/
theorem Stores.Accepting.save {batch : List WorkerPollResult} (hbatch : ∀ r ∈ batch, P r) :
    ∃ n db, savePollResults batch st.database = .ok (n, db) ∧
      Stores.Accepting P { st with database := db } ∧
      st.Advances P { st with database := db } ∧ ∀ r ∈ batch, Stored db r := by
  obtain ⟨n, db, hsave⟩ := savePollResults_of_accepts fun r hr => hst.accepts r (hbatch r hr)
  have heffect := savePollResults_effect hst.toSound hP hbatch 1 timestamp
  simp only [Job.Effect, Job.execute, Stores.save, hsave] at heffect
  obtain ⟨hsound, hgrows, htold⟩ := heffect
  exact ⟨n, db, hsave, ⟨hsound, fun r hr => (hst.accepts r hr).save hsave⟩,
    ⟨hgrows.stored, fun r hr => hgrows.keeps hr, rfl, .refl _⟩, fun r hr => (htold n rfl r hr).2⟩

/-- Stored entries are taken out of the spool. -/
theorem Stores.Accepting.delete {ids : List String}
    (hids : ∀ id ∈ ids, ∃ r, P r ∧ r.executionId = id ∧ Stored st.database r) :
    Stores.Accepting P { st with spool := st.spool.delete ids } ∧
      st.Advances P { st with spool := st.spool.delete ids } := by
  obtain ⟨hsound, hgrows, -⟩ := markReplayed_effect hst.toSound hP hids 1 timestamp
  rw [Job.execute_markReplayed] at hsound hgrows
  exact ⟨⟨hsound, hst.accepts⟩, hgrows.stored, fun r hr => hgrows.keeps hr, rfl,
    List.filter_sublist⟩

/-- The entries are replayed. -/
theorem Stores.Accepting.replay {entries : List SpoolEntry}
    (hrows : ∀ e ∈ entries, ∃ row ∈ st.spool.rows, spoolEntry row = .ok e) :
    ∃ n db, savePollResults (entries.map SpoolEntry.pollResult) st.database = .ok (n, db) ∧
      let replayed : Stores :=
        { st with database := db, spool := st.spool.delete (entries.map SpoolEntry.executionId) }
      replayed.Accepting P ∧ st.Advances P replayed := by
  have hentries : ∀ e ∈ entries, P e.pollResult ∧ e.pollResult.executionId = e.executionId := by
    intro e he
    obtain ⟨row, hrow, hentry⟩ := hrows e he
    obtain ⟨r, hr, hh⟩ := hst.rows row hrow
    obtain ⟨hid, hres⟩ := spoolEntry_of_holds hh hentry
    rw [hid, hres]
    exact ⟨hr, rfl⟩
  have hbatch : ∀ r ∈ entries.map SpoolEntry.pollResult, P r := by
    intro r hr
    obtain ⟨e, he, rfl⟩ := List.mem_map.1 hr
    exact (hentries e he).1
  obtain ⟨n, db, hsave, hsaved, hadvances, hstored⟩ := hst.save hP hbatch
  have hids : ∀ id ∈ entries.map SpoolEntry.executionId, ∃ r, P r ∧ r.executionId = id ∧
      Stored db r := by
    intro id hid
    obtain ⟨e, he, rfl⟩ := List.mem_map.1 hid
    exact ⟨e.pollResult, (hentries e he).1, (hentries e he).2, hstored _ (List.mem_map_of_mem he)⟩
  obtain ⟨hdeleted, hadvances'⟩ := hsaved.delete hP hids
  exact ⟨n, db, hsave, hdeleted, hadvances.trans hadvances'⟩

end

/-! ## Rounds of a writer whose jobs are executed -/

/-- A relation between states of the writer that does not look at its books. -/
structure Unbooked (R : WriterState → WriterState → Prop) : Prop where
  refl : ∀ s, R s s
  trans : ∀ s s₁ s₂, R s s₁ → R s₁ s₂ → R s s₂
  books : ∀ s s₁ counters lastError, R s s₁ → R s { s₁ with counters, lastError }

namespace Writer
variable {τ : Type} {env : Answers τ} {files : τ → Stores} {maxItems : ℕ+} {cfg : WriterConfig}
  {s : WriterState} {x : τ}

/-- A batch that can be saved is persisted by the first attempt. -/
theorem exec_persistBatch_saved (hdb : env.Reachable files) (cfg : WriterConfig) (s : WriterState)
    {batch : List WorkerPollResult} {n : ℕ} {db : Database}
    (h : savePollResults batch (files x).database = .ok (n, db)) :
    let a := env (.toThread (.savePollResults batch) cfg.storageTimeoutS) s x
    ∃ counters, ((persistBatch cfg batch) s).exec env x =
        (.ok true, { a.2.1 with counters }, a.2.2) ∧
      files a.2.2 = { files x with database := db } := by
  intro a
  obtain ⟨hr, hx⟩ := hdb.save batch cfg.storageTimeoutS s x
  simp only [Stores.save, h, jobOutcome] at hr hx
  have hsave : ((saveBatch cfg batch) s).exec env x = (.ok n, a.2) := Prod.ext hr rfl
  obtain ⟨o, hretry⟩ : ∃ o, ((runWithRetry (saveBatch cfg batch) cfg.retryPolicy sleep
      (fun _ => defaultRandom) recordRetry) s).exec env x = (.ok (n, o), a.2.1, a.2.2) :=
    exec_runWithRetry_ok hsave
  rw [persistBatch, exec_bind_of_ok (a := .ok (n, o)) (by rw [exec_attempt, hretry])]
  exact ⟨_, rfl, hx⟩

/-- The entries are taken out of the spool. -/
theorem exec_markReplayed (henv : env.Serves files maxItems) (cfg : WriterConfig) (s : WriterState)
    (x : τ) (entries : List SpoolEntry) :
    let ids := entries.map SpoolEntry.executionId
    let a := env (.toThread (.markReplayed ids) cfg.spoolTimeoutS) s x
    ∃ counters, ((markReplayed cfg entries) s).exec env x =
        (.ok (), { a.2.1 with counters }, a.2.2) ∧
      files a.2.2 = { files x with spool := (files x).spool.delete ids } := by
  intro ids a
  obtain ⟨now, hr, hx⟩ := henv.job (.markReplayed ids) cfg.spoolTimeoutS s x
  obtain ⟨n, hn⟩ : ∃ n, (((files x).handle maxItems).markReplayed ids).1 = .ok n := by
    unfold DurableSqliteSpool.markReplayed
    split_ifs <;> exact ⟨_, rfl⟩
  simp only [Job.execute, hn, jobOutcome] at hr
  rw [Job.execute_markReplayed] at hx
  have hcall : ((toThread (.markReplayed ids) cfg.spoolTimeoutS) s).exec env x = (.ok n, a.2) :=
    Prod.ext hr rfl
  rw [markReplayed, exec_bind_of_ok (a := .ok n) (by rw [exec_attempt, hcall])]
  exact ⟨_, rfl, hx⟩

variable {R : WriterState → WriterState → Prop}

/-- A replay that finds entries which can be saved. -/
theorem exec_replaySpoolOnce_found (hR : Unbooked R) (henv : env.Serves files maxItems)
    (hrely : ∀ c s x, R s (env c s x).2.1) (hspool : cfg.hasSpool = true)
    {entries : List SpoolEntry}
    (hfetch : (env (.toThread (.fetchDue cfg.spoolReplayBatchSize) cfg.spoolTimeoutS) s x).1 =
      .ok entries) (hne : entries ≠ []) {n : ℕ} {db : Database}
    (hsave : savePollResults (entries.map SpoolEntry.pollResult) (files x).database = .ok (n, db)) :
    ∃ s' x', ((replaySpoolOnce cfg) s).exec env x = (.ok true, s', x') ∧ R s s' ∧
      files x' = { files x with
        database := db
        spool := (files x).spool.delete (entries.map SpoolEntry.executionId) } := by
  obtain ⟨hx₁, -⟩ := fetchDue_served henv hfetch
  rw [← hx₁] at hsave
  obtain ⟨c₂, hpersist, hx₂⟩ := exec_persistBatch_saved henv.reachable cfg (env (.toThread
    (.fetchDue cfg.spoolReplayBatchSize) cfg.spoolTimeoutS) s x).2.1 hsave
  obtain ⟨c₃, hmark, hx₃⟩ := exec_markReplayed henv cfg _ _ entries
  rw [replaySpoolOnce, if_pos hspool, exec_bind_of_ok (exec_fetchDue hfetch)]
  simp only [List.isEmpty_iff, hne, if_false]
  rw [exec_bind_of_ok hpersist]
  simp only [if_true]
  rw [exec_bind_of_ok hmark]
  refine ⟨_, _, rfl, ?_, ?_⟩
  · refine hR.books _ _ _ _ (hR.trans _ _ _ (hR.books _ _ _ _ (hR.trans _ _ _ (hrely _ _ _)
      (hrely _ _ _))) (hrely _ _ _))
  · rw [hx₃, hx₂, hx₁]

/-- A replay that finds nothing. -/
theorem exec_replaySpoolOnce_nothing {J : τ → Prop} (hR : Unbooked R)
    (hrely : ∀ c s x, R s (env c s x).2.1)
    (hkept : J x →
      J (env (.toThread (.fetchDue cfg.spoolReplayBatchSize) cfg.spoolTimeoutS) s x).2.2)
    (halive : (env (.toThread (.fetchDue cfg.spoolReplayBatchSize) cfg.spoolTimeoutS) s x).1 ≠
      .error .cancelled)
    (hnone : cfg.hasSpool = true → ∀ entries,
      (env (.toThread (.fetchDue cfg.spoolReplayBatchSize) cfg.spoolTimeoutS) s x).1 = .ok entries →
        entries = []) :
    ∃ s' x', ((replaySpoolOnce cfg) s).exec env x = (.ok false, s', x') ∧ R s s' ∧
      (J x → J x') := by
  rw [replaySpoolOnce]
  split_ifs with hspool
  swap
  · exact ⟨s, x, rfl, hR.refl s, id⟩
  rcases hr : (env (.toThread (.fetchDue cfg.spoolReplayBatchSize) cfg.spoolTimeoutS) s x).1 with
    (e | _) | entries
  · have hcall : ((Prog.attempt (toThread (.fetchDue cfg.spoolReplayBatchSize) cfg.spoolTimeoutS))
        s).exec env x = (.ok (.error e), (env (.toThread (.fetchDue cfg.spoolReplayBatchSize)
          cfg.spoolTimeoutS) s x).2) := by
      have hawait : ((toThread (.fetchDue cfg.spoolReplayBatchSize) cfg.spoolTimeoutS) s).exec
          env x = (.error (.error e), (env (.toThread (.fetchDue cfg.spoolReplayBatchSize)
            cfg.spoolTimeoutS) s x).2) := Prod.ext hr rfl
      rw [exec_attempt, hawait]
    rw [exec_bind_of_ok hcall]
    exact ⟨_, _, rfl, hR.books _ _ _ _ (hrely _ _ _), hkept⟩
  · exact absurd hr halive
  · have hempty := hnone hspool entries hr
    subst hempty
    rw [exec_bind_of_ok (exec_fetchDue hr)]
    exact ⟨_, _, rfl, hrely _ _ _, hkept⟩

/-- A round whose body returns. -/
theorem exec_runIteration_of_round {b : Bool} {s' : WriterState} {x' : τ}
    (h : ((round cfg) s).exec env x = (.ok b, s', x')) :
    ((runIteration cfg) s).exec env x =
      if b then (.ok true, s', x') else ((leave cfg (.ok false)) s').exec env x' := by
  have hcancel : ((Prog.onCancelled (round cfg) (flushPending cfg)) s).exec env x =
      (.ok b, s', x') := by
    rw [exec_onCancelled, h]
  have houtcome : ((Prog.outcome (Prog.onCancelled (round cfg) (flushPending cfg))) s).exec env x =
      (.ok (.ok b), s', x') := by
    refine (exec_andThen _ _ _ _).trans ?_
    rw [hcancel]
    rfl
  rw [runIteration, exec_bind_of_ok houtcome]
  cases b <;> rfl

/-- A round that goes on does what its body does. -/
theorem exec_runIteration_goes (hgo : s.shouldStop = false) {s' : WriterState} {x' : τ}
    (h : ((consumeOrFlush cfg) s).exec env x = (.ok (), s', x')) :
    ((runIteration cfg) s).exec env x = (.ok true, s', x') := by
  have hround : ((round cfg) s).exec env x = (.ok true, s', x') := by
    have hbody : round cfg s = (do
        consumeOrFlush cfg
        return true : WriterProg Bool) s := congrFun (if_neg (Bool.eq_false_iff.1 hgo)) s
    rw [hbody, exec_bind_of_ok h]
    rfl
  exact exec_runIteration_of_round hround

/-- A writer that has nothing left leaves its loop. -/
theorem exec_runIteration_stops (hstop : s.shouldStop = true) (hp : s.pendingBatch = []) :
    ((runIteration cfg) s).exec env x =
      (.ok false, { s with running := false, stopped := true }, x) := by
  have hround : ((round cfg) s).exec env x = (.ok false, s, x) := by
    have hbody : round cfg s = (return false : WriterProg Bool) s := congrFun (if_pos hstop) s
    rw [hbody]
    rfl
  have hflush : ((flushPending cfg) s).exec env x = (.ok (), s, x) := by
    have hbody : flushPending cfg s = (return () : WriterProg Unit) s :=
      congrFun (if_pos (List.isEmpty_iff.2 hp)) s
    rw [hbody]
    rfl
  rw [exec_runIteration_of_round hround, if_neg Bool.false_ne_true, leave, exec_bind_of_ok hflush]
  rfl

/-- A round that begins with an empty batch begins with a replay. -/
theorem consumeOrFlush_of_empty (hp : s.pendingBatch = []) :
    consumeOrFlush cfg s = (do
      if ← replaySpoolOnce cfg then return () else consume cfg : WriterProg Unit) s :=
  congrFun (if_pos (List.isEmpty_iff.2 hp)) s

end Writer

/-! ## The backlog after an outage -/

/-- Every job is executed in time, by a clock that shows `start` or later. -/
structure Answers.ServesFrom {τ : Type} (env : Answers τ) (files : τ → Stores) (maxItems : ℕ+)
    (start : DateTime) : Prop where
  job : ∀ job t s x, ∃ now, start.toMicros ≤ now.toMicros ∧
    (env (.toThread job t) s x).1 = jobOutcome (job.execute maxItems now (files x)).1 ∧
    files (env (.toThread job t) s x).2.2 = (job.execute maxItems now (files x)).2
  other : ∀ c s x, (∀ job t, c ≠ .toThread job t) → files (env c s x).2.2 = files x
  sleep : ∀ d s x, (env (.sleep d) s x).1 = .ok ()

/-- Items may be put while a call is awaited, but nobody asks the writer to stop. -/
def Answers.KeepsRunning {τ : Type} (env : Answers τ) : Prop :=
  ∀ c s x, ReflTransGen WriterEnv s (env c s x).2.1 ∧
    (env c s x).2.1.stopRequested = s.stopRequested

/-- The batch is as it was, and the writer is asked to stop if it was. -/
def KeepsBatch (s s' : WriterState) : Prop :=
  s'.pendingBatch = s.pendingBatch ∧ s'.stopRequested = s.stopRequested

/-- Accepting files whose spooled entries are all due at `start`. -/
structure Stores.Backlog (P : WorkerPollResult → Prop) (start : DateTime) (st : Stores) : Prop
    extends st.Accepting P where
  due : ∀ row ∈ st.spool.rows, ∃ next : DateTime, row.nextRetryAt = datetimeToJson next ∧
    next.toMicros ≤ start.toMicros

theorem unbooked_keepsBatch : Unbooked KeepsBatch where
  refl _ := ⟨rfl, rfl⟩
  trans _ _ _ h h' := ⟨h'.1.trans h.1, h'.2.trans h.2⟩
  books _ _ _ _ h := h

section
variable {τ : Type} {env : Answers τ} {files : τ → Stores} {maxItems : ℕ+} {start : DateTime}

theorem Answers.ServesFrom.serves (h : env.ServesFrom files maxItems start) :
    env.Serves files maxItems := by
  refine ⟨fun job t s x => ?_, h.other, h.sleep⟩
  obtain ⟨now, -, hr, hx⟩ := h.job job t s x
  exact ⟨now, hr, hx⟩

theorem Answers.KeepsRunning.keepsBatch (h : env.KeepsRunning) (c : WriterCall) (s : WriterState)
    (x : τ) : KeepsBatch s (env c s x).2.1 := by
  obtain ⟨hrely, hstop⟩ := h c s x
  exact ⟨(kept_of_quiet (quiet_of_rely hrely)).pendingBatch, hstop⟩

end

/-- When everything is due, a replay takes as many rows as it may. -/
theorem SpoolTable.length_delete_dueRows {t : SpoolTable} {dueAt : String}
    (hdue : ∀ row ∈ t.rows, row.nextRetryAt ≤ dueAt) (limit : ℕ) :
    (t.delete ((t.dueRows dueAt limit).map SpoolRow.executionId)).rows.length =
      t.rows.length - limit := by
  have hall : (t.rows.filter fun row => row.nextRetryAt ≤ dueAt) = t.rows :=
    List.filter_eq_self.2 fun row hrow => decide_eq_true (hdue row hrow)
  rw [dueRows, hall, delete]
  generalize hsorted : t.rows.insertionSort SpoolRow.Before = sorted
  have hperm : (sorted.take limit ++ sorted.drop limit).Perm t.rows := by
    rw [List.take_append_drop, ← hsorted]
    exact List.perm_insertionSort _ _
  have hlength : (sorted.drop limit).length = t.rows.length - limit := by
    rw [List.length_drop, ← hperm.length_eq, List.take_append_drop]
  generalize sorted.take limit = taken at hperm ⊢
  generalize sorted.drop limit = left at hperm hlength
  have hnodup := (hperm.map SpoolRow.executionId).nodup_iff.2 t.primary_key
  rw [List.map_append, List.nodup_append] at hnodup
  have htaken :
      (taken.filter fun row => row.executionId ∉ taken.map SpoolRow.executionId) = [] := by
    refine List.filter_eq_nil_iff.2 fun row hrow => ?_
    simp only [decide_eq_true_eq, not_not]
    exact List.mem_map_of_mem hrow
  have hleft :
      (left.filter fun row => row.executionId ∉ taken.map SpoolRow.executionId) = left := by
    refine List.filter_eq_self.2 fun row hrow => decide_eq_true fun hmem => ?_
    exact hnodup.2.2 _ hmem _ (List.mem_map_of_mem hrow) rfl
  rw [← (hperm.filter _).length_eq, List.filter_append, htaken, hleft, List.nil_append, hlength]

theorem executionId_of_spoolEntry {row : SpoolRow} {e : SpoolEntry} (h : spoolEntry row = .ok e) :
    e.executionId = row.executionId := by
  obtain ⟨r, -, h⟩ := bind_eq_ok_iff.1 h
  obtain ⟨next, -, h⟩ := bind_eq_ok_iff.1 h
  cases h
  rfl

theorem executionIds_of_mapM {rows : List SpoolRow} {entries : List SpoolEntry}
    (h : rows.mapM spoolEntry = .ok entries) :
    entries.map SpoolEntry.executionId = rows.map SpoolRow.executionId := by
  induction mapM_eq_ok_iff.1 h with
  | nil => rfl
  | cons hrow hrows ih =>
    rw [List.map_cons, List.map_cons, ih (mapM_eq_ok_iff.2 hrows), executionId_of_spoolEntry hrow]

section
variable {P : WorkerPollResult → Prop} {τ : Type} {files : τ → Stores} {maxItems : ℕ+}
  {start : DateTime} {cfg : WriterConfig}

/-- What a replay fetches of the backlog. -/
theorem Stores.Backlog.fetch {st : Stores} (hst : st.Backlog P start) {limit : ℕ}
    (hlimit : 0 < limit) (hbound : limit < 2 ^ 63) (maxItems : ℕ+) {now : DateTime}
    (hnow : start.toMicros ≤ now.toMicros) :
    ∃ entries, ((Job.fetchDue limit).execute maxItems now st).1 = .ok entries ∧
      (st.spool.delete (entries.map SpoolEntry.executionId)).rows.length =
        st.spool.rows.length - limit ∧
      (entries = [] → st.spool.rows = []) := by
  have hdue : ∀ row ∈ st.spool.rows, row.nextRetryAt ≤ datetimeToJson now := by
    intro row hrow
    obtain ⟨next, hnext, hle⟩ := hst.due row hrow
    rw [hnext]
    exact (isoformat_le_iff next now).2 (hle.trans hnow)
  have hentry : ∀ row ∈ st.spool.dueRows (datetimeToJson now) limit,
      ∃ e, spoolEntry row = .ok e := by
    intro row hrow
    obtain ⟨hrow, -⟩ := SpoolTable.mem_of_mem_dueRows hrow
    obtain ⟨r, -, -, hpayload⟩ := hst.rows row hrow
    obtain ⟨next, hnext, -⟩ := hst.due row hrow
    refine ⟨⟨row.executionId, r, row.retryCount, next⟩, ?_⟩
    rw [spoolEntry, hpayload, pollResultFromJson_toJson, ok_bind, hnext, datetimeFromJson_toJson]
    rfl
  obtain ⟨entries, hentries⟩ := exists_mapM_eq_ok_iff.2 hentry
  have hlength := SpoolTable.length_delete_dueRows hdue limit
  rw [← executionIds_of_mapM hentries] at hlength
  refine ⟨entries, ?_, hlength, ?_⟩
  · rw [Job.execute, DurableSqliteSpool.fetchDue_of_bound hlimit hbound]
    exact hentries
  · rintro rfl
    rw [List.map_nil, SpoolTable.delete_nil] at hlength
    exact List.length_eq_zero_iff.1 (by omega)

/-- A round begins with a backlog, and an empty batch. -/
structure Replaying (P : WorkerPollResult → Prop) (start : DateTime) (s : WriterState)
    (st : Stores) : Prop where
  backlog : st.Backlog P start
  pendingBatch : s.pendingBatch = []
  stopRequested : s.stopRequested = false

/-- **A round replays the backlog**, as far as one replay may go. -/
theorem Replaying.round {env : Answers τ} {s : WriterState} {x : τ} (hP : SameContent P)
    (hspool : cfg.hasSpool = true) (hbound : cfg.spoolReplayBatchSize < 2 ^ 63)
    (henv : env.ServesFrom files maxItems start) (hlive : env.KeepsRunning)
    (h : Replaying P start s (files x)) (hne : (files x).spool.rows ≠ []) :
    ∃ s' x', (Writer.runIteration cfg s).exec env x = (.ok true, s', x') ∧
      Replaying P start s' (files x') ∧ (files x).Advances P (files x') ∧
      (files x').spool.rows.length = (files x).spool.rows.length - cfg.spoolReplayBatchSize := by
  obtain ⟨now, hnow, hr, -⟩ :=
    henv.job (.fetchDue cfg.spoolReplayBatchSize) cfg.spoolTimeoutS s x
  obtain ⟨entries, hfetch, hlength, hnone⟩ :=
    h.backlog.fetch cfg.replayBatchSize_pos hbound maxItems hnow
  rw [hfetch] at hr
  obtain ⟨-, hrows⟩ := fetchDue_served henv.serves hr
  obtain ⟨n, db, hsave, haccepting, hadvances⟩ := h.backlog.toAccepting.replay hP hrows
  obtain ⟨s', x', hexec, hkeeps, hx'⟩ := Writer.exec_replaySpoolOnce_found unbooked_keepsBatch
    henv.serves hlive.keepsBatch hspool hr (fun hn => hne (hnone hn)) hsave
  have hbody : ((Writer.consumeOrFlush cfg) s).exec env x = (.ok (), s', x') := by
    rw [Writer.consumeOrFlush_of_empty h.pendingBatch, exec_bind_of_ok hexec]
    rfl
  have hgo : s.shouldStop = false := by
    rw [WriterState.shouldStop, h.stopRequested]
    rfl
  rw [← hx'] at haccepting hadvances
  refine ⟨s', x', Writer.exec_runIteration_goes hgo hbody, ⟨⟨haccepting, fun row hrow => ?_⟩,
    hkeeps.1.trans h.pendingBatch, hkeeps.2.trans h.stopRequested⟩, hadvances, ?_⟩
  · exact h.backlog.due row (hadvances.rows.subset hrow)
  · rw [hx']
    exact hlength

variable {env : ℕ → Answers τ} {s : WriterState} {x : τ}

theorem Replaying.rounds (hP : SameContent P) (hspool : cfg.hasSpool = true)
    (hbound : cfg.spoolReplayBatchSize < 2 ^ 63)
    (henv : ∀ n, (env n).ServesFrom files maxItems start) (hlive : ∀ n, (env n).KeepsRunning)
    (h : Replaying P start s (files x)) (n : ℕ)
    (hn : n * cfg.spoolReplayBatchSize < (files x).spool.rows.length + cfg.spoolReplayBatchSize) :
    let y := drain cfg env s x n
    y.1 = .ok true ∧ Replaying P start y.2.1 (files y.2.2) ∧ (files x).Advances P (files y.2.2) ∧
      (files y.2.2).spool.rows.length =
        (files x).spool.rows.length - n * cfg.spoolReplayBatchSize := by
  induction n with
  | zero =>
    refine ⟨rfl, h, .refl _, ?_⟩
    rw [Nat.zero_mul]
    rfl
  | succ n ih =>
    rw [Nat.succ_mul] at hn ⊢
    obtain ⟨hok, hreplaying, hadvances, hlength⟩ := ih (by omega)
    have hne : (files (drain cfg env s x n).2.2).spool.rows ≠ [] := by
      intro hempty
      rw [hempty, List.length_nil] at hlength
      omega
    obtain ⟨s', x', hexec, hreplaying', hadvances', hlength'⟩ :=
      hreplaying.round hP hspool hbound (henv n) (hlive n) hne
    rw [drain_succ hok, hexec]
    refine ⟨rfl, hreplaying', hadvances.trans hadvances', ?_⟩
    simp only [hlength', hlength]
    omega

/-- The spool is empty after one round for each `spool_replay_batch_size` of its entries. -/
theorem Replaying.empties (hP : SameContent P) (hspool : cfg.hasSpool = true)
    (hbound : cfg.spoolReplayBatchSize < 2 ^ 63)
    (henv : ∀ n, (env n).ServesFrom files maxItems start) (hlive : ∀ n, (env n).KeepsRunning)
    (h : Replaying P start s (files x)) :
    let k := cfg.spoolReplayBatchSize
    let y := drain cfg env s x (((files x).spool.rows.length + k - 1) / k)
    y.1 = .ok true ∧ (files y.2.2).spool.rows = [] ∧ (files x).Advances P (files y.2.2) := by
  intro k y
  have hk : 0 < k := cfg.replayBatchSize_pos
  have hdiv := Nat.div_add_mod ((files x).spool.rows.length + k - 1) k
  have hmod := Nat.mod_lt ((files x).spool.rows.length + k - 1) hk
  rw [Nat.mul_comm] at hdiv
  obtain ⟨hok, -, hadvances, hlength⟩ := Replaying.rounds hP hspool hbound henv hlive h
    (((files x).spool.rows.length + k - 1) / k) (show _ * k < _ + k by omega)
  have hempty : (files y.2.2).spool.rows = [] :=
    List.length_eq_zero_iff.1 (hlength.trans (show _ - _ * k = 0 by omega))
  exact ⟨hok, hempty, hadvances⟩

/-- What is kept beside an empty spool is in the main database. -/
theorem Stores.Keeps.stored {st : Stores} {r : WorkerPollResult} (h : st.Keeps r)
    (hempty : st.spool.rows = []) : Stored st.database r := by
  rcases h with ⟨row, hrow, -⟩ | hstored
  · rw [hempty] at hrow
    cases hrow
  · exact hstored

/-- Before the last of these rounds there are rows left. -/
theorem Replaying.lasts (hP : SameContent P) (hspool : cfg.hasSpool = true)
    (hbound : cfg.spoolReplayBatchSize < 2 ^ 63)
    (henv : ∀ n, (env n).ServesFrom files maxItems start) (hlive : ∀ n, (env n).KeepsRunning)
    (h : Replaying P start s (files x)) (n : ℕ)
    (hn : n < ((files x).spool.rows.length + cfg.spoolReplayBatchSize - 1) /
      cfg.spoolReplayBatchSize) :
    let y := drain cfg env s x n
    y.1 = .ok true ∧ (files y.2.2).spool.rows ≠ [] := by
  have hpos := cfg.replayBatchSize_pos
  have hfew : (n + 1) * cfg.spoolReplayBatchSize ≤
      (files x).spool.rows.length + cfg.spoolReplayBatchSize - 1 :=
    (Nat.le_div_iff_mul_le hpos).1 hn
  rw [Nat.succ_mul] at hfew
  obtain ⟨hok, -, -, hlength⟩ := Replaying.rounds hP hspool hbound henv hlive h n (by omega)
  refine ⟨hok, fun hempty => ?_⟩
  rw [hempty, List.length_nil] at hlength
  omega

/-- **A backlog that is due is replayed.**  Once every job is executed, nobody else touches the
    files and the database accepts the poll results, the spool is empty after one round for each
    `spool_replay_batch_size` of its entries and not before, whatever is put in the meantime, and
    what it held is in the main database. -/
theorem backlog_is_replayed (hP : SameContent P) (hspool : cfg.hasSpool = true)
    (hbound : cfg.spoolReplayBatchSize < 2 ^ 63)
    (henv : ∀ n, (env n).ServesFrom files maxItems start) (hlive : ∀ n, (env n).KeepsRunning)
    (hbacklog : (files x).Backlog P start) (hp : s.pendingBatch = [])
    (hstop : s.stopRequested = false) :
    let k := cfg.spoolReplayBatchSize
    let rounds := ((files x).spool.rows.length + k - 1) / k
    let y := drain cfg env s x rounds
    y.1 = .ok true ∧ (files y.2.2).spool.rows = [] ∧
      (∀ r ∈ (files x).appended, Stored (files y.2.2).database r) ∧
      ∀ n < rounds, (drain cfg env s x n).1 = .ok true ∧
        (files (drain cfg env s x n).2.2).spool.rows ≠ [] := by
  obtain ⟨hok, hempty, hadvances⟩ :=
    Replaying.empties hP hspool hbound henv hlive ⟨hbacklog, hp, hstop⟩
  refine ⟨hok, hempty, fun r hr => ?_, fun n hn => ?_⟩
  · obtain ⟨hPr, hkept⟩ := hbacklog.kept r hr
    exact (hadvances.kept r hPr hkept).stored hempty
  · exact Replaying.lasts hP hspool hbound henv hlive ⟨hbacklog, hp, hstop⟩ n hn

end

theorem serve_keepsRunning : serve.KeepsRunning := by
  intro c s st
  cases c <;> exact ⟨.refl, rfl⟩

theorem serve_servesFrom : serve.ServesFrom id testMaxItems timestamp where
  job _ _ _ _ := ⟨timestamp, le_rfl, rfl, rfl⟩
  other c s x hc := by
    cases c with
    | toThread job t => exact absurd rfl (hc job t)
    | _ => rfl
  sleep _ _ _ := rfl

theorem accepting_replayStores {rs : List WorkerPollResult}
    (h : (rs.map WorkerPollResult.executionId).Nodup) (hrs : ∀ r ∈ rs, r ∈ [testItem, otherItem]) :
    (replayStores rs h).Accepting (· ∈ [testItem, otherItem]) := by
  have hall : ∀ r ∈ [testItem, otherItem], Accepts testDatabase r := by
    rw [List.forall_mem_cons, List.forall_mem_singleton]
    exact ⟨by decide +kernel, by decide +kernel⟩
  exact ⟨sound_replayStores h hrs, hall⟩

/-- Two entries in the spool. -/
def pairStores : Stores := replayStores [testItem, otherItem] nodup_pair

/-- A replay takes one entry, so two rounds empty the spool, and one does not. -/
theorem backlog_is_replayed_pair :
    let y := drain (testConfig true) (fun _ => serve) testState pairStores
    (y 2).1 = .ok true ∧ (y 2).2.2.spool.rows = [] ∧
      (∀ r ∈ pairStores.appended, Stored (y 2).2.2.database r) ∧
      ∀ n < 2, (y n).1 = .ok true ∧ (y n).2.2.spool.rows ≠ [] := by
  have hbacklog : (id pairStores).Backlog (· ∈ [testItem, otherItem]) timestamp := by
    refine ⟨accepting_replayStores nodup_pair fun _ hr => hr, fun row hrow => ?_⟩
    obtain ⟨r, -, rfl⟩ := List.mem_map.1 hrow
    exact ⟨timestamp, rfl, le_rfl⟩
  have hlength : pairStores.spool.rows.length = 2 := rfl
  have hsize : (testConfig true).spoolReplayBatchSize = 1 := rfl
  have hspool : (testConfig true).hasSpool = true := rfl
  have hempty : testState.pendingBatch = [] := rfl
  have hbound : (testConfig true).spoolReplayBatchSize < 2 ^ 63 := by decide
  have hreplayed := backlog_is_replayed sameContent_pair hspool hbound (fun _ => serve_servesFrom)
    (fun _ => serve_keepsRunning) hbacklog hempty rfl
  simp only [id_eq, hsize, Nat.add_sub_cancel, Nat.div_one, hlength] at hreplayed
  exact hreplayed

end PlcGateway
