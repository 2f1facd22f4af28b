/-
  Batches with a poll result that the repository rejects.

  A batch is one transaction: with the database reachable it is persisted if each
  of its members is accepted on its own, and rolled back if one is rejected.  So a
  replay round makes progress when every entry that it fetches is acceptable.
-/
import PlcGateway.Persistence.Acceptance
import PlcGateway.Persistence.Custody

namespace PlcGateway

open Coroutine Absorption

/-! ## The surroundings of a round -/

/-- The main database is reachable: a save is a transaction and nothing else
    changes it.  A sleep is not cancelled. -/
structure Answers.Reachable {τ : Type} (env : Answers τ) (files : τ → Stores) : Prop where
  save : ∀ batch t s x, (env (.toThread (.savePollResults batch) t) s x).1 =
      jobOutcome ((files x).save batch).1 ∧
    files (env (.toThread (.savePollResults batch) t) s x).2.2 = ((files x).save batch).2
  other : ∀ c s x, (∀ batch t, c ≠ .toThread (.savePollResults batch) t) →
    (files (env c s x).2.2).database = (files x).database
  sleep : ∀ d s x, (env (.sleep d) s x).1 = .ok ()

/-- Every job is executed in time, and the files change in no other way. -/
structure Answers.Serves {τ : Type} (env : Answers τ) (files : τ → Stores) (maxItems : ℕ+) : Prop where
  job : ∀ job t s x, ∃ now, (env (.toThread job t) s x).1 =
      jobOutcome (job.execute maxItems now (files x)).1 ∧
    files (env (.toThread job t) s x).2.2 = (job.execute maxItems now (files x)).2
  other : ∀ c s x, (∀ job t, c ≠ .toThread job t) → files (env c s x).2.2 = files x
  sleep : ∀ d s x, (env (.sleep d) s x).1 = .ok ()

/-- Only a save changes the main database. -/
theorem Job.execute_database {job : Job} {maxItems : ℕ+} {now : Calendar.DateTime} {st : Stores}
    (h : ∀ batch, job ≠ .savePollResults batch) :
    (job.execute maxItems now st).2.database = st.database := by
  cases job with
  | savePollResults batch => exact absurd rfl (h batch)
  | append batch => rfl
  | fetchDue limit => rfl
  | markReplayed ids => rfl
  | markFailed ids delay => rfl

section
variable {τ : Type} {env : Answers τ} {files : τ → Stores}

theorem Answers.Serves.reachable {maxItems : ℕ+} (h : env.Serves files maxItems) :
    env.Reachable files := by
  refine ⟨fun batch t s x => ?_, fun c s x hc => ?_, h.sleep⟩
  · obtain ⟨now, hr, hx⟩ := h.job (.savePollResults batch) t s x
    exact ⟨hr, hx⟩
  · by_cases hjob : ∃ job t, c = .toThread job t
    · obtain ⟨job, t, rfl⟩ := hjob
      obtain ⟨now, -, hx⟩ := h.job job t s x
      rw [hx]
      exact Job.execute_database fun batch hb => hc batch t (by rw [hb])
    · rw [h.other c s x fun job t he => hjob ⟨job, t, he⟩]

/-! ## Persisting a batch -/

namespace Writer

theorem keeps_taskDone (J : τ → Prop) : Prog.Keeps env J taskDone := by
  intro s x hx
  unfold taskDone
  cases s.queue.taskDone <;> exact hx

theorem keeps_tasksDone (J : τ → Prop) (n : ℕ) : Prog.Keeps env J (tasksDone n) := by
  induction n with
  | zero => exact Prog.keeps_pure ()
  | succ n ih => exact Prog.keeps_bind (keeps_taskDone J) fun _ => ih

theorem keeps_ackBatch (J : τ → Prop) (n : ℕ) (v : Verdict) : Prog.Keeps env J (ackBatch n v) :=
  Prog.keeps_bind (Prog.keeps_modify _) fun _ => keeps_tasksDone J n

theorem exec_fetchDue {s : WriterState} {x : τ} {limit : ℕ} {t : ℚ} {entries : List SpoolEntry}
    (hfetch : (env (.toThread (.fetchDue limit) t) s x).1 = .ok entries) :
    ((Prog.attempt (toThread (.fetchDue limit) t)) s).exec env x =
      (.ok (.ok entries), (env (.toThread (.fetchDue limit) t) s x).2) := by
  have hawait : ((toThread (.fetchDue limit) t) s).exec env x =
      (.ok entries, (env (.toThread (.fetchDue limit) t) s x).2) := Prod.ext hfetch rfl
  rw [exec_attempt, hawait]

end Writer

variable (hdb : env.Reachable files)
include hdb

namespace Writer
variable (cfg : WriterConfig) {batch : List WorkerPollResult} (s : WriterState) {x : τ}

theorem exec_persistBatch_ok {n : ℕ} {db : Database}
    (h : savePollResults batch (files x).database = .ok (n, db)) :
    ∃ s' x', ((persistBatch cfg batch) s).exec env x = (.ok true, s', x') ∧
      files x' = { files x with database := db } := by
  obtain ⟨hr, hx⟩ := hdb.save batch cfg.storageTimeoutS s x
  simp only [Stores.save, h, jobOutcome] at hr hx
  have hsave : ((saveBatch cfg batch) s).exec env x =
      (.ok n, (env (.toThread (.savePollResults batch) cfg.storageTimeoutS) s x).2) :=
    Prod.ext hr rfl
  obtain ⟨o, hretry⟩ : ∃ o, ((runWithRetry (saveBatch cfg batch) cfg.retryPolicy sleep
      (fun _ => defaultRandom) recordRetry) s).exec env x = (.ok (n, o), _, _) :=
    exec_runWithRetry_ok hsave
  rw [persistBatch, exec_bind_of_ok (a := .ok (n, o)) (by rw [exec_attempt, hretry])]
  exact ⟨_, _, rfl, hx⟩

theorem exec_persistBatch_error
    (h : ¬ ∃ n db, savePollResults batch (files x).database = .ok (n, db)) :
    ∃ s' x', ((persistBatch cfg batch) s).exec env x = (.ok false, s', x') ∧
      (files x').database = (files x).database := by
  obtain ⟨e, s₁, x₁, hretry, hx₁⟩ : ∃ e s₁ x₁, ((runWithRetry (saveBatch cfg batch) cfg.retryPolicy sleep
      (fun _ => defaultRandom) recordRetry) s).exec env x = (.error (.error e), s₁, x₁) ∧
        (files x₁).database = (files x).database := by
    refine exec_runWithRetry_error (fun s₁ x₁ hx₁ => ?_) (fun d s₁ x₁ hx₁ => ?_) rfl
    · obtain ⟨hr, hx⟩ := hdb.save batch cfg.storageTimeoutS s₁ x₁
      cases hs : savePollResults batch (files x₁).database with
      | ok p => exact absurd ⟨p.1, p.2, hx₁ ▸ hs⟩ h
      | error e =>
        simp only [Stores.save, hs, jobOutcome] at hr hx
        exact ⟨e, _, _, Prod.ext hr rfl, by rw [hx, hx₁]⟩
    · refine ⟨_, _, Prod.ext (hdb.sleep d s₁ x₁) rfl, ?_⟩
      exact (hdb.other _ _ _ (by rintro batch t ⟨⟩)).trans hx₁
  rw [persistBatch, exec_bind_of_ok (a := .error e) (by rw [exec_attempt, hretry])]
  exact ⟨_, x₁, rfl, hx₁⟩

end Writer

/-- The round has made one transaction of its batch, or none. -/
def Transacts (batch : List WorkerPollResult) (db db' : Database) : Prop :=
  (∃ n, savePollResults batch db = .ok (n, db')) ∨
    (¬ ∃ n db'', savePollResults batch db = .ok (n, db'')) ∧ db' = db

namespace Writer
variable {cfg : WriterConfig} {s : WriterState} {x : τ}

/-- What follows the transaction of a round does not touch the main database. -/
theorem transacts_of_keeps {α : Type} {batch : List WorkerPollResult} {rest : Bool → WriterProg α}
    (hrest : ∀ b db, Prog.Keeps env (fun x => (files x).database = db) (rest b)) :
    Transacts batch (files x).database
      (files (((persistBatch cfg batch >>= rest) s).exec env x).2.2).database := by
  by_cases h : ∃ n db, savePollResults batch (files x).database = .ok (n, db)
  · obtain ⟨n, db, h⟩ := h
    obtain ⟨s', x', hexec, hx'⟩ := exec_persistBatch_ok hdb cfg s h
    rw [exec_bind_of_ok hexec]
    refine .inl ⟨n, ?_⟩
    have hdb' : (files x').database = db := by rw [hx']
    rw [hrest true db s' x' hdb', h]
  · obtain ⟨s', x', hexec, hx'⟩ := exec_persistBatch_error hdb cfg s h
    rw [exec_bind_of_ok hexec]
    exact .inr ⟨h, hrest false _ s' x' hx'⟩

/-- A job that is no save, with what the writer does with its result. -/
theorem keeps_job {α : Type} {job : Job} {t : ℚ} {db : Database}
    {rest : Except PyError job.Res → WriterProg α} (hjob : ∀ batch, job ≠ .savePollResults batch)
    (hrest : ∀ r, Prog.Keeps env (fun x => (files x).database = db) (rest r)) :
    Prog.Keeps env (fun x => (files x).database = db) (Prog.attempt (toThread job t) >>= rest) := by
  refine Prog.keeps_bind (Prog.keeps_attempt (Prog.keeps_await fun s x hx => ?_)) hrest
  refine (hdb.other _ s x ?_).trans hx
  intro batch t' hc
  cases hc
  exact hjob batch rfl

theorem keeps_spoolBatch (batch : List WorkerPollResult) (db : Database) :
    Prog.Keeps env (fun x => (files x).database = db) (spoolBatch cfg batch) := by
  unfold spoolBatch
  split_ifs
  · refine keeps_job hdb nofun ?_
    rintro (e | inserted)
    · exact Prog.keeps_bind (Prog.keeps_modify _) fun _ =>
        Prog.keeps_bind (Prog.keeps_modify _) fun _ => Prog.keeps_pure false
    · exact Prog.keeps_bind (Prog.keeps_modify _) fun _ => Prog.keeps_pure true
  · exact Prog.keeps_pure false

theorem keeps_markReplayed (entries : List SpoolEntry) (db : Database) :
    Prog.Keeps env (fun x => (files x).database = db) (markReplayed cfg entries) := by
  refine keeps_job hdb nofun ?_
  rintro (e | n) <;> exact Prog.keeps_modify _

theorem keeps_markFailed (entries : List SpoolEntry) (db : Database) :
    Prog.Keeps env (fun x => (files x).database = db) (markFailed cfg entries) := by
  refine keeps_job hdb nofun ?_
  rintro (e | n) <;> exact Prog.keeps_modify _

/-- A flush makes one transaction of the pending batch. -/
theorem flushPending_transacts : Transacts s.pendingBatch (files x).database
    (files (((flushPending cfg) s).exec env x).2.2).database := by
  rw [flushPending, exec_bind_of_ok (show ((Prog.get : WriterProg WriterState) s).exec env x =
    (.ok s, s, x) from rfl)]
  simp only
  split_ifs with he
  · rw [List.isEmpty_iff.1 he]
    exact .inl ⟨0, rfl⟩
  refine transacts_of_keeps hdb ?_
  rintro (_ | _) db
  · refine Prog.keeps_bind (keeps_spoolBatch hdb _ db) ?_
    rintro (_ | _) <;>
      exact Prog.keeps_bind (Prog.keeps_modify _) fun _ => keeps_ackBatch _ _ _
  · exact Prog.keeps_bind (Prog.keeps_modify _) fun _ => keeps_ackBatch _ _ _

/-- A replay makes one transaction of the entries that it fetches. -/
theorem replaySpoolOnce_transacts (hspool : cfg.hasSpool = true) {entries : List SpoolEntry}
    (hfetch : (env (.toThread (.fetchDue cfg.spoolReplayBatchSize) cfg.spoolTimeoutS) s x).1 =
      .ok entries) :
    Transacts (entries.map SpoolEntry.pollResult) (files x).database
      (files (((replaySpoolOnce cfg) s).exec env x).2.2).database := by
  have hkept := hdb.other (.toThread (.fetchDue cfg.spoolReplayBatchSize) cfg.spoolTimeoutS) s x nofun
  rw [replaySpoolOnce, if_pos hspool, exec_bind_of_ok (exec_fetchDue hfetch)]
  simp only
  rw [← hkept]
  split_ifs with he
  · rw [List.isEmpty_iff.1 he]
    exact .inl ⟨0, rfl⟩
  refine transacts_of_keeps hdb ?_
  rintro (_ | _) db
  · exact Prog.keeps_bind (keeps_markFailed hdb entries db) fun _ => Prog.keeps_pure true
  · exact Prog.keeps_bind (keeps_markReplayed hdb entries db) fun _ => Prog.keeps_pure true

end Writer

end

/-! ## What a round does to the members of its batch -/

/-- What a round does to its batch. -/
structure Persists (batch : List WorkerPollResult) (db db' : Database) : Prop where
  recorded : (∀ r ∈ batch, Accepts db r) → ∀ r ∈ batch, Recorded db' r
  stored : SameContent (· ∈ batch) → DatabaseAgrees (· ∈ batch) db → (∀ r ∈ batch, Accepts db r) →
    ∀ r ∈ batch, Stored db' r
  rolledBack : SameContent (· ∈ batch) → ∀ r ∈ batch, ¬ Accepts db r → db' = db

theorem persists_of_transacts {batch : List WorkerPollResult} {db db' : Database}
    (h : Transacts batch db db') : Persists batch db db' := by
  rcases h with ⟨n, h⟩ | ⟨h, rfl⟩
  · refine ⟨fun _ => recorded_of_save h, fun hsame hagree _ => ?_, fun hsame r hr hbad => ?_⟩
    · exact (stored_of_save hsame hagree (fun _ hr => hr) h).1
    · exact absurd (accepts_of_savePollResults hsame ⟨n, db', h⟩ r hr) hbad
  · refine ⟨fun hall => ?_, fun _ _ hall => ?_, fun _ _ _ _ => rfl⟩
    · exact absurd (savePollResults_of_accepts hall) h
    · exact absurd (savePollResults_of_accepts hall) h

/-! ## The acceptable entries of the spool -/

instance (db : Database) (r : WorkerPollResult) : Decidable (Accepts db r) :=
  decidable_of_iff ((savePollResults [r] db).isOk = true) <| by
    unfold Accepts
    cases savePollResults [r] db with
    | error e => exact iff_of_false nofun (by rintro ⟨o, h⟩; cases h)
    | ok o => exact iff_of_true rfl ⟨o, rfl⟩

/-- The row has an entry, and the repository accepts it on its own. -/
def SpoolRow.Acceptable (db : Database) (row : SpoolRow) : Prop :=
  ∃ e, spoolEntry row = .ok e ∧ Accepts db e.pollResult

instance (db : Database) (row : SpoolRow) : Decidable (row.Acceptable db) :=
  match h : spoolEntry row with
  | .ok e => decidable_of_iff (Accepts db e.pollResult) ⟨fun ha => ⟨e, h, ha⟩, by
      rintro ⟨e', h', ha⟩
      rw [h] at h'
      cases h'
      exact ha⟩
  | .error x => isFalse (by rintro ⟨e, h', -⟩; rw [h] at h'; cases h')

/-- The executions of the acceptable entries that are left in the spool. -/
def Stores.acceptable (st : Stores) : Finset String :=
  ((st.spool.rows.filter fun row => row.Acceptable st.database).map SpoolRow.executionId).toFinset

theorem Stores.mem_acceptable {st : Stores} {id : String} :
    id ∈ st.acceptable ↔ ∃ row ∈ st.spool.rows, row.Acceptable st.database ∧ row.executionId = id := by
  simp only [acceptable, List.mem_toFinset, List.mem_map, List.mem_filter, decide_eq_true_eq, and_assoc]

/-- A transaction makes no other poll result acceptable. -/
theorem accepts_before_save {P : WorkerPollResult → Prop} (hP : SameContent P) {db db' : Database}
    {rs : List WorkerPollResult} {n : ℕ} (hrs : ∀ r ∈ rs, P r)
    (h : savePollResults rs db = .ok (n, db')) {r : WorkerPollResult} (hr : P r) (ha : Accepts db' r) :
    Accepts db r := by
  obtain ⟨-, hall⟩ := savePollResults_accepts.1 ⟨n, db', h⟩
  obtain ⟨-, rfl, -⟩ := savePollResults_ok h
  obtain ⟨hs, hputs⟩ := accepts_iff.1 ha
  rw [Put.actAll_config] at hs hputs
  refine accepts_iff.2 ⟨hs, fun p hp => ?_⟩
  have hmem : ∀ q ∈ rs.flatMap (puts db.config) ++ [p], ∃ r', P r' ∧ q ∈ puts db.config r' := by
    intro q hq
    rcases List.mem_append.1 hq with hq | hq
    · obtain ⟨r', hr', hq⟩ := List.mem_flatMap.1 hq
      exact ⟨r', hrs r' hr', hq⟩
    · rw [List.mem_singleton.1 hq]
      exact ⟨r, hr, hp⟩
  refine forall_of_allowedAll ?_ hmem (allowedAll_append.2 ⟨hall, hputs p hp, trivial⟩) p
    (List.mem_append_right _ List.mem_cons_self)
  rintro a b s ⟨ra, hra, ha⟩ ⟨rb, hrb, hb⟩
  exact Put.allowed_of_apply (puts_consistent hP hra hrb ha hb)

section
variable {τ : Type} {env : Answers τ} {files : τ → Stores} {maxItems : ℕ+} {cfg : WriterConfig}
  {s : WriterState} {x : τ} (henv : env.Serves files maxItems)
include henv

/-- A fetch gives the entries of rows, and changes nothing. -/
theorem fetchDue_served {limit : ℕ} {t : ℚ} {entries : List SpoolEntry}
    (hfetch : (env (.toThread (.fetchDue limit) t) s x).1 = .ok entries) :
    files (env (.toThread (.fetchDue limit) t) s x).2.2 = files x ∧
      ∀ e ∈ entries, ∃ row ∈ (files x).spool.rows, spoolEntry row = .ok e := by
  obtain ⟨now, hr, hx⟩ := henv.job (.fetchDue limit) t s x
  refine ⟨hx, fun e he => ?_⟩
  rw [hr] at hfetch
  cases hd : ((files x).handle maxItems).fetchDue limit now with
  | error e => simp only [Job.execute, hd, jobOutcome] at hfetch; cases hfetch
  | ok es =>
    simp only [Job.execute, hd, jobOutcome] at hfetch
    cases hfetch
    obtain ⟨row, hrow, hentry⟩ := mem_of_mapM_spoolEntry (DurableSqliteSpool.mapM_of_fetchDue hd) he
    exact ⟨row, (SpoolTable.mem_of_mem_dueRows hrow).1, hentry⟩

/-- `mark_replayed` takes its entries out of the spool. -/
theorem markReplayed_served (cfg : WriterConfig) (s : WriterState) (x : τ) (entries : List SpoolEntry) :
    ∃ s' x', ((Writer.markReplayed cfg entries) s).exec env x = (.ok (), s', x') ∧
      (files x').database = (files x).database ∧
      ∀ row, row ∈ (files x').spool.rows ↔
        row ∈ (files x).spool.rows ∧ row.executionId ∉ entries.map SpoolEntry.executionId := by
  set ids := entries.map SpoolEntry.executionId with hids
  obtain ⟨now, hr, hx⟩ := henv.job (.markReplayed ids) cfg.spoolTimeoutS s x
  obtain ⟨n, hn⟩ : ∃ n, (((files x).handle maxItems).markReplayed ids).1 = .ok n := by
    unfold DurableSqliteSpool.markReplayed
    split_ifs <;> exact ⟨_, rfl⟩
  simp only [Job.execute, hn, jobOutcome] at hr
  have hcall : ((Writer.toThread (.markReplayed ids) cfg.spoolTimeoutS) s).exec env x =
      (.ok n, (env (.toThread (.markReplayed ids) cfg.spoolTimeoutS) s x).2) := Prod.ext hr rfl
  rw [Writer.markReplayed, exec_bind_of_ok (a := .ok n) (by rw [exec_attempt, hcall])]
  refine ⟨_, _, rfl, by rw [hx]; rfl, fun row => ?_⟩
  rw [hx]
  exact DurableSqliteSpool.mem_markReplayed

/-- **A replay of acceptable entries makes progress.** -/
theorem replaySpoolOnce_progress {P : WorkerPollResult → Prop} (hP : SameContent P)
    (hst : (files x).Sound P) (hspool : cfg.hasSpool = true) {entries : List SpoolEntry}
    (hfetch : (env (.toThread (.fetchDue cfg.spoolReplayBatchSize) cfg.spoolTimeoutS) s x).1 =
      .ok entries) (hne : entries ≠ [])
    (hall : ∀ e ∈ entries, Accepts (files x).database e.pollResult) :
    (files (((Writer.replaySpoolOnce cfg) s).exec env x).2.2).acceptable ⊂ (files x).acceptable := by
  obtain ⟨hx₁, hrows⟩ := fetchDue_served henv hfetch
  have hin : ∀ e ∈ entries, P e.pollResult := by
    intro e he
    obtain ⟨row, hrow, hentry⟩ := hrows e he
    obtain ⟨r, hr, hh⟩ := hst.rows row hrow
    rw [(spoolEntry_of_holds hh hentry).2]
    exact hr
  have hbatch : ∀ r ∈ entries.map SpoolEntry.pollResult, P r ∧ Accepts (files x).database r := by
    intro r hr
    obtain ⟨e, he, rfl⟩ := List.mem_map.1 hr
    exact ⟨hin e he, hall e he⟩
  obtain ⟨n, db, hsave⟩ := savePollResults_of_accepts fun r hr => (hbatch r hr).2
  rw [← hx₁] at hsave
  obtain ⟨s₂, x₂, hpersist, hx₂⟩ := Writer.exec_persistBatch_ok henv.reachable cfg _ hsave
  obtain ⟨s₃, x₃, hmark, hdb₃, hspool₃⟩ := markReplayed_served henv cfg s₂ x₂ entries
  rw [Writer.replaySpoolOnce, if_pos hspool, exec_bind_of_ok (Writer.exec_fetchDue hfetch)]
  simp only [List.isEmpty_iff, hne, if_false]
  rw [exec_bind_of_ok hpersist]
  simp only [if_true]
  rw [exec_bind_of_ok hmark]
  show (files x₃).acceptable ⊂ (files x).acceptable
  rw [hx₁] at hsave hx₂
  simp only [hx₂] at hdb₃ hspool₃
  rw [Finset.ssubset_iff_of_subset]
  · -- the first entry is gone
    obtain ⟨e, he⟩ := List.exists_mem_of_ne_nil _ hne
    obtain ⟨row, hrow, hentry⟩ := hrows e he
    refine ⟨row.executionId, Stores.mem_acceptable.2 ⟨row, hrow, ⟨e, hentry, hall e he⟩, rfl⟩, ?_⟩
    rintro hleft
    obtain ⟨row', hrow', -, hid⟩ := Stores.mem_acceptable.1 hleft
    refine ((hspool₃ row').1 hrow').2 (List.mem_map.2 ⟨e, he, ?_⟩)
    obtain ⟨r, hr, hh⟩ := hst.rows row hrow
    rw [hid, hh.1, (spoolEntry_of_holds hh hentry).1]
  · intro id hid
    obtain ⟨row, hrow, ⟨e, hentry, ha⟩, rfl⟩ := Stores.mem_acceptable.1 hid
    have hrow' := ((hspool₃ row).1 hrow).1
    refine Stores.mem_acceptable.2 ⟨row, hrow', ⟨e, hentry, ?_⟩, rfl⟩
    obtain ⟨r, hr, hh⟩ := hst.rows row hrow'
    rw [hdb₃] at ha
    rw [(spoolEntry_of_holds hh hentry).2] at ha ⊢
    exact accepts_before_save hP (fun r hr => (hbatch r hr).1) hsave hr ha

end

/-- **A batch is persisted if each of its poll results is accepted on its own, and
    rolled back if one is rejected.**  So a replay round that fetches acceptable
    entries only, and takes them out of the spool, leaves fewer of them. -/
theorem bad_result_rolls_back_batch {τ : Type} {env : Answers τ} {files : τ → Stores}
    (hdb : env.Reachable files) (cfg : WriterConfig) (s : WriterState) (x : τ) :
    Persists s.pendingBatch (files x).database
        (files (((Writer.flushPending cfg) s).exec env x).2.2).database ∧
      ∀ entries, cfg.hasSpool = true →
        (env (.toThread (.fetchDue cfg.spoolReplayBatchSize) cfg.spoolTimeoutS) s x).1 = .ok entries →
        Persists (entries.map SpoolEntry.pollResult) (files x).database
          (files (((Writer.replaySpoolOnce cfg) s).exec env x).2.2).database ∧
        ∀ (maxItems : ℕ+) (P : WorkerPollResult → Prop), env.Serves files maxItems → SameContent P →
          (files x).Sound P → entries ≠ [] →
          (∀ e ∈ entries, Accepts (files x).database e.pollResult) →
          (files (((Writer.replaySpoolOnce cfg) s).exec env x).2.2).acceptable.card <
            (files x).acceptable.card := by
  refine ⟨persists_of_transacts (Writer.flushPending_transacts hdb), ?_⟩
  intro entries hspool hfetch
  refine ⟨persists_of_transacts (Writer.replaySpoolOnce_transacts hdb hspool hfetch), ?_⟩
  intro maxItems P henv hP hst hne hall
  exact Finset.card_lt_card (replaySpoolOnce_progress henv hP hst hspool hfetch hne hall)

/-! ## A rejected poll result beside a good one -/

/-- The limit of the spool in the runs below. -/
def testMaxItems : ℕ+ := 8

/-- Every job is executed. -/
def serve : Answers Stores
  | .wait _, s, st => (.ok false, s, st)
  | .gather _, s, st => (.ok (), s, st)
  | .sleep _, s, st => (.ok (), s, st)
  | .toThread job _, s, st =>
    (jobOutcome (job.execute testMaxItems timestamp st).1, s, (job.execute testMaxItems timestamp st).2)

theorem serve_serves : serve.Serves id testMaxItems where
  job _ _ _ _ := ⟨timestamp, rfl, rfl⟩
  other c s x hc := by
    cases c with
    | toThread job t => exact absurd rfl (hc job t)
    | _ => rfl
  sleep _ _ _ := rfl

/-- Files with the entries of the poll results in the spool. -/
def replayStores (rs : List WorkerPollResult) (h : (rs.map WorkerPollResult.executionId).Nodup) :
    Stores where
  database := testDatabase
  spool := ⟨rs.map (spoolRow timestamp), nodup_spoolRow h⟩
  appended := rs

/-- An integer that SQLite has no column for. -/
def badItem : WorkerPollResult := makePollResult pollTwo (.integer (2 ^ 63))

/-- A writer of batches of two items. -/
def pairConfig : WriterConfig :=
  { testConfig true with
    batchSize := 2
    spoolReplayBatchSize := 2
    batchSize_pos := Nat.two_pos
    replayBatchSize_pos := Nat.two_pos }

/-- A poll result with an execution of its own. -/
def otherItem : WorkerPollResult := makePollResult pollTwo (.boolean true)

theorem sameContent_pair : SameContent (· ∈ [testItem, otherItem]) := by
  have hne : testItem.executionId ≠ otherItem.executionId := by decide +kernel
  intro r r' hr hr' hid
  simp only [List.mem_cons, List.not_mem_nil, or_false] at hr hr'
  rcases hr with rfl | rfl <;> rcases hr' with rfl | rfl
  · rfl
  · exact absurd hid hne
  · exact absurd hid.symm hne
  · rfl

theorem nodup_pair : ([testItem, otherItem].map WorkerPollResult.executionId).Nodup := by
  decide +kernel

theorem nodup_mixed : ([testItem, badItem].map WorkerPollResult.executionId).Nodup := by
  decide +kernel

theorem sound_replayStores {P : WorkerPollResult → Prop} {rs : List WorkerPollResult}
    (h : (rs.map WorkerPollResult.executionId).Nodup) (hrs : ∀ r ∈ rs, P r) :
    (replayStores rs h).Sound P := by
  refine ⟨databaseAgrees_testDatabase _, fun row hrow => ?_, fun r hr => ?_⟩
  · obtain ⟨r, hr, rfl⟩ := List.mem_map.1 hrow
    exact ⟨r, hrs r hr, SpoolRow.holds_spoolRow _ _⟩
  · exact ⟨hrs r hr, .inl ⟨_, List.mem_map_of_mem hr, SpoolRow.holds_spoolRow _ _⟩⟩

theorem exists_fetched {a : Outcome PyError (List SpoolEntry)} {rs : List WorkerPollResult}
    (h : a.toOption.map (List.map SpoolEntry.pollResult) = some rs) :
    ∃ entries, a = .ok entries ∧ entries.map SpoolEntry.pollResult = rs := by
  cases a with
  | error e => cases h
  | ok entries => exact ⟨entries, rfl, Option.some.inj h⟩

/-- A flush and a replay of two acceptable poll results, and a replay with a rejected one. -/
theorem bad_result_rolls_back_batch_served :
    let s := { testState with pendingBatch := [testItem, otherItem] }
    let good := replayStores [testItem, otherItem] nodup_pair
    let mixed := replayStores [testItem, badItem] nodup_mixed
    let flushed := (((Writer.flushPending pairConfig) s).exec serve good).2.2
    let replayed := (((Writer.replaySpoolOnce pairConfig) testState).exec serve good).2.2
    let rejected := (((Writer.replaySpoolOnce pairConfig) testState).exec serve mixed).2.2
    (∀ r ∈ [testItem, otherItem], Recorded flushed.database r ∧ Recorded replayed.database r) ∧
      replayed.acceptable.card < good.acceptable.card ∧ rejected.database = mixed.database := by
  intro s good mixed flushed replayed rejected
  have haccepts : ∀ r ∈ [testItem, otherItem], Accepts good.database r := by
    rw [List.forall_mem_cons, List.forall_mem_singleton]
    exact ⟨by decide +kernel, by decide +kernel⟩
  have hrejects : ¬ Accepts mixed.database badItem := by decide +kernel
  have hmixed : SameContent (· ∈ [testItem, badItem]) := by
    have hne : testItem.executionId ≠ badItem.executionId := by decide +kernel
    intro r r' hr hr' hid
    simp only [List.mem_cons, List.not_mem_nil, or_false] at hr hr'
    rcases hr with rfl | rfl <;> rcases hr' with rfl | rfl
    · rfl
    · exact absurd hid hne
    · exact absurd hid.symm hne
    · rfl
  obtain ⟨entries, hfetch, hentries⟩ : ∃ entries,
      (serve (.toThread (.fetchDue 2) 1) testState good).1 = .ok entries ∧
        entries.map SpoolEntry.pollResult = [testItem, otherItem] :=
    exists_fetched (by decide +kernel)
  obtain ⟨entries', hfetch', hentries'⟩ : ∃ entries,
      (serve (.toThread (.fetchDue 2) 1) testState mixed).1 = .ok entries ∧
        entries.map SpoolEntry.pollResult = [testItem, badItem] :=
    exists_fetched (by decide +kernel)
  have hflushes : Persists [testItem, otherItem] good.database flushed.database :=
    (bad_result_rolls_back_batch serve_serves.reachable pairConfig s good).1
  obtain ⟨hreplays, hprogress⟩ :=
    (bad_result_rolls_back_batch serve_serves.reachable pairConfig testState good).2 _ rfl hfetch
  obtain ⟨hrolls, -⟩ :=
    (bad_result_rolls_back_batch serve_serves.reachable pairConfig testState mixed).2 _ rfl hfetch'
  rw [hentries] at hreplays
  rw [hentries'] at hrolls
  have hreplayed : Persists [testItem, otherItem] good.database replayed.database := hreplays
  have hrejected : Persists [testItem, badItem] mixed.database rejected.database := hrolls
  refine ⟨fun r hr => ⟨hflushes.recorded haccepts r hr, hreplayed.recorded haccepts r hr⟩, ?_,
    hrejected.rolledBack hmixed badItem (List.mem_cons_of_mem _ List.mem_cons_self) hrejects⟩
  refine hprogress testMaxItems _ serve_serves sameContent_pair
    (sound_replayStores nodup_pair fun _ hr => hr) ?_ fun e he => haccepts _ ?_
  · rintro rfl
    cases hentries
  · rw [← hentries]
    exact List.mem_map_of_mem he

/-- One rejected poll result keeps a good one out of the database, in the flush and
    in the replay. -/
theorem bad_result_blocks_good_one :
    let s := { testState with pendingBatch := [testItem, badItem] }
    let st := replayStores [testItem, badItem] nodup_mixed
    let flushed := (((Writer.flushPending pairConfig) s).exec serve st).2.2
    let replayed := (((Writer.replaySpoolOnce pairConfig) testState).exec serve st).2.2
    serve.Reachable id ∧ Accepts st.database testItem ∧ ¬ Accepts st.database badItem ∧
      ¬ Recorded flushed.database testItem ∧ ¬ Recorded replayed.database testItem ∧
      replayed.acceptable.card = st.acceptable.card := by
  intro s st flushed replayed
  have hflushed : testItem.executionId ∉ flushed.database.pollExecutions := by decide +kernel
  have hreplayed : testItem.executionId ∉ replayed.database.pollExecutions := by decide +kernel
  have hacceptable : replayed.acceptable.card = st.acceptable.card := by decide +kernel
  clear_value flushed replayed
  refine ⟨serve_serves.reachable, by decide +kernel, by decide +kernel, ?_, ?_, hacceptable⟩
  · exact fun h => hflushed h.execution
  · exact fun h => hreplayed h.execution

end PlcGateway
