/-
  When the drain ends.

  The drain ends if again and again as many replays settle what they fetch as there can be
  entries (`drain_ends_of_settled`).  Where too few do, it never takes an item
  (`drain_never_takes`): on a full disk one due entry is enough.
-/
import PlcGateway.Persistence.Settling

namespace PlcGateway

open Coroutine Calendar Fallible

/-! ## Stretches of rounds -/

section
variable {τ : Type} (cfg : WriterConfig) (files : τ → Stores) (late : τ → List Job)
  (maxItems : ℕ+) (env : ℕ → Answers τ)

/-- The rounds from `a` to before `b` make no entry due by `u` that was not, and `k` of them
    settle by `u` what they fetch. -/
inductive Stretch (u : DateTime) (a : ℕ) : ℕ → ℕ → Prop
  | begins : Stretch u a a 0
  | settles {b k : ℕ} : Stretch u a b k → (env b).Within files late maxItems u →
      (env b).Settles files late maxItems cfg u → Stretch u a (b + 1) (k + 1)
  | goes {b k : ℕ} : Stretch u a b k → (env b).Within files late maxItems u → Stretch u a (b + 1) k

/-- After the round `m` a round finds nothing, or begins when `k` rounds have settled what
    they fetched. -/
def SettlesAfter (k m : ℕ) : Prop :=
  (∃ n, m ≤ n ∧ (env n).FindsNothing) ∨
    ∃ a b u, m ≤ a ∧ Stretch cfg files late maxItems env u a b k ∧
      (env b).Within files late maxItems u

variable {cfg files late maxItems env} {s : WriterState} {x : τ}

/-- What goes on for ever is never about to stop. -/
theorem shouldStop_of_goes
    (hgoes : ∀ n, (drain cfg env s x n).1 = .ok true ∧
      Writer.DrainInv cfg (drain cfg env s x n).2.1) (n : ℕ) :
    (drain cfg env s x n).2.1.shouldStop = false := by
  refine Bool.eq_false_iff.2 fun hstop => ?_
  have hempty := hstop
  simp only [WriterState.shouldStop, Bool.and_eq_true, beq_iff_eq, ReadingQueue.size,
    List.length_eq_zero_iff, List.isEmpty_iff] at hempty
  have hnext := (hgoes (n + 1)).1
  rw [drain_succ (hgoes n).1, Writer.exec_runIteration_stops hstop hempty.2] at hnext
  cases hnext

section
variable (hd : ∀ n, (env n).Drains)
  (hgoes : ∀ n, (drain cfg env s x n).1 = .ok true ∧
    Writer.DrainInv cfg (drain cfg env s x n).2.1)
include hd hgoes

theorem held_drain (hfiles : ∀ n, (env n).Attempts files late maxItems fun _ _ => True) (n : ℕ) :
    let z := drain cfg env s x n
    Writer.held z.2.1 (late z.2.2) (files z.2.2) ≤ Writer.held s (late x) (files x) := by
  induction n with
  | zero => exact le_rfl
  | succ n ih =>
    have hround := Writer.exec_runIteration_held (x := (drain cfg env s x n).2.2) (hd n) (hfiles n)
      (hgoes n).2 (shouldStop_of_goes hgoes n)
    rw [drain_succ (hgoes n).1]
    exact hround.trans ih

/-- While every round replays, the rounds that settle their entries use up those that are due. -/
theorem Stretch.dueLeft_add_le {m a b k : ℕ} {u : DateTime}
    (h : Stretch cfg files late maxItems env u a b k) (hma : m ≤ a)
    (hfinds : ∀ n, m ≤ n →
      Finds cfg (env n) (drain cfg env s x n).2.1 (drain cfg env s x n).2.2) :
    let y := (drain cfg env s x a).2.2
    let z := (drain cfg env s x b).2.2
    m ≤ b ∧ dueLeft [] u (late z) (files z) + k ≤ dueLeft [] u (late y) (files y) := by
  have hround : ∀ n, m ≤ n → (env n).Within files late maxItems u →
      let y := (drain cfg env s x n).2.2
      let z := (drain cfg env s x (n + 1)).2.2
      dueLeft [] u (late z) (files z) ≤ dueLeft [] u (late y) (files y) ∧
        ((env n).Settles files late maxItems cfg u →
          dueLeft [] u (late z) (files z) < dueLeft [] u (late y) (files y)) := by
    intro n hn hwithin
    rw [drain_succ (hgoes n).1]
    exact (dueLeft_of_finds (hd n) hwithin (hgoes n).2 (shouldStop_of_goes hgoes n)
      (hfinds n hn)).2
  simp only at hround ⊢
  induction h with
  | begins => exact ⟨hma, le_rfl⟩
  | settles _ hwithin hsettles ih =>
    have hless := (hround _ ih.1 hwithin).2 hsettles
    exact ⟨ih.1.trans (Nat.le_succ _), by omega⟩
  | goes _ hwithin ih =>
    have hle := (hround _ ih.1 hwithin).1
    exact ⟨ih.1.trans (Nat.le_succ _), by omega⟩

end

/-- **When the drain ends.**  Once the writer was asked to stop and nothing more is put, the
    loop is left after finitely many rounds with the queue and the batch empty, if again and
    again a `fetch_due` returns no entries, or as many replays as there are entries and items
    settle what they fetch. -/
theorem drain_ends_of_settled {maxSize : ℕ} {y : Config WriterCalls WriterState PyError}
    (hrun : Writer.Run cfg (.empty maxSize) y) (hb : y.control = .boundary)
    (hstop : y.state.stopRequested = true) (hd : ∀ n, (env n).Drains)
    (hfiles : ∀ n, (env n).Attempts files late maxItems fun _ _ => True)
    (hsettles : cfg.hasSpool = true → cfg.spoolReplayBatchSize < 2 ^ 63 → ∀ m,
      SettlesAfter cfg files late maxItems env
        ((files x).spool.rows.length + owed (late x) + y.state.unsaved.length) m) :
    ∃ n, Drained (drain cfg env y.state x n) := by
  by_contra hnever
  obtain ⟨hgoes, m, hfinds⟩ := drain_ends_or_replays (drainInv_of_run hrun hb hstop) hd hnever
  have hbound : cfg.spoolReplayBatchSize < 2 ^ 63 := by
    obtain ⟨-, -, entries, -, hfetch⟩ := hfinds m le_rfl
    exact (hfiles m).limit_lt hfetch
  rcases hsettles (hfinds m le_rfl).1 hbound m with
    ⟨n, hn, hnothing⟩ | ⟨a, b, u, ha, hstretch, hwithin⟩
  · obtain ⟨-, -, entries, hne, hfetch⟩ := hfinds n hn
    exact hne (hnothing _ _ _ _ _ hfetch)
  · obtain ⟨hmb, hused⟩ := hstretch.dueLeft_add_le hd hgoes ha hfinds
    have hleft := (dueLeft_of_finds (hd b) hwithin (hgoes b).2 (shouldStop_of_goes hgoes b)
      (hfinds b hmb)).1
    have hheld := held_drain hd hgoes hfiles a
    have hrows : (files (drain cfg env y.state x a).2.2).spool.dueBut [] u ≤
        (files (drain cfg env y.state x a).2.2).spool.rows.length := SpoolTable.dueBut_le_length
    simp only [Writer.held, rowsLeft, dueLeft] at hheld hused hleft
    omega

end

/-! ## Entries that are never settled -/

/-- The entries are left as they are, or due by `u`. -/
inductive SpoolTable.SparedBy (u : DateTime) (ids : List String) (t : SpoolTable) :
    SpoolTable → Prop
  | kept : SparedBy u ids t t
  | postponed {next : DateTime} : next.toMicros ≤ u.toMicros →
      SparedBy u ids t (t.reschedule (datetimeToJson next) ids)

theorem SpoolTable.SparedBy.le_dueBy {t t' : SpoolTable} {ids : List String} {u : DateTime}
    (h : t.SparedBy u ids t') : t.dueBy u ≤ t'.dueBy u := by
  cases h with
  | kept => exact le_rfl
  | @postponed next hnext =>
    rw [dueBy, dueBut, dueBy, dueBut, reschedule, List.countP_map]
    refine List.countP_mono_left fun row _ hdue => ?_
    simp only [Function.comp_apply]
    split_ifs
    · exact decide_eq_true ⟨(isoformat_le_iff next u).2 hnext, List.not_mem_nil⟩
    · exact hdue

/-- The row can be read back. -/
def SpoolRow.Readable (row : SpoolRow) : Prop := ∃ e, spoolEntry row = .ok e

theorem SpoolTable.Replayed.readable {t t' : SpoolTable} {ids : List String}
    (h : t.Replayed ids t') (ht : ∀ row ∈ t.rows, row.Readable) :
    ∀ row ∈ t'.rows, row.Readable := by
  cases h with
  | kept => exact ht
  | deleted => exact fun row hrow => ht row (List.mem_filter.1 hrow).1
  | postponed next =>
    intro row' hrow'
    obtain ⟨row, hrow, rfl⟩ := List.mem_map.1 hrow'
    obtain ⟨e, he⟩ := ht row hrow
    split_ifs
    · obtain ⟨r, hr, -⟩ := bind_eq_ok_iff.1 he
      refine ⟨⟨row.executionId, r, row.retryCount + 1, next⟩, ?_⟩
      simp only [spoolEntry, hr, ok_bind, datetimeFromJson_toJson]
      rfl
    · exact ⟨e, he⟩

/-- A replay fetches entries while there are some that are due. -/
theorem fetchDue_of_dueBy {st : Stores} {limit : ℕ} (hpos : 0 < limit) (hbound : limit < 2 ^ 63)
    (maxItems : ℕ+) {now : DateTime} (hreadable : ∀ row ∈ st.spool.rows, row.Readable)
    (hdue : 0 < st.spool.dueBy now) :
    ∃ entries, (st.handle maxItems).fetchDue limit now = .ok entries ∧ entries ≠ [] ∧
      entries.length ≤ limit := by
  obtain ⟨entries, hentries⟩ := exists_mapM_eq_ok_iff.2 fun row
    (hrow : row ∈ st.spool.dueRows (datetimeToJson now) limit) =>
      hreadable row (SpoolTable.mem_of_mem_dueRows hrow).1
  have hlength : entries.length = (st.spool.dueRows (datetimeToJson now) limit).length := by
    rw [← List.length_map (f := SpoolEntry.executionId), executionIds_of_mapM hentries,
      List.length_map]
  refine ⟨entries, (DurableSqliteSpool.fetchDue_of_bound hpos hbound).trans hentries, ?_, ?_⟩
  · rintro rfl
    obtain ⟨row, hrow, hle⟩ := List.countP_pos_iff.1 hdue
    have hmem : row ∈ (st.spool.rows.filter fun row =>
        row.nextRetryAt ≤ datetimeToJson now).insertionSort SpoolRow.Before :=
      List.mem_insertionSort _ |>.2
        (List.mem_filter.2 ⟨hrow, decide_eq_true (of_decide_eq_true hle).1⟩)
    have hsome := List.length_pos_of_mem hmem
    rw [List.length_nil, SpoolTable.dueRows, List.length_take] at hlength
    omega
  · rw [hlength, SpoolTable.dueRows]
    exact List.length_take_le _ _

/-- What a replay fetches is spared: it is deleted in no case, and due by `u`. -/
structure Answers.Spares {τ : Type} (env : Answers τ) (files : τ → Stores) (cfg : WriterConfig)
    (u : DateTime) : Prop where
  replayed : (∀ batch t s x n, (env (.toThread (.savePollResults batch) t) s x).1 ≠ .ok n) ∨
    ∀ ids t s x, (files (env (.toThread (.markReplayed ids) t) s x).2.2).spool = (files x).spool
  failed : (∀ batch t s x, ∃ n, (env (.toThread (.savePollResults batch) t) s x).1 = .ok n) ∨
    ∀ ids t s x, (files x).spool.SparedBy u ids
      (files (env (.toThread (.markFailed ids cfg.spoolRetryDelayS) t) s x).2.2).spool

section
variable {τ : Type} {env : Answers τ} {files : τ → Stores} {maxItems : ℕ+}
  {p : DateTime → Job → Prop} {cfg : WriterConfig} {ids : List String} {x y : τ}

/-- To save a batch leaves the spool as it is, if no job is given up. -/
theorem Answers.Saving.spool_eq (h : env.Attempts files (fun _ => []) maxItems p)
    (hsaving : env.Saving x y) : (files y).spool = (files x).spool := by
  induction hsaving with
  | starts => rfl
  | @save y batch t s _ ih =>
    obtain ⟨r, hr, -⟩ := h.prompt (.savePollResults batch) t s y
    exact hr.save.trans ih
  | @sleep y d s _ ih => rw [(h.other (.sleep d) s y (by rintro job t ⟨⟩)).of_nil.2, ih]

theorem Answers.Marks.replayed_spool (h : env.Attempts files (fun _ => []) maxItems p)
    (hmarks : env.Marks cfg ids x y) : (files x).spool.Replayed ids (files y).spool := by
  cases hmarks with
  | replayed s =>
    obtain ⟨r, hr, -⟩ := h.prompt (.markReplayed ids) cfg.spoolTimeoutS s x
    exact hr.markReplayed
  | failed s =>
    obtain ⟨r, hr, -⟩ := h.prompt (.markFailed ids cfg.spoolRetryDelayS) cfg.spoolTimeoutS s x
    exact hr.markFailed

theorem Answers.Marks.sparedBy {u : DateTime} (h : env.Spares files cfg u)
    (hmarks : env.Marks cfg ids x y) : (files x).spool.SparedBy u ids (files y).spool := by
  cases hmarks with
  | replayed s hsaved =>
    obtain ⟨batch, t, s₀, x₀, n, hn⟩ := hsaved
    rw [h.replayed.resolve_left (fun hnever => hnever _ _ _ _ _ hn) ids cfg.spoolTimeoutS s x]
    exact .kept
  | failed s hfailed =>
    obtain ⟨batch, t, s₀, x₀, hn⟩ := hfailed
    exact h.failed.resolve_left (fun halways => (halways batch t s₀ x₀).elim hn) ids
      cfg.spoolTimeoutS s x

end

section
variable {τ : Type} (cfg : WriterConfig) (files : τ → Stores) (env : ℕ → Answers τ)

/-- All but `k` of the rounds before the round `n` spare by `u` what they fetch. -/
inductive Spared (u : DateTime) : ℕ → ℕ → Prop
  | begins : Spared u 0 0
  | spares {n k : ℕ} : Spared u n k → (env n).Spares files cfg u → Spared u (n + 1) k
  | goes {n k : ℕ} : Spared u n k → Spared u (n + 1) (k + 1)

variable {cfg files env} {maxItems : ℕ+} {s : WriterState} {x : τ}

/-- **When the drain never takes an item.**  A `fetch_due` that is executed in every round finds
    entries in each, if the rounds that do not spare what they fetch are too few to settle
    all that were due. -/
theorem drain_never_takes (hspool : cfg.hasSpool = true)
    (hbound : cfg.spoolReplayBatchSize < 2 ^ 63) (hd : ∀ n, (env n).Drains)
    (hfiles : ∀ n, (env n).Attempts files (fun _ => []) maxItems fun _ _ => True)
    {clock : ℕ → DateTime} (hserved : ∀ n s x,
      (env n (.toThread (.fetchDue cfg.spoolReplayBatchSize) cfg.spoolTimeoutS) s x).1 =
        jobOutcome (((files x).handle maxItems).fetchDue cfg.spoolReplayBatchSize (clock n)))
    (hinv : Writer.DrainInv cfg s) (hp : s.pendingBatch = []) (hitems : s.queue.items ≠ [])
    (hreadable : ∀ row ∈ (files x).spool.rows, row.Readable)
    (hspared : ∀ n, ∃ k, Spared cfg files env (clock n) n k ∧
      k * cfg.spoolReplayBatchSize < (files x).spool.dueBy (clock n)) (n : ℕ) :
    let z := drain cfg env s x n
    z.1 = .ok true ∧ Writer.DrainInv cfg z.2.1 ∧ z.2.1.pendingBatch = [] ∧
      z.2.1.queue.items = s.queue.items ∧ (∀ row ∈ (files z.2.2).spool.rows, row.Readable) ∧
      ∀ u k, Spared cfg files env u n k →
        (files x).spool.dueBy u ≤ (files z.2.2).spool.dueBy u + k * cfg.spoolReplayBatchSize := by
  induction n with
  | zero =>
    refine ⟨rfl, hinv, hp, rfl, hreadable, fun u k h => ?_⟩
    cases h with
    | begins => rw [Nat.zero_mul]; exact le_rfl
  | succ n ih =>
    obtain ⟨hok, hinv', hp', hitems', hreadable', hleft⟩ := ih
    set z := drain cfg env s x n
    have hgo : z.2.1.shouldStop = false := by
      refine Bool.eq_false_iff.2 fun hstop => hitems ?_
      simp only [WriterState.shouldStop, Bool.and_eq_true, beq_iff_eq, ReadingQueue.size,
        List.length_eq_zero_iff] at hstop
      rw [← hitems', hstop.1.2]
    have hdue : 0 < (files z.2.2).spool.dueBy (clock n) := by
      obtain ⟨k, hk, hfew⟩ := hspared n
      have := hleft _ k hk
      omega
    obtain ⟨entries, hentries, hne, hlimit⟩ :=
      fetchDue_of_dueBy cfg.replayBatchSize_pos hbound maxItems hreadable' hdue
    have hfetch := hserved n z.2.1 z.2.2
    rw [hentries] at hfetch
    have hfinds : Finds cfg (env n) z.2.1 z.2.2 := ⟨hspool, hp', entries, hne, hfetch⟩
    obtain ⟨entries', s', x₁, x', -, hfetch', hexec, hidle, hsaving, hmarks⟩ :=
      Writer.exec_runIteration_replays (hd n) hinv' hgo hfinds
    rw [hfetch] at hfetch'
    cases hfetch'
    obtain ⟨r, hr, -⟩ := (hfiles n).prompt (.fetchDue cfg.spoolReplayBatchSize)
      cfg.spoolTimeoutS z.2.1 z.2.2
    have hspool : (files x₁).spool = (files z.2.2).spool := by
      rw [hsaving.spool_eq (hfiles n), hr.fetchDue]
    have hreplayed := hmarks.replayed_spool (hfiles n)
    rw [hspool] at hreplayed
    rw [drain_succ hok, hexec]
    refine ⟨rfl, (Writer.drainInv_of_idle hinv' hidle).1, hidle.pendingBatch.trans hp',
      hidle.items.trans hitems', hreplayed.readable hreadable', fun u k h => ?_⟩
    cases h with
    | spares h hspares =>
      have hsparing := (hmarks.sparedBy hspares).le_dueBy
      rw [hspool] at hsparing
      exact (hleft u k h).trans (Nat.add_le_add_right hsparing _)
    | @goes _ k h =>
      have hless := hreplayed.le_dueBy u
      have hbefore := hleft u k h
      rw [List.length_map] at hless
      rw [Nat.succ_mul]
      simp only
      omega

end

/-! ## A database that cannot be reached -/

theorem Job.execute_markFailed {ids : List String} {delay : ℚ} (hdelay : 0 ≤ delay)
    (maxItems : ℕ+) {now next : DateTime}
    (hnext : now.addMicros (microsOfSeconds delay) = some next) (st : Stores) :
    ((Job.markFailed ids delay).execute maxItems now st).2.spool =
      st.spool.reschedule (datetimeToJson next) ids := by
  simp only [execute, DurableSqliteSpool.markFailed, if_neg (not_lt.2 hdelay), hnext]
  split_ifs with hempty
  · rw [List.isEmpty_iff.1 hempty, SpoolTable.reschedule]
    simp only [List.not_mem_nil, if_false, List.map_id']
    rfl
  · rfl

/-- The repository raises, and the spool works. -/
def offline : Answers Stores := .ofThreads fun
  | .savePollResults _, st => (.error (.operationalError "unable to open database file"), st)
  | job, st => job.execute testMaxItems timestamp st

theorem offline_job {job : Job} (h : ∀ batch, job ≠ .savePollResults batch) (t : ℚ)
    (s : WriterState) (st : Stores) : offline (.toThread job t) s st =
      (jobOutcome (job.execute testMaxItems timestamp st).1, s, (job.execute testMaxItems timestamp st).2) := by
  cases job with
  | savePollResults batch => exact absurd rfl (h batch)
  | _ => rfl

theorem offline_attempts (p : DateTime → Job → Prop) :
    offline.Attempts id (fun _ => []) testMaxItems p where
  job job t s st := by
    by_cases h : ∃ batch, job = .savePollResults batch
    · obtain ⟨batch, rfl⟩ := h
      exact ⟨_, [], st, .none _ _, .ends (.failed _), rfl⟩
    · rw [offline_job fun batch hb => h ⟨batch, hb⟩]
      exact ⟨_, [], st, .none _ _, .ends (.done timestamp), rfl⟩
  other c s st hc := by
    cases c with
    | toThread job t => exact absurd rfl (hc job t)
    | _ => exact .none _ _

theorem exists_addMicros {d : DateTime} {n : ℕ} (hn : 0 < n)
    (hend : d.toMicros + n < DateTime.endOfTime) :
    ∃ e, d.addMicros n = some e ∧ d.toMicros < e.toMicros := by
  rcases DateTime.addMicros_spec n d with ⟨e, he, hmicros⟩ | ⟨-, hlate⟩
  · exact ⟨e, he, by omega⟩
  · exact absurd hend (not_lt.2 hlate)

theorem offline_within : offline.Within id (fun _ => []) testMaxItems timestamp where
  attempts := offline_attempts _
  fetches limit t s st entries h := by
    rw [offline_job (by rintro batch ⟨⟩)] at h ⊢
    refine ⟨timestamp, le_rfl, ?_⟩
    cases hr : (st.handle testMaxItems).fetchDue limit timestamp with
    | error e =>
      rw [Job.execute, hr] at h
      cases h
    | ok entries' =>
      rw [Job.execute, hr] at h
      cases h
      exact hr

theorem offline_settles :
    offline.Settles id (fun _ => []) testMaxItems patientConfig timestamp where
  replayed := .inl fun batch t s st n => by rintro ⟨⟩
  failed := .inr fun ids t s st => by
    obtain ⟨next, hnext, hlater⟩ := exists_addMicros (d := timestamp)
      (n := microsOfSeconds patientConfig.spoolRetryDelayS) (by decide +kernel) (by decide +kernel)
    refine ⟨st, timestamp, next, hnext, hlater, .none _ _, ?_⟩
    rw [offline_job (by rintro batch ⟨⟩), id_eq,
      Job.execute_markFailed patientConfig.retryDelay_nonneg testMaxItems hnext st]

/-- The entry of an earlier outage in the spool. -/
def spooledStores : Stores := replayStores [otherItem] nodup_otherItem

theorem readable_spooledStores : ∀ row ∈ spooledStores.spool.rows, row.Readable := by
  intro row hrow
  obtain ⟨r, -, rfl⟩ := List.mem_map.1 hrow
  refine ⟨⟨r.executionId, r, 0, timestamp⟩, ?_⟩
  rw [spoolEntry, spoolRow, pollResultFromJson_toJson, ok_bind, datetimeFromJson_toJson]
  rfl

theorem due_spooledStores : 0 < spooledStores.spool.dueBy timestamp :=
  List.countP_pos_iff.2 ⟨_, List.mem_cons_self, decide_eq_true ⟨le_rfl, List.not_mem_nil⟩⟩

/-- The item of a stopped writer and the entry in the spool, while the database is out of reach:
    the entry is found, but postponed, and so the item is taken. -/
theorem drain_ends_of_settled_offline : Finds patientConfig offline stoppedState spooledStores ∧
    ∃ n, Drained (drain patientConfig (fun _ => offline) stoppedState spooledStores n) := by
  constructor
  · obtain ⟨entries, hentries, hne, -⟩ := fetchDue_of_dueBy patientConfig.replayBatchSize_pos
      (by decide) testMaxItems readable_spooledStores due_spooledStores
    refine ⟨rfl, rfl, entries, hne, ?_⟩
    rw [offline_job (by rintro batch ⟨⟩), Job.execute, hentries]
    rfl
  · refine drain_ends_of_settled run_stoppedState rfl rfl (fun _ => drains_ofThreads _)
      (fun _ => offline_attempts _) fun _ _ m =>
        .inr ⟨m, m + 2, timestamp, le_rfl, ?_, offline_within⟩
    exact (Stretch.begins.settles offline_within offline_settles).settles offline_within
      offline_settles

/-! ## A full disk -/

/-- The files can be read, but not written. -/
def diskFull : Answers Stores := .ofThreads fun
  | .fetchDue limit, st => (Job.fetchDue limit).execute testMaxItems timestamp st
  | _, st => (.error (.operationalError "database or disk is full"), st)

theorem diskFull_drains : diskFull.Drains := drains_ofThreads _

theorem diskFull_attempts (p : DateTime → Job → Prop) :
    diskFull.Attempts id (fun _ => []) testMaxItems p where
  job job t s st := by
    cases job with
    | fetchDue limit => exact ⟨_, [], st, .none _ _, .ends (.done timestamp), rfl⟩
    | _ => exact ⟨_, [], st, .none _ _, .ends (.failed _), rfl⟩
  other c s st hc := by
    cases c with
    | toThread job t => exact absurd rfl (hc job t)
    | _ => exact .none _ _

theorem diskFull_spares (cfg : WriterConfig) (u : DateTime) : diskFull.Spares id cfg u where
  replayed := .inr fun _ _ _ _ => rfl
  failed := .inr fun _ _ _ _ => .kept

/-- On a full disk, one due entry keeps the drain from ever taking its item. -/
theorem drain_never_ends : ∃ y : Config WriterCalls WriterState PyError,
    Writer.Run (testConfig true) (.empty 1) y ∧ y.control = .boundary ∧
      y.state.stopRequested = true ∧ diskFull.Drains ∧
      ∀ n, let z := drain (testConfig true) (fun _ => diskFull) y.state spooledStores n
        z.1 = .ok true ∧ z.2.1.queue.items = [testItem] ∧ ¬ Drained z := by
  refine ⟨_, run_stoppedState, rfl, rfl, diskFull_drains, fun n => ?_⟩
  have hinv : Writer.DrainInv (testConfig true) stoppedState :=
    drainInv_of_run run_stoppedState rfl rfl
  have hspared : ∀ n, ∃ k, Spared (testConfig true) id (fun _ => diskFull) timestamp n k ∧
      k * (testConfig true).spoolReplayBatchSize < spooledStores.spool.dueBy timestamp := by
    intro n
    refine ⟨0, ?_, by rw [Nat.zero_mul]; exact due_spooledStores⟩
    induction n with
    | zero => exact .begins
    | succ n ih => exact ih.spares (diskFull_spares _ _)
  obtain ⟨hok, -, -, hitems, -⟩ := drain_never_takes (x := spooledStores) rfl (by decide)
    (fun _ => diskFull_drains) (fun _ => diskFull_attempts _) (fun _ _ _ => rfl) hinv rfl
    (List.cons_ne_nil _ _) readable_spooledStores hspared n
  refine ⟨hok, hitems, fun hdrained => ?_⟩
  cases hok.symm.trans hdrained.1

end PlcGateway
