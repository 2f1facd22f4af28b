/-
  What the replays of a drain make of the spool.

  A replay ends with a call that deletes the entries it fetched, or postpones them.  It
  settles them if they are not due again, and then fewer entries are due; it spares
  them if they stay due.  What else a round does adds no more rows than it saves items.
  A job that the writer gave up may take effect later: the entries that it can add are
  counted from the start.
-/
import PlcGateway.Persistence.Delivery

namespace PlcGateway

open Coroutine Calendar

/-! ## Entries that are due -/

theorem countP_le_add {α : Type} {p q r : α → Bool} {l : List α}
    (h : ∀ a ∈ l, p a → q a ∨ r a) : l.countP p ≤ l.countP q + l.countP r := by
  induction l with
  | nil => exact Nat.zero_le _
  | cons a l ih =>
    have ih := ih fun b hb => h b (List.mem_cons_of_mem _ hb)
    have ha := h a List.mem_cons_self
    rw [List.countP_cons, List.countP_cons, List.countP_cons]
    by_cases hp : p a
    · rcases ha hp with hq | hr
      · rw [if_pos hp, if_pos hq]
        omega
      · rw [if_pos hp, if_pos hr]
        omega
    · rw [if_neg hp]
      omega

namespace SpoolTable
variable {t t' t₀ : SpoolTable} {ids : List String} {u : DateTime}

/-- The number of entries that are due by `u`, without those with these ids. -/
def dueBut (ids : List String) (u : DateTime) (t : SpoolTable) : ℕ :=
  t.rows.countP fun row => row.nextRetryAt ≤ datetimeToJson u ∧ row.executionId ∉ ids

/-- The number of entries that are due by `u`. -/
def dueBy (u : DateTime) (t : SpoolTable) : ℕ := t.dueBut [] u

/-- The number of entries with these ids. -/
def among (ids : List String) (t : SpoolTable) : ℕ :=
  t.rows.countP fun row => row.executionId ∈ ids

/-- What a replay makes of the entries that it fetched. -/
inductive Replayed (ids : List String) (t : SpoolTable) : SpoolTable → Prop
  | kept : Replayed ids t t
  | deleted : Replayed ids t (t.delete ids)
  | postponed (next : DateTime) : Replayed ids t (t.reschedule (datetimeToJson next) ids)

/-- The entries are deleted, or postponed beyond `u`. -/
inductive SettledBy (u : DateTime) (ids : List String) (t : SpoolTable) : SpoolTable → Prop
  | deleted : SettledBy u ids t (t.delete ids)
  | postponed {next : DateTime} : u.toMicros < next.toMicros →
      SettledBy u ids t (t.reschedule (datetimeToJson next) ids)

theorem dueBut_le_dueBy : t.dueBut ids u ≤ t.dueBy u := by
  refine List.countP_mono_left fun row _ h => ?_
  exact decide_eq_true ⟨(of_decide_eq_true h).1, List.not_mem_nil⟩

theorem dueBut_le_length : t.dueBut ids u ≤ t.rows.length := List.countP_le_length

theorem dueBy_le_add : t.dueBy u ≤ t.dueBut ids u + t.among ids := by
  refine countP_le_add fun row _ hdue => ?_
  by_cases hid : row.executionId ∈ ids
  · exact .inr (decide_eq_true hid)
  · exact .inl (decide_eq_true ⟨(of_decide_eq_true hdue).1, hid⟩)

/-- There are no more entries with these ids than ids to choose from. -/
theorem among_le {l : List String} (hl : ∀ id ∈ ids, id ∈ l) : t.among ids ≤ l.length := by
  rw [among, List.countP_eq_length_filter, ← List.length_map (f := SpoolRow.executionId)]
  refine (List.Nodup.subperm ?_ fun id hid => ?_).length_le
  · exact t.primary_key.sublist (List.filter_sublist.map _)
  · obtain ⟨row, hrow, rfl⟩ := List.mem_map.1 hid
    exact hl _ (of_decide_eq_true (List.mem_filter.1 hrow).2)

/-- Ids that name due entries name no more in another table. -/
theorem among_add_dueBut_le (hdue : ∀ id ∈ ids, ∃ row ∈ t₀.rows, row.executionId = id ∧
    row.nextRetryAt ≤ datetimeToJson u) : t.among ids + t₀.dueBut ids u ≤ t₀.dueBy u := by
  have hamong : t.among ids ≤ t₀.rows.countP fun row =>
      row.nextRetryAt ≤ datetimeToJson u ∧ row.executionId ∈ ids := by
    rw [List.countP_eq_length_filter, ← List.length_map (f := SpoolRow.executionId)]
    refine among_le fun id hid => ?_
    obtain ⟨row, hrow, rfl, hdue'⟩ := hdue id hid
    exact List.mem_map_of_mem (List.mem_filter.2 ⟨hrow, decide_eq_true ⟨hdue', hid⟩⟩)
  have hsplit := List.countP_eq_countP_filter_add t₀.rows
    (fun row => row.nextRetryAt ≤ datetimeToJson u ∧ row.executionId ∉ [])
    (fun row => row.executionId ∈ ids)
  rw [List.countP_filter, List.countP_filter] at hsplit
  rw [dueBy, dueBut, dueBut, hsplit]
  refine Nat.add_le_add (hamong.trans (List.countP_mono_left fun row _ h => ?_))
    (List.countP_mono_left fun row _ h => ?_)
  · obtain ⟨hdue', hid⟩ := of_decide_eq_true h
    exact Bool.and_eq_true_iff.2
      ⟨decide_eq_true ⟨hdue', List.not_mem_nil⟩, decide_eq_true hid⟩
  · obtain ⟨hdue', hid⟩ := of_decide_eq_true h
    exact Bool.and_eq_true_iff.2 ⟨decide_eq_true ⟨hdue', List.not_mem_nil⟩,
      Bool.not_eq_true' _ ▸ decide_eq_false hid⟩

/-- A replay leaves the other entries as they are. -/
theorem Replayed.dueBut_eq (h : Replayed ids t t') : t'.dueBut ids u = t.dueBut ids u := by
  cases h with
  | kept => rfl
  | deleted =>
    rw [dueBut, delete, List.countP_filter]
    refine List.countP_congr fun row _ => ?_
    simp only [Bool.and_eq_true, decide_eq_true_eq]
    exact ⟨And.left, fun h => ⟨h, h.2⟩⟩
  | postponed next =>
    rw [dueBut, reschedule, List.countP_map]
    refine List.countP_congr fun row _ => ?_
    simp only [Function.comp_apply, decide_eq_true_eq]
    split_ifs with hid
    · exact iff_of_false (fun h => h.2 hid) fun h => h.2 hid
    · exact Iff.rfl

/-- Entries that are settled are not due. -/
theorem SettledBy.dueBy_le (h : SettledBy u ids t t') : t'.dueBy u ≤ t.dueBut ids u := by
  cases h with
  | deleted =>
    rw [dueBy, dueBut, delete, List.countP_filter]
    refine List.countP_mono_left fun row _ h => ?_
    simp only [Bool.and_eq_true, decide_eq_true_eq] at h
    exact decide_eq_true ⟨h.1.1, h.2⟩
  | @postponed next hnext =>
    have hlate : ¬ datetimeToJson next ≤ datetimeToJson u :=
      not_le.2 ((isoformat_lt_iff u next).2 hnext)
    rw [dueBy, dueBut, reschedule, List.countP_map]
    refine List.countP_mono_left fun row _ h => ?_
    simp only [Function.comp_apply, decide_eq_true_eq] at h
    split_ifs at h with hid
    · exact absurd h.1 hlate
    · exact decide_eq_true ⟨h.1, hid⟩

/-- A replay takes no more entries from those that are due than it has fetched. -/
theorem Replayed.le_dueBy (h : Replayed ids t t') (u : DateTime) :
    t.dueBy u ≤ t'.dueBy u + ids.length := by
  have hother : t.dueBut ids u ≤ t'.dueBy u := h.dueBut_eq ▸ dueBut_le_dueBy
  exact dueBy_le_add.trans (Nat.add_le_add hother (among_le fun _ => id))

end SpoolTable

/-! ## Jobs that were given up -/

/-- The number of entries that a job can add. -/
def Job.adds : Job → ℕ
  | .append batch => batch.length
  | _ => 0

/-- A job that is executed at `now` makes no entry due again by `u`. -/
def Job.Postpones (u now : DateTime) : Job → Prop
  | .markFailed _ retryDelayS => ∀ next,
      now.addMicros (microsOfSeconds retryDelayS) = some next → u.toMicros < next.toMicros
  | _ => True

/-- The number of entries that jobs can add. -/
def owed (jobs : List Job) : ℕ := (jobs.map Job.adds).sum

/-- The entries, and those that jobs can add. -/
def rowsLeft (jobs : List Job) (st : Stores) : ℕ := st.spool.rows.length + owed jobs

/-- The entries with other ids that are due by `u`, and the entries that jobs can add. -/
def dueLeft (ids : List String) (u : DateTime) (jobs : List Job) (st : Stores) : ℕ :=
  st.spool.dueBut ids u + owed jobs

/-- Some of the jobs have taken effect, by clocks that `p` allows, and some never will. -/
inductive Belated (maxItems : ℕ+) (p : DateTime → Job → Prop) :
    List Job → Stores → List Job → Stores → Prop
  | none (jobs : List Job) (st : Stores) : Belated maxItems p jobs st jobs st
  | executed {before after jobs : List Job} {job : Job} {now : DateTime} {st st' : Stores} :
      p now job → Belated maxItems p (before ++ after) (job.execute maxItems now st).2 jobs st' →
      Belated maxItems p (before ++ job :: after) st jobs st'
  | dropped {before after jobs : List Job} {job : Job} {st st' : Stores} :
      Belated maxItems p (before ++ after) st jobs st' →
      Belated maxItems p (before ++ job :: after) st jobs st'

/-- What a call makes of its job: the job ends, or is given up. -/
inductive Attempted (maxItems : ℕ+) (job : Job) (jobs : List Job) (st : Stores) :
    Except PyError job.Res → List Job → Stores → Prop
  | ends {r : Except PyError job.Res} {st' : Stores} :
      Executes maxItems job st r st' → Attempted maxItems job jobs st r jobs st'
  | givenUp (e : PyError) : Attempted maxItems job jobs st (.error e) (job :: jobs) st

theorem owed_cons (before after : List Job) (job : Job) :
    owed (before ++ job :: after) = owed (before ++ after) + job.adds := by
  rw [owed, owed, List.map_append, List.map_append, List.map_cons, List.sum_append,
    List.sum_append, List.sum_cons]
  omega

section
variable {maxItems : ℕ+} {p : DateTime → Job → Prop} {jobs jobs' : List Job}
  {st st' : Stores} {ids : List String} {u now : DateTime} {job : Job}

theorem Job.markFailed_cases (maxItems : ℕ+) (now : DateTime) (ids : List String) (delay : ℚ)
    (st : Stores) :
    ((Job.markFailed ids delay).execute maxItems now st).2.spool = st.spool ∨
      ∃ next, now.addMicros (microsOfSeconds delay) = some next ∧
        ((Job.markFailed ids delay).execute maxItems now st).2.spool =
          st.spool.reschedule (datetimeToJson next) ids := by
  have htable : ((Job.markFailed ids delay).execute maxItems now st).2.spool =
    ((st.handle maxItems).markFailed ids delay now).2.table := rfl
  rw [htable]
  exact DurableSqliteSpool.markFailed_table ids delay now (st.handle maxItems)

/-- An append adds at most a row for each item. -/
theorem Job.execute_append (maxItems : ℕ+) (now : DateTime) (batch : List WorkerPollResult)
    (st : Stores) :
    ∃ rows, rows.length ≤ batch.length ∧
      ((Job.append batch).execute maxItems now st).2.spool.rows = st.spool.rows ++ rows := by
  simp only [execute]
  cases hr : ((st.handle maxItems).append now batch).1 with
  | error e =>
    refine ⟨[], Nat.zero_le _, ?_⟩
    rw [DurableSqliteSpool.append_error hr, List.append_nil]
    rfl
  | ok n =>
    refine ⟨_, ?_, (DurableSqliteSpool.append_ok hr).1⟩
    rw [List.length_map]
    exact List.length_filter_le _ _

theorem Job.execute_save (maxItems : ℕ+) (now : DateTime) (batch : List WorkerPollResult)
    (st : Stores) :
    ((Job.savePollResults batch).execute maxItems now st).2.spool = st.spool := by
  simp only [execute, Stores.save]
  split <;> rfl

theorem Job.length_execute_le (maxItems : ℕ+) (now : DateTime) (job : Job) (st : Stores) :
    (job.execute maxItems now st).2.spool.rows.length ≤ st.spool.rows.length + job.adds := by
  cases job with
  | savePollResults batch =>
    rw [execute_save]
    exact le_rfl
  | append batch =>
    obtain ⟨rows, hlength, hrows⟩ := execute_append maxItems now batch st
    rw [hrows, List.length_append]
    exact Nat.add_le_add_left hlength _
  | fetchDue limit => exact le_rfl
  | markReplayed ids =>
    rw [execute_markReplayed]
    exact List.length_filter_le _ _
  | markFailed ids delay =>
    obtain hkept | ⟨next, -, hnext⟩ := markFailed_cases maxItems now ids delay st
    · rw [hkept]
      exact le_rfl
    · rw [hnext]
      exact (List.length_map _).le

/-- The entries that are due get no more, but for those that an append adds. -/
theorem Job.dueBut_execute_le (maxItems : ℕ+) (ids : List String) (h : job.Postpones u now)
    (st : Stores) :
    (job.execute maxItems now st).2.spool.dueBut ids u ≤ st.spool.dueBut ids u + job.adds := by
  cases job with
  | savePollResults batch =>
    rw [execute_save]
    exact le_rfl
  | append batch =>
    obtain ⟨rows, hlength, hrows⟩ := execute_append maxItems now batch st
    rw [SpoolTable.dueBut, hrows, List.countP_append]
    exact Nat.add_le_add_left (List.countP_le_length.trans hlength) _
  | fetchDue limit => exact le_rfl
  | markReplayed ids' =>
    rw [execute_markReplayed]
    exact List.filter_sublist.countP_le
  | markFailed ids' delay =>
    obtain hkept | ⟨next, hnext, htable⟩ := markFailed_cases maxItems now ids' delay st
    · rw [hkept]
      exact le_rfl
    · have hlate : ¬ datetimeToJson next ≤ datetimeToJson u :=
        not_le.2 ((isoformat_lt_iff u next).2 (h next hnext))
      rw [htable, SpoolTable.dueBut, SpoolTable.reschedule, List.countP_map]
      refine List.countP_mono_left fun row _ hdue => ?_
      simp only [Function.comp_apply] at hdue
      split_ifs at hdue
      · exact absurd (of_decide_eq_true hdue).1 hlate
      · exact hdue

theorem Belated.rowsLeft_le (h : Belated maxItems p jobs st jobs' st') :
    rowsLeft jobs' st' ≤ rowsLeft jobs st := by
  induction h with
  | none => exact le_rfl
  | @executed before after jobs' job now st st' hnow _ ih =>
    have hlength := Job.length_execute_le maxItems now job st
    simp only [rowsLeft] at ih ⊢
    rw [owed_cons]
    omega
  | dropped _ ih =>
    simp only [rowsLeft] at ih ⊢
    rw [owed_cons]
    omega

theorem Belated.dueLeft_le (h : Belated maxItems (Job.Postpones u) jobs st jobs' st') :
    dueLeft ids u jobs' st' ≤ dueLeft ids u jobs st := by
  induction h with
  | none => exact le_rfl
  | @executed before after jobs' job now st st' hnow _ ih =>
    have hdue := Job.dueBut_execute_le maxItems ids hnow st
    simp only [dueLeft] at ih ⊢
    rw [owed_cons]
    omega
  | dropped _ ih =>
    simp only [dueLeft] at ih ⊢
    rw [owed_cons]
    omega

/-- If no job was given up, the files change by the calls alone. -/
theorem Belated.of_nil (h : Belated maxItems p [] st jobs' st') : jobs' = [] ∧ st' = st := by
  generalize hjobs : ([] : List Job) = jobs at h
  cases h with
  | none => exact ⟨rfl, rfl⟩
  | @executed before => cases before <;> cases hjobs
  | @dropped before => cases before <;> cases hjobs

end

/-! ## What the calls of a round do to the spool -/

/-- A job takes effect before its call is answered, or never, or else it is given up, when the
    call raises; the files change in no other way. -/
structure Answers.Attempts {τ : Type} (env : Answers τ) (files : τ → Stores)
    (late : τ → List Job) (maxItems : ℕ+) (p : DateTime → Job → Prop) : Prop where
  job : ∀ job t s x, let y := env (.toThread job t) s x
    ∃ r jobs st, Belated maxItems p (late x) (files x) jobs st ∧
      Attempted maxItems job jobs st r (late y.2.2) (files y.2.2) ∧ y.1 = jobOutcome r
  other : ∀ c s x, (∀ job t, c ≠ .toThread job t) →
    Belated maxItems p (late x) (files x) (late (env c s x).2.2) (files (env c s x).2.2)

/-- No `fetch_due` that returns sees a clock beyond `u`, and no job that was given up makes an
    entry due again by `u`. -/
structure Answers.Within {τ : Type} (env : Answers τ) (files : τ → Stores) (late : τ → List Job)
    (maxItems : ℕ+) (u : DateTime) : Prop where
  attempts : env.Attempts files late maxItems (Job.Postpones u)
  fetches : ∀ limit t s x entries, (env (.toThread (.fetchDue limit) t) s x).1 = .ok entries →
    ∃ now : DateTime, now.toMicros ≤ u.toMicros ∧
      ((files (env (.toThread (.fetchDue limit) t) s x).2.2).handle maxItems).fetchDue limit now =
        .ok entries

/-- What a replay fetches is settled: once saved it is deleted, and else it is postponed
    beyond `u`. -/
structure Answers.Settles {τ : Type} (env : Answers τ) (files : τ → Stores)
    (late : τ → List Job) (maxItems : ℕ+) (cfg : WriterConfig) (u : DateTime) : Prop where
  replayed : (∀ batch t s x n, (env (.toThread (.savePollResults batch) t) s x).1 ≠ .ok n) ∨
    ∀ ids t s x, let x' := (env (.toThread (.markReplayed ids) t) s x).2.2
      ∃ st, Belated maxItems (Job.Postpones u) (late x) (files x) (late x') st ∧
        (files x').spool = st.spool.delete ids
  failed : (∀ batch t s x, ∃ n, (env (.toThread (.savePollResults batch) t) s x).1 = .ok n) ∨
    ∀ ids t s x, let x' := (env (.toThread (.markFailed ids cfg.spoolRetryDelayS) t) s x).2.2
      ∃ (st : Stores) (now next : DateTime),
        now.addMicros (microsOfSeconds cfg.spoolRetryDelayS) = some next ∧
        u.toMicros < next.toMicros ∧
        Belated maxItems (Job.Postpones u) (late x) (files x) (late x') st ∧
        (files x').spool = st.spool.reschedule (datetimeToJson next) ids

/-- No `fetch_due` returns entries. -/
def Answers.FindsNothing {τ : Type} (env : Answers τ) : Prop :=
  ∀ limit t s x entries, (env (.toThread (.fetchDue limit) t) s x).1 = .ok entries → entries = []

/-- What the attempts to save a batch and the pauses between them make of `x`. -/
inductive Answers.Saving {τ : Type} (env : Answers τ) (x : τ) : τ → Prop
  | starts : Saving env x x
  | save {y : τ} (batch : List WorkerPollResult) (t : ℚ) (s : WriterState) : Saving env x y →
      Saving env x (env (.toThread (.savePollResults batch) t) s y).2.2
  | sleep {y : τ} (d : ℚ) (s : WriterState) : Saving env x y →
      Saving env x (env (.sleep d) s y).2.2

/-- The call with which a replay ends that has fetched entries with these ids. -/
inductive Answers.Marks {τ : Type} (env : Answers τ) (cfg : WriterConfig) (ids : List String)
    (x : τ) : τ → Prop
  | replayed (s : WriterState) :
      (∃ batch t s x n, (env (.toThread (.savePollResults batch) t) s x).1 = .ok n) →
      Marks env cfg ids x (env (.toThread (.markReplayed ids) cfg.spoolTimeoutS) s x).2.2
  | failed (s : WriterState) :
      (∃ batch t s x, ∀ n, (env (.toThread (.savePollResults batch) t) s x).1 ≠ .ok n) →
      Marks env cfg ids x
        (env (.toThread (.markFailed ids cfg.spoolRetryDelayS) cfg.spoolTimeoutS) s x).2.2

section
variable {maxItems : ℕ+} {st st' : Stores}

/-- What a job does that may raise before or after it has taken effect. -/
theorem Executes.cases {job : Job} {r : Except PyError job.Res}
    (h : Executes maxItems job st r st') :
    st' = st ∨ ∃ now, st' = (job.execute maxItems now st).2 := by
  cases h with
  | done now => exact .inr ⟨now, rfl⟩
  | failed e => exact .inl rfl
  | failedAfter now e => exact .inr ⟨now, rfl⟩

/-- A limit that cannot be bound makes `fetch_due` raise. -/
theorem Executes.limit_lt {limit : ℕ} {r : Except PyError (Job.fetchDue limit).Res}
    (h : Executes maxItems (.fetchDue limit) st r st') {entries : List SpoolEntry}
    (hr : r = .ok entries) : limit < 2 ^ 63 := by
  cases h with
  | done now =>
    by_contra hlarge
    rw [Job.execute, DurableSqliteSpool.fetchDue, if_pos (not_lt.1 hlarge)] at hr
    split_ifs at hr
  | failed e => cases hr
  | failedAfter now e => cases hr

theorem Executes.fetchDue {limit : ℕ} {r : Except PyError (Job.fetchDue limit).Res}
    (h : Executes maxItems (.fetchDue limit) st r st') : st' = st := by
  cases h <;> rfl

theorem Executes.length_le {job : Job} {r : Except PyError job.Res}
    (h : Executes maxItems job st r st') :
    st'.spool.rows.length ≤ st.spool.rows.length + job.adds := by
  obtain rfl | ⟨now, rfl⟩ := h.cases
  · exact Nat.le_add_right _ _
  · exact Job.length_execute_le maxItems now job st

theorem Executes.markReplayed {ids : List String} {r : Except PyError (Job.markReplayed ids).Res}
    (h : Executes maxItems (.markReplayed ids) st r st') : st.spool.Replayed ids st'.spool := by
  obtain rfl | ⟨now, rfl⟩ := h.cases
  · exact .kept
  · rw [Job.execute_markReplayed]
    exact .deleted

theorem Executes.markFailed {ids : List String} {delay : ℚ}
    {r : Except PyError (Job.markFailed ids delay).Res}
    (h : Executes maxItems (.markFailed ids delay) st r st') :
    st.spool.Replayed ids st'.spool := by
  obtain rfl | ⟨now, rfl⟩ := h.cases
  · exact .kept
  · obtain hkept | ⟨next, -, hnext⟩ := Job.markFailed_cases maxItems now ids delay st
    · rw [hkept]
      exact .kept
    · rw [hnext]
      exact .postponed next

theorem Executes.save {batch : List WorkerPollResult}
    {r : Except PyError (Job.savePollResults batch).Res}
    (h : Executes maxItems (.savePollResults batch) st r st') : st'.spool = st.spool := by
  obtain rfl | ⟨now, rfl⟩ := h.cases
  · rfl
  · exact Job.execute_save maxItems now batch st

variable {job : Job} {jobs jobs' : List Job} {r : Except PyError job.Res}

theorem Attempted.rowsLeft_le (h : Attempted maxItems job jobs st r jobs' st') :
    rowsLeft jobs' st' ≤ rowsLeft jobs st + job.adds := by
  cases h with
  | ends hr =>
    have hlength := hr.length_le
    simp only [rowsLeft]
    omega
  | givenUp e =>
    simp only [rowsLeft]
    rw [show owed (job :: jobs) = _ from owed_cons [] jobs job, List.nil_append]
    omega

theorem Attempted.limit_lt {limit : ℕ} {entries : List SpoolEntry}
    (h : Attempted maxItems (.fetchDue limit) jobs st (.ok entries) jobs' st') :
    limit < 2 ^ 63 := by
  cases h with
  | ends hr => exact hr.limit_lt rfl

/-- If no job is given up, the job ends. -/
theorem Attempted.ends_of_nil (h : Attempted maxItems job jobs st r [] st') :
    Executes maxItems job st r st' := by
  generalize hjobs : ([] : List Job) = left at h
  cases h with
  | ends hr => exact hr
  | givenUp e => cases hjobs

theorem Attempted.dueLeft_le {ids : List String} {u : DateTime} (hadds : job.adds = 0)
    (hown : ∀ r st st', Executes maxItems job st r st' →
      st'.spool.dueBut ids u ≤ st.spool.dueBut ids u)
    (h : Attempted maxItems job jobs st r jobs' st') :
    dueLeft ids u jobs' st' ≤ dueLeft ids u jobs st := by
  cases h with
  | ends hr => exact Nat.add_le_add_right (hown _ _ _ hr) _
  | givenUp e =>
    simp only [dueLeft]
    rw [show owed (job :: jobs) = _ from owed_cons [] jobs job, List.nil_append, hadds]
    exact le_rfl

end

section
variable {τ : Type} {env : Answers τ} {files : τ → Stores} {late : τ → List Job} {maxItems : ℕ+}
  {p : DateTime → Job → Prop} {cfg : WriterConfig} {ids : List String} {u : DateTime} {x y : τ}

/-- If no job is given up, the files change by the jobs of the calls alone. -/
theorem Answers.Attempts.prompt (h : env.Attempts files (fun _ => []) maxItems p) (job : Job)
    (t : ℚ) (s : WriterState) (x : τ) : let y := env (.toThread job t) s x
      ∃ r, Executes maxItems job (files x) r (files y.2.2) ∧ y.1 = jobOutcome r := by
  obtain ⟨r, jobs, st, hbelated, hattempted, hanswer⟩ := h.job job t s x
  obtain ⟨-, rfl⟩ := hbelated.of_nil
  exact ⟨r, hattempted.ends_of_nil, hanswer⟩

/-- A `fetch_due` that returns has bound its limit. -/
theorem Answers.Attempts.limit_lt (h : env.Attempts files late maxItems p) {limit : ℕ} {t : ℚ}
    {s : WriterState} {entries : List SpoolEntry}
    (hfetch : (env (.toThread (.fetchDue limit) t) s x).1 = .ok entries) : limit < 2 ^ 63 := by
  obtain ⟨r, jobs, st, -, hattempted, hanswer⟩ := h.job (.fetchDue limit) t s x
  rw [hfetch] at hanswer
  cases r with
  | error e => cases hanswer
  | ok entries' => exact hattempted.limit_lt

/-- A call adds at most the entries of its job. -/
theorem Answers.Attempts.rowsLeft_call (h : env.Attempts files late maxItems p) (job : Job)
    (t : ℚ) (s : WriterState) (x : τ) :
    let y := (env (.toThread job t) s x).2.2
    rowsLeft (late y) (files y) ≤ rowsLeft (late x) (files x) + job.adds := by
  intro y
  obtain ⟨r, jobs, st, hbelated, hattempted, -⟩ := h.job job t s x
  exact hattempted.rowsLeft_le.trans (Nat.add_le_add_right hbelated.rowsLeft_le _)

theorem Answers.Attempts.rowsLeft_other (h : env.Attempts files late maxItems p) {c : WriterCall}
    (hc : ∀ job t, c ≠ .toThread job t) (s : WriterState) (x : τ) :
    let y := (env c s x).2.2
    rowsLeft (late y) (files y) ≤ rowsLeft (late x) (files x) := (h.other c s x hc).rowsLeft_le

/-- A call makes no other entry due, if its job does not. -/
theorem Answers.Attempts.dueLeft_call (h : env.Attempts files late maxItems (Job.Postpones u))
    (job : Job) (hadds : job.adds = 0)
    (hown : ∀ r st st', Executes maxItems job st r st' →
      st'.spool.dueBut ids u ≤ st.spool.dueBut ids u) (t : ℚ) (s : WriterState) (x : τ) :
    let y := (env (.toThread job t) s x).2.2
    dueLeft ids u (late y) (files y) ≤ dueLeft ids u (late x) (files x) := by
  intro y
  obtain ⟨r, jobs, st, hbelated, hattempted, -⟩ := h.job job t s x
  exact (Attempted.dueLeft_le hadds hown hattempted).trans hbelated.dueLeft_le

/-- To save a batch adds no entry. -/
theorem Answers.Saving.rowsLeft_le (h : env.Attempts files late maxItems p)
    (hsaving : env.Saving x y) : rowsLeft (late y) (files y) ≤ rowsLeft (late x) (files x) := by
  induction hsaving with
  | starts => exact le_rfl
  | save batch t s _ ih => exact (h.rowsLeft_call (.savePollResults batch) t s _).trans ih
  | sleep d s _ ih => exact (h.rowsLeft_other (by rintro job t ⟨⟩) s _).trans ih

/-- To save a batch makes no entry due. -/
theorem Answers.Saving.dueLeft_le (h : env.Attempts files late maxItems (Job.Postpones u))
    (hsaving : env.Saving x y) :
    dueLeft ids u (late y) (files y) ≤ dueLeft ids u (late x) (files x) := by
  induction hsaving with
  | starts => exact le_rfl
  | @save y batch t s _ ih =>
    refine (h.dueLeft_call (.savePollResults batch) rfl (fun r st st' hr => ?_) t s y).trans ih
    rw [hr.save]
  | @sleep y d s _ ih => exact (h.other (.sleep d) s y (by rintro job t ⟨⟩)).dueLeft_le.trans ih

/-- The last call of a replay adds no entry. -/
theorem Answers.Marks.rowsLeft_le (h : env.Attempts files late maxItems p)
    (hmarks : env.Marks cfg ids x y) :
    rowsLeft (late y) (files y) ≤ rowsLeft (late x) (files x) := by
  cases hmarks with
  | replayed s => exact h.rowsLeft_call (.markReplayed ids) _ s x
  | failed s => exact h.rowsLeft_call (.markFailed ids cfg.spoolRetryDelayS) _ s x

/-- The last call of a replay makes no other entry due. -/
theorem Answers.Marks.dueLeft_le (h : env.Attempts files late maxItems (Job.Postpones u))
    (hmarks : env.Marks cfg ids x y) :
    dueLeft ids u (late y) (files y) ≤ dueLeft ids u (late x) (files x) := by
  cases hmarks with
  | replayed s =>
    exact h.dueLeft_call (.markReplayed ids) rfl
      (fun _ _ _ hr => hr.markReplayed.dueBut_eq.le) _ s x
  | failed s =>
    exact h.dueLeft_call (.markFailed ids cfg.spoolRetryDelayS) rfl
      (fun _ _ _ hr => hr.markFailed.dueBut_eq.le) _ s x

/-- Entries that are settled are not due after the last call of the replay. -/
theorem Answers.Marks.settled (h : env.Settles files late maxItems cfg u)
    (hmarks : env.Marks cfg ids x y) :
    dueLeft [] u (late y) (files y) ≤ dueLeft ids u (late x) (files x) := by
  have hsettled : ∃ st, Belated maxItems (Job.Postpones u) (late x) (files x) (late y) st ∧
      st.spool.SettledBy u ids (files y).spool := by
    cases hmarks with
    | replayed s hsaved =>
      obtain ⟨batch, t, s₀, x₀, n, hn⟩ := hsaved
      obtain ⟨st, hbelated, hdelete⟩ :=
        h.replayed.resolve_left (fun hnever => hnever _ _ _ _ _ hn) ids cfg.spoolTimeoutS s x
      exact ⟨st, hbelated, hdelete ▸ .deleted⟩
    | failed s hfailed =>
      obtain ⟨batch, t, s₀, x₀, hn⟩ := hfailed
      have hfails : ¬ ∀ batch t s x, ∃ n,
          (env (.toThread (.savePollResults batch) t) s x).1 = .ok n :=
        fun halways => (halways batch t s₀ x₀).elim hn
      obtain ⟨st, now, next, -, hlate, hbelated, hpostpone⟩ :=
        h.failed.resolve_left hfails ids cfg.spoolTimeoutS s x
      exact ⟨st, hbelated, hpostpone ▸ .postponed hlate⟩
  obtain ⟨st, hbelated, hby⟩ := hsettled
  exact (Nat.add_le_add_right hby.dueBy_le _).trans hbelated.dueLeft_le

end

/-! ## A round -/

namespace Writer
variable {τ : Type} {env : Answers τ} {files : τ → Stores} {late : τ → List Job} {maxItems : ℕ+}
  {p : DateTime → Job → Prop} {cfg : WriterConfig} {s : WriterState} {x : τ}

/-- A method that only notes how its job came out leaves what the job leaves. -/
theorem exec_noted (hd : env.Drains) (hg : s.getTask = none) {job : Job} {t : ℚ}
    {note : Except PyError job.Res → WriterProg Unit}
    (htame : Tame drainContract Idle (Prog.attempt (toThread job t) >>= note))
    (hnote : ∀ r s' x', ((note r s').exec env x').2.2 = x') :
    ∃ s', ((Prog.attempt (toThread job t) >>= note) s).exec env x =
      (.ok (), s', (env (.toThread job t) s x).2.2) ∧ Idle s s' := by
  obtain ⟨hi, ⟨⟩, ha⟩ := exec_drain (x := x) hd (htame s [] hg)
  refine ⟨_, Prod.ext ha (Prod.ext rfl ?_), hi⟩
  have hcall : ((toThread job t) s).exec env x = env (.toThread job t) s x := rfl
  rw [exec_bind, exec_attempt, hcall]
  rcases env (.toThread job t) s x with ⟨(e | _) | a, s', x'⟩
  · exact hnote _ s' x'
  · rfl
  · exact hnote _ s' x'

/-- To persist a batch keeps what its saves and the pauses keep. -/
theorem keeps_persistBatch {J : τ → Prop} (batch : List WorkerPollResult)
    (hsave : ∀ t s x, J x → J (env (.toThread (.savePollResults batch) t) s x).2.2)
    (hsleep : ∀ d s x, J x → J (env (.sleep d) s x).2.2) :
    Prog.Keeps env J (persistBatch cfg batch) := by
  refine Prog.keeps_bind (Prog.keeps_attempt (keeps_runWithRetry
    (Prog.keeps_await (hsave _)) fun d => Prog.keeps_await (hsleep _))) ?_
  rintro (e | ⟨n, o⟩) <;> exact Prog.keeps_bind (Prog.keeps_modify _) fun _ => Prog.keeps_pure _

/-- What is persisted was saved by some attempt, and a first attempt that saves is enough. -/
theorem saved_of_exec_persistBatch {batch : List WorkerPollResult} {b : Bool}
    (h : (((persistBatch cfg batch) s).exec env x).1 = .ok b) :
    if b then ∃ batch t s x n, (env (.toThread (.savePollResults batch) t) s x).1 = .ok n
    else ∃ batch t s x, ∀ n, (env (.toThread (.savePollResults batch) t) s x).1 ≠ .ok n := by
  cases b with
  | true =>
    rw [persistBatch, exec_bind, exec_attempt] at h
    rcases hretry : ((runWithRetry (saveBatch cfg batch) cfg.retryPolicy sleep
      (fun _ => defaultRandom) recordRetry) s).exec env x with ⟨(e | _) | ⟨n, o⟩, s', x'⟩ <;>
      rw [hretry] at h
    · cases h
    · cases h
    · obtain ⟨s₁, x₁, hsave⟩ := exists_attempt_of_exec_runWithRetry hretry
      exact ⟨batch, cfg.storageTimeoutS, s₁, x₁, n, congrArg Prod.fst hsave⟩
  | false =>
    refine ⟨batch, cfg.storageTimeoutS, s, x, fun n hn => ?_⟩
    have hsave : ((saveBatch cfg batch) s).exec env x =
        (.ok n, (env (.toThread (.savePollResults batch) cfg.storageTimeoutS) s x).2) :=
      Prod.ext hn rfl
    obtain ⟨o, hretry⟩ : ∃ o, ((runWithRetry (saveBatch cfg batch) cfg.retryPolicy sleep
        (fun _ => defaultRandom) recordRetry) s).exec env x = (.ok (n, o), _, _) :=
      exec_runWithRetry_ok hsave
    rw [persistBatch, exec_bind_of_ok (a := .ok (n, o)) (by rw [exec_attempt, hretry])] at h
    cases h

/-- A replay that finds entries tries to save them, and ends with the call for the outcome. -/
theorem exec_replaySpoolOnce_replays (hd : env.Drains) (hg : s.getTask = none)
    (hfinds : Finds cfg env s x) :
    ∃ entries s' x₁ x', entries ≠ [] ∧
      (env (.toThread (.fetchDue cfg.spoolReplayBatchSize) cfg.spoolTimeoutS) s x).1 =
        .ok entries ∧
      ((replaySpoolOnce cfg) s).exec env x = (.ok true, s', x') ∧ Idle s s' ∧
      env.Saving
        (env (.toThread (.fetchDue cfg.spoolReplayBatchSize) cfg.spoolTimeoutS) s x).2.2 x₁ ∧
      env.Marks cfg (entries.map SpoolEntry.executionId) x₁ x' := by
  obtain ⟨hspool, -, entries, hne, hfetch⟩ := hfinds
  set y := (env (.toThread (.fetchDue cfg.spoolReplayBatchSize) cfg.spoolTimeoutS) s x).2
  have hi₁ : Idle s y.1 := idle_of_rely hg (hd.rely _ s x)
  set batch := entries.map SpoolEntry.pollResult
  obtain ⟨hi₂, b, hb⟩ := exec_drain (x := y.2) (t := (persistBatch cfg batch) y.1) hd
    (tame_persistBatch resting_drain batch y.1 [] hi₁.getTask)
  have hpersist : ((persistBatch cfg batch) y.1).exec env y.2 =
      (.ok b, (((persistBatch cfg batch) y.1).exec env y.2).2) := Prod.ext hb rfl
  have hsaving : env.Saving y.2 (((persistBatch cfg batch) y.1).exec env y.2).2.2 :=
    keeps_persistBatch batch (fun t s _ h => h.save batch t s) (fun d s _ h => h.sleep d s) y.1 y.2
      .starts
  set z := (((persistBatch cfg batch) y.1).exec env y.2).2
  have hbody : ((replaySpoolOnce cfg) s).exec env x = (((do
      if b then markReplayed cfg entries else markFailed cfg entries
      return true : WriterProg Bool)) z.1).exec env z.2 := by
    rw [replaySpoolOnce, if_pos hspool, exec_bind_of_ok (exec_fetchDue hfetch)]
    simp only [List.isEmpty_iff, hne, if_false]
    rw [exec_bind_of_ok hpersist]
  have hi := hi₁.trans hi₂
  have hsaved := saved_of_exec_persistBatch hb
  rw [hbody]
  cases b with
  | true =>
    have htame : Tame drainContract Idle (markReplayed cfg entries) :=
      tame_markReplayed resting_drain entries
    obtain ⟨s', hmark, hi₃⟩ :=
      exec_noted (x := z.2) hd hi.getTask htame (by rintro (e | n) s' x' <;> rfl)
    exact ⟨entries, s', _, _, hne, hfetch, exec_bind_of_ok hmark, hi.trans hi₃, hsaving,
      .replayed _ hsaved⟩
  | false =>
    have htame : Tame drainContract Idle (markFailed cfg entries) :=
      tame_markFailed resting_drain entries
    obtain ⟨s', hmark, hi₃⟩ :=
      exec_noted (x := z.2) hd hi.getTask htame (by rintro (e | n) s' x' <;> rfl)
    exact ⟨entries, s', _, _, hne, hfetch, exec_bind_of_ok hmark, hi.trans hi₃, hsaving,
      .failed _ hsaved⟩

/-- The entries that are there, or still added, after a batch was spooled. -/
theorem rowsLeft_spoolBatch (hfiles : env.Attempts files late maxItems p)
    (batch : List WorkerPollResult) (k : ℕ) (s : WriterState) (x : τ)
    (hx : rowsLeft (late x) (files x) ≤ k) :
    let y := (((spoolBatch cfg batch) s).exec env x).2.2
    rowsLeft (late y) (files y) ≤ k + batch.length := by
  rw [spoolBatch]
  split_ifs
  swap
  · exact hx.trans (Nat.le_add_right _ _)
  refine Prog.leads_bind (J := fun x' => rowsLeft (late x') (files x') ≤ k)
    (K := fun x' => rowsLeft (late x') (files x') ≤ k + batch.length) ?_ (fun _ => id) ?_ s x hx
  · intro s' x' hx'
    have hcall : ((toThread (.append batch) cfg.spoolTimeoutS) s').exec env x' =
      env (.toThread (.append batch) cfg.spoolTimeoutS) s' x' := rfl
    have hlength := (hfiles.rowsLeft_call (.append batch) cfg.spoolTimeoutS s' x').trans
      (Nat.add_le_add_right hx' _)
    rw [exec_attempt, hcall]
    revert hlength
    rcases env (.toThread (.append batch) cfg.spoolTimeoutS) s' x' with ⟨(e | _) | n, s₁, x₁⟩ <;>
      exact id
  · rintro (e | n)
    · exact Prog.keeps_bind (Prog.keeps_modify _) fun _ =>
        Prog.keeps_bind (Prog.keeps_modify _) fun _ => Prog.keeps_pure _
    · exact Prog.keeps_bind (Prog.keeps_modify _) fun _ => Prog.keeps_pure _

/-- A flush adds at most an entry for each item of the batch. -/
theorem exec_flushPending_rowsLeft (cfg : WriterConfig) (hd : env.Drains)
    (hfiles : env.Attempts files late maxItems p) (hg : s.getTask = none)
    (hun : s.pendingBatch.length ≤ s.queue.unfinished) :
    ∃ s' x', ((flushPending cfg) s).exec env x = (.ok (), s', x') ∧ Flushes s s' ∧
      rowsLeft (late x') (files x') ≤ rowsLeft (late x) (files x) + s.pendingBatch.length := by
  obtain ⟨hr, hflushes⟩ := exec_drain (x := x) (t := (flushPending cfg) s) hd
    (wp_flushPending_drain [] hg hun)
  refine ⟨_, _, Prod.ext hr rfl, hflushes, ?_⟩
  set k := rowsLeft (late x) (files x)
  have hack : ∀ f v, Prog.Keeps env
      (fun x' => rowsLeft (late x') (files x') ≤ k + s.pendingBatch.length)
      (Prog.modify f >>= fun _ => ackBatch s.pendingBatch.length v) :=
    fun f v => Prog.keeps_bind (Prog.keeps_modify f) fun _ => keeps_ackBatch _ _ v
  have hpersist : Prog.Keeps env (fun x' => rowsLeft (late x') (files x') ≤ k)
      (persistBatch cfg s.pendingBatch) :=
    keeps_persistBatch _ (fun t s x hx => (hfiles.rowsLeft_call _ t s x).trans hx)
      fun d s x hx => (hfiles.rowsLeft_other (by rintro job t ⟨⟩) s x).trans hx
  rw [flushPending, exec_bind_of_ok (show ((Prog.get : WriterProg WriterState) s).exec env x =
    (.ok s, s, x) from rfl)]
  simp only
  split_ifs
  · exact Nat.le_add_right _ _
  refine Prog.leads_bind (J := fun x' => rowsLeft (late x') (files x') ≤ k)
    (K := fun x' => rowsLeft (late x') (files x') ≤ k)
    (L := fun x' => rowsLeft (late x') (files x') ≤ k + s.pendingBatch.length)
    hpersist (fun x' hx' => hx'.trans (Nat.le_add_right _ _)) ?_ s x le_rfl
  rintro (_ | _) s₁ x₁ hx₁
  · refine Prog.leads_bind (J := fun x' => rowsLeft (late x') (files x') ≤ k)
      (K := fun x' => rowsLeft (late x') (files x') ≤ k + s.pendingBatch.length)
      (rowsLeft_spoolBatch hfiles s.pendingBatch k) (fun _ => id) ?_ s₁ x₁ hx₁
    rintro (_ | _)
    · exact hack _ _
    · exact hack _ _
  · exact hack _ _ s₁ x₁ (hx₁.trans (Nat.le_add_right _ _))

/-- The entries, those that jobs can add, and the items that are to be saved. -/
def held (s : WriterState) (jobs : List Job) (st : Stores) : ℕ :=
  rowsLeft jobs st + s.unsaved.length

theorem held_of_flushes {s s' : WriterState} {jobs jobs' : List Job} {st st' : Stores}
    (h : Flushes s s') (hrows : rowsLeft jobs' st' ≤ rowsLeft jobs st + s.pendingBatch.length) :
    held s' jobs' st' ≤ held s jobs st := by
  rw [held, held, WriterState.unsaved, WriterState.unsaved, h.pendingBatch, h.items,
    List.nil_append, List.length_append]
  omega

theorem exec_consume_held (hd : env.Drains) (hfiles : env.Attempts files late maxItems p)
    (hinv : DrainInv cfg s) :
    ∃ s' x', ((consume cfg) s).exec env x = (.ok (), s', x') ∧
      held s' (late x') (files x') ≤ held s (late x) (files x) := by
  obtain ⟨-, hconsume⟩ | ⟨item, rest, s₁, x₁, hcons, htakes, hkept, hconsume⟩ :=
    exec_consume_cases (J := fun x' => rowsLeft (late x') (files x') ≤ rowsLeft (late x) (files x))
      hd (fun c s x' hc hx' => (hfiles.rowsLeft_other hc s x').trans hx') hinv
  · obtain ⟨s', x', hexec, hflushes, hrows⟩ := exec_flushPending_rowsLeft (x := x) cfg hd
      hfiles hinv.getTask (by have := hinv.unfinished; omega)
    rw [hconsume]
    exact ⟨s', x', hexec, held_of_flushes hflushes hrows⟩
  · set s₂ : WriterState := { s₁ with pendingBatch := s₁.pendingBatch ++ [item] }
    have hheld : held s₂ (late x₁) (files x₁) ≤ held s (late x) (files x) := by
      rw [held, held, unsaved_of_takes hcons htakes]
      exact Nat.add_le_add_right (hkept le_rfl) _
    rw [hconsume]
    split_ifs
    · have hg₂ : s₂.getTask = none := htakes.getTask
      obtain ⟨s', x', hexec, hflushes, hrows⟩ := exec_flushPending_rowsLeft (x := x₁) cfg hd
        hfiles hg₂ (length_le_unfinished_of_takes hinv hcons htakes)
      exact ⟨s', x', hexec, (held_of_flushes hflushes hrows).trans hheld⟩
    · exact ⟨s₂, x₁, rfl, hheld⟩

/-- A round that finds entries does nothing but the replay. -/
theorem exec_runIteration_replays (hd : env.Drains) (hinv : DrainInv cfg s)
    (hgo : s.shouldStop = false) (hfinds : Finds cfg env s x) :
    ∃ entries s' x₁ x', entries ≠ [] ∧
      (env (.toThread (.fetchDue cfg.spoolReplayBatchSize) cfg.spoolTimeoutS) s x).1 =
        .ok entries ∧
      ((runIteration cfg) s).exec env x = (.ok true, s', x') ∧ Idle s s' ∧
      env.Saving
        (env (.toThread (.fetchDue cfg.spoolReplayBatchSize) cfg.spoolTimeoutS) s x).2.2 x₁ ∧
      env.Marks cfg (entries.map SpoolEntry.executionId) x₁ x' := by
  obtain ⟨entries, s', x₁, x', hne, hfetch, hexec, hi, hsaving, hmarks⟩ :=
    exec_replaySpoolOnce_replays hd hinv.getTask hfinds
  obtain ⟨-, hround⟩ | ⟨hnot, -⟩ :=
    exec_runIteration_cases (J := fun _ => True) hd (fun _ _ _ _ _ => trivial) hinv hgo
  · exact ⟨entries, s', x₁, x', hne, hfetch, hround s' x' hexec, hi, hsaving, hmarks⟩
  · exact absurd hfinds hnot

/-- A round that goes on holds no more than before. -/
theorem exec_runIteration_held (hd : env.Drains) (hfiles : env.Attempts files late maxItems p)
    (hinv : DrainInv cfg s) (hgo : s.shouldStop = false) :
    let y := ((runIteration cfg) s).exec env x
    held y.2.1 (late y.2.2) (files y.2.2) ≤ held s (late x) (files x) := by
  intro y
  obtain ⟨hfinds, -⟩ | ⟨-, s₁, x₁, hidle, hkept, hround⟩ := exec_runIteration_cases
    (J := fun x' => rowsLeft (late x') (files x') ≤ rowsLeft (late x) (files x)) hd
    (fun limit t s x' hx' => (hfiles.rowsLeft_call (.fetchDue limit) t s x').trans hx') hinv hgo
  · obtain ⟨entries, s', x₁, x', -, -, hexec, hi, hsaving, hmarks⟩ :=
      exec_runIteration_replays hd hinv hgo hfinds
    rw [show y = _ from hexec, held, held, hi.unsaved]
    refine Nat.add_le_add_right ?_ _
    exact (hmarks.rowsLeft_le hfiles).trans
      ((hsaving.rowsLeft_le hfiles).trans (hfiles.rowsLeft_call (.fetchDue _) _ s x))
  · obtain ⟨s', x', hexec, hheld⟩ := exec_consume_held (x := x₁) hd hfiles
      (drainInv_of_idle hinv hidle).1
    rw [show y = _ from hround s' x' hexec]
    refine hheld.trans ?_
    rw [held, held, hidle.unsaved]
    exact Nat.add_le_add_right (hkept le_rfl) _

end Writer

/-- What is due after a round that replays. -/
theorem dueLeft_of_finds {τ : Type} {env : Answers τ} {files : τ → Stores} {late : τ → List Job}
    {maxItems : ℕ+} {cfg : WriterConfig} {s : WriterState} {x : τ} {u : DateTime}
    (hd : env.Drains) (hwithin : env.Within files late maxItems u)
    (hinv : Writer.DrainInv cfg s) (hgo : s.shouldStop = false) (hfinds : Finds cfg env s x) :
    let x' := ((Writer.runIteration cfg s).exec env x).2.2
    0 < dueLeft [] u (late x) (files x) ∧
      dueLeft [] u (late x') (files x') ≤ dueLeft [] u (late x) (files x) ∧
      (env.Settles files late maxItems cfg u →
        dueLeft [] u (late x') (files x') < dueLeft [] u (late x) (files x)) := by
  obtain ⟨entries, s', x₁, x', hne, hfetch, hexec, -, hsaving, hmarks⟩ :=
    Writer.exec_runIteration_replays hd hinv hgo hfinds
  rw [hexec]
  simp only
  obtain ⟨now, hnow, hentries⟩ := hwithin.fetches _ _ _ _ _ hfetch
  set y := (env (.toThread (.fetchDue cfg.spoolReplayBatchSize) cfg.spoolTimeoutS) s x).2.2
  set ids := entries.map SpoolEntry.executionId with hids
  -- the ids are those of entries that are due when they are fetched
  have hdue : ∀ id ∈ ids, ∃ row ∈ (files y).spool.rows, row.executionId = id ∧
      row.nextRetryAt ≤ datetimeToJson u := by
    intro id hid
    rw [hids, executionIds_of_mapM (DurableSqliteSpool.mapM_of_fetchDue hentries)] at hid
    obtain ⟨row, hrow, rfl⟩ := List.mem_map.1 hid
    obtain ⟨hmem, hle⟩ := SpoolTable.mem_of_mem_dueRows hrow
    exact ⟨row, hmem, rfl, hle.trans ((isoformat_le_iff now u).2 hnow)⟩
  have hsome : 0 < (files y).spool.among ids := by
    obtain ⟨e, he⟩ := List.exists_mem_of_ne_nil _ hne
    have hid : e.executionId ∈ ids := List.mem_map_of_mem he
    obtain ⟨row, hrow, hrowId, -⟩ := hdue _ hid
    exact List.countP_pos_iff.2 ⟨row, hrow, decide_eq_true (hrowId ▸ hid)⟩
  have hfetched : ∀ ids, dueLeft ids u (late y) (files y) ≤ dueLeft ids u (late x) (files x) :=
    fun ids => hwithin.attempts.dueLeft_call _ rfl (fun _ _ _ hr => by rw [hr.fetchDue]) _ s x
  have hthere := SpoolTable.among_add_dueBut_le (t := (files y).spool) hdue
  have hstill := SpoolTable.among_add_dueBut_le (t := (files x').spool) hdue
  have hsplit : (files x').spool.dueBy u ≤ (files x').spool.dueBut ids u +
    (files x').spool.among ids := SpoolTable.dueBy_le_add
  have hby : ∀ z, dueLeft [] u (late z) (files z) = (files z).spool.dueBy u + owed (late z) :=
    fun _ => rfl
  have hbefore := hfetched []
  have hsaved : dueLeft ids u (late x₁) (files x₁) ≤ dueLeft ids u (late y) (files y) :=
    hsaving.dueLeft_le hwithin.attempts
  have hmarked := hmarks.dueLeft_le hwithin.attempts
  rw [hby, hby] at hbefore ⊢
  simp only [dueLeft] at hsaved hmarked
  refine ⟨by omega, by omega, fun hsettles => ?_⟩
  have hsettled := hmarks.settled hsettles
  rw [hby, dueLeft] at hsettled
  omega

end PlcGateway
