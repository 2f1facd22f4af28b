/-
  Custody of the spooled poll results.

  The replay hands an entry over from the spool to the main database without a
  common transaction.  `Process.Safe` says what each process knows of the files:
  what its jobs have told it is true, and stays true, since a poll result that is
  stored stays stored and a row leaves the spool only if its poll result is stored.
-/
import PlcGateway.Persistence.Script

namespace PlcGateway

open Coroutine Relation Calendar

/-! ## What the jobs do to the files -/

/-- The poll result is in the spool or in the main database. -/
def Stores.Keeps (st : Stores) (r : WorkerPollResult) : Prop :=
  st.spool.Holds r ∨ Stored st.database r

/-- The files hold poll results in `P` only, and keep what was appended. -/
structure Stores.Sound (P : WorkerPollResult → Prop) (st : Stores) : Prop where
  agrees : DatabaseAgrees P st.database
  rows : ∀ row ∈ st.spool.rows, ∃ r, P r ∧ row.Holds r
  kept : ∀ r ∈ st.appended, P r ∧ st.Keeps r

/-- The files have gone on without a loss. -/
structure Stores.Grows (P : WorkerPollResult → Prop) (st st' : Stores) : Prop where
  stored : ∀ r, P r → Stored st.database r → Stored st'.database r
  appended : st.appended ⊆ st'.appended
  held : ∀ r, P r → st.spool.Holds r → st'.spool.Holds r ∨ Stored st.database r

/-- When a job may take effect. -/
def Job.Safe (P : WorkerPollResult → Prop) (st : Stores) : Job → Prop
  | .savePollResults batch | .append batch => ∀ r ∈ batch, P r
  | .markReplayed ids => ∀ id ∈ ids, ∃ r, P r ∧ r.executionId = id ∧ Stored st.database r
  | .fetchDue _ | .markFailed .. => True

/-- What the result of a job says of the files. -/
def Job.Told (P : WorkerPollResult → Prop) (st : Stores) : (job : Job) → job.Res → Prop
  | .savePollResults batch, _ => ∀ r ∈ batch, P r ∧ Stored st.database r
  | .append batch, _ => ∀ r ∈ batch, r ∈ st.appended
  | .fetchDue _, entries => ∀ e ∈ entries, P e.pollResult ∧ e.executionId = e.pollResult.executionId
  | .markReplayed _, _ | .markFailed .., _ => True

section
variable {P : WorkerPollResult → Prop} {st st' st'' : Stores}

theorem Stores.Grows.refl (st : Stores) : st.Grows P st :=
  ⟨fun _ _ h => h, fun _ h => h, fun _ _ h => .inl h⟩

theorem Stores.Grows.keeps (hg : st.Grows P st') {r : WorkerPollResult} (hr : P r)
    (h : st.Keeps r) : st'.Keeps r := by
  rcases h with h | h
  · rcases hg.held r hr h with h' | h'
    · exact .inl h'
    · exact .inr (hg.stored r hr h')
  · exact .inr (hg.stored r hr h)

theorem Job.Safe.mono {job : Job} (hj : job.Safe P st) (hg : st.Grows P st') : job.Safe P st' := by
  cases job with
  | markReplayed ids =>
    intro id hid
    obtain ⟨r, hr, he, hs⟩ := hj id hid
    exact ⟨r, hr, he, hg.stored r hr hs⟩
  | savePollResults batch => exact hj
  | append batch => exact hj
  | fetchDue limit => trivial
  | markFailed ids delay => trivial

theorem Job.Told.mono {job : Job} {a : job.Res} (ht : job.Told P st a) (hg : st.Grows P st') :
    job.Told P st' a := by
  cases job with
  | savePollResults batch => exact fun r hr => ⟨(ht r hr).1, hg.stored r (ht r hr).1 (ht r hr).2⟩
  | append batch => exact fun r hr => hg.appended (ht r hr)
  | fetchDue limit => exact ht
  | markReplayed ids => trivial
  | markFailed ids delay => trivial

/-- A job has taken effect, and its result tells the truth. -/
def Job.Effect (P : WorkerPollResult → Prop) (st : Stores) (job : Job)
    (o : Except PyError job.Res × Stores) : Prop :=
  o.2.Sound P ∧ st.Grows P o.2 ∧ ∀ a, o.1 = .ok a → job.Told P o.2 a

theorem mem_of_mapM_spoolEntry {rows : List SpoolRow} {entries : List SpoolEntry}
    (h : rows.mapM spoolEntry = .ok entries) {e : SpoolEntry} (he : e ∈ entries) :
    ∃ row ∈ rows, spoolEntry row = .ok e := by
  induction rows generalizing entries with
  | nil => cases h; cases he
  | cons row rows ih =>
    rw [List.mapM_cons] at h
    cases h₁ : spoolEntry row with
    | error x => rw [h₁] at h; cases h
    | ok e₁ =>
      cases h₂ : rows.mapM spoolEntry with
      | error x => rw [h₁, ok_bind, h₂] at h; cases h
      | ok es =>
        rw [h₁, ok_bind, h₂] at h
        cases h
        rcases List.mem_cons.1 he with rfl | he
        · exact ⟨row, List.mem_cons_self, h₁⟩
        · obtain ⟨row', hm, hr⟩ := ih h₂ he
          exact ⟨row', List.mem_cons_of_mem _ hm, hr⟩

variable (hst : st.Sound P)
include hst

/-- `fetch_due` gives back the poll results that were spooled. -/
theorem fetchDue_effect (limit : ℕ) (maxItems : ℕ+) (now : DateTime) :
    Job.Effect P st (.fetchDue limit) (Job.execute maxItems now (.fetchDue limit) st) := by
  refine ⟨hst, .refl st, fun entries he e hm => ?_⟩
  obtain ⟨row, hrow, hentry⟩ := mem_of_mapM_spoolEntry (DurableSqliteSpool.mapM_of_fetchDue he) hm
  obtain ⟨r, hr, hh⟩ := hst.rows row (SpoolTable.mem_of_mem_dueRows hrow).1
  obtain ⟨hid, hres⟩ := spoolEntry_of_holds hh hentry
  rw [hres]
  exact ⟨hr, hid⟩

/-- `mark_failed` keeps every entry. -/
theorem markFailed_effect (ids : List String) (delay : ℚ) (maxItems : ℕ+) (now : DateTime) :
    Job.Effect P st (.markFailed ids delay) (Job.execute maxItems now (.markFailed ids delay) st) := by
  have hheld : ∀ r, st.spool.Holds r →
      ((st.handle maxItems).markFailed ids delay now).2.table.Holds r := by
    rintro r ⟨row, hm, hrow⟩
    obtain ⟨row', hm', hid, hp⟩ := DurableSqliteSpool.mem_markFailed (s := st.handle maxItems) hm
    exact ⟨row', hm', hid.trans hrow.1, hp.trans hrow.2⟩
  refine ⟨⟨hst.agrees, fun row hrow => ?_, fun r hr => ?_⟩,
    ⟨fun _ _ h => h, fun _ h => h, fun r _ h => .inl (hheld r h)⟩, fun _ _ => trivial⟩
  · obtain ⟨row', hm', hid, hp⟩ := DurableSqliteSpool.markFailed_rows hrow
    obtain ⟨r, hr, hh⟩ := hst.rows row' hm'
    exact ⟨r, hr, hid.symm.trans hh.1, hp.symm.trans hh.2⟩
  · obtain ⟨hPr, hk⟩ := hst.kept r hr
    exact ⟨hPr, hk.imp_left (hheld r)⟩

variable (hP : SameContent P)
include hP

/-- `save_poll_results` stores its batch, or does nothing. -/
theorem savePollResults_effect {batch : List WorkerPollResult} (hj : ∀ r ∈ batch, P r)
    (maxItems : ℕ+) (now : DateTime) :
    Job.Effect P st (.savePollResults batch) (Job.execute maxItems now (.savePollResults batch) st) := by
  simp only [Job.execute, Stores.save]
  cases hs : savePollResults batch st.database with
  | error e => exact ⟨hst, .refl st, fun a ha => by cases ha⟩
  | ok o =>
    obtain ⟨n, db⟩ := o
    obtain ⟨hnew, hold, hagree⟩ := stored_of_save hP hst.agrees hj hs
    refine ⟨⟨hagree, hst.rows, fun r hr => ?_⟩, ⟨hold, fun _ h => h, fun _ _ h => .inl h⟩,
      fun _ _ r hr => ⟨hj r hr, hnew r hr⟩⟩
    obtain ⟨hPr, hk⟩ := hst.kept r hr
    exact ⟨hPr, hk.imp_right (hold r hPr)⟩

/-- `append` puts its batch into the spool, or does nothing. -/
theorem append_effect {batch : List WorkerPollResult} (hj : ∀ r ∈ batch, P r)
    (maxItems : ℕ+) (now : DateTime) :
    Job.Effect P st (.append batch) (Job.execute maxItems now (.append batch) st) := by
  simp only [Job.execute]
  have hrows : ∀ row ∈ ((st.handle maxItems).append now batch).2.table.rows,
      ∃ r, P r ∧ row.Holds r := by
    intro row hrow
    rcases DurableSqliteSpool.of_mem_append hrow with hrow | ⟨r, hr, rfl⟩
    · exact hst.rows row hrow
    · exact ⟨r, hj r hr, SpoolRow.holds_spoolRow now r⟩
  have hheld : ∀ r, st.spool.Holds r → ((st.handle maxItems).append now batch).2.table.Holds r := by
    rintro r ⟨row, hm, hr⟩
    exact ⟨row, DurableSqliteSpool.mem_append hm, hr⟩
  have hnew : ∀ n, ((st.handle maxItems).append now batch).1 = .ok n → ∀ r ∈ batch,
      ((st.handle maxItems).append now batch).2.table.Holds r := by
    intro n hn r hr
    obtain ⟨row, hm, hid⟩ := List.mem_map.1 (DurableSqliteSpool.ids_append hn hr)
    obtain ⟨r', hr', hrow⟩ := hrows row hm
    -- the row under the execution of `r` is the one of `r`
    have hrr : r' = r := hP r' r hr' (hj r hr) (hrow.1.symm.trans hid)
    exact ⟨row, hm, hrr ▸ hrow⟩
  have hold : ∀ r ∈ st.appended, P r ∧
      (((st.handle maxItems).append now batch).2.table.Holds r ∨ Stored st.database r) := by
    intro r hr
    obtain ⟨hPr, hk⟩ := hst.kept r hr
    exact ⟨hPr, hk.imp_left (hheld r)⟩
  cases hres : ((st.handle maxItems).append now batch).1 with
  | error e =>
    exact ⟨⟨hst.agrees, hrows, hold⟩, ⟨fun _ _ h => h, fun _ h => h, fun r _ h => .inl (hheld r h)⟩,
      fun a ha => by cases ha⟩
  | ok n =>
    refine ⟨⟨hst.agrees, hrows, fun r hr => ?_⟩, ⟨fun _ _ h => h, ?_, fun r _ h => .inl (hheld r h)⟩, ?_⟩
    · rcases List.mem_append.1 hr with hr | hr
      · exact hold r hr
      · exact ⟨hj r hr, .inl (hnew n hres r hr)⟩
    · exact fun _ h => List.mem_append_left _ h
    · exact fun _ _ r hr => List.mem_append_right _ hr

/-- `mark_replayed` deletes what is stored. -/
theorem markReplayed_effect {ids : List String}
    (hj : ∀ id ∈ ids, ∃ r, P r ∧ r.executionId = id ∧ Stored st.database r)
    (maxItems : ℕ+) (now : DateTime) :
    Job.Effect P st (.markReplayed ids) (Job.execute maxItems now (.markReplayed ids) st) := by
  have hheld : ∀ r, P r → st.spool.Holds r →
      ((st.handle maxItems).markReplayed ids).2.table.Holds r ∨ Stored st.database r := by
    rintro r hr ⟨row, hm, hrow⟩
    by_cases hid : row.executionId ∈ ids
    · obtain ⟨r', hr', he, hs⟩ := hj _ hid
      have hrr : r' = r := hP r' r hr' hr (he.trans hrow.1)
      exact .inr (hrr ▸ hs)
    · exact .inl ⟨row, DurableSqliteSpool.mem_markReplayed.2 ⟨hm, hid⟩, hrow⟩
  refine ⟨⟨hst.agrees, fun row hrow => ?_, fun r hr => ?_⟩, ⟨fun _ _ h => h, fun _ h => h, hheld⟩,
    fun _ _ => trivial⟩
  · exact hst.rows row (DurableSqliteSpool.mem_markReplayed.1 hrow).1
  · obtain ⟨hPr, hk⟩ := hst.kept r hr
    exact ⟨hPr, hk.elim (hheld r hPr) .inr⟩

/-- Every safe job loses nothing. -/
theorem execute_effect {job : Job} (hj : job.Safe P st) (maxItems : ℕ+) (now : DateTime) :
    Job.Effect P st job (job.execute maxItems now st) := by
  cases job with
  | savePollResults batch => exact savePollResults_effect hst hP hj maxItems now
  | append batch => exact append_effect hst hP hj maxItems now
  | fetchDue limit => exact fetchDue_effect hst limit maxItems now
  | markReplayed ids => exact markReplayed_effect hst hP hj maxItems now
  | markFailed ids delay => exact markFailed_effect hst ids delay maxItems now

theorem Executes.effect {maxItems : ℕ+} {job : Job} {r : Except PyError job.Res}
    (h : Executes maxItems job st r st') (hj : job.Safe P st) : Job.Effect P st job (r, st') := by
  cases h with
  | done now => exact execute_effect hst hP hj maxItems now
  | failed e => exact ⟨hst, .refl st, fun a ha => by cases ha⟩
  | failedAfter now e =>
    obtain ⟨hs, hg, -⟩ := execute_effect hst hP hj maxItems now
    exact ⟨hs, hg, fun a ha => by cases ha⟩

end

/-! ## What a process knows -/

/-- A submitted job is safe, and its result true. -/
def Submission.Safe (P : WorkerPollResult → Prop) (st : Stores) (c : Submission) : Prop :=
  c.job.Safe P st ∧ match c.phase with
    | .queued | .running => True
    | .executed r | .returned r => ∀ a, r = .ok a → c.job.Told P st a

/-- The writer is good, what its jobs have told it is true, and the jobs that have
    not taken effect are safe. -/
structure Process.Safe (P : WorkerPollResult → Prop) (st : Stores) (p : Process) : Prop where
  good : p.config.Good (writerContract p.cfg) (WriterInv p.cfg) (WriterEnd p.cfg)
  told : ∀ job a, Returned p.config.history job a → job.Told P st a
  awaited : ∀ c, p.awaited = some c → c.Safe P st
  abandoned : ∀ job ∈ p.abandoned, job.Safe P st

section
variable {P : WorkerPollResult → Prop} {st st' : Stores} {p p' : Process}

theorem Submission.Safe.mono {c : Submission} (hc : c.Safe P st) (hg : st.Grows P st') :
    c.Safe P st' := by
  obtain ⟨job, late, phase⟩ := c
  obtain ⟨hj, ht⟩ := hc
  refine ⟨hj.mono hg, ?_⟩
  cases phase with
  | queued => trivial
  | running => trivial
  | executed r => exact fun a ha => (ht a ha).mono hg
  | returned r => exact fun a ha => (ht a ha).mono hg

theorem Process.Safe.mono (hp : p.Safe P st) (hg : st.Grows P st') : p.Safe P st' :=
  ⟨hp.good, fun job a h => (hp.told job a h).mono hg, fun c hc => (hp.awaited c hc).mono hg,
    fun job hj => (hp.abandoned job hj).mono hg⟩

/-- What the writer issues is safe. -/
theorem safe_of_issue {cfg : WriterConfig} {s : WriterState} {h : WriterHistory} {job : Job} {t : ℚ}
    (hi : writerIssue cfg (.toThread job t) s h) (hputs : ∀ r ∈ s.log.puts, P r)
    (htold : ∀ job a, Returned h job a → job.Told P st a) : job.Safe P st := by
  cases job with
  | savePollResults batch =>
    rcases hi with hi | ⟨entries, hf, rfl⟩
    · exact fun r hr => hputs r (hi r hr)
    · intro r hr
      obtain ⟨e, he, rfl⟩ := List.mem_map.1 hr
      exact (htold _ _ hf e he).1
  | append batch => exact fun r hr => hputs r (hi r hr)
  | markReplayed ids =>
    obtain ⟨entries, hf, rfl, n, hs⟩ := hi
    intro id hid
    obtain ⟨e, he, rfl⟩ := List.mem_map.1 hid
    obtain ⟨hr, hst⟩ := htold _ _ hs e.pollResult (List.mem_map_of_mem he)
    exact ⟨e.pollResult, hr, (htold _ _ hf e he).2.symm, hst⟩
  | fetchDue limit => trivial
  | markFailed ids delay => trivial

/-- The writer of a process goes on. -/
theorem Process.Safe.goOn (hp : p.Safe P st) {y : Config WriterCalls WriterState PyError}
    (hy : y.Good (writerContract p.cfg) (WriterInv p.cfg) (WriterEnd p.cfg))
    (htold : ∀ job a, Returned y.history job a → job.Told P st a)
    (hputs : ∀ r ∈ y.state.log.puts, P r) : (p.goOn y).Safe P st := by
  refine ⟨hy, htold, fun c hc => ?_, hp.abandoned⟩
  obtain ⟨s, h, ctl⟩ := y
  cases ctl with
  | boundary => cases hc
  | ended r => cases hc
  | suspended call k =>
    cases call with
    | wait d => cases hc
    | gather held => cases hc
    | sleep d => cases hc
    | toThread job t =>
      cases hc
      obtain ⟨s₀, hr, ⟨-, hi⟩, -⟩ := hy
      have hsub := (kept_of_quiet (quiet_of_rely hr)).puts.subset
      exact ⟨safe_of_issue hi (fun r hr => hputs r (hsub hr)) htold, trivial⟩

/-- An answer that tells nothing, or the truth. -/
theorem told_append {h : WriterHistory} {c : WriterCall} {o : Outcome PyError c.Res}
    (htold : ∀ job a, Returned h job a → job.Told P st a)
    (hlast : ∀ job a, Returned [⟨c, o⟩] job a → job.Told P st a) :
    ∀ job a, Returned (h ++ [⟨c, o⟩]) job a → job.Told P st a := by
  rintro job a ⟨t, hm⟩
  rcases List.mem_append.1 hm with hm | hm
  · exact htold job a ⟨t, hm⟩
  · exact hlast job a ⟨t, hm⟩

theorem Process.Safe.giveUp (hp : p.Safe P st) {c : Submission} (hc : c.Safe P st) :
    (p.giveUp c).Safe P st := by
  obtain ⟨job, late, phase⟩ := c
  cases phase with
  | queued => exact hp
  | returned r => exact hp
  | executed r => exact ⟨hp.good, hp.told, hp.awaited, hp.abandoned⟩
  | running =>
    refine ⟨hp.good, hp.told, hp.awaited, fun job' hj => ?_⟩
    rcases List.mem_append.1 hj with hj | hj
    · exact hp.abandoned job' hj
    · rw [List.mem_singleton.1 hj]
      exact hc.1

/-- A round begins. -/
theorem Process.Safe.enter (hp : p.Safe P st) (hb : p.config.control = .boundary)
    (hputs : ∀ r ∈ (Config.settle p.config.history
      (Writer.runIteration p.cfg p.config.state)).state.log.puts, P r) :
    (p.goOn (.settle p.config.history (Writer.runIteration p.cfg p.config.state))).Safe P st := by
  refine hp.goOn ((Writer.loopInvariant p.cfg).good_enter hp.good hb) ?_ hputs
  rw [Config.settle_history]
  exact hp.told

/-- A round goes on with an answer that tells nothing, or the truth. -/
theorem Process.Safe.resume (hp : p.Safe P st) {c : WriterCall}
    {k : Outcome PyError c.Res → WriterState → Coro WriterCalls WriterState PyError Bool}
    {r : Outcome PyError c.Res} (hc : p.config.control = .suspended c k)
    (ha : writerAnswer c p.config.state r)
    (hlast : ∀ job a, Returned [⟨c, r⟩] job a → job.Told P st a)
    (hputs : ∀ r' ∈ (Config.settle (C := WriterCalls) (p.config.history ++ [⟨c, r⟩])
      (k r p.config.state)).state.log.puts, P r') :
    (p.goOn (.settle (p.config.history ++ [⟨c, r⟩]) (k r p.config.state))).Safe P st := by
  refine hp.goOn ((Writer.loopInvariant p.cfg).good_resume hp.good hc ha) ?_ hputs
  rw [Config.settle_history]
  exact told_append hp.told hlast

theorem Process.giveUp_config (p : Process) (c : Submission) : (p.giveUp c).config = p.config := by
  obtain ⟨job, late, phase⟩ := c
  cases phase <;> rfl

/-- The writer of a process that gives up its job goes on. -/
theorem Process.Safe.resumeAfter (hp : p.Safe P st) {job : Job} {t : ℚ} {late : Bool}
    {phase : Phase job} {e : Raised PyError}
    {k : Outcome PyError job.Res → WriterState → Coro WriterCalls WriterState PyError Bool}
    (hc : p.config.control = .suspended (.toThread job t) k)
    (haw : p.awaited = some ⟨job, late, phase⟩)
    (hputs : ∀ r' ∈ (Config.settle (C := WriterCalls)
      (p.config.history ++ [⟨.toThread job t, .error e⟩])
      (k (.error e) p.config.state)).state.log.puts, P r') :
    ((p.giveUp ⟨job, late, phase⟩).goOn (.settle
      (p.config.history ++ [⟨.toThread job t, .error e⟩]) (k (.error e) p.config.state))).Safe P st := by
  have hconfig := p.giveUp_config ⟨job, late, phase⟩
  have hp' := hp.giveUp (hp.awaited _ haw)
  rw [← hconfig] at hc hputs ⊢
  refine hp'.resume (c := .toThread job t) hc trivial ?_ hputs
  rintro job' a ⟨t', hm⟩
  cases List.mem_singleton.1 hm

/-- **A step of a process loses nothing**, and the process stays safe. -/
theorem ProcessStep.safe (hP : SameContent P) {F : Surroundings}
    (h : ProcessStep F (p, st) (p', st')) (hst : st.Sound P) (hp : p.Safe P st)
    (hputs : ∀ r ∈ p'.config.state.log.puts, P r) :
    st'.Sound P ∧ st.Grows P st' ∧ p'.Safe P st' := by
  cases h with
  | env he =>
    exact ⟨hst, .refl st, (Writer.loopInvariant p.cfg).good_env hp.good he, hp.told, hp.awaited,
      hp.abandoned⟩
  | enter hb => exact ⟨hst, .refl st, hp.enter hb hputs⟩
  | @resume _ _ c k r hc hno ha =>
    refine ⟨hst, .refl st, hp.resume hc ha ?_ hputs⟩
    rintro job a ⟨t, hm⟩
    cases List.mem_singleton.1 hm
    exact absurd rfl (hno job t)
  | start haw hlt =>
    refine ⟨hst, .refl st, hp.good, hp.told, fun c hc => ?_, hp.abandoned⟩
    cases hc
    exact ⟨(hp.awaited _ haw).1, trivial⟩
  | execute haw he hF =>
    obtain ⟨hsound, hg, htold⟩ := he.effect hst hP (hp.awaited _ haw).1
    have hp' := hp.mono hg
    refine ⟨hsound, hg, hp'.good, hp'.told, fun c hc => ?_, hp'.abandoned⟩
    cases hc
    exact ⟨(hp'.awaited _ haw).1, htold⟩
  | finish haw =>
    refine ⟨hst, .refl st, hp.good, hp.told, fun c hc => ?_, hp.abandoned⟩
    cases hc
    exact ⟨(hp.awaited _ haw).1, (hp.awaited _ haw).2⟩
  | @deliver _ _ job t late k r hc haw =>
    refine ⟨hst, .refl st, hp.resume (c := .toThread job t) hc trivial ?_ hputs⟩
    rintro job' a ⟨t', hm⟩
    have htold := (hp.awaited _ haw).2
    cases r with
    | error e => cases List.mem_singleton.1 hm
    | ok b =>
      cases List.mem_singleton.1 hm
      exact htold b rfl
  | timeout hc haw _ => exact ⟨hst, .refl st, hp.resumeAfter hc haw hputs⟩
  | cancel hc haw => exact ⟨hst, .refl st, hp.resumeAfter hc haw hputs⟩
  | @executeAbandoned _ _ _ before after job r hab he hF =>
    have hmem : job ∈ p.abandoned := by
      rw [hab]
      exact List.mem_append_right _ List.mem_cons_self
    obtain ⟨hsound, hg, -⟩ := he.effect hst hP (hp.abandoned job hmem)
    have hp' := hp.mono hg
    refine ⟨hsound, hg, hp'.good, hp'.told, hp'.awaited, fun job' hj => hp'.abandoned job' ?_⟩
    rw [hab]
    rcases List.mem_append.1 hj with hj | hj
    · exact List.mem_append_left _ hj
    · exact List.mem_append_right _ (List.mem_cons_of_mem _ hj)
  | finishAbandoned _ => exact ⟨hst, .refl st, hp.good, hp.told, hp.awaited, hp.abandoned⟩

end

/-! ## The system -/

structure System.Safe (P : WorkerPollResult → Prop) (x : System) : Prop where
  stores : x.stores.Sound P
  processes : ∀ p ∈ x.processes, p.Safe P x.stores

section
variable {P : WorkerPollResult → Prop} {F : Surroundings} {x y : System}

/-- A writer that starts knows nothing yet. -/
theorem Process.safe_spawn {st : Stores} {cfg : WriterConfig} {maxItems threads : ℕ+} {maxSize : ℕ}
    {s : WriterState} (hs : (WriterState.init (.empty maxSize)).start = .ok s) :
    (Process.spawn cfg maxItems threads s).Safe P st := by
  refine ⟨Writer.start_inv hs, ?_, fun c hc => (by cases hc), fun job hj => (by cases hj)⟩
  rintro job a ⟨t, hm⟩
  cases hm

/-- **A step of the system loses nothing**, and the system stays safe. -/
theorem SystemStep.safe (hP : SameContent P) (h : SystemStep F x y) (hx : x.Safe P)
    (hy : y.Produced P) : y.Safe P ∧ x.stores.Grows P y.stores := by
  have hstores : y.stores.Sound P ∧ x.stores.Grows P y.stores := by
    cases h with
    | @process st st' p p' before after hstep =>
      have hmem (q : Process) : q ∈ before ++ q :: after :=
        List.mem_append_right _ List.mem_cons_self
      obtain ⟨hsound, hg, -⟩ :=
        hstep.safe hP hx.stores (hx.processes p (hmem p)) (hy p' (hmem p'))
      exact ⟨hsound, hg⟩
    | spawn _ => exact ⟨hx.stores, .refl _⟩
    | crash => exact ⟨hx.stores, .refl _⟩
  obtain ⟨hsound, hg⟩ := hstores
  refine ⟨⟨hsound, h.forall_processes (Q := fun st p => p.Safe P st) hx.processes ?_ ?_ ?_⟩, hg⟩
  · intro p hp p' hp' st' hstep
    exact (hstep.safe hP hx.stores (hx.processes p hp) (hy p' hp')).2.2
  · exact fun p _ hsafe => hsafe.mono hg
  · exact fun _ _ _ _ _ hs => Process.safe_spawn hs

/-- Every reachable system is safe. -/
theorem System.Reachable.safe (hP : SameContent P) {db : Database} (hdb : DatabaseAgrees P db)
    (hx : System.Reachable F P db x) : x.Safe P := by
  induction hx with
  | init =>
    exact ⟨⟨hdb, fun row hr => (by cases hr), fun r hr => (by cases hr)⟩,
      fun p hp => (by cases hp)⟩
  | step _ hs hy ih => exact (hs.safe hP ih hy).1

end

/-- **Custody.**  What `append` has committed is in the spool or in the main
    database at every later moment, whatever fails, times out, takes effect late or
    crashes; and a row leaves the spool only if its poll result is in the main
    database by then. -/
theorem spool_keeps_custody {P : WorkerPollResult → Prop} (hP : SameContent P) {db : Database}
    (hdb : DatabaseAgrees P db) {x : System} (hx : System.Reachable .any P db x) :
    (∀ r ∈ x.stores.appended, x.stores.spool.Holds r ∨ Stored x.stores.database r) ∧
    ∀ y, SystemStep .any x y → y.Produced P → ∀ row ∈ x.stores.spool.rows,
      row.executionId ∉ y.stores.spool.ids → ∃ r, row.Holds r ∧ Stored x.stores.database r := by
  have hsafe := hx.safe hP hdb
  refine ⟨fun r hr => (hsafe.stores.kept r hr).2, fun y hy hprod row hrow hgone => ?_⟩
  obtain ⟨-, hg⟩ := hy.safe hP hsafe hprod
  obtain ⟨r, hr, hh⟩ := hsafe.stores.rows row hrow
  rcases hg.held r hr ⟨row, hrow, hh⟩ with ⟨row', hm, hh'⟩ | hs
  · exact absurd (List.mem_map.2 ⟨row', hm, hh'.1.trans hh.1.symm⟩) hgone
  · exact ⟨r, hh, hs⟩

/-- The database is locked at first; the item is spooled, and replayed later. -/
def replayItem : List Event :=
  takeItem ++ [.start, .fail (.operationalError "database is locked"), .finish, .deliver] ++
    runJob ++ [.enter] ++ runJob ++ runJob ++ runJob

/-- An item that has left the spool is in the main database. -/
theorem spool_keeps_custody_replayed : ∃ x,
    System.Reachable .any (· = testItem) testDatabase x ∧ x.stores.appended = [testItem] ∧
      x.stores.spool.rows = [] ∧ Stored x.stores.database testItem := by
  have hplay : ((Process.play .any (fun _ => true) [testItem] replayItem
      (.spawn (testConfig true) 1 1 testState, .fresh testDatabase)).map
        fun y => (y.2.appended, y.2.spool.rows.isEmpty)) = some ([testItem], true) := by
    decide +kernel
  obtain ⟨y, hy, hobs⟩ := Option.map_eq_some_iff.1 hplay
  obtain ⟨happ, hempty⟩ := Prod.mk.inj hobs
  rw [List.isEmpty_iff] at hempty
  have hx := Process.play_sound (P := (· = testItem)) (fun _ _ _ => trivial)
    (fun r hr => List.mem_singleton.1 hr) (Process.reachable_spawn _ _ _ _ _ _) hy
  have hP : SameContent (· = testItem) := by
    rintro r r' rfl rfl -
    rfl
  have hmem : testItem ∈ y.2.appended := by
    rw [happ]
    exact List.mem_singleton_self _
  refine ⟨_, hx, happ, hempty, ?_⟩
  rcases (spool_keeps_custody hP (databaseAgrees_testDatabase _) hx).1 testItem hmem with hk | hk
  · obtain ⟨row, hrow, -⟩ := hk
    rw [hempty] at hrow
    cases hrow
  · exact hk

end PlcGateway
