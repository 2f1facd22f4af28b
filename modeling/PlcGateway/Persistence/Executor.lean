/-
  Writer processes, their thread pools, and the two SQLite files.

  A process runs one writer over one pool of threads.  A submitted job waits for a
  thread, runs, takes effect in one transaction, and hands its result over; the
  writer that waits for it may give up at any moment.  A job that has not started
  by then never runs, and one that is running takes effect later, or never.
  Processes share the spool file and the main database, and may crash.
-/
import PlcGateway.Persistence.Stored
import PlcGateway.Persistence.WriterRun
import Mathlib.Data.PNat.Basic

namespace PlcGateway

open Coroutine Relation Calendar

/-! ## Jobs -/

/-- The files, and as a history variable what `append` has committed. -/
structure Stores where
  database : Database
  spool : SpoolTable
  appended : List WorkerPollResult

/-- The handle of a process on the spool file. -/
def Stores.handle (st : Stores) (maxItems : ℕ+) : DurableSqliteSpool :=
  ⟨maxItems, 0, 0, 0, st.spool, maxItems.pos⟩

/-- A transaction of the main database. -/
def Stores.save (batch : List WorkerPollResult) (st : Stores) : Except PyError ℕ × Stores :=
  match savePollResults batch st.database with
  | .ok (n, database) => (.ok n, { st with database })
  | .error e => (.error e, st)

/-- What a job does to the files, and its result. -/
def Job.execute (maxItems : ℕ+) (now : DateTime) :
    (job : Job) → Stores → Except PyError job.Res × Stores
  | .savePollResults batch, st => st.save batch
  | .append batch, st =>
    let (r, spool) := (st.handle maxItems).append now batch
    let appended := if r.isOk then st.appended ++ batch else st.appended
    (r, { st with spool := spool.table, appended })
  | .fetchDue limit, st => ((st.handle maxItems).fetchDue limit now, st)
  | .markReplayed executionIds, st =>
    let (r, spool) := (st.handle maxItems).markReplayed executionIds
    (r, { st with spool := spool.table })
  | .markFailed executionIds retryDelayS, st =>
    let (r, spool) := (st.handle maxItems).markFailed executionIds retryDelayS now
    (r, { st with spool := spool.table })

/-- What may come of a job that a thread runs: its result, or an exception before
    or after it has taken effect. -/
inductive Executes (maxItems : ℕ+) (job : Job) (st : Stores) : Except PyError job.Res → Stores → Prop
  | done (now : DateTime) :
      Executes maxItems job st (job.execute maxItems now st).1 (job.execute maxItems now st).2
  | failed (e : PyError) : Executes maxItems job st (.error e) st
  | failedAfter (now : DateTime) (e : PyError) :
      Executes maxItems job st (.error e) (job.execute maxItems now st).2

/-! ## Processes -/

/-- How far a submitted job is. -/
inductive Phase (job : Job) where
  | queued
  | running
  | executed (r : Except PyError job.Res)
  | returned (r : Except PyError job.Res)

/-- A job that the writer waits for; it is `late` when every thread was busy as it
    was submitted. -/
structure Submission where
  job : Job
  late : Bool
  phase : Phase job

/-- The threads that a submission keeps busy. -/
def Submission.busy (c : Submission) : ℕ :=
  match c.phase with
  | .running | .executed _ => 1
  | .queued | .returned _ => 0

/-- A writer on its pool.  `abandoned` are the running jobs that nobody waits for,
    and `hung` counts the threads of such jobs that have taken effect or failed. -/
structure Process where
  cfg : WriterConfig
  maxItems : ℕ+
  threads : ℕ+
  config : Config WriterCalls WriterState PyError
  awaited : Option Submission
  abandoned : List Job
  hung : ℕ

namespace Process

/-- The number of busy threads. -/
def busy (p : Process) : ℕ := p.abandoned.length + p.hung + (p.awaited.map Submission.busy).getD 0

/-- Submit the job that the control waits for. -/
def submission (late : Bool) : Control WriterCalls WriterState PyError → Option Submission
  | .suspended (.toThread job _) _ => some ⟨job, late, .queued⟩
  | _ => none

/-- The writer has gone on to `config`; nothing else of it is on the pool. -/
def goOn (p : Process) (config : Config WriterCalls WriterState PyError) : Process :=
  let late : Bool := p.threads ≤ p.abandoned.length + p.hung
  { p with config, awaited := submission late config.control }

/-- The writer no longer waits for its job. -/
def giveUp (p : Process) (c : Submission) : Process :=
  match c.phase with
  | .queued | .returned _ => p
  | .running => { p with abandoned := p.abandoned ++ [c.job] }
  | .executed _ => { p with hung := p.hung + 1 }

/-- A writer that is about to start. -/
def spawn (cfg : WriterConfig) (maxItems threads : ℕ+) (s : WriterState) : Process where
  cfg
  maxItems
  threads
  config := ⟨s, [], .boundary⟩
  awaited := none
  abandoned := []
  hung := 0

end Process

/-- The result of a job, as the writer sees it. -/
def jobOutcome {α : Type} : Except PyError α → Outcome PyError α
  | .ok a => .ok a
  | .error e => .error (.error e)

/-- What the surroundings allow: the results of jobs, and the timeouts. -/
structure Surroundings where
  result : (job : Job) → Except PyError job.Res → Bool
  timeout : Submission → Stores → Prop

/-- Surroundings in which everything may fail. -/
def Surroundings.any : Surroundings := ⟨fun _ _ => true, fun _ _ => True⟩

/-- One step of a process. -/
inductive ProcessStep (F : Surroundings) : Process × Stores → Process × Stores → Prop
  | env {p : Process} {st : Stores} {s' : WriterState} :
      WriterEnv p.config.state s' →
      ProcessStep F (p, st) ({ p with config := { p.config with state := s' } }, st)
  | enter {p : Process} {st : Stores} :
      p.config.control = .boundary →
      ProcessStep F (p, st)
        (p.goOn (.settle p.config.history (Writer.runIteration p.cfg p.config.state)), st)
  | resume {p : Process} {st : Stores} {c : WriterCall}
      {k : Outcome PyError c.Res → WriterState → Coro WriterCalls WriterState PyError Bool}
      {r : Outcome PyError c.Res} :
      p.config.control = .suspended c k → (∀ job t, c ≠ .toThread job t) →
      writerAnswer c p.config.state r →
      ProcessStep F (p, st)
        (p.goOn (.settle (p.config.history ++ [⟨c, r⟩]) (k r p.config.state)), st)
  | start {p : Process} {st : Stores} {job : Job} {late : Bool} :
      p.awaited = some ⟨job, late, .queued⟩ → p.busy < p.threads →
      ProcessStep F (p, st) ({ p with awaited := some ⟨job, late, .running⟩ }, st)
  | execute {p : Process} {st st' : Stores} {job : Job} {late : Bool} {r : Except PyError job.Res} :
      p.awaited = some ⟨job, late, .running⟩ → Executes p.maxItems job st r st' → F.result job r →
      ProcessStep F (p, st) ({ p with awaited := some ⟨job, late, .executed r⟩ }, st')
  | finish {p : Process} {st : Stores} {job : Job} {late : Bool} {r : Except PyError job.Res} :
      p.awaited = some ⟨job, late, .executed r⟩ →
      ProcessStep F (p, st) ({ p with awaited := some ⟨job, late, .returned r⟩ }, st)
  | deliver {p : Process} {st : Stores} {job : Job} {t : ℚ} {late : Bool}
      {k : Outcome PyError job.Res → WriterState → Coro WriterCalls WriterState PyError Bool}
      {r : Except PyError job.Res} :
      p.config.control = .suspended (.toThread job t) k →
      p.awaited = some ⟨job, late, .returned r⟩ →
      ProcessStep F (p, st) (p.goOn (.settle
        (p.config.history ++ [⟨.toThread job t, jobOutcome r⟩]) (k (jobOutcome r) p.config.state)), st)
  | timeout {p : Process} {st : Stores} {job : Job} {t : ℚ} {late : Bool} {phase : Phase job}
      {k : Outcome PyError job.Res → WriterState → Coro WriterCalls WriterState PyError Bool} :
      p.config.control = .suspended (.toThread job t) k →
      p.awaited = some ⟨job, late, phase⟩ → F.timeout ⟨job, late, phase⟩ st →
      ProcessStep F (p, st) ((p.giveUp ⟨job, late, phase⟩).goOn (.settle
        (p.config.history ++ [⟨.toThread job t, .error (.error .timeout)⟩])
        (k (.error (.error .timeout)) p.config.state)), st)
  | cancel {p : Process} {st : Stores} {job : Job} {t : ℚ} {late : Bool} {phase : Phase job}
      {k : Outcome PyError job.Res → WriterState → Coro WriterCalls WriterState PyError Bool} :
      p.config.control = .suspended (.toThread job t) k →
      p.awaited = some ⟨job, late, phase⟩ →
      ProcessStep F (p, st) ((p.giveUp ⟨job, late, phase⟩).goOn (.settle
        (p.config.history ++ [⟨.toThread job t, .error .cancelled⟩])
        (k (.error .cancelled) p.config.state)), st)
  | executeAbandoned {p : Process} {st st' : Stores} {before after : List Job} {job : Job}
      {r : Except PyError job.Res} :
      p.abandoned = before ++ job :: after → Executes p.maxItems job st r st' → F.result job r →
      ProcessStep F (p, st) ({ p with abandoned := before ++ after, hung := p.hung + 1 }, st')
  | finishAbandoned {p : Process} {st : Stores} {n : ℕ} :
      p.hung = n + 1 → ProcessStep F (p, st) ({ p with hung := n }, st)

/-! ## The system -/

structure System where
  stores : Stores
  processes : List Process

/-- One step of the system: of a process, or the start or the crash of one. -/
inductive SystemStep (F : Surroundings) : System → System → Prop
  | process {st st' : Stores} {p p' : Process} {before after : List Process} :
      ProcessStep F (p, st) (p', st') →
      SystemStep F ⟨st, before ++ p :: after⟩ ⟨st', before ++ p' :: after⟩
  | spawn {st : Stores} {ps : List Process} {cfg : WriterConfig} {maxItems threads : ℕ+}
      {maxSize : ℕ} {s : WriterState} :
      (WriterState.init (.empty maxSize)).start = .ok s →
      SystemStep F ⟨st, ps⟩ ⟨st, ps ++ [.spawn cfg maxItems threads s]⟩
  | crash {st : Stores} {p : Process} {before after : List Process} :
      SystemStep F ⟨st, before ++ p :: after⟩ ⟨st, before ++ after⟩

/-- A step keeps what holds of every process on the files, if a step of a process does, the
    others keep it on the new files, and a process that starts has it. -/
theorem SystemStep.forall_processes {F : Surroundings} {x y : System} {Q : Stores → Process → Prop}
    (h : SystemStep F x y) (hx : ∀ p ∈ x.processes, Q x.stores p)
    (hstep : ∀ p ∈ x.processes, ∀ p' ∈ y.processes, ∀ st',
      ProcessStep F (p, x.stores) (p', st') → Q st' p')
    (hothers : ∀ p ∈ x.processes, Q x.stores p → Q y.stores p)
    (hspawn : ∀ cfg maxItems threads maxSize s, (WriterState.init (.empty maxSize)).start = .ok s →
      Q x.stores (Process.spawn cfg maxItems threads s)) :
    ∀ p ∈ y.processes, Q y.stores p := by
  intro q hq
  cases h with
  | @process st st' p p' before after hp =>
    have hmem : p ∈ before ++ p :: after := List.mem_append_right _ List.mem_cons_self
    have hmem' : p' ∈ before ++ p' :: after := List.mem_append_right _ List.mem_cons_self
    rcases List.mem_append.1 hq with hbefore | hafter
    · have hq' := List.mem_append_left (p :: after) hbefore
      exact hothers q hq' (hx q hq')
    rcases List.mem_cons.1 hafter with rfl | hafter
    · exact hstep p hmem q hmem' st' hp
    · have hq' := List.mem_append_right before (List.mem_cons_of_mem p hafter)
      exact hothers q hq' (hx q hq')
  | spawn hs =>
    rcases List.mem_append.1 hq with hold | hnew
    · exact hx q hold
    · rw [List.mem_singleton.1 hnew]
      exact hspawn _ _ _ _ _ hs
  | crash =>
    refine hx q ?_
    rcases List.mem_append.1 hq with hbefore | hafter
    · exact List.mem_append_left _ hbefore
    · exact List.mem_append_right _ (List.mem_cons_of_mem _ hafter)

/-- Every poll result that was put into a queue is in `P`. -/
def System.Produced (P : WorkerPollResult → Prop) (x : System) : Prop :=
  ∀ p ∈ x.processes, ∀ r ∈ p.config.state.log.puts, P r

/-- The files at the beginning: an empty spool beside the database. -/
def Stores.fresh (db : Database) : Stores := ⟨db, .empty, []⟩

/-- The systems that can be reached while the queues are given poll results in `P`. -/
inductive System.Reachable (F : Surroundings) (P : WorkerPollResult → Prop) (db : Database) :
    System → Prop
  | init : System.Reachable F P db ⟨.fresh db, []⟩
  | step {x y : System} :
      System.Reachable F P db x → SystemStep F x y → y.Produced P → System.Reachable F P db y

end PlcGateway
