/-
  What the methods of the writer do, whatever the environment does.

  `Account` is the invariant: the taken items are the acknowledged batches, the
  pending batch and what the get task holds, in this order, and the queue and the
  counters agree with them.  Each method has one specification, a weakest
  precondition under the contract `writerContract`.
-/
import PlcGateway.Persistence.Writer
import Mathlib.Algebra.BigOperators.Group.List.Basic

namespace PlcGateway

open Coroutine Relation

abbrev WriterHistory := History WriterCalls PyError

/-! ## Histories -/

/-- A job has returned. -/
def Returned (h : WriterHistory) (job : Job) (r : job.Res) : Prop :=
  ∃ t, (⟨.toThread job t, .ok r⟩ : (c : WriterCall) × Outcome PyError c.Res) ∈ h

/-- A job has raised, or timed out. -/
def Failed (h : WriterHistory) (job : Job) : Prop :=
  ∃ t e, (⟨.toThread job t, .error (.error e)⟩ : (c : WriterCall) × Outcome PyError c.Res) ∈ h

/-- The batch was in a `save_poll_results` call that returned. -/
def Saved (h : WriterHistory) (batch : List WorkerPollResult) : Prop :=
  ∃ n, Returned h (.savePollResults batch) n

theorem Returned.mono {h t : WriterHistory} {job : Job} {r : job.Res} (hr : Returned h job r) :
    Returned (h ++ t) job r := by
  obtain ⟨d, hm⟩ := hr
  exact ⟨d, List.mem_append_left _ hm⟩

theorem Failed.mono {h t : WriterHistory} {job : Job} (hf : Failed h job) : Failed (h ++ t) job := by
  obtain ⟨d, e, hm⟩ := hf
  exact ⟨d, e, List.mem_append_left _ hm⟩

theorem Saved.mono {h t : WriterHistory} {batch : List WorkerPollResult} (hs : Saved h batch) :
    Saved (h ++ t) batch := hs.imp fun _ => Returned.mono

def isCancelled (x : (c : WriterCall) × Outcome PyError c.Res) : Bool :=
  match x.2 with
  | .error .cancelled => true
  | _ => false

/-- A cancellation while the get task is left behind: at `asyncio.wait`, or at the
    `gather` that follows when the get task is done. -/
def losesItem (x : (c : WriterCall) × Outcome PyError c.Res) : Bool :=
  isCancelled x && match x.1 with
    | .wait _ => true
    | .gather held => held.isSome
    | _ => false

/-- The number of cancellations that were delivered. -/
def cancellations (h : WriterHistory) : ℕ := h.countP isCancelled

def losses (h : WriterHistory) : ℕ := h.countP losesItem

@[simp] theorem cancellations_append (h t : WriterHistory) :
    cancellations (h ++ t) = cancellations h + cancellations t := List.countP_append

@[simp] theorem losses_append (h t : WriterHistory) : losses (h ++ t) = losses h + losses t :=
  List.countP_append

/-! ## The account -/

/-- The number of items in the batches. -/
def itemCount (batches : List (List WorkerPollResult × Verdict)) : ℕ :=
  (batches.map fun b => b.1.length).sum

/-- Why a batch was acknowledged. -/
def VerdictHolds (cfg : WriterConfig) (h : WriterHistory) (batch : List WorkerPollResult) :
    Verdict → Prop
  | .persisted => Saved h batch
  | .spooled => ∃ n, Returned h (.append batch) n
  | .failed => cfg.hasSpool = false ∨ Failed h (.append batch)

structure Account (cfg : WriterConfig) (s : WriterState) (h : WriterHistory) : Prop where
  taken : s.log.gets = (s.log.flushed.map Prod.fst).flatten ++ s.pendingBatch ++ s.held
  queued : s.log.puts = s.log.gets ++ s.queue.items
  unfinished : s.queue.unfinished = s.queue.size + s.pendingBatch.length + s.held.length
  successful : s.counters.successfulPollResults =
    itemCount (s.log.flushed.filter fun b => b.2 = .persisted)
  failed : s.counters.failedPollResults =
    itemCount (s.log.flushed.filter fun b => b.2 ≠ .persisted)
  sizes : ∀ b ∈ s.log.flushed, 0 < b.1.length ∧ b.1.length ≤ cfg.batchSize
  verdicts : ∀ b ∈ s.log.flushed, VerdictHolds cfg h b.1 b.2

/-- The state after the pending batch was acknowledged. -/
def WriterState.acknowledge (s : WriterState) (v : Verdict) : WriterState :=
  { s with
    pendingBatch := []
    queue := { s.queue with unfinished := s.queue.unfinished - s.pendingBatch.length }
    log := { s.log with flushed := s.log.flushed ++ [(s.pendingBatch, v)] } }

theorem VerdictHolds.mono {cfg : WriterConfig} {h t : WriterHistory} {batch : List WorkerPollResult}
    {v : Verdict} (hv : VerdictHolds cfg h batch v) : VerdictHolds cfg (h ++ t) batch v := by
  cases v with
  | persisted => exact Saved.mono hv
  | spooled => exact hv.imp fun _ => Returned.mono
  | failed => exact hv.imp_right Failed.mono

theorem Account.mono {cfg : WriterConfig} {s : WriterState} {h t : WriterHistory}
    (ha : Account cfg s h) : Account cfg s (h ++ t) :=
  { ha with verdicts := fun b hb => (ha.verdicts b hb).mono }

/-! ## The contract -/

/-- What the writer ensures when it submits a job: it saves what was put into the
    queue or what it fetched from the spool, it spools what was put into the queue,
    and it marks as replayed what it has fetched and then saved. -/
def writerIssue (cfg : WriterConfig) : WriterCall → WriterState → WriterHistory → Prop
  | .toThread (.savePollResults batch) _, s, h => (∀ r ∈ batch, r ∈ s.log.puts) ∨
      ∃ entries, Returned h (.fetchDue cfg.spoolReplayBatchSize) entries ∧
        batch = entries.map SpoolEntry.pollResult
  | .toThread (.append batch) _, s, _ => ∀ r ∈ batch, r ∈ s.log.puts
  | .toThread (.markReplayed ids) _, _, h => ∃ entries : List SpoolEntry,
      Returned h (.fetchDue cfg.spoolReplayBatchSize) entries ∧
        ids = entries.map SpoolEntry.executionId ∧ Saved h (entries.map SpoolEntry.pollResult)
  | _, _, _ => True

/-- The account is settled whenever the writer waits. -/
def writerContract (cfg : WriterConfig) : Contract WriterCalls WriterState PyError where
  issue c s h := Account cfg s h ∧ writerIssue cfg c s h
  rely := ReflTransGen WriterEnv
  answer := writerAnswer

/-! ## Quiet steps -/

/-- A step that leaves the batches alone: of the environment, or of the other
    counters and the last error. -/
inductive QuietStep : WriterState → WriterState → Prop
  | env {s s' : WriterState} : WriterEnv s s' → QuietStep s s'
  | books {s : WriterState} {c : WriterCounters} {e : Option String} :
      c.successfulPollResults = s.counters.successfulPollResults →
      c.failedPollResults = s.counters.failedPollResults →
      QuietStep s { s with counters := c, lastError := e }

abbrev Quiet : WriterState → WriterState → Prop := ReflTransGen QuietStep

theorem quiet_of_rely {s s' : WriterState} (h : ReflTransGen WriterEnv s s') : Quiet s s' :=
  ReflTransGen.lift id (fun _ _ => QuietStep.env) _ _ h

/-- What a quiet step keeps. -/
structure Kept (s s' : WriterState) : Prop where
  pendingBatch : s'.pendingBatch = s.pendingBatch
  getTask : s'.getTask.isSome = s.getTask.isSome
  running : s'.running = s.running
  stopped : s'.stopped = s.stopped
  puts : s.log.puts <+: s'.log.puts
  account : ∀ {cfg : WriterConfig} {h : WriterHistory}, Account cfg s h → Account cfg s' h

theorem held_of_getTask {s : WriterState} {item : WorkerPollResult}
    (h : s.getTask = some (.holding item)) : s.held = [item] := by
  rw [WriterState.held, h]

theorem kept_of_env {s s' : WriterState} (h : WriterEnv s s') : Kept s s' := by
  cases h with
  | @put item queue hq =>
    have hq := ReadingQueue.putNowait_eq_some hq
    subst hq
    refine ⟨rfl, rfl, rfl, rfl, List.prefix_append _ _,
      fun ha => { ha with queued := ?_, unfinished := ?_ }⟩
    · simp only [ha.queued, List.append_assoc]
    · have := ha.unfinished
      simp only [ReadingQueue.size, List.length_append, List.length_singleton] at this ⊢
      have hh : ∀ q l, WriterState.held { s with queue := q, log := l } = s.held := fun _ _ => rfl
      rw [hh]
      omega
  | putTimeout =>
    exact ⟨rfl, rfl, rfl, rfl, List.prefix_rfl, fun ha => ⟨ha.1, ha.2, ha.3, ha.4, ha.5, ha.6, ha.7⟩⟩
  | close =>
    exact ⟨rfl, rfl, rfl, rfl, List.prefix_rfl, fun ha => ⟨ha.1, ha.2, ha.3, ha.4, ha.5, ha.6, ha.7⟩⟩
  | stop =>
    exact ⟨rfl, rfl, rfl, rfl, List.prefix_rfl, fun ha => ⟨ha.1, ha.2, ha.3, ha.4, ha.5, ha.6, ha.7⟩⟩
  | getWaits hg hi =>
    have hh : s.held = [] := by rw [WriterState.held, hg]
    refine ⟨rfl, by rw [hg]; rfl, rfl, rfl, List.prefix_rfl, fun ha => ?_⟩
    obtain ⟨h1, h2, h3, h4, h5, h6, h7⟩ := ha
    rw [hh] at h1 h3
    exact ⟨h1, h2, h3, h4, h5, h6, h7⟩
  | @getTakes item queue hg hq =>
    have hh : s.held = [] := by rcases hg with hg | hg <;> rw [WriterState.held, hg]
    obtain ⟨rest, hi, rfl⟩ : ∃ rest, s.queue.items = item :: rest ∧
        queue = { s.queue with items := rest } := by
      unfold ReadingQueue.getNowait at hq
      cases hi : s.queue.items with
      | nil => rw [hi] at hq; cases hq
      | cons a rest => rw [hi] at hq; cases hq; exact ⟨rest, rfl, rfl⟩
    refine ⟨rfl, by rcases hg with hg | hg <;> rw [hg] <;> rfl, rfl, rfl,
      List.prefix_rfl, fun ha => ?_⟩
    obtain ⟨h1, h2, h3, h4, h5, h6, h7⟩ := ha
    rw [hh] at h1 h3
    refine ⟨?_, ?_, ?_, h4, h5, h6, h7⟩
    · simp only [h1, List.append_nil]; rfl
    · simp only [h2, hi, List.append_assoc, List.singleton_append]
    · simp only [ReadingQueue.size, hi, List.length_cons, List.length_nil] at h3 ⊢
      rw [held_of_getTask rfl, List.length_singleton]
      omega

theorem kept_of_quietStep {s s' : WriterState} (h : QuietStep s s') : Kept s s' := by
  cases h with
  | env he => exact kept_of_env he
  | books h₁ h₂ =>
    exact ⟨rfl, rfl, rfl, rfl, List.prefix_rfl, fun ha =>
      ⟨ha.1, ha.2, ha.3, h₁.trans ha.4, h₂.trans ha.5, ha.6, ha.7⟩⟩

theorem kept_of_quiet {s s' : WriterState} (h : Quiet s s') : Kept s s' := by
  induction h with
  | refl => exact ⟨rfl, rfl, rfl, rfl, List.prefix_rfl, id⟩
  | tail _ hs ih =>
    have hk := kept_of_quietStep hs
    exact ⟨hk.1.trans ih.1, hk.2.trans ih.2, hk.3.trans ih.3, hk.4.trans ih.4, ih.5.trans hk.5,
      fun ha => hk.6 (ih.6 ha)⟩

/-- The writer has gone on quietly, with `n` cancellations on the way and no item lost. -/
structure Later (s : WriterState) (h : WriterHistory) (n : ℕ) (s' : WriterState)
    (h' : WriterHistory) : Prop where
  quiet : Quiet s s'
  history : ∃ t, h' = h ++ t ∧ cancellations t = n ∧ losses t = 0

theorem Later.refl (s : WriterState) (h : WriterHistory) : Later s h 0 s h :=
  ⟨.refl, [], (List.append_nil h).symm, rfl, rfl⟩

theorem Later.trans {s₁ s₂ s₃ : WriterState} {h₁ h₂ h₃ : WriterHistory} {m n : ℕ}
    (a : Later s₁ h₁ m s₂ h₂) (b : Later s₂ h₂ n s₃ h₃) : Later s₁ h₁ (m + n) s₃ h₃ := by
  obtain ⟨qa, t, rfl, hc, hl⟩ := a
  obtain ⟨qb, u, rfl, hc', hl'⟩ := b
  refine ⟨qa.trans qb, t ++ u, List.append_assoc _ _ _, ?_, ?_⟩
  · rw [cancellations_append, hc, hc']
  · rw [losses_append, hl, hl']

theorem Later.books {s s' : WriterState} {h h' : WriterHistory} {n : ℕ} (a : Later s h n s' h')
    {c : WriterCounters} {e : Option String}
    (h₁ : c.successfulPollResults = s'.counters.successfulPollResults)
    (h₂ : c.failedPollResults = s'.counters.failedPollResults) :
    Later s h n { s' with counters := c, lastError := e } h' :=
  ⟨a.quiet.tail (.books h₁ h₂), a.history⟩

theorem Later.account {cfg : WriterConfig} {s s' : WriterState} {h h' : WriterHistory} {n : ℕ}
    (a : Later s h n s' h') (ha : Account cfg s h) : Account cfg s' h' := by
  obtain ⟨q, t, rfl, -, -⟩ := a
  exact ((kept_of_quiet q).account ha).mono

/-- How a call that is no loss goes on. -/
theorem later_await {s s' : WriterState} {h : WriterHistory} (hr : ReflTransGen WriterEnv s s')
    {c : WriterCall} (hc : ∀ r, losesItem ⟨c, r⟩ = false) (r : Outcome PyError c.Res) :
    Later s h (if isCancelled ⟨c, r⟩ then 1 else 0) s' (h ++ [⟨c, r⟩]) := by
  refine ⟨quiet_of_rely hr, [⟨c, r⟩], rfl, ?_, ?_⟩
  · simp only [cancellations, List.countP_singleton]
  · simp only [losses, List.countP_singleton, hc r, Bool.false_eq_true, if_false]

end PlcGateway
