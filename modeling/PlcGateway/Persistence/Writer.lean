/-
  The batched database writer (`persistence/writer.py`).

  The methods of `DatabaseWriter` are coroutines over `WriterState`, which has the
  fields of the writer, the queue, the stop event, and the get task of
  `_wait_for_item_or_stop`.  Between two awaits the environment puts items, asks
  the writer to stop, and lets the get task go on (`WriterEnv`).  `runIteration` is
  one round of the loop of `run`, with its exception handler and its `finally`.
-/
import PlcGateway.Library.Loop
import PlcGateway.Persistence.Spool
import PlcGateway.Runtime.ReadingQueue
import PlcGateway.Runtime.Retry

namespace PlcGateway

open Coroutine

/-! ## Calls -/

/-- What the writer runs on a thread. -/
inductive Job where
  | savePollResults (batch : List WorkerPollResult)
  | append (batch : List WorkerPollResult)
  | fetchDue (limit : ℕ)
  | markReplayed (executionIds : List String)
  | markFailed (executionIds : List String) (retryDelayS : ℚ)
  deriving DecidableEq

abbrev Job.Res : Job → Type
  | fetchDue _ => List SpoolEntry
  | savePollResults _ | append _ | markReplayed _ | markFailed .. => ℕ

/-- What the writer awaits: `asyncio.wait` for the get task and the stop task,
    answered with whether the stop task is done; `asyncio.gather` of the cancelled
    tasks, with what the get task has taken; a job on a thread; a sleep. -/
inductive WriterCall where
  | wait (timeoutS : ℚ)
  | gather (held : Option WorkerPollResult)
  | toThread (job : Job) (timeoutS : ℚ)
  | sleep (delayS : ℚ)
  deriving DecidableEq

abbrev WriterCall.Res : WriterCall → Type
  | wait _ => Bool
  | toThread job _ => job.Res
  | gather _ | sleep _ => Unit

abbrev WriterCalls : Calls := ⟨WriterCall, WriterCall.Res⟩

/-! ## Configuration and state -/

/-- The arguments of the constructor that pass its checks. -/
structure WriterConfig where
  batchSize : ℕ
  flushIntervalS : ℚ
  storageTimeoutS : ℚ
  retryPolicy : RetryPolicy
  hasSpool : Bool
  spoolReplayBatchSize : ℕ
  spoolRetryDelayS : ℚ
  spoolTimeoutS : ℚ
  batchSize_pos : 0 < batchSize
  flushInterval_pos : 0 < flushIntervalS
  storageTimeout_pos : 0 < storageTimeoutS
  replayBatchSize_pos : 0 < spoolReplayBatchSize
  retryDelay_nonneg : 0 ≤ spoolRetryDelayS
  spoolTimeout_pos : 0 < spoolTimeoutS

/-- `DatabaseWriter.__init__` -/
def WriterConfig.init (batchSize : ℤ) (flushIntervalS storageTimeoutS : ℚ) (maxRetries : ℤ)
    (retryDelayS : ℚ) (retryPolicy : Option RetryPolicy) (hasSpool : Bool)
    (spoolReplayBatchSize : Option ℤ) (spoolRetryDelayS : ℚ) (spoolTimeoutS : Option ℚ) :
    Except PyError WriterConfig := do
  if h₁ : batchSize ≤ 0 then throw (.valueError "batch_size must be positive.")
  else if h₂ : flushIntervalS ≤ 0 then throw (.valueError "flush_interval_s must be positive.")
  else if h₃ : storageTimeoutS ≤ 0 then throw (.valueError "storage_timeout_s must be positive.")
  else if maxRetries < 0 then throw (.valueError "max_retries must be non-negative.")
  else if retryDelayS < 0 then throw (.valueError "retry_delay_s must be non-negative.")
  else if h₄ : spoolReplayBatchSize.any (· ≤ 0) then
    throw (.valueError "spool_replay_batch_size must be positive.")
  else if h₅ : spoolRetryDelayS < 0 then
    throw (.valueError "spool_retry_delay_s must be non-negative.")
  else if h₆ : spoolTimeoutS.any (· ≤ 0) then
    throw (.valueError "spool_timeout_s must be positive.")
  else
    let policy ← match retryPolicy with
      | some policy => pure policy
      | none => RetryPolicy.ofLegacySettings maxRetries.toNat retryDelayS
    return {
      batchSize := batchSize.toNat
      flushIntervalS, storageTimeoutS
      retryPolicy := policy
      hasSpool
      spoolReplayBatchSize := (spoolReplayBatchSize.getD batchSize).toNat
      spoolRetryDelayS
      spoolTimeoutS := spoolTimeoutS.getD storageTimeoutS
      batchSize_pos := toNat_pos h₁
      flushInterval_pos := not_le.1 h₂
      storageTimeout_pos := not_le.1 h₃
      replayBatchSize_pos := by
        cases spoolReplayBatchSize with
        | none => exact toNat_pos h₁
        | some n => simp only [Option.any_some, decide_eq_true_eq] at h₄; exact toNat_pos h₄
      retryDelay_nonneg := nonneg_of_not_neg h₅
      spoolTimeout_pos := by
        cases spoolTimeoutS with
        | none => exact not_le.1 h₃
        | some t => simp only [Option.any_some, decide_eq_true_eq] at h₆; exact not_le.1 h₆ }

/-- The task that runs `ReadingQueue.get`. -/
inductive GetTask where
  | created
  | waiting
  | holding (item : WorkerPollResult)
  deriving DecidableEq

/-- The counters of the writer. -/
structure WriterCounters where
  successfulBatches : ℕ := 0
  failedBatches : ℕ := 0
  successfulPollResults : ℕ := 0
  failedPollResults : ℕ := 0
  insertedReadings : ℕ := 0
  retryAttempts : ℕ := 0
  spooledPollResults : ℕ := 0
  spoolReplayedPollResults : ℕ := 0
  spoolFailedReplays : ℕ := 0
  spoolFullFailures : ℕ := 0
  deriving DecidableEq, Repr

/-- How a flush acknowledged its batch. -/
inductive Verdict where
  | persisted
  | spooled
  | failed
  deriving DecidableEq, Repr

/-- History variables, which no method reads: the items that entered the queue,
    the items that a get task took from it, and the acknowledged batches. -/
structure WriterLog where
  puts : List WorkerPollResult
  gets : List WorkerPollResult
  flushed : List (List WorkerPollResult × Verdict)

structure WriterState where
  queue : ReadingQueue WorkerPollResult
  stopRequested : Bool
  getTask : Option GetTask
  pendingBatch : List WorkerPollResult
  running : Bool
  stopped : Bool
  counters : WriterCounters
  lastError : Option String
  log : WriterLog

namespace WriterState

/-- A writer that has not run, over a queue. -/
def init (queue : ReadingQueue WorkerPollResult) : WriterState where
  queue
  stopRequested := false
  getTask := none
  pendingBatch := []
  running := false
  stopped := true
  counters := {}
  lastError := none
  log := ⟨queue.items, [], []⟩

/-- The start of `run`. -/
def start (s : WriterState) : Except PyError WriterState :=
  if s.running then throw (.runtimeError "DatabaseWriter is already running.")
  else return { s with running := true, stopped := false }

/-- `_should_stop` -/
def shouldStop (s : WriterState) : Bool :=
  s.stopRequested && s.queue.size == 0 && s.pendingBatch.isEmpty

/-- What the get task has taken and not handed over. -/
def held (s : WriterState) : List WorkerPollResult :=
  match s.getTask with
  | some (.holding item) => [item]
  | _ => []

end WriterState

/-- A step of the environment while the writer is suspended. -/
inductive WriterEnv : WriterState → WriterState → Prop
  | put {s : WriterState} {item : WorkerPollResult} {queue : ReadingQueue WorkerPollResult} :
      s.queue.putNowait item = some queue →
      WriterEnv s { s with queue, log := { s.log with puts := s.log.puts ++ [item] } }
  | putTimeout {s : WriterState} : WriterEnv s { s with queue := s.queue.putTimeout }
  | close {s : WriterState} : WriterEnv s { s with queue := s.queue.close }
  | stop {s : WriterState} : WriterEnv s { s with stopRequested := true }
  | getWaits {s : WriterState} :
      s.getTask = some .created → s.queue.items = [] →
      WriterEnv s { s with getTask := some .waiting }
  | getTakes {s : WriterState} {item : WorkerPollResult} {queue : ReadingQueue WorkerPollResult} :
      s.getTask = some .created ∨ s.getTask = some .waiting →
      s.queue.getNowait = some (item, queue) →
      WriterEnv s { s with
        queue, getTask := some (.holding item), log := { s.log with gets := s.log.gets ++ [item] } }

/-- The first step of a get task. -/
def runGetTask (s : WriterState) : WriterState :=
  match s.getTask, s.queue.getNowait with
  | some .created, some (item, queue) =>
    { s with queue, getTask := some (.holding item), log := { s.log with gets := s.log.gets ++ [item] } }
  | some .created, none => { s with getTask := some .waiting }
  | _, _ => s

/-- What the first step of a get task can do. -/
theorem runGetTask_cases (s : WriterState) :
    (∃ item queue, s.getTask = some .created ∧ s.queue.getNowait = some (item, queue) ∧
      runGetTask s = { s with
        queue, getTask := some (.holding item), log := { s.log with gets := s.log.gets ++ [item] } }) ∨
    (s.getTask = some .created ∧ s.queue.items = [] ∧
      runGetTask s = { s with getTask := some .waiting }) ∨
    s.getTask ≠ some .created ∧ runGetTask s = s := by
  by_cases hg : s.getTask = some .created
  · cases hq : s.queue.getNowait with
    | none =>
      refine .inr (.inl ⟨hg, ?_, ?_⟩)
      · cases hi : s.queue.items with
        | nil => rfl
        | cons item items =>
          rw [ReadingQueue.getNowait, hi] at hq
          cases hq
      · rw [runGetTask, hg, hq]
    | some p =>
      refine .inl ⟨p.1, p.2, hg, rfl, ?_⟩
      rw [runGetTask, hg, hq]
  · refine .inr (.inr ⟨hg, ?_⟩)
    unfold runGetTask
    split
    · exact absurd ‹_› hg
    · exact absurd ‹_› hg
    · rfl

theorem runGetTask_ne_created (s : WriterState) : (runGetTask s).getTask ≠ some .created := by
  rcases runGetTask_cases s with ⟨item, queue, -, -, he⟩ | ⟨-, -, he⟩ | ⟨hg, he⟩ <;> rw [he]
  · exact nofun
  · exact nofun
  · exact hg

theorem runGetTask_stopRequested (s : WriterState) :
    (runGetTask s).stopRequested = s.stopRequested := by
  rcases runGetTask_cases s with ⟨item, queue, -, -, he⟩ | ⟨-, -, he⟩ | ⟨-, he⟩ <;> rw [he]

/-- What a suspended writer may be answered.  `asyncio.wait` returns after the get
    task has had its first step, and `gather` collects exceptions. -/
def writerAnswer : (c : WriterCalls.Call) → WriterState → Outcome PyError (WriterCalls.Res c) → Prop
  | .wait _, s, r => match r with
    | .ok stopDone => s.getTask ≠ some .created ∧ (stopDone = true → s.stopRequested = true)
    | .error e => e = .cancelled
  | .gather _, _, r => r = .ok () ∨ r = .error .cancelled
  | .toThread .., _, _ => True
  | .sleep _, _, _ => True

/-- The answers of the surroundings, from the state of the writer and their own. -/
abbrev Answers (τ : Type) :=
  (c : WriterCall) → WriterState → τ → Outcome PyError c.Res × WriterState × τ

/-! ## Methods -/

abbrev WriterProg (α : Type) := Prog WriterCalls WriterState PyError α

namespace Writer
variable (cfg : WriterConfig)

def count (f : WriterCounters → WriterCounters) : WriterProg Unit :=
  .modify fun s => { s with counters := f s.counters }

/-- `self._last_error = str(error) or error.__class__.__name__` -/
def setLastError (e : PyError) : WriterProg Unit :=
  .modify fun s => { s with lastError := some e.describe }

/-- `asyncio.wait_for(asyncio.to_thread(job), timeout)` -/
def toThread (job : Job) (timeoutS : ℚ) : WriterProg job.Res :=
  Prog.await (C := WriterCalls) (.toThread job timeoutS)

/-- `_save_batch` -/
def saveBatch (batch : List WorkerPollResult) : WriterProg ℕ :=
  toThread (.savePollResults batch) cfg.storageTimeoutS

/-- `asyncio.sleep` -/
def sleep (delayS : ℚ) : WriterProg Unit := Prog.await (C := WriterCalls) (.sleep delayS)

/-- `_record_retry` -/
def recordRetry (_ : PyError) (_ : ℚ) (_ : ℕ) (s : WriterState) : WriterState :=
  { s with counters := { s.counters with retryAttempts := s.counters.retryAttempts + 1 } }

/-- `_persist_batch` -/
def persistBatch (batch : List WorkerPollResult) : WriterProg Bool := do
  match ← Prog.attempt (runWithRetry (saveBatch cfg batch) cfg.retryPolicy sleep
      (fun _ => defaultRandom) recordRetry) with
  | .error e =>
    setLastError e
    return false
  | .ok (inserted, _) =>
    count fun c => { c with insertedReadings := c.insertedReadings + inserted }
    return true

/-- `_spool_batch` -/
def spoolBatch (batch : List WorkerPollResult) : WriterProg Bool :=
  if cfg.hasSpool then do
    match ← Prog.attempt (toThread (.append batch) cfg.spoolTimeoutS) with
    | .error e =>
      setLastError e
      count fun c => { c with spoolFullFailures := c.spoolFullFailures + 1 }
      return false
    | .ok inserted =>
      count fun c => { c with spooledPollResults := c.spooledPollResults + inserted }
      return true
  else return false

/-- The replay of `entries` after they were persisted. -/
def markReplayed (entries : List SpoolEntry) : WriterProg Unit := do
  match ← Prog.attempt
      (toThread (.markReplayed (entries.map SpoolEntry.executionId)) cfg.spoolTimeoutS) with
  | .error e => setLastError e
  | .ok _ => count fun c =>
      { c with spoolReplayedPollResults := c.spoolReplayedPollResults + entries.length }

/-- The replay of `entries` after they could not be persisted. -/
def markFailed (entries : List SpoolEntry) : WriterProg Unit := do
  match ← Prog.attempt (toThread
      (.markFailed (entries.map SpoolEntry.executionId) cfg.spoolRetryDelayS) cfg.spoolTimeoutS) with
  | .error e => setLastError e
  | .ok _ => count fun c => { c with spoolFailedReplays := c.spoolFailedReplays + entries.length }

/-- `_replay_spool_once` -/
def replaySpoolOnce : WriterProg Bool :=
  if cfg.hasSpool then do
    match ← Prog.attempt (toThread (.fetchDue cfg.spoolReplayBatchSize) cfg.spoolTimeoutS) with
    | .error e =>
      setLastError e
      return false
    | .ok entries =>
      if entries.isEmpty then return false
      else
        if ← persistBatch cfg (entries.map SpoolEntry.pollResult) then markReplayed cfg entries
        else markFailed cfg entries
        return true
  else return false

/-- The part of `_wait_for_item_or_stop` after `asyncio.wait`. -/
def collectItem (stopDone : Bool) : WriterProg (Option WorkerPollResult) := do
  match (← Prog.get).getTask with
  | some (.holding item) =>
    -- the get task is done: only a pending stop task is cancelled and collected
    if ¬ stopDone then Prog.await (C := WriterCalls) (.gather (some item))
    .modify fun s => { s with getTask := none }
    return some item
  | _ =>
    -- the get task is pending, and takes nothing once it is cancelled
    .modify fun s => { s with getTask := none }
    Prog.await (C := WriterCalls) (.gather none)
    return none

/-- `_wait_for_item_or_stop` -/
def waitForItemOrStop : WriterProg (Option WorkerPollResult) := do
  .modify fun s => { s with getTask := some .created }
  let stopDone ← Prog.await (C := WriterCalls) (.wait cfg.flushIntervalS)
  collectItem stopDone

def taskDone : WriterProg Unit := fun s =>
  match s.queue.taskDone with
  | .ok queue => .done { s with queue } (.ok ())
  | .error e => .done s (.error (.error e))

def tasksDone : ℕ → WriterProg Unit
  | 0 => return ()
  | n + 1 => do
    taskDone
    tasksDone n

/-- `_ack_batch`, which also logs the verdict. -/
def ackBatch (n : ℕ) (verdict : Verdict) : WriterProg Unit := do
  .modify fun s => { s with
    pendingBatch := s.pendingBatch.drop n
    log := { s.log with flushed := s.log.flushed ++ [(s.pendingBatch.take n, verdict)] } }
  tasksDone n

/-- `_flush_pending` -/
def flushPending : WriterProg Unit := do
  let batch := (← Prog.get).pendingBatch
  if batch.isEmpty then return ()
  else if ← persistBatch cfg batch then
    .modify fun s => { s with
      counters := { s.counters with
        successfulBatches := s.counters.successfulBatches + 1
        successfulPollResults := s.counters.successfulPollResults + batch.length }
      lastError := none }
    ackBatch batch.length .persisted
  else if ← spoolBatch cfg batch then
    count fun c => { c with
      failedBatches := c.failedBatches + 1
      failedPollResults := c.failedPollResults + batch.length }
    ackBatch batch.length .spooled
  else
    count fun c => { c with
      failedBatches := c.failedBatches + 1
      failedPollResults := c.failedPollResults + batch.length }
    ackBatch batch.length .failed

/-- The part of `_consume_or_flush` after the replay. -/
def consume : WriterProg Unit := do
  let s ← Prog.get
  if cfg.batchSize ≤ s.pendingBatch.length then flushPending cfg
  else if s.stopRequested && s.queue.size == 0 then flushPending cfg
  else
    match ← waitForItemOrStop cfg with
    | none => flushPending cfg
    | some item =>
      .modify fun s => { s with pendingBatch := s.pendingBatch ++ [item] }
      if cfg.batchSize ≤ (← Prog.get).pendingBatch.length then flushPending cfg

/-- `_consume_or_flush` -/
def consumeOrFlush : WriterProg Unit := do
  if (← Prog.get).pendingBatch.isEmpty then
    if ← replaySpoolOnce cfg then return ()
    else consume cfg
  else consume cfg

/-- The body of the `while` loop: whether to go round again. -/
def round : WriterProg Bool := do
  if (← Prog.get).shouldStop then return false
  else
    consumeOrFlush cfg
    return true

/-- The `finally` of `run`, which goes on with the outcome of its `try`. -/
def leave (r : Outcome PyError Bool) : WriterProg Bool := do
  flushPending cfg
  .modify fun s => { s with running := false, stopped := true }
  Prog.conclude r

/-- One round of `run`: the loop body, the handler of a cancellation, and the
    `finally` when the loop is left. -/
def runIteration : WriterProg Bool := do
  match ← Prog.outcome (Prog.onCancelled (round cfg) (flushPending cfg)) with
  | .ok true => return true
  | r => leave cfg r

/-- One step of a writer with its environment. -/
abbrev Step : Config WriterCalls WriterState PyError → Config WriterCalls WriterState PyError → Prop :=
  LoopStep (runIteration cfg) WriterEnv writerAnswer

/-- The runs of `run` over a queue. -/
def Run (queue : ReadingQueue WorkerPollResult) (x : Config WriterCalls WriterState PyError) : Prop :=
  ∃ s, (WriterState.init queue).start = .ok s ∧
    Relation.ReflTransGen (Step cfg) ⟨s, [], .boundary⟩ x

end Writer

/-! ## A writer of batches of one item, without retries -/

def oneAttempt : RetryPolicy where
  maxAttempts := 1
  initialDelayS := 0
  maxDelayS := 0
  multiplier := 1
  jitterRatio := 0
  attempts_pos := by decide
  initial_nonneg := le_rfl
  initial_le_max := le_rfl
  one_le_multiplier := le_rfl
  jitter_nonneg := le_rfl
  jitter_le_one := zero_le_one

def testConfig (hasSpool : Bool) : WriterConfig where
  batchSize := 1
  flushIntervalS := 1
  storageTimeoutS := 1
  retryPolicy := oneAttempt
  hasSpool := hasSpool
  spoolReplayBatchSize := 1
  spoolRetryDelayS := 0
  spoolTimeoutS := 1
  batchSize_pos := by decide
  flushInterval_pos := zero_lt_one
  storageTimeout_pos := zero_lt_one
  replayBatchSize_pos := by decide
  retryDelay_nonneg := le_rfl
  spoolTimeout_pos := zero_lt_one

def testState : WriterState := { WriterState.init (.empty 1) with running := true, stopped := false }

end PlcGateway
