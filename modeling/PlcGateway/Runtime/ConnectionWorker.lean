/-
  The worker that owns one connection (`runtime/connection_worker.py`).

  The operations are coroutines over `ConnectionWorker`, which await the driver and
  the pauses between retries; several may be in flight, so that the worker changes
  while one is suspended.  Each is given the readings of the clock that it makes, in
  their order.  History variables say whether the driver is connected, and what the
  polls and health checks reported.
-/
import PlcGateway.Domain.Configuration
import PlcGateway.Runtime.Retry
import Mathlib.Tactic.NormNum

namespace PlcGateway

open Calendar Coroutine

/-! ## Calls -/

/-- What an operation awaits. -/
inductive WorkerCall where
  | connect
  | disconnect
  | read (requests : List TagRequest)
  | healthCheck
  | sleep (delayS : ℚ)

abbrev WorkerCall.Res : WorkerCall → Type
  | connect | disconnect | sleep _ => Unit
  | read _ => List TagResult
  | healthCheck => Bool

abbrev WorkerCalls : Calls := ⟨WorkerCall, WorkerCall.Res⟩

/-! ## The worker -/

/-- The arguments of the constructor that the operations use. -/
structure WorkerConfig where
  connection : ConnectionConfig
  connectRetryPolicy : RetryPolicy
  pollRetryPolicy : RetryPolicy

/-- What a poll or a health check found, and whether the driver was connected then. -/
inductive Report where
  | poll (results : List TagResult) (connected : Bool)
  | health (healthy connected : Bool)

/-- `DEFAULT_CONNECT_RETRY_POLICY` -/
def defaultConnectRetryPolicy : RetryPolicy where
  maxAttempts := 3
  initialDelayS := 1 / 10
  maxDelayS := 2
  multiplier := 2
  jitterRatio := 1 / 5
  attempts_pos := by norm_num
  initial_nonneg := by norm_num
  initial_le_max := by norm_num
  one_le_multiplier := by norm_num
  jitter_nonneg := by norm_num
  jitter_le_one := by norm_num

/-- `DEFAULT_POLL_RETRY_POLICY` -/
def defaultPollRetryPolicy : RetryPolicy where
  maxAttempts := 2
  initialDelayS := 1 / 20
  maxDelayS := 1
  multiplier := 2
  jitterRatio := 1 / 5
  attempts_pos := by norm_num
  initial_nonneg := by norm_num
  initial_le_max := by norm_num
  one_le_multiplier := by norm_num
  jitter_nonneg := by norm_num
  jitter_le_one := by norm_num

structure ConnectionWorker where
  state : WorkerState
  message : Option String
  errorCode : Option String
  errorMessage : Option String
  heartbeatAt : Option DateTime
  connectAttempts : ℕ
  connectSuccesses : ℕ
  connectFailures : ℕ
  connectRetryAttempts : ℕ
  pollAttempts : ℕ
  pollSuccesses : ℕ
  pollFailures : ℕ
  pollRetryAttempts : ℕ
  tagSuccesses : ℕ
  tagFailures : ℕ
  lastError : Option String
  connected : Bool
  reports : List Report

structure RuntimeComponentStatus where
  componentId : String
  state : WorkerState
  updatedAt : DateTime
  message : Option Stripped
  errorCode : Option Stripped
  errorMessage : Option Stripped
  deriving DecidableEq

/-! ## Results of a poll -/

/-- `_validate_poll_inputs` -/
def validatePollInputs (connection : ConnectionConfig) (group : TagGroupConfig)
    (tags : List TagConfig) : Except PyError Unit :=
  if group.connectionId ≠ connection.id then
    .error ⟨.configurationError, "ConfigurationError", "Tag group belongs to a different connection.",
      .text "worker_group_connection_mismatch"⟩
  else if tags.any (·.tagGroupId ≠ group.id) then
    .error ⟨.configurationError, "ConfigurationError", "Tags must belong to the polled tag group.",
      .text "worker_tag_group_mismatch"⟩
  else .ok ()

/-- `_tag_request_from_config` -/
def tagRequestFromConfig (group : TagGroupConfig) (tag : TagConfig) : TagRequest where
  tagId := tag.id
  address := tag.address
  valueType := tag.valueType
  timeoutMs := some group.timeoutMs
  timeout_pos := by
    intro t ht
    cases ht
    exact group.timeout_pos

/-- `_failure_result` -/
def workerFailureResult (tag : TagConfig) (error : PyError) (receivedAt : DateTime) :
    Except PyError TagResult :=
  TagResult.init tag.id.text .bad receivedAt none none (some error.errorCode) (some error.describe)

/-- The failure results of the tags, each with its own reading of the clock. -/
def failureResults (error : PyError) (clock : ℕ → DateTime) :
    List TagConfig → ℕ → Except PyError (List TagResult)
  | [], _ => .ok []
  | tag :: tags, k => do
    let result ← workerFailureResult tag error (clock k)
    let results ← failureResults error clock tags (k + 1)
    return result :: results

/-- `_poll_status` -/
def pollStatus (results : List TagResult) : PollStatus :=
  if results.isEmpty then .success
  else
    let failed := results.countP (!·.isSuccess)
    if failed = 0 then .success
    else if failed = results.length then .failed
    else .partialFailure

/-- `_poll_error_message` -/
def pollErrorMessage (results : List TagResult) : Option String :=
  let errors := results.filterMap fun r => r.errorMessage.map Stripped.text
  if errors.isEmpty then none else some ("; ".intercalate errors)

/-- The `PollExecution` of a poll. -/
def pollExecution (config : WorkerConfig) (group : TagGroupConfig) (tags : List TagConfig)
    (executionId : Stripped) (startedAt finishedAt : DateTime) (results : List TagResult) :
    Except PyError PollExecution :=
  PollExecution.init executionId.text config.connection.id.text group.id.text (pollStatus results)
    startedAt (some finishedAt) tags.length (results.countP (·.isSuccess))
    (results.countP (!·.isSuccess)) (pollErrorMessage results)

section
variable {config : WorkerConfig} {group : TagGroupConfig} {tags : List TagConfig}
  {executionId : Stripped} {startedAt finishedAt : DateTime} {results : List TagResult}

theorem pollExecution_eq (finished : startedAt ≤ finishedAt)
    (counts : results.countP (·.isSuccess) + results.countP (!·.isSuccess) ≤ tags.length) :
    pollExecution config group tags executionId startedAt finishedAt results =
      .ok ⟨executionId, config.connection.id, group.id, pollStatus results, startedAt,
          some finishedAt, tags.length, results.countP (·.isSuccess), results.countP (!·.isSuccess),
          setOptionalStripped (pollErrorMessage results), finished, counts⟩ := by
  simp only [pollExecution, PollExecution.init, setStripped_text, finished, dite_true, ok_bind,
    requireNonNegativeInt_natCast]
  exact dif_pos counts

/-- A poll whose clock steps back has no execution, nor has one with too many results. -/
theorem pollExecution_error (h : ¬ (startedAt ≤ finishedAt ∧
      results.countP (·.isSuccess) + results.countP (!·.isSuccess) ≤ tags.length)) :
    ∃ e, pollExecution config group tags executionId startedAt finishedAt results = .error e := by
  by_cases finished : startedAt ≤ finishedAt
  · have counts : ¬ results.countP (·.isSuccess) + results.countP (!·.isSuccess) ≤ tags.length :=
      fun counts => h ⟨finished, counts⟩
    simp only [pollExecution, PollExecution.init, setStripped_text, finished, dite_true, ok_bind,
      requireNonNegativeInt_natCast]
    exact ⟨_, dif_neg counts⟩
  · simp only [pollExecution, PollExecution.init, setStripped_text, ok_bind, finished, dite_false]
    exact ⟨_, rfl⟩

/-- A poll that has an execution is counted, and has the status of its results. -/
theorem pollExecution_eq_ok {execution : PollExecution}
    (h : pollExecution config group tags executionId startedAt finishedAt results = .ok execution) :
    startedAt ≤ finishedAt ∧ execution.status = pollStatus results ∧
      execution.requestedTags = tags.length ∧
      execution.successfulTags = results.countP (·.isSuccess) ∧
      execution.failedTags = results.countP (!·.isSuccess) := by
  by_cases hok : startedAt ≤ finishedAt ∧
      results.countP (·.isSuccess) + results.countP (!·.isSuccess) ≤ tags.length
  · rw [pollExecution_eq hok.1 hok.2] at h
    cases h
    exact ⟨hok.1, rfl, rfl, rfl, rfl⟩
  · obtain ⟨e, he⟩ := pollExecution_error hok
    rw [he] at h
    cases h
end

abbrev WorkerProg := Prog WorkerCalls ConnectionWorker PyError

namespace ConnectionWorker

/-- `ConnectionWorker.__init__` -/
def init : ConnectionWorker where
  state := .stopped
  message := none
  errorCode := none
  errorMessage := none
  heartbeatAt := none
  connectAttempts := 0
  connectSuccesses := 0
  connectFailures := 0
  connectRetryAttempts := 0
  pollAttempts := 0
  pollSuccesses := 0
  pollFailures := 0
  pollRetryAttempts := 0
  tagSuccesses := 0
  tagFailures := 0
  lastError := none
  connected := false
  reports := []

/-! ## Updates -/

/-- `_set_state` -/
def setState (now : DateTime) (state : WorkerState) (message : String)
    (errorCode errorMessage : Option String) (w : ConnectionWorker) : ConnectionWorker :=
  { w with state, message := some message, errorCode, errorMessage, heartbeatAt := some now }

/-- `_record_failure` -/
def recordFailure (now : DateTime) (error : PyError) (state : WorkerState) (w : ConnectionWorker) :
    ConnectionWorker :=
  { w with lastError := some error.describe }.setState now state "Worker operation failed."
    (some error.errorCode) (some error.message)

/-- `_record_connect_retry` -/
def recordConnectRetry (_error : PyError) (_delayS : ℚ) (_retryNumber : ℕ)
    (w : ConnectionWorker) : ConnectionWorker :=
  { w with connectRetryAttempts := w.connectRetryAttempts + 1 }

/-- `_record_poll_retry` -/
def recordPollRetry (_error : PyError) (_delayS : ℚ) (_retryNumber : ℕ) (w : ConnectionWorker) :
    ConnectionWorker :=
  { w with pollRetryAttempts := w.pollRetryAttempts + 1 }

/-- `_record_poll_metrics` -/
def recordPollMetrics (execution : PollExecution) (w : ConnectionWorker) : ConnectionWorker :=
  let w := if execution.status = .success then { w with pollSuccesses := w.pollSuccesses + 1 }
    else { w with pollFailures := w.pollFailures + 1 }
  { w with
    tagSuccesses := w.tagSuccesses + execution.successfulTags
    tagFailures := w.tagFailures + execution.failedTags
    lastError := execution.errorMessage.map Stripped.text }

/-- The state after a poll. -/
def setPolled (now : DateTime) (status : PollStatus) : ConnectionWorker → ConnectionWorker :=
  match status with
  | .success => setState now .running "Poll succeeded." none none
  | .partialFailure => setState now .degraded "Poll partially failed." none none
  | _ => setState now .degraded "Poll failed." none none

/-- The state after a poll is that of its status. -/
theorem setPolled_running_iff (now : DateTime) (status : PollStatus) (w : ConnectionWorker) :
    (setPolled now status w).state = .running ↔ status = .success := by
  cases status <;> simp [setPolled, setState]

/-- `status` -/
def status (config : WorkerConfig) (now : DateTime) (w : ConnectionWorker) :
    RuntimeComponentStatus where
  componentId := s!"connection-worker:{config.connection.id.text}"
  state := w.state
  updatedAt := w.heartbeatAt.getD now
  message := setOptionalStripped w.message
  errorCode := setOptionalStripped w.errorCode
  errorMessage := setOptionalStripped w.errorMessage

/-! ## Operations -/

section
variable (config : WorkerConfig) (clock : ℕ → DateTime) (jitter : ℕ → ℚ)

/-- `self._driver.connect()` -/
def driverConnect : WorkerProg Unit := do
  Prog.await (C := WorkerCalls) .connect
  .modify fun w => { w with connected := true }

/-- `self._driver.disconnect()` -/
def driverDisconnect : WorkerProg Unit := do
  .modify fun w => { w with connected := false }
  Prog.await (C := WorkerCalls) .disconnect

/-- `_connect_once` -/
def connectOnce : WorkerProg Unit := do
  .modify fun w => { w with connectAttempts := w.connectAttempts + 1 }
  driverConnect

/-- `self._driver.read(requests)` -/
def driverRead (requests : List TagRequest) : WorkerProg (List TagResult) :=
  Prog.await (C := WorkerCalls) (.read requests)

/-- `self._driver.health_check()` -/
def driverHealthCheck : WorkerProg Bool := Prog.await (C := WorkerCalls) .healthCheck

def retrySleep (delayS : ℚ) : WorkerProg Unit := Prog.await (C := WorkerCalls) (.sleep delayS)

/-- `_disconnect_after_cancellation`, which reads the clock from number `k` on. -/
def disconnectAfterCancellation (k : ℕ) : WorkerProg Unit := do
  .modify (setState (clock k) .stopping "Cancellation requested." none none)
  match ← Prog.attempt driverDisconnect with
  | .error error => .modify (recordFailure (clock (k + 1)) error .failed)
  | .ok () => .modify (setState (clock (k + 1)) .stopped "Cancelled." none none)

def connect : WorkerProg Unit := do
  .modify (setState (clock 0) .starting "Connecting." none none)
  match ← Prog.onCancelled (Prog.attempt (runWithRetry connectOnce config.connectRetryPolicy retrySleep
    jitter recordConnectRetry)) (disconnectAfterCancellation clock 1) with
  | .error error =>
    .modify fun w => recordFailure (clock 1) error .failed
      { w with connectFailures := w.connectFailures + 1 }
    .raise (.error error)
  | .ok _ =>
    .modify fun w => setState (clock 1) .running "Connected." none none
      { w with connectSuccesses := w.connectSuccesses + 1 }

def disconnect : WorkerProg Unit := do
  .modify (setState (clock 0) .stopping "Disconnecting." none none)
  match ← Prog.onCancelled (Prog.attempt driverDisconnect) (disconnectAfterCancellation clock 1) with
  | .error error =>
    .modify (recordFailure (clock 1) error .failed)
    .raise (.error error)
  | .ok () => .modify (setState (clock 1) .stopped "Disconnected." none none)

/-- The results of a poll, with the number of the next reading of the clock. -/
def readResults (group : TagGroupConfig) (tags : List TagConfig) :
    WorkerProg (List TagResult × ℕ) := do
  let requests := tags.map (tagRequestFromConfig group)
  match ← Prog.onCancelled (Prog.attempt (runWithRetry (driverRead requests) config.pollRetryPolicy
    retrySleep jitter recordPollRetry)) (disconnectAfterCancellation clock 1) with
  | .error error =>
    .modify (recordFailure (clock 1) error .degraded)
    let results ← .conclude (ofExcept (failureResults error clock tags 2))
    return (results, tags.length + 2)
  | .ok (results, _) => return (results, 1)

def pollGroup (group : TagGroupConfig) (tags : List TagConfig) (executionId : Stripped) :
    WorkerProg WorkerPollResult := do
  .conclude (ofExcept (validatePollInputs config.connection group tags))
  .modify fun w => { w with pollAttempts := w.pollAttempts + 1 }
  let (results, k) ← readResults config clock jitter group tags
  let execution ← .conclude (ofExcept
    (pollExecution config group tags executionId (clock 0) (clock k) results))
  .modify fun w => setPolled (clock (k + 1)) execution.status (recordPollMetrics execution
    { w with reports := w.reports ++ [.poll results w.connected] })
  return ⟨execution, results⟩

def healthCheck : WorkerProg RuntimeComponentStatus := do
  match ← Prog.onCancelled (Prog.attempt driverHealthCheck) (disconnectAfterCancellation clock 0) with
  | .error error =>
    .modify (recordFailure (clock 0) error .degraded)
  | .ok healthy =>
    .modify fun w =>
      let w := { w with reports := w.reports ++ [.health healthy w.connected] }
      if healthy then setState (clock 0) .running "Healthy." none none w
      else setState (clock 0) .degraded "Health check failed." none none w
  return status config (clock 1) (← .get)

end

end ConnectionWorker

/-! ## The worker of the tests -/

def fakeConfig : WorkerConfig where
  connection := ⟨mockConnection, ⟨"fake", by decide, by decide⟩, ⟨"fake://local", by decide, by decide⟩,
    true, 1000, [], fastGroupConfig.interval_pos⟩
  connectRetryPolicy := defaultConnectRetryPolicy
  pollRetryPolicy := defaultPollRetryPolicy

def temperatureConfig : TagConfig :=
  ⟨temperatureTag, fastGroup, ⟨"Temperature", by decide, by decide⟩,
    ⟨"fake://temperature", by decide, by decide⟩, .boolean, true, []⟩

def pressureConfig : TagConfig :=
  ⟨pressureTag, fastGroup, ⟨"Pressure", by decide, by decide⟩,
    ⟨"fake://pressure", by decide, by decide⟩, .integer, true, []⟩

/-- `FixedClock` -/
def fixedClock (_reading : ℕ) : DateTime := timestamp

end PlcGateway
