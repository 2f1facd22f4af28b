/-
  What comes of a poll.

  The reads, the pauses between them and the other operations of the worker are
  given (`PollInputs`).  A poll that is not cancelled makes its results from the last
  read, or from the exception that ends the retries, and then its summary.
-/
import PlcGateway.Runtime.ConnectionWorker

namespace PlcGateway

open Calendar Coroutine

/-- What a poll meets: the answers to its reads, the ends of its pauses and of the
    disconnect after a cancellation, and what the other operations do to the worker
    while a call is answered. -/
structure PollInputs where
  reads : ℕ → Outcome PyError (List TagResult)
  sleeps : ℕ → Outcome PyError Unit
  cleanup : Outcome PyError Unit
  others : WorkerCall → ℕ → ConnectionWorker → ConnectionWorker

namespace PollInputs

/-- The answer to a call after `k` reads. -/
def answer (inputs : PollInputs) (c : WorkerCall) (w : ConnectionWorker) (k : ℕ) :
    Outcome PyError c.Res × ConnectionWorker × ℕ :=
  match c with
  | .read requests => (inputs.reads k, inputs.others (.read requests) k w, k + 1)
  | .sleep d => (inputs.sleeps (k - 1), inputs.others (.sleep d) k w, k)
  | .disconnect => (inputs.cleanup, inputs.others .disconnect k w, k)
  | .connect => (.ok (), w, k)
  | .healthCheck => (.ok true, w, k)

/-- How the retries end, and the number of the last read. -/
def retried (inputs : PollInputs) (config : WorkerConfig) (jitter : ℕ → ℚ) :
    Outcome PyError (List TagResult) × ℕ :=
  retriedOrCancelled config.pollRetryPolicy jitter inputs.reads inputs.sleeps
    config.pollRetryPolicy.maxAttempts 0

/-- The answer to the last read. -/
def lastRead (inputs : PollInputs) (config : WorkerConfig) (jitter : ℕ → ℚ) :
    Outcome PyError (List TagResult) :=
  inputs.reads (inputs.retried config jitter).2

end PollInputs

/-- The results of a poll whose retries end with `last`, and the number of the next
    reading of the clock. -/
def resultsOf (clock : ℕ → DateTime) (tags : List TagConfig) :
    Outcome PyError (List TagResult) → Outcome PyError (List TagResult × ℕ)
  | .ok results => .ok (results, 1)
  | .error .cancelled => .error .cancelled
  | .error (.error e) => ofExcept ((failureResults e clock tags 2).map fun results =>
    (results, tags.length + 2))

/-- What comes of a poll whose retries end with `last`. -/
def pollOutcome (config : WorkerConfig) (clock : ℕ → DateTime) (group : TagGroupConfig)
    (tags : List TagConfig) (executionId : Stripped) (last : Outcome PyError (List TagResult)) :
    Outcome PyError WorkerPollResult :=
  match resultsOf clock tags last with
  | .error x => .error x
  | .ok (results, k) =>
    match pollExecution config group tags executionId (clock 0) (clock k) results with
    | .error e => .error (.error e)
    | .ok execution => .ok ⟨execution, results⟩

namespace ConnectionWorker

variable {config : WorkerConfig} {clock : ℕ → DateTime} {jitter : ℕ → ℚ} {group : TagGroupConfig}
  {tags : List TagConfig} {executionId : Stripped} {inputs : PollInputs}

/-! ## Execution -/

/-- The clean-up after a cancellation ends, or is cancelled itself. -/
theorem exec_disconnectAfterCancellation (inputs : PollInputs) (clock : ℕ → DateTime) (k : ℕ)
    (w : ConnectionWorker) (x : ℕ) (e : PyError) :
    ((disconnectAfterCancellation clock k w).exec inputs.answer x).1 ≠ .error (.error e) := by
  have hdisconnect : ∀ w, ((Prog.attempt driverDisconnect) w).exec inputs.answer x =
      (match inputs.cleanup with
        | .ok _ => .ok (.ok ())
        | .error (.error e) => .ok (.error e)
        | .error .cancelled => .error .cancelled,
        inputs.others .disconnect x { w with connected := false }, x) := by
    intro w
    rw [exec_attempt]
    have hdriver : (driverDisconnect w).exec inputs.answer x =
        (inputs.cleanup, inputs.others .disconnect x { w with connected := false }, x) := rfl
    rw [hdriver]
    rcases inputs.cleanup with (e | _) | _ <;> rfl
  rw [disconnectAfterCancellation]
  simp only [exec_bind, exec_modify, hdisconnect]
  rcases inputs.cleanup with (e | _) | _ <;> exact nofun

/-- The reads of a poll are tried again as given. -/
theorem exec_reads (inputs : PollInputs) (config : WorkerConfig) (jitter : ℕ → ℚ) (requests : List TagRequest)
    (w : ConnectionWorker) :
    ∃ o w' x', ((runWithRetry (driverRead requests) config.pollRetryPolicy retrySleep jitter
      recordPollRetry) w).exec inputs.answer 0 = (o, w', x') ∧
        EndsAs (inputs.retried config jitter).1 o := by
  have hread : ∀ k w x, x = k → ∃ w' x', (driverRead requests w).exec inputs.answer x =
      (inputs.reads k, w', x') ∧ x' = k + 1 := by
    rintro k w x rfl
    exact ⟨_, _, rfl, rfl⟩
  have hruns : ∃ o w' x', ((runWithRetry (driverRead requests) config.pollRetryPolicy retrySleep jitter
      recordPollRetry) w).exec inputs.answer 0 = (o, w', x') ∧
        EndsAs (inputs.retried config jitter).1 o ∧ x' = (inputs.retried config jitter).2 + 1 := by
    refine exec_runWithRetry_cancelled (I := fun k _ x => x = k) (J := fun k _ x => x = k + 1)
      hread ?_ rfl
    rintro k e d w x rfl
    refine ⟨_, _, rfl, ?_⟩
    cases inputs.sleeps k with
    | ok _ => rfl
    | error _ => rfl
  obtain ⟨o, w', x', hexec, hends, -⟩ := hruns
  exact ⟨o, w', x', hexec, hends⟩

theorem exec_readResults (inputs : PollInputs) (config : WorkerConfig) (clock : ℕ → DateTime)
    (jitter : ℕ → ℚ) (group : TagGroupConfig) (tags : List TagConfig) (w : ConnectionWorker) :
    ∃ w' x', (readResults config clock jitter group tags w).exec inputs.answer 0 =
      (resultsOf clock tags (inputs.retried config jitter).1, w', x') := by
  obtain ⟨o, w₁, x₁, hreads, hends⟩ :=
    exec_reads inputs config jitter (tags.map (tagRequestFromConfig group)) w
  simp only [readResults, exec_bind, exec_onCancelled, exec_attempt, hreads]
  rcases hlast : (inputs.retried config jitter).1 with (e | _) | results
  · rw [hlast] at hends
    cases hends
    simp only [exec_modify, exec_bind, exec_conclude, resultsOf]
    cases failureResults e clock tags 2 with
    | error e' => exact ⟨_, _, rfl⟩
    | ok results => exact ⟨_, _, rfl⟩
  · rw [hlast] at hends
    cases hends
    have hcleanup := exec_disconnectAfterCancellation inputs clock 1 w₁ x₁
    simp only
    rcases hexec : (disconnectAfterCancellation clock 1 w₁).exec inputs.answer x₁ with
      ⟨(e | _) | _, w₂, x₂⟩
    · rw [hexec] at hcleanup
      exact absurd rfl (hcleanup e)
    · rw [hexec]
      exact ⟨_, _, rfl⟩
    · rw [hexec]
      exact ⟨_, _, rfl⟩
  · rw [hlast] at hends
    obtain ⟨outcome, rfl⟩ := hends
    exact ⟨_, _, rfl⟩

/-- A poll gives its outcome, and leaves the worker running if it has succeeded. -/
theorem exec_pollGroup (hvalid : validatePollInputs config.connection group tags = .ok ())
    (w : ConnectionWorker) :
    ∃ w' x', (pollGroup config clock jitter group tags executionId w).exec inputs.answer 0 =
      (pollOutcome config clock group tags executionId (inputs.retried config jitter).1, w', x') ∧
      ∀ result, pollOutcome config clock group tags executionId (inputs.retried config jitter).1 =
        .ok result → (w'.state = .running ↔ result.execution.status = .success) := by
  have hvalidate : ((Prog.conclude (ofExcept (validatePollInputs config.connection group tags)) :
      WorkerProg Unit) w).exec inputs.answer 0 = (.ok (), w, 0) := by
    rw [hvalid]
    rfl
  have hattempt : ((Prog.modify fun w => { w with pollAttempts := w.pollAttempts + 1 } :
      WorkerProg Unit) w).exec inputs.answer 0 = (.ok (), { w with pollAttempts := w.pollAttempts + 1 }, 0) :=
    rfl
  obtain ⟨w₁, x₁, hresults⟩ := exec_readResults inputs config clock jitter group tags
    { w with pollAttempts := w.pollAttempts + 1 }
  rw [pollGroup, exec_bind_of_ok hvalidate, exec_bind_of_ok hattempt, exec_bind, hresults, pollOutcome]
  rcases resultsOf clock tags (inputs.retried config jitter).1 with e | ⟨results, k⟩
  · exact ⟨_, _, rfl, fun _ h => by cases h⟩
  · simp only [exec_bind, exec_conclude]
    cases pollExecution config group tags executionId (clock 0) (clock k) results with
    | error e => exact ⟨_, _, rfl, fun _ h => by cases h⟩
    | ok execution =>
      refine ⟨_, _, rfl, fun result hresult => ?_⟩
      cases hresult
      exact setPolled_running_iff _ _ _

end ConnectionWorker

/-! ## Failure results -/

/-- The results that report an error. -/
def failedResults (errorCode errorMessage : Stripped) (clock : ℕ → DateTime) :
    List TagConfig → ℕ → List TagResult
  | [], _ => []
  | tag :: tags, k =>
    ⟨tag.id, clock k, none, .failure errorCode errorMessage⟩ ::
      failedResults errorCode errorMessage clock tags (k + 1)

theorem workerFailureResult_eq (tag : TagConfig) (e : PyError) (receivedAt : DateTime) :
    workerFailureResult tag e receivedAt =
      match Stripped.ofText e.errorCode, Stripped.ofText e.describe with
      | some c, some m => .ok ⟨tag.id, receivedAt, none, .failure c m⟩
      | _, _ => .error (.configuration "Failed TagResult requires error details.") := by
  rw [workerFailureResult, TagResult.init, setStripped_text, ok_bind]
  simp only [ne_eq, not_true_eq_false, if_false, setOptionalStripped, Option.bind_some]
  cases Stripped.ofText e.errorCode with
  | none => rfl
  | some c => cases Stripped.ofText e.describe <;> rfl

theorem failureResults_ok {e : PyError} {c m : Stripped} (hc : Stripped.ofText e.errorCode = some c)
    (hm : Stripped.ofText e.describe = some m) (clock : ℕ → DateTime) (tags : List TagConfig) (k : ℕ) :
    failureResults e clock tags k = .ok (failedResults c m clock tags k) := by
  induction tags generalizing k with
  | nil => rfl
  | cons tag tags ih =>
    rw [failureResults, workerFailureResult_eq, hc, hm, ih (k + 1)]
    rfl

theorem failureResults_error {e : PyError}
    (h : Stripped.ofText e.errorCode = none ∨ Stripped.ofText e.describe = none) (clock : ℕ → DateTime)
    {tags : List TagConfig} (hne : tags ≠ []) (k : ℕ) :
    failureResults e clock tags k =
      .error (.configuration "Failed TagResult requires error details.") := by
  cases tags with
  | nil => exact absurd rfl hne
  | cons tag tags =>
    rw [failureResults, workerFailureResult_eq]
    rcases h with h | h
    · rw [h]
      rfl
    · rw [h]
      cases Stripped.ofText e.errorCode <;> rfl

theorem failedResults_length (errorCode errorMessage : Stripped) (clock : ℕ → DateTime)
    (tags : List TagConfig) (k : ℕ) :
    (failedResults errorCode errorMessage clock tags k).length = tags.length := by
  induction tags generalizing k with
  | nil => rfl
  | cons tag tags ih => rw [failedResults, List.length_cons, ih, List.length_cons]

theorem failedResults_tagId (errorCode errorMessage : Stripped) (clock : ℕ → DateTime)
    (tags : List TagConfig) (k : ℕ) :
    (failedResults errorCode errorMessage clock tags k).map TagResult.tagId =
      tags.map TagConfig.id := by
  induction tags generalizing k with
  | nil => rfl
  | cons tag tags ih => rw [failedResults, List.map_cons, ih, List.map_cons]

theorem isSuccess_failedResults {errorCode errorMessage : Stripped} {clock : ℕ → DateTime}
    {tags : List TagConfig} {k : ℕ} {r : TagResult}
    (h : r ∈ failedResults errorCode errorMessage clock tags k) : r.isSuccess = false := by
  induction tags generalizing k with
  | nil => cases h
  | cons tag tags ih =>
    rcases List.mem_cons.1 h with rfl | h
    · rfl
    · exact ih h

/-- A result is a success or a failure. -/
theorem countP_isSuccess_add (results : List TagResult) :
    results.countP (·.isSuccess) + results.countP (!·.isSuccess) = results.length := by
  rw [List.length_eq_countP_add_countP TagResult.isSuccess]
  simp only [Bool.not_eq_true, Bool.decide_eq_false]

/-! ## The outcome -/

section
variable {config : WorkerConfig} {clock : ℕ → DateTime} {jitter : ℕ → ℚ} {group : TagGroupConfig}
  {tags : List TagConfig} {executionId : Stripped} {last : Outcome PyError (List TagResult)}

theorem resultsOf_error {e : PyError} {c m : Stripped} (hc : Stripped.ofText e.errorCode = some c)
    (hm : Stripped.ofText e.describe = some m) :
    resultsOf clock tags (.error (.error e)) = .ok (failedResults c m clock tags 2, tags.length + 2) := by
  rw [resultsOf, failureResults_ok hc hm]
  rfl

theorem resultsOf_blank {e : PyError}
    (h : Stripped.ofText e.errorCode = none ∨ Stripped.ofText e.describe = none) (hne : tags ≠ []) :
    resultsOf clock tags (.error (.error e)) =
      .error (.error (.configuration "Failed TagResult requires error details.")) := by
  rw [resultsOf, failureResults_error h clock hne]
  rfl

theorem pollOutcome_eq_ok {results : List TagResult} {k : ℕ} {result : WorkerPollResult}
    (h : resultsOf clock tags last = .ok (results, k))
    (hout : pollOutcome config clock group tags executionId last = .ok result) :
    ∃ execution, result = ⟨execution, results⟩ ∧
      pollExecution config group tags executionId (clock 0) (clock k) results = .ok execution := by
  rw [pollOutcome, h] at hout
  simp only at hout
  cases hexecution : pollExecution config group tags executionId (clock 0) (clock k) results with
  | error e =>
    rw [hexecution] at hout
    cases hout
  | ok execution =>
    rw [hexecution] at hout
    cases hout
    exact ⟨execution, rfl, rfl⟩

/-- A poll with results returns just when the clock has not stepped back. -/
theorem pollOutcome_of_results (config : WorkerConfig) (group : TagGroupConfig)
    (executionId : Stripped) {results : List TagResult} {k : ℕ}
    (h : resultsOf clock tags last = .ok (results, k)) (hlength : results.length ≤ tags.length) :
    (clock 0 ≤ clock k ∧ ∃ execution,
      pollOutcome config clock group tags executionId last = .ok ⟨execution, results⟩ ∧
        pollExecution config group tags executionId (clock 0) (clock k) results = .ok execution) ∨
    ¬ clock 0 ≤ clock k ∧ ∃ e, pollOutcome config clock group tags executionId last = .error (.error e) := by
  rw [← countP_isSuccess_add] at hlength
  rw [pollOutcome, h]
  simp only
  by_cases hclock : clock 0 ≤ clock k
  · rw [pollExecution_eq hclock hlength]
    exact Or.inl ⟨hclock, _, rfl, rfl⟩
  · have hnot : ¬ (clock 0 ≤ clock k ∧
        results.countP (·.isSuccess) + results.countP (!·.isSuccess) ≤ tags.length) :=
      fun hand => hclock hand.1
    have herror : ∃ e, pollExecution config group tags executionId (clock 0) (clock k) results = .error e :=
      pollExecution_error hnot
    obtain ⟨e, he⟩ := herror
    rw [he]
    exact Or.inr ⟨hclock, e, rfl⟩

end

namespace PollInputs

/-- How the retries end is how the last read ended, apart from a pause that raises. -/
theorem lastRead_of_retried (inputs : PollInputs) (config : WorkerConfig) (jitter : ℕ → ℚ) :
    match (inputs.retried config jitter).1 with
    | .ok results => inputs.lastRead config jitter = .ok results
    | .error (.error _) => ∃ e, inputs.lastRead config jitter = .error (.error e)
    | .error .cancelled => True := by
  have hlast := retriedOrCancelled_last config.pollRetryPolicy jitter inputs.reads inputs.sleeps
    config.pollRetryPolicy.attempts_pos (k := 0) rfl
  unfold lastRead retried
  revert hlast
  rcases (retriedOrCancelled config.pollRetryPolicy jitter inputs.reads inputs.sleeps
    config.pollRetryPolicy.maxAttempts 0).1 with (e | _) | results <;> exact id

/-- Every read is answered with `read`, and nothing else happens. -/
def always (read : Outcome PyError (List TagResult)) : PollInputs :=
  ⟨fun _ => read, fun _ => .ok (), .ok (), fun _ _ w => w⟩

/-- The first read times out, and the others return `results`. -/
def recovering (results : List TagResult) : PollInputs :=
  ⟨fun k => if k = 0 then .error (.error .timeout) else .ok results, fun _ => .ok (), .ok (),
    fun _ _ w => w⟩

theorem reads_recovering {results read : List TagResult} {k : ℕ}
    (h : (recovering results).reads k = .ok read) : read = results := by
  simp only [recovering] at h
  split_ifs at h
  cases h
  rfl

end PollInputs

/-- A temperature that was read, and a pressure that was not. -/
def mixedResults : List TagResult :=
  [⟨temperatureTag, timestamp, some timestamp, .success (.boolean true) .uncertain (by decide)⟩,
    ⟨pressureTag, timestamp, none, .failure ⟨"BadNodeIdUnknown", by decide, by decide⟩
      ⟨"The node does not exist.", by decide, by decide⟩⟩]

end PlcGateway
