/-
  The counters of a worker.

  They are bumped by the operations, by the hook of the retries and where results are
  recorded.  `workerLedger` sets each sum of counters against the calls of the driver;
  every operation earns what its outcome says (`earns_returning`), so that the counters
  balance whenever no operation is in flight (`counters_balance`).
-/
import PlcGateway.Runtime.DriverAgreement
import PlcGateway.Runtime.PollOutcome
import PlcGateway.Library.Ledger
import Mathlib.Algebra.Group.Pi.Lemmas

namespace PlcGateway

open Calendar Coroutine

/-! ## Retries -/

section
variable {C : Calls} {σ α G : Type} [AddCommGroup G] {L : Ledger C σ PyError G}
  {operation : Prog C σ PyError α} {policy : RetryPolicy} {sleeper : ℚ → Prog C σ PyError Unit}
  {jitterSource : ℕ → ℚ} {onRetry : PyError → ℚ → ℕ → σ → σ}

/-- **What an attempt and a retry earn cancels out**, so that the loop earns what one
    attempt does. -/
theorem earns_runWithRetry {x y : G} (hxy : x + y = 0)
    (hop : ∀ n, operation.Earns L (fun n' r => r ≠ .error .cancelled ∧ n' = n + x) n)
    (hsleep : ∀ d n, (sleeper d).Earns L (fun n' r => r = .ok () ∧ n' = n) n)
    (hretry : ∀ e d k s, L.amount (onRetry e d k s) = L.amount s + y) (n : G) :
    (runWithRetry operation policy sleeper jitterSource onRetry).Earns L
      (fun n' r => r ≠ .error .cancelled ∧ n' = n + x) n := by
  have hloop : ∀ left attempts retries, 0 < left → left + attempts = policy.maxAttempts → ∀ n,
      (retryLoop operation policy sleeper jitterSource onRetry left attempts retries).Earns L
        (fun n' r => r ≠ .error .cancelled ∧ n' = n + x) n := by
    intro left
    induction left with
    | zero => exact fun _ _ hpos => absurd hpos (Nat.lt_irrefl 0)
    | succ left ih =>
      intro attempts retries _ hleft n
      rw [retryLoop]
      refine Prog.earns_bind (Prog.earns_attempt (Prog.earns_mono ?_ (hop n)))
      rintro n' ((e | _) | a) ⟨hne, rfl⟩
      · simp only
        split_ifs with hstop
        · exact Prog.earns_raise ⟨by rintro ⟨⟩, rfl⟩
        · cases policy.delayForRetry (retries + 1) (jitterSource retries) with
          | error e' => exact Prog.earns_raise ⟨by rintro ⟨⟩, rfl⟩
          | ok d =>
            -- the retry takes back what the attempt has earned
            refine Prog.earns_bind (Prog.earns_modify y (hretry e d _) ?_)
            rw [add_assoc, hxy, add_zero]
            refine Prog.earns_bind (Prog.earns_mono ?_ (hsleep d n))
            rintro n'' r ⟨rfl, rfl⟩
            exact ih _ _ (by omega) (by omega) _
      · exact absurd rfl hne
      · exact Prog.earns_pure ⟨by rintro ⟨⟩, rfl⟩
  exact hloop policy.maxAttempts 0 0 policy.attempts_pos rfl n

end

/-! ## The ledger of a worker -/

/-- The results that an operation returns. -/
def WorkerOperation.returning (config : WorkerConfig) : WorkerOperation → WorkerProg (List TagResult)
  | connect clock jitter => .mapResult (fun _ => []) (ConnectionWorker.connect config clock jitter)
  | disconnect clock => .mapResult (fun _ => []) (ConnectionWorker.disconnect clock)
  | pollGroup clock jitter group tags executionId =>
    .mapResult (fun result : WorkerPollResult => result.results)
      (ConnectionWorker.pollGroup config clock jitter group tags executionId)
  | healthCheck clock => .mapResult (fun _ => []) (ConnectionWorker.healthCheck config clock)

/-- A poll whose inputs are valid. -/
def WorkerOperation.passesValidation (config : WorkerConfig) : WorkerOperation → Bool
  | pollGroup _ _ group tags _ => (validatePollInputs config.connection group tags).isOk
  | connect .. | disconnect .. | healthCheck .. => false

/-- What is set against each other. -/
inductive WorkerAccount where
  | connectCalls
  | connectOutcomes
  | readCalls
  | polls
  | tagResults
  deriving DecidableEq

namespace ConnectionWorker

/-- The sums of the counters. -/
def amount (w : ConnectionWorker) : WorkerAccount → ℤ
  | .connectCalls => w.connectAttempts
  | .connectOutcomes =>
    w.connectAttempts - (w.connectSuccesses + w.connectFailures + w.connectRetryAttempts)
  | .readCalls => w.pollAttempts + w.pollRetryAttempts
  | .polls => w.pollAttempts
  | .tagResults => w.tagSuccesses + w.tagFailures

end ConnectionWorker

/-- What the calls of the driver count for. -/
def WorkerCall.price : WorkerCall → WorkerAccount → ℤ
  | .connect => Pi.single .connectCalls 1
  | .read _ => Pi.single .readCalls 1
  | .disconnect | .healthCheck | .sleep _ => 0

def WorkerCall.isConnect : WorkerCall → Bool
  | .connect => true
  | .disconnect | .read _ | .healthCheck | .sleep _ => false

def WorkerCall.isRead : WorkerCall → Bool
  | .read _ => true
  | .connect | .disconnect | .healthCheck | .sleep _ => false

/-- No operation is cancelled, and a pause ends without an error. -/
def WorkerCall.Undisturbed : (c : WorkerCall) → Outcome PyError c.Res → Prop
  | .sleep _, r => r = .ok ()
  | .connect, r => r ≠ .error .cancelled
  | .disconnect, r => r ≠ .error .cancelled
  | .read _, r => r ≠ .error .cancelled
  | .healthCheck, r => r ≠ .error .cancelled

def workerLedger : Ledger WorkerCalls ConnectionWorker PyError (WorkerAccount → ℤ) :=
  ⟨ConnectionWorker.amount, WorkerCall.price, WorkerCall.Undisturbed⟩

/-- The results that were returned. -/
def returnedResults : Outcome PyError (List TagResult) → List TagResult
  | .ok results => results
  | .error _ => []

/-- What an operation with this outcome is worth: a valid poll counts, and its results do. -/
def WorkerOperation.worth (config : WorkerConfig) (op : WorkerOperation)
    (r : Outcome PyError (List TagResult)) : WorkerAccount → ℤ :=
  Pi.single .polls (if op.passesValidation config then 1 else 0) +
    Pi.single .tagResults ((returnedResults r).length : ℤ)

namespace ConnectionWorker

/-! ## What the operations earn -/

/-- The counters are those of the other worker. -/
theorem amount_eq {w w' : ConnectionWorker}
    (h : w'.connectAttempts = w.connectAttempts ∧ w'.connectSuccesses = w.connectSuccesses ∧
      w'.connectFailures = w.connectFailures ∧ w'.connectRetryAttempts = w.connectRetryAttempts ∧
      w'.pollAttempts = w.pollAttempts ∧ w'.pollRetryAttempts = w.pollRetryAttempts ∧
      w'.tagSuccesses = w.tagSuccesses ∧ w'.tagFailures = w.tagFailures) : w'.amount = w.amount := by
  obtain ⟨h₁, h₂, h₃, h₄, h₅, h₆, h₇, h₈⟩ := h
  ext account
  cases account <;> simp only [amount, h₁, h₂, h₃, h₄, h₅, h₆, h₇, h₈]

theorem amount_setState (now : DateTime) (state : WorkerState) (message : String)
    (errorCode errorMessage : Option String) (w : ConnectionWorker) :
    (setState now state message errorCode errorMessage w).amount = w.amount :=
  amount_eq ⟨rfl, rfl, rfl, rfl, rfl, rfl, rfl, rfl⟩

theorem amount_recordFailure (now : DateTime) (e : PyError) (state : WorkerState)
    (w : ConnectionWorker) : (recordFailure now e state w).amount = w.amount :=
  amount_eq ⟨rfl, rfl, rfl, rfl, rfl, rfl, rfl, rfl⟩

theorem amount_setConnected (connected : Bool) (w : ConnectionWorker) :
    amount { w with connected } = w.amount :=
  amount_eq ⟨rfl, rfl, rfl, rfl, rfl, rfl, rfl, rfl⟩

theorem amount_reported (reports : List Report) (w : ConnectionWorker) :
    amount { w with reports } = w.amount :=
  amount_eq ⟨rfl, rfl, rfl, rfl, rfl, rfl, rfl, rfl⟩

theorem amount_setPolled (now : DateTime) (status : PollStatus) (w : ConnectionWorker) :
    (setPolled now status w).amount = w.amount := by
  cases status <;> exact amount_setState _ _ _ _ _ w

/-- An attempt to connect counts for a call and for an outcome. -/
theorem amount_connectAttempt (w : ConnectionWorker) :
    amount { w with connectAttempts := w.connectAttempts + 1 } =
      w.amount + (Pi.single .connectCalls 1 + Pi.single .connectOutcomes 1) := by
  ext account
  cases account with
  | connectOutcomes =>
    simp only [amount, Nat.cast_add, Nat.cast_one, Pi.add_apply, Pi.single_eq_same, Pi.single_apply,
      reduceCtorEq, if_false]
    ring
  | connectCalls | readCalls | polls | tagResults => simp [amount]

/-- A success, a failure and a retry settle an outcome. -/
theorem amount_connectOutcome {w w' : ConnectionWorker}
    (hattempts : w'.connectAttempts = w.connectAttempts)
    (houtcomes : w'.connectSuccesses + w'.connectFailures + w'.connectRetryAttempts =
      w.connectSuccesses + w.connectFailures + w.connectRetryAttempts + 1)
    (hpolls : w'.pollAttempts = w.pollAttempts ∧ w'.pollRetryAttempts = w.pollRetryAttempts ∧
      w'.tagSuccesses = w.tagSuccesses ∧ w'.tagFailures = w.tagFailures) :
    w'.amount = w.amount + -Pi.single .connectOutcomes 1 := by
  obtain ⟨h₁, h₂, h₃, h₄⟩ := hpolls
  ext account
  cases account with
  | connectOutcomes =>
    simp only [amount, hattempts, Pi.add_apply, Pi.neg_apply, Pi.single_eq_same]
    omega
  | connectCalls | readCalls | polls | tagResults => simp [amount, hattempts, h₁, h₂, h₃, h₄]

theorem amount_recordConnectRetry (e : PyError) (d : ℚ) (k : ℕ) (w : ConnectionWorker) :
    (recordConnectRetry e d k w).amount = w.amount + -Pi.single .connectOutcomes 1 :=
  amount_connectOutcome rfl rfl ⟨rfl, rfl, rfl, rfl⟩

theorem amount_connectFailed (now : DateTime) (e : PyError) (w : ConnectionWorker) :
    (recordFailure now e .failed { w with connectFailures := w.connectFailures + 1 }).amount =
      w.amount + -Pi.single .connectOutcomes 1 := by
  rw [amount_recordFailure]
  refine amount_connectOutcome rfl ?_ ⟨rfl, rfl, rfl, rfl⟩
  simp only
  omega

theorem amount_connectSucceeded (now : DateTime) (w : ConnectionWorker) :
    (setState now .running "Connected." none none
      { w with connectSuccesses := w.connectSuccesses + 1 }).amount =
      w.amount + -Pi.single .connectOutcomes 1 := by
  rw [amount_setState]
  refine amount_connectOutcome rfl ?_ ⟨rfl, rfl, rfl, rfl⟩
  simp only
  omega

/-- A poll counts for itself and for its first read. -/
theorem amount_pollAttempt (w : ConnectionWorker) :
    amount { w with pollAttempts := w.pollAttempts + 1 } =
      w.amount + (Pi.single .readCalls 1 + Pi.single .polls 1) := by
  ext account
  cases account with
  | readCalls =>
    simp only [amount, Nat.cast_add, Nat.cast_one, Pi.add_apply, Pi.single_eq_same, Pi.single_apply,
      reduceCtorEq, if_false]
    ring
  | connectCalls | connectOutcomes | polls | tagResults => simp [amount]

/-- A retry counts for another read. -/
theorem amount_recordPollRetry (e : PyError) (d : ℚ) (k : ℕ) (w : ConnectionWorker) :
    (recordPollRetry e d k w).amount = w.amount + Pi.single .readCalls 1 := by
  ext account
  cases account with
  | readCalls =>
    simp only [amount, recordPollRetry, Nat.cast_add, Nat.cast_one, Pi.add_apply, Pi.single_eq_same]
    ring
  | connectCalls | connectOutcomes | polls | tagResults => simp [amount, recordPollRetry]

/-- A recorded poll adds the results that its execution counts. -/
theorem amount_recordPollMetrics (execution : PollExecution) (w : ConnectionWorker) :
    (recordPollMetrics execution w).amount =
      w.amount + Pi.single .tagResults ((execution.successfulTags : ℤ) + execution.failedTags) := by
  rw [recordPollMetrics]
  ext account
  cases account with
  | tagResults =>
    simp only [amount, Nat.cast_add, Pi.add_apply, Pi.single_eq_same]
    split_ifs <;> ring
  | connectCalls | connectOutcomes | readCalls | polls =>
    simp only [amount, Pi.add_apply, Pi.single_apply, reduceCtorEq, if_false, add_zero]
    split_ifs <;> rfl

/-- A modification of nothing that counts. -/
theorem earns_modify_neutral {f : ConnectionWorker → ConnectionWorker}
    (hf : ∀ w, (f w).amount = w.amount) {n : WorkerAccount → ℤ}
    {Q : (WorkerAccount → ℤ) → Outcome PyError Unit → Prop} (hQ : Q n (.ok ())) :
    (Prog.modify f : WorkerProg Unit).Earns workerLedger Q n :=
  Prog.earns_modify 0 (fun w => (hf w).trans (add_zero _).symm) ((add_zero n).symm ▸ hQ)

/-- An attempt to connect. -/
theorem earns_connectOnce (n : WorkerAccount → ℤ) :
    connectOnce.Earns workerLedger
      (fun n' r => r ≠ .error .cancelled ∧ n' = n + Pi.single .connectOutcomes 1) n := by
  have hpaid : n + (Pi.single .connectCalls 1 + Pi.single .connectOutcomes 1) -
      WorkerCall.price .connect = n + Pi.single .connectOutcomes 1 := by
    rw [WorkerCall.price]
    abel
  refine Prog.earns_bind (Prog.earns_modify _ amount_connectAttempt ?_)
  refine Prog.earns_bind (Prog.earns_await (C := WorkerCalls) (c := .connect) ?_)
  rintro ((e | _) | _) hr
  · exact ⟨nofun, hpaid⟩
  · exact absurd rfl hr
  · exact earns_modify_neutral (amount_setConnected true) ⟨nofun, hpaid⟩

/-- A read is paid for. -/
theorem earns_driverRead (requests : List TagRequest) (n : WorkerAccount → ℤ) :
    (driverRead requests).Earns workerLedger
      (fun n' r => r ≠ .error .cancelled ∧ n' = n + -Pi.single .readCalls 1) n :=
  Prog.earns_await (C := WorkerCalls) (c := .read requests) fun _ hr => ⟨hr, sub_eq_add_neg n _⟩

/-- A pause ends, and costs nothing. -/
theorem earns_retrySleep (d : ℚ) (n : WorkerAccount → ℤ) :
    (retrySleep d).Earns workerLedger (fun n' r => r = .ok () ∧ n' = n) n :=
  Prog.earns_await (C := WorkerCalls) (c := .sleep d) fun _ hr => ⟨hr, sub_zero n⟩

theorem earns_driverDisconnect (n : WorkerAccount → ℤ) :
    driverDisconnect.Earns workerLedger (fun n' r => r ≠ .error .cancelled ∧ n' = n) n := by
  refine Prog.earns_bind (earns_modify_neutral (amount_setConnected false) ?_)
  exact Prog.earns_await (C := WorkerCalls) (c := .disconnect) fun _ hr => ⟨hr, sub_zero n⟩

variable {config : WorkerConfig} {clock : ℕ → DateTime} {jitter : ℕ → ℚ}

/-- A connect is settled by its success, its failure and its retries. -/
theorem earns_connect (n : WorkerAccount → ℤ) :
    (connect config clock jitter).Earns workerLedger (fun n' _ => n' = n) n := by
  refine Prog.earns_bind (earns_modify_neutral (amount_setState _ _ _ _ _) ?_)
  refine Prog.earns_bind (Prog.earns_onCancelled (Prog.earns_attempt (Prog.earns_mono ?_
    (earns_runWithRetry (add_neg_cancel _) earns_connectOnce earns_retrySleep
      amount_recordConnectRetry n))))
  rintro n' ((e | _) | a) ⟨hne, rfl⟩
  · refine ⟨nofun, Prog.earns_bind (Prog.earns_modify _ (amount_connectFailed _ e) ?_)⟩
    exact Prog.earns_raise (add_neg_cancel_right n _)
  · exact absurd rfl hne
  · exact ⟨nofun, Prog.earns_modify _ (amount_connectSucceeded _) (add_neg_cancel_right n _)⟩

theorem earns_disconnect (n : WorkerAccount → ℤ) :
    (disconnect clock).Earns workerLedger (fun n' _ => n' = n) n := by
  refine Prog.earns_bind (earns_modify_neutral (amount_setState _ _ _ _ _) ?_)
  refine Prog.earns_bind (Prog.earns_onCancelled (Prog.earns_attempt (Prog.earns_mono ?_
    (earns_driverDisconnect n))))
  rintro n' ((e | _) | a) ⟨hne, rfl⟩
  · refine ⟨nofun, Prog.earns_bind (earns_modify_neutral (amount_recordFailure _ e _) ?_)⟩
    exact Prog.earns_raise rfl
  · exact absurd rfl hne
  · exact ⟨nofun, earns_modify_neutral (amount_setState _ _ _ _ _) rfl⟩

theorem earns_healthCheck (n : WorkerAccount → ℤ) :
    (healthCheck config clock).Earns workerLedger (fun n' _ => n' = n) n := by
  have hreported (healthy : Bool) (w : ConnectionWorker) :
      (let w := { w with reports := w.reports ++ [.health healthy w.connected] }
        if healthy then setState (clock 0) .running "Healthy." none none w
        else setState (clock 0) .degraded "Health check failed." none none w).amount = w.amount := by
    cases healthy <;> exact amount_eq ⟨rfl, rfl, rfl, rfl, rfl, rfl, rfl, rfl⟩
  refine Prog.earns_bind (Prog.earns_onCancelled (Prog.earns_attempt
    (Prog.earns_await (C := WorkerCalls) (c := .healthCheck) ?_)))
  rintro ((e | _) | healthy) hr
  · refine ⟨nofun, Prog.earns_bind (earns_modify_neutral (amount_recordFailure _ e _) ?_)⟩
    exact Prog.earns_bind (Prog.earns_get fun w => Prog.earns_pure (sub_zero n))
  · exact absurd rfl hr
  · refine ⟨nofun, Prog.earns_bind (earns_modify_neutral (hreported healthy) ?_)⟩
    exact Prog.earns_bind (Prog.earns_get fun w => Prog.earns_pure (sub_zero n))

/-- The reads of a poll are the first one and its retries. -/
theorem earns_readResults (group : TagGroupConfig) (tags : List TagConfig) (n : WorkerAccount → ℤ) :
    (readResults config clock jitter group tags).Earns workerLedger
      (fun n' _ => n' = n + -Pi.single .readCalls 1) n := by
  refine Prog.earns_bind (Prog.earns_onCancelled (Prog.earns_attempt (Prog.earns_mono ?_
    (earns_runWithRetry (neg_add_cancel _) (earns_driverRead _) earns_retrySleep
      amount_recordPollRetry n))))
  rintro n' ((e | _) | a) ⟨hne, rfl⟩
  · refine ⟨nofun, Prog.earns_bind (earns_modify_neutral (amount_recordFailure _ e _) ?_)⟩
    refine Prog.earns_bind (Prog.earns_conclude ?_)
    cases failureResults e clock tags 2 with
    | error e' => rfl
    | ok results => exact Prog.earns_pure rfl
  · exact absurd rfl hne
  · exact ⟨nofun, Prog.earns_pure rfl⟩

/-- A poll earns its count, if its inputs are valid, and the results that it returns. -/
theorem earns_pollGroup (group : TagGroupConfig) (tags : List TagConfig) (executionId : Stripped)
    (n : WorkerAccount → ℤ) :
    (pollGroup config clock jitter group tags executionId).Earns workerLedger
      (fun n' r => n' = n +
        (Pi.single .polls (if (validatePollInputs config.connection group tags).isOk then 1 else 0) +
          Pi.single .tagResults ((returnedResults (r.map (·.results))).length : ℤ))) n := by
  have hread : n + (Pi.single .readCalls 1 + Pi.single .polls 1) + -Pi.single .readCalls 1 =
      n + Pi.single .polls 1 := by abel
  have hnone (m : ℤ) (x : Raised PyError) : n + Pi.single .polls m = n + (Pi.single .polls m +
      Pi.single .tagResults ((returnedResults ((.error x : Outcome PyError WorkerPollResult).map
        (·.results))).length : ℤ)) := by
    rw [Except.map, returnedResults, List.length_nil, Nat.cast_zero, Pi.single_zero, add_zero]
  refine Prog.earns_bind (Prog.earns_conclude ?_)
  cases validatePollInputs config.connection group tags with
  | error e =>
    have hinvalid := hnone 0 (.error e)
    rw [Pi.single_zero, add_zero, ← Pi.single_zero WorkerAccount.polls] at hinvalid
    exact hinvalid
  | ok _ =>
    refine Prog.earns_bind (Prog.earns_modify _ amount_pollAttempt ?_)
    refine Prog.earns_bind (Prog.earns_mono ?_ (earns_readResults group tags _))
    rintro n' (x | ⟨results, k⟩) rfl
    · rw [hread]
      exact hnone 1 x
    · rw [hread]
      refine Prog.earns_bind (Prog.earns_conclude ?_)
      cases hexecution : pollExecution config group tags executionId (clock 0) (clock k) results with
      | error e => exact hnone 1 (.error e)
      | ok execution =>
        have hrecorded (w : ConnectionWorker) :
            (setPolled (clock (k + 1)) execution.status (recordPollMetrics execution
              { w with reports := w.reports ++ [.poll results w.connected] })).amount =
              w.amount + Pi.single .tagResults (results.length : ℤ) := by
          obtain ⟨-, -, -, hsuccessful, hfailed⟩ := pollExecution_eq_ok hexecution
          rw [amount_setPolled, amount_recordPollMetrics, hsuccessful, hfailed, ← Nat.cast_add,
            countP_isSuccess_add, amount_reported]
        refine Prog.earns_bind (Prog.earns_modify _ hrecorded (Prog.earns_pure ?_))
        exact add_assoc _ _ _

/-- **Every operation earns what it is worth.** -/
theorem earns_returning (config : WorkerConfig) (op : WorkerOperation) :
    (op.returning config).Earns workerLedger (fun n r => n = op.worth config r) 0 := by
  have hworthless {op : WorkerOperation} (hop : op.passesValidation config = false) {α : Type}
      (r : Outcome PyError α) : op.worth config (r.map fun _ => []) = 0 := by
    have hreturned : returnedResults (r.map fun _ => []) = [] := by cases r <;> rfl
    rw [WorkerOperation.worth, hop, hreturned, List.length_nil, Nat.cast_zero, if_neg Bool.false_ne_true,
      Pi.single_zero, Pi.single_zero, add_zero]
  cases op with
  | connect clock jitter =>
    refine Prog.earns_mapResult (Prog.earns_mono ?_ (earns_connect 0))
    exact fun n r hn => hn.trans (hworthless rfl r).symm
  | disconnect clock =>
    refine Prog.earns_mapResult (Prog.earns_mono ?_ (earns_disconnect 0))
    exact fun n r hn => hn.trans (hworthless rfl r).symm
  | pollGroup clock jitter group tags executionId =>
    refine Prog.earns_mapResult (Prog.earns_mono ?_ (earns_pollGroup group tags executionId 0))
    exact fun n r hn => hn.trans (zero_add _)
  | healthCheck clock =>
    refine Prog.earns_mapResult (Prog.earns_mono ?_ (earns_healthCheck 0))
    exact fun n r hn => hn.trans (hworthless rfl r).symm

/-! ## Runs -/

/-- The operations of a worker in turns, with the results that they return. -/
abbrev ReturningTasks := Tasks WorkerCalls ConnectionWorker PyError (List TagResult) WorkerOperation

/-- The worker before its first operation. -/
def notStarted : ReturningTasks := ⟨init, []⟩

/-- The operations that are started, and the calls that they make. -/
abbrev playReturning (config : WorkerConfig) (es : List (Turn WorkerCalls PyError WorkerOperation)) :
    Option ReturningTasks :=
  notStarted.play (fun _ => WorkerOperation.returning config) es

abbrev callsReturning (config : WorkerConfig) (es : List (Turn WorkerCalls PyError WorkerOperation)) :
    List WorkerCall :=
  notStarted.calls (fun _ => WorkerOperation.returning config) es

/-- The results of a task that has returned. -/
def returnedBy (task : WorkerOperation × Coro WorkerCalls ConnectionWorker PyError (List TagResult)) :
    List TagResult :=
  task.2.ended.elim [] returnedResults

/-- The counters of the worker are those of the calls of its driver, of the polls that were
    started, and of the results that they returned. -/
structure Balanced (config : WorkerConfig) (calls : List WorkerCall) (s : ReturningTasks) : Prop where
  connectCalls : calls.countP WorkerCall.isConnect = s.state.connectAttempts
  connectOutcomes : s.state.connectAttempts =
    s.state.connectSuccesses + s.state.connectFailures + s.state.connectRetryAttempts
  readCalls : calls.countP WorkerCall.isRead = s.state.pollAttempts + s.state.pollRetryAttempts
  polls : s.state.pollAttempts = s.tasks.countP fun task => task.1.passesValidation config
  tagResults : s.state.tagSuccesses + s.state.tagFailures = (s.tasks.flatMap returnedBy).length

theorem sum_price (cs : List WorkerCall) :
    (cs.map WorkerCall.price).sum = Pi.single .connectCalls (cs.countP WorkerCall.isConnect : ℤ) +
      Pi.single .readCalls (cs.countP WorkerCall.isRead : ℤ) := by
  induction cs with
  | nil => simp
  | cons c cs ih =>
    rw [List.map_cons, List.sum_cons, ih, List.countP_cons, List.countP_cons, Nat.cast_add,
      Nat.cast_add, Pi.single_add, Pi.single_add]
    cases c with
    | connect =>
      simp only [WorkerCall.price, WorkerCall.isConnect, WorkerCall.isRead, if_true, Bool.false_eq_true,
        if_false, Nat.cast_one, Nat.cast_zero, Pi.single_zero]
      abel
    | read requests =>
      simp only [WorkerCall.price, WorkerCall.isConnect, WorkerCall.isRead, if_true, Bool.false_eq_true,
        if_false, Nat.cast_one, Nat.cast_zero, Pi.single_zero]
      abel
    | disconnect | healthCheck | sleep d =>
      simp only [WorkerCall.price, WorkerCall.isConnect, WorkerCall.isRead, Bool.false_eq_true, if_false,
        Nat.cast_zero, Pi.single_zero, zero_add, add_zero]

theorem sum_earned {config : WorkerConfig}
    {tasks : List (WorkerOperation × Coro WorkerCalls ConnectionWorker PyError (List TagResult))}
    (hended : ∀ task ∈ tasks, task.2.ended.isSome) :
    (tasks.map (Tasks.earned (WorkerOperation.worth config))).sum =
      Pi.single .polls ((tasks.countP fun task => task.1.passesValidation config : ℕ) : ℤ) +
        Pi.single .tagResults ((tasks.flatMap returnedBy).length : ℤ) := by
  induction tasks with
  | nil => simp
  | cons task tasks ih =>
    rw [List.forall_mem_cons] at hended
    obtain ⟨r, hr⟩ := Option.isSome_iff_exists.1 hended.1
    have htask : Tasks.earned (WorkerOperation.worth config) task =
        Pi.single .polls (if task.1.passesValidation config then 1 else 0) +
          Pi.single .tagResults ((returnedBy task).length : ℤ) := by
      rw [Tasks.earned, returnedBy, hr]
      rfl
    rw [List.map_cons, List.sum_cons, ih hended.2, htask, List.countP_cons, List.flatMap_cons,
      List.length_append, Nat.cast_add, Nat.cast_add, Pi.single_add, Pi.single_add, Nat.cast_ite,
      Nat.cast_one, Nat.cast_zero]
    abel

/-- **The counters of a worker balance** whenever no operation is in flight. -/
theorem counters_balance {config : WorkerConfig} {es : List (Turn WorkerCalls PyError WorkerOperation)}
    (hes : ∀ e ∈ es, e.Answers workerLedger) {t : ReturningTasks}
    (hplay : playReturning config es = some t) (hidle : t.Idle) :
    Balanced config (callsReturning config es) t := by
  have hamount : t.state.amount = init.amount + ((callsReturning config es).map WorkerCall.price).sum +
      (t.tasks.map (Tasks.earned (WorkerOperation.worth config))).sum :=
    Tasks.amount_play (fun _ op => earns_returning config op) hes hplay hidle
  rw [sum_price, sum_earned hidle] at hamount
  have hcalls := congrFun hamount .connectCalls
  have houtcomes := congrFun hamount .connectOutcomes
  have hreads := congrFun hamount .readCalls
  have hpolls := congrFun hamount .polls
  have hresults := congrFun hamount .tagResults
  simp only [amount, init, Pi.add_apply, Pi.single_apply, reduceCtorEq, if_true, if_false,
    Nat.cast_zero, add_zero, zero_add, sub_zero] at hcalls houtcomes hreads hpolls hresults
  constructor
  · exact (Nat.cast_inj.1 hcalls).symm
  · omega
  · omega
  · exact Nat.cast_inj.1 hpolls
  · omega

/-- A poll is tried again while the worker connects. -/
def retriedPoll : List (Turn WorkerCalls PyError WorkerOperation) :=
  [.start (.connect fixedClock fun _ => defaultRandom),
    .start (.pollGroup fixedClock (fun _ => defaultRandom) fastGroupConfig [temperatureConfig] pollOne),
    .resume 1 refusal, .resume 0 goodAnswer, .resume 1 goodAnswer, .resume 1 goodAnswer]

theorem counters_balance_retriedPoll :
    ∃ t, playReturning fakeConfig retriedPoll = some t ∧
      Balanced fakeConfig (callsReturning fakeConfig retriedPoll) t := by
  have hend : (playReturning fakeConfig retriedPoll).any (fun t =>
      t.tasks.all (·.2.ended.isSome)) = true := by
    decide +kernel
  obtain ⟨t, hplay, hidle⟩ := (Option.any_eq_true _ _).1 hend
  have hgood (c : WorkerCall) : c.Undisturbed (goodAnswer c) := by
    cases c with
    | connect | disconnect | read requests | healthCheck => exact nofun
    | sleep d => exact rfl
  have hrefusal (c : WorkerCall) : c.Undisturbed (refusal c) := by
    cases c with
    | connect | disconnect | read requests | healthCheck => exact nofun
    | sleep d => exact rfl
  have hes : ∀ e ∈ retriedPoll, e.Answers workerLedger := by
    simp only [retriedPoll, List.forall_mem_cons]
    exact ⟨trivial, trivial, hrefusal, hgood, hgood, hgood, fun _ h => absurd h List.not_mem_nil⟩
  exact ⟨t, hplay, counters_balance hes hplay (List.all_eq_true.1 hidle)⟩

end ConnectionWorker

end PlcGateway
