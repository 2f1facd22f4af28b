/-
  A worker that owns a mock driver.

  Every call of the worker is answered by the mock driver, whose sleeps end.  What its
  callers see needs neither the worker nor its retries: `MockSession` only knows how many
  connection attempts will still fail, whether the driver is connected, and which tags were
  answered.  `mock_worker_refines` says that every sequence of calls ends as the session says.
-/
import PlcGateway.Protocols.MockDriver
import PlcGateway.Runtime.Backoff
import PlcGateway.Runtime.PollOutcome

namespace PlcGateway

open Calendar Coroutine

namespace MockDriver

/-- Every sleep ends. -/
def sleepEnds (_ : MockCalls.Call) (d : MockDriver) (_ : Unit) : Outcome PyError Unit × MockDriver × Unit :=
  (.ok (), d, ())

/-- How a method of the driver ends, and the driver afterwards. -/
def ends {α : Type} (method : MockProg α) (d : MockDriver) : Outcome PyError α × MockDriver :=
  let (r, d, _) := (method d).exec sleepEnds ()
  (r, d)

/-- A delay that is neither forced to time out nor longer than the timeout. -/
def Timely (config : MockDriverConfig) (forceTimeout : Bool) (timeoutMs : ℕ) : Prop :=
  forceTimeout = false ∧ config.delayMs ≤ timeoutMs

instance (config : MockDriverConfig) (forceTimeout : Bool) (timeoutMs : ℕ) :
    Decidable (Timely config forceTimeout timeoutMs) := inferInstanceAs (Decidable (_ ∧ _))

/-- A read of the tags gets as far as its values. -/
def Answers (connection : ConnectionConfig) (config : MockDriverConfig) (requests : List TagRequest)
    (d : MockDriver) : Prop :=
  d.connected = true ∧
    Timely config config.timeoutOnRead (batchTimeoutMs requests connection.timeoutMs)

instance (connection : ConnectionConfig) (config : MockDriverConfig) (requests : List TagRequest)
    (d : MockDriver) : Decidable (d.Answers connection config requests) :=
  inferInstanceAs (Decidable (_ ∧ _))

section
variable (connection : ConnectionConfig) (config : MockDriverConfig) (clock : ℕ → DateTime)

/-- The driver answers the calls of its worker; only a read that is answered reads its clock. -/
def answer (c : WorkerCall) (w : ConnectionWorker) (x : MockDriver × ℕ) :
    Outcome PyError c.Res × ConnectionWorker × (MockDriver × ℕ) :=
  match c with
  | .connect =>
    let (r, d) := ends (connect connection config) x.1
    (r, w, d, x.2)
  | .disconnect =>
    let (r, d) := ends disconnect x.1
    (r, w, d, x.2)
  | .read requests =>
    let (r, d) := ends (read connection config requests (clock x.2)) x.1
    (r, w, d, if x.1.Answers connection config requests then x.2 + 1 else x.2)
  | .healthCheck =>
    let (r, d) := ends healthCheck x.1
    (r, w, d, x.2)
  | .sleep _ => (.ok (), w, x)

end

/-! ## The methods -/

variable {connection : ConnectionConfig} {config : MockDriverConfig} {d : MockDriver}

theorem ends_applyDelay (timeoutMs : ℕ) (forceTimeout : Bool) (operation : String) (d : MockDriver) :
    (applyDelay config timeoutMs forceTimeout operation d).exec sleepEnds () =
      (if Timely config forceTimeout timeoutMs then .ok () else .error (.error (mockTimeout operation)),
        d, ()) := by
  rw [applyDelay]
  by_cases htimely : Timely config forceTimeout timeoutMs
  · obtain ⟨hforce, hdelay⟩ := htimely
    have hnot : ¬ (forceTimeout = true ∨ timeoutMs < config.delayMs) := by
      rintro (h | h)
      · rw [hforce] at h
        cases h
      · omega
    have htimely : Timely config forceTimeout timeoutMs := ⟨hforce, hdelay⟩
    rw [if_neg hnot, if_pos htimely]
    split_ifs <;> rfl
  · have htimeout : forceTimeout = true ∨ timeoutMs < config.delayMs := by
      by_contra hnot
      rw [not_or, Bool.not_eq_true, not_lt] at hnot
      exact htimely hnot
    rw [if_pos htimeout, if_neg htimely]
    rfl

theorem ends_connect (d : MockDriver) :
    ends (connect connection config) d =
      if Timely config config.timeoutOnConnect connection.timeoutMs then finishConnect d
      else (.error (.error (mockTimeout "connect")), d) := by
  rw [ends, connect, exec_bind, ends_applyDelay]
  split_ifs <;> rfl

theorem exec_requireConnected (d : MockDriver) :
    (requireConnected d).exec sleepEnds () =
      (if d.connected then .ok () else .error (.error mockNotConnected), d, ()) := by
  show ((if d.connected then _ else _ : MockProg Unit) d).exec sleepEnds () = _
  split_ifs <;> rfl

theorem ends_read {tags : List TagRequest} (hanswers : d.Answers connection config tags)
    (receivedAt : DateTime) :
    ends (read connection config tags receivedAt) d =
      (ofExcept (readTags config receivedAt tags d).1, (readTags config receivedAt tags d).2) := by
  obtain ⟨hconnected, htimely⟩ := hanswers
  rw [ends, read, exec_bind, exec_requireConnected, if_pos hconnected]
  simp only
  rw [exec_bind, ends_applyDelay, if_pos htimely]
  rfl

/-- What a read raises that gets no values. -/
def refusedWith (d : MockDriver) : PyError := if d.connected then mockTimeout "read" else mockNotConnected

theorem isRetryable_refusedWith (d : MockDriver) : isRetryable d.refusedWith = true := by
  rw [refusedWith]
  split_ifs <;> rfl

theorem ends_read_refused {tags : List TagRequest} (hanswers : ¬ d.Answers connection config tags)
    (receivedAt : DateTime) :
    ends (read connection config tags receivedAt) d = (.error (.error d.refusedWith), d) := by
  rw [ends, read, exec_bind, exec_requireConnected, refusedWith]
  by_cases hconnected : d.connected = true
  · rw [if_pos hconnected, if_pos hconnected]
    simp only
    rw [exec_bind, ends_applyDelay, if_neg fun htimely => hanswers ⟨hconnected, htimely⟩]
  · rw [if_neg hconnected, if_neg hconnected]

end MockDriver

/-! ## Attempts that fail for a while -/

/-- Each pause between two attempts has a delay. -/
def Paced (policy : RetryPolicy) (jitter : ℕ → ℚ) : Prop :=
  ∀ k, k + 1 < policy.maxAttempts → ∃ delay, policy.delayForRetry (k + 1) (jitter k) = .ok delay

/-- A policy whose delays fit a double paces every source of jitter. -/
theorem paced_of_fits {policy : RetryPolicy} {jitter : ℕ → ℚ}
    (hjitter : ∀ k, 0 ≤ jitter k ∧ jitter k ≤ 1)
    (hfits : policy.multiplier ^ (policy.maxAttempts - 2) ≤ RetryPolicy.maxDouble) :
    Paced policy jitter := by
  intro k hk
  have hpow : policy.multiplier ^ (k + 1 - 1) ≤ policy.multiplier ^ (policy.maxAttempts - 2) :=
    pow_le_pow_right₀ policy.one_le_multiplier (by omega)
  exact ⟨_, policy.delayForRetry_eq (Nat.succ_pos k) (hjitter k).1 (hjitter k).2 (hpow.trans hfits)⟩

/-- Attempts that fail `r` times are made until they succeed, or as often as allowed. -/
theorem retried_failing {α : Type} {policy : RetryPolicy} {jitter : ℕ → ℚ} {e : PyError}
    {attempt : ℕ → Except PyError α} {r : ℕ} (hretryable : isRetryable e = true)
    (hpaced : Paced policy jitter) (hfails : ∀ k < r, attempt k = .error e)
    (hends : policy.maxAttempts ≤ r ∨ ∃ a, attempt r = .ok a)
    {left k : ℕ} (hleft : left + k = policy.maxAttempts) (hpos : 0 < left) (hk : k ≤ r) :
    retried policy jitter attempt (fun _ => .ok ()) left k =
      (attempt (min r (policy.maxAttempts - 1)), min r (policy.maxAttempts - 1)) := by
  induction left generalizing k with
  | zero => omega
  | succ left ih =>
    rw [retried]
    by_cases hlt : k < r
    · rw [hfails k hlt]
      by_cases hlast : policy.maxAttempts ≤ k + 1
      · have hend : min r (policy.maxAttempts - 1) = k := by omega
        simp only [if_pos (Or.inr hlast : ¬ isRetryable e = true ∨ _)]
        rw [hend, hfails k hlt]
      · have hgo : ¬ (¬ isRetryable e = true ∨ policy.maxAttempts ≤ k + 1) := by
          rintro (h | h)
          · exact h hretryable
          · exact hlast h
        obtain ⟨delay, hdelay⟩ := hpaced k (by omega)
        simp only [if_neg hgo]
        rw [pause, hdelay, ok_bind]
        exact ih (by omega) (by omega) (by omega)
    · have hend : k = r := by omega
      subst hend
      rcases hends with hmax | ⟨a, ha⟩
      · omega
      · rw [Nat.min_eq_left (by omega), ha]

/-- The loop over attempts that fail `r` times, with pauses that end: it ends with the last
    attempt that is made. -/
theorem exec_runWithRetry_failing {C : Calls} {σ τ α : Type} {operation : Prog C σ PyError α}
    {policy : RetryPolicy} {sleeper : ℚ → Prog C σ PyError Unit} {jitter : ℕ → ℚ}
    {onRetry : PyError → ℚ → ℕ → σ → σ} {env : (c : C.Call) → σ → τ → Outcome PyError (C.Res c) × σ × τ}
    {attempt : ℕ → Except PyError α} {I J : ℕ → σ → τ → Prop} {e : PyError} {r : ℕ}
    (hop : ∀ k s x, I k s x → ∃ s' x', (operation s).exec env x = (ofExcept (attempt k), s', x') ∧
      J k s' x')
    (hsleep : ∀ k e d s x, J k s x → ∃ s' x', (sleeper d (onRetry e d (k + 1) s)).exec env x =
      (.ok (), s', x') ∧ I (k + 1) s' x')
    (hretryable : isRetryable e = true) (hpaced : Paced policy jitter)
    (hfails : ∀ k < r, attempt k = .error e)
    (hends : policy.maxAttempts ≤ r ∨ ∃ a, attempt r = .ok a) {s : σ} {x : τ} (hI : I 0 s x) :
    ∃ o s' x', ((runWithRetry operation policy sleeper jitter onRetry) s).exec env x = (o, s', x') ∧
      RetriedTo (attempt (min r (policy.maxAttempts - 1))) o ∧
      J (min r (policy.maxAttempts - 1)) s' x' := by
  have hrun : ∃ o s' x', ((runWithRetry operation policy sleeper jitter onRetry) s).exec env x =
      (o, s', x') ∧
        RetriedTo (retried policy jitter attempt (fun _ => .ok ()) policy.maxAttempts 0).1 o ∧
        J (retried policy jitter attempt (fun _ => .ok ()) policy.maxAttempts 0).2 s' x' :=
    exec_runWithRetry hop hsleep hI
  rwa [retried_failing hretryable hpaced hfails hends rfl policy.attempts_pos (Nat.zero_le r)] at hrun

/-! ## Sessions -/

namespace MockDriver

/-- The tags that a read answers: all of them, or those up to the first that is refused. -/
def answered (config : MockDriverConfig) (receivedAt : DateTime) :
    List String → List TagRequest → List String
  | _, [] => []
  | history, tag :: tags =>
    match resultAt config receivedAt tag (history.count tag.tagId.text) with
    | .error _ => [tag.tagId.text]
    | .ok _ => tag.tagId.text :: answered config receivedAt (history ++ [tag.tagId.text]) tags

theorem readTags_served (h : Tracks config d) (receivedAt : DateTime) (tags : List TagRequest) :
    (readTags config receivedAt tags d).2.served =
      d.served ++ answered config receivedAt d.served tags := by
  induction tags generalizing d with
  | nil => exact (List.append_nil _).symm
  | cons tag tags ih =>
    obtain ⟨hresult, htracks, offsets, hd⟩ := readTag_spec h receivedAt tag
    rw [readTags, answered, ← hresult]
    rcases hread : readTag config receivedAt tag d with ⟨e | result, d₁⟩
    · rw [hread] at hd
      change d₁ = _ at hd
      rw [hd]
    · rw [hread] at htracks hd
      change d₁ = _ at hd
      have hserved : d₁.served = d.served ++ [tag.tagId.text] := by rw [hd]
      show (readTags config receivedAt tags d₁).2.served = _
      rw [ih htracks, hserved, List.append_assoc]
      rfl

theorem isRetryable_tagResult {tagId : String} {quality : Quality} {receivedAt : DateTime}
    {sourceTimestamp : Option DateTime} {value : Option TagValue} {code message : Option String}
    {e : PyError}
    (h : TagResult.init tagId quality receivedAt sourceTimestamp value code message = .error e) :
    isRetryable e = false := by
  rw [TagResult.init] at h
  cases hid : setStripped "tag_id" tagId with
  | error e' =>
    rw [hid] at h
    cases h
    rw [setStripped] at hid
    cases hstripped : Stripped.ofText tagId with
    | none =>
      rw [hstripped] at hid
      cases hid
      rfl
    | some s =>
      rw [hstripped] at hid
      cases hid
  | ok id =>
    rw [hid, ok_bind] at h
    cases value with
    | some v =>
      simp only at h
      split_ifs at h <;> cases h <;> rfl
    | none =>
      simp only at h
      split_ifs at h
      · cases h
        rfl
      · revert h
        cases setOptionalStripped code <;> cases setOptionalStripped message <;> intro h <;> cases h <;> rfl

theorem isRetryable_ofInt {n : ℤ} {e : PyError} (h : PyFloat.ofInt n = .error e) :
    isRetryable e = false := by
  unfold PyFloat.ofInt at h
  extract_lets m exponent unit half q r rounded magnitude at h
  by_cases hlarge : 0x7FF * 2 ^ 52 ≤ magnitude
  · rw [if_pos hlarge] at h
    cases h
    rfl
  · rw [if_neg hlarge] at h
    cases h

theorem isRetryable_mockTagValueFromRaw {valueType : ValueType} {raw : RawValue} {e : PyError}
    (h : mockTagValueFromRaw valueType raw = .error e) : isRetryable e = false := by
  rw [mockTagValueFromRaw.eq_def] at h
  split at h
  case h_2 n =>
    cases hfloat : PyFloat.ofInt n with
    | error e' =>
      rw [hfloat] at h
      cases h
      exact isRetryable_ofInt hfloat
    | ok x =>
      rw [hfloat] at h
      cases h
  all_goals cases h <;> rfl

/-- A value that is refused is refused for good. -/
theorem isRetryable_resultAt {receivedAt : DateTime} {tag : TagRequest} {n : ℕ} {e : PyError}
    (h : resultAt config receivedAt tag n = .error e) : isRetryable e = false := by
  rw [resultAt] at h
  cases hdetails : (config.tagBehaviors.lookup tag.tagId.text).bind errorDetails with
  | some details =>
    rw [hdetails] at h
    exact isRetryable_tagResult h
  | none =>
    rw [hdetails] at h
    simp only [mockSuccess] at h
    cases hvalue : mockTagValueFromRaw tag.valueType (rawValueAt config tag n) with
    | error e' =>
      rw [hvalue] at h
      cases h
      exact isRetryable_mockTagValueFromRaw hvalue
    | ok value =>
      rw [hvalue, ok_bind] at h
      exact isRetryable_tagResult h

theorem isRetryable_resultsFrom {receivedAt : DateTime} {history : List String}
    {tags : List TagRequest} {e : PyError}
    (h : resultsFrom config receivedAt history tags = .error e) : isRetryable e = false := by
  induction tags generalizing history with
  | nil => cases h
  | cons tag tags ih =>
    rw [resultsFrom] at h
    cases hresult : resultAt config receivedAt tag (history.count tag.tagId.text) with
    | error e' =>
      rw [hresult] at h
      cases h
      exact isRetryable_resultAt hresult
    | ok result =>
      rw [hresult, ok_bind] at h
      cases hrest : resultsFrom config receivedAt (history ++ [tag.tagId.text]) tags with
      | error e' =>
        rw [hrest] at h
        cases h
        exact ih hrest
      | ok results =>
        rw [hrest] at h
        cases h

end MockDriver

/-- What the callers of the worker see of its driver: the connection attempts that will
    still fail, whether it is connected, the tags that were answered, and the number of the
    reads that were. -/
structure MockSession where
  failures : ℕ
  connected : Bool
  history : List String
  reads : ℕ

/-- The calls of a worker, with what they read of the clock and of the jitter source. -/
inductive MockedCall where
  | connect (clock : ℕ → DateTime) (jitter : ℕ → ℚ)
  | disconnect (clock : ℕ → DateTime)
  | pollGroup (clock : ℕ → DateTime) (jitter : ℕ → ℚ) (group : TagGroupConfig)
      (tags : List TagConfig) (executionId : Stripped)
  | healthCheck (clock : ℕ → DateTime)

/-- What a call returns. -/
inductive MockedReply where
  | done
  | polled (result : WorkerPollResult)
  | status (status : RuntimeComponentStatus)

section
variable (worker : WorkerConfig) (mock : MockDriverConfig) (mockClock : ℕ → DateTime)

def MockedCall.prog : MockedCall → WorkerProg MockedReply
  | connect clock jitter => do
    ConnectionWorker.connect worker clock jitter
    return .done
  | disconnect clock => do
    ConnectionWorker.disconnect clock
    return .done
  | pollGroup clock jitter group tags executionId => do
    return .polled (← ConnectionWorker.pollGroup worker clock jitter group tags executionId)
  | healthCheck clock => do
    return .status (← ConnectionWorker.healthCheck worker clock)

/-- The calls, one after another, and how each of them ends. -/
def callAll : List MockedCall → ConnectionWorker → MockDriver × ℕ → List (Outcome PyError MockedReply)
  | [], _, _ => []
  | c :: calls, w, x =>
    let (r, w, x) := (c.prog worker w).exec (MockDriver.answer worker.connection mock mockClock) x
    r :: callAll calls w x

namespace MockSession

def init : MockSession := ⟨mock.connectFailuresBeforeSuccess, false, [], 0⟩

def connect (s : MockSession) : Except PyError Unit × MockSession :=
  if ¬ MockDriver.Timely mock mock.timeoutOnConnect worker.connection.timeoutMs then
    (.error (mockTimeout "connect"), s)
  else if s.failures < worker.connectRetryPolicy.maxAttempts then
    (.ok (), { s with failures := 0, connected := true })
  else (.error mockConnectionFailed,
    { s with failures := s.failures - worker.connectRetryPolicy.maxAttempts, connected := false })

def read (requests : List TagRequest) (s : MockSession) : Except PyError (List TagResult) × MockSession :=
  if s.connected = false then (.error mockNotConnected, s)
  else if ¬ MockDriver.Timely mock mock.timeoutOnRead
      (batchTimeoutMs requests worker.connection.timeoutMs) then
    (.error (mockTimeout "read"), s)
  else (MockDriver.resultsFrom mock (mockClock s.reads) s.history requests, { s with
    history := s.history ++ MockDriver.answered mock (mockClock s.reads) s.history requests
    reads := s.reads + 1 })

/-- The status that a health check returns. -/
def healthStatus (now : DateTime) (s : MockSession) : RuntimeComponentStatus where
  componentId := s!"connection-worker:{worker.connection.id.text}"
  state := if s.connected then .running else .degraded
  updatedAt := now
  message := setOptionalStripped (some (if s.connected then "Healthy." else "Health check failed."))
  errorCode := none
  errorMessage := none

/-- How a call ends, and the session afterwards. -/
def call : MockedCall → MockSession → Outcome PyError MockedReply × MockSession
  | .connect _ _, s => ((ofExcept (s.connect worker mock).1).map fun _ => .done, (s.connect worker mock).2)
  | .disconnect _, s => (.ok .done, { s with connected := false })
  | .pollGroup clock _ group tags executionId, s =>
    match validatePollInputs worker.connection group tags with
    | .error e => (.error (.error e), s)
    | .ok _ =>
      let (results, s) := s.read worker mock mockClock (tags.map (tagRequestFromConfig group))
      ((pollOutcome worker clock group tags executionId (ofExcept results)).map .polled, s)
  | .healthCheck clock, s => (.ok (.status (s.healthStatus worker (clock 0))), s)

/-- How each call ends. -/
def outcomes : List MockedCall → MockSession → List (Outcome PyError MockedReply)
  | [], _ => []
  | c :: calls, s => (s.call worker mock mockClock c).1 :: outcomes calls (s.call worker mock mockClock c).2

end MockSession

end

/-! ## Refinement -/

/-- The session of a driver that has answered as many reads. -/
def MockDriver.session (x : MockDriver × ℕ) : MockSession :=
  ⟨x.1.remainingConnectFailures, x.1.connected, x.1.served, x.2⟩

/-- The pauses of a call have delays. -/
def MockedCall.Paced (worker : WorkerConfig) : MockedCall → Prop
  | connect _ jitter => PlcGateway.Paced worker.connectRetryPolicy jitter
  | pollGroup _ jitter _ _ _ => PlcGateway.Paced worker.pollRetryPolicy jitter
  | disconnect _ | healthCheck _ => True

namespace ConnectionWorker

section
variable {τ : Type} {env : (c : WorkerCall) → ConnectionWorker → τ → Outcome PyError c.Res × ConnectionWorker × τ}
  {worker : WorkerConfig} {clock : ℕ → DateTime} {jitter : ℕ → ℚ} {w w' : ConnectionWorker} {x x' : τ}

/-- A call of `connect` ends as its attempts do. -/
theorem exec_connect {r : Except PyError Unit} {o : Outcome PyError (Unit × RetryOutcome)}
    (h : ((runWithRetry connectOnce worker.connectRetryPolicy retrySleep jitter recordConnectRetry)
      (setState (clock 0) .starting "Connecting." none none w)).exec env x = (o, w', x'))
    (hends : RetriedTo r o) :
    ∃ w'', (connect worker clock jitter w).exec env x = (ofExcept r, w'', x') := by
  simp only [connect, exec_bind, exec_modify, exec_onCancelled, exec_attempt, h]
  cases r with
  | error e =>
    cases hends
    exact ⟨_, rfl⟩
  | ok _ =>
    obtain ⟨outcome, rfl⟩ := hends
    exact ⟨_, rfl⟩

/-- A poll ends as its reads do. -/
theorem exec_pollGroup_of_reads {group : TagGroupConfig} {tags : List TagConfig}
    (clock : ℕ → DateTime) (executionId : Stripped) {r : Except PyError (List TagResult)}
    {o : Outcome PyError (List TagResult × RetryOutcome)}
    (hvalid : validatePollInputs worker.connection group tags = .ok ())
    (h : ((runWithRetry (driverRead (tags.map (tagRequestFromConfig group))) worker.pollRetryPolicy
      retrySleep jitter recordPollRetry) { w with pollAttempts := w.pollAttempts + 1 }).exec env x =
        (o, w', x')) (hends : RetriedTo r o) :
    ∃ w'', (pollGroup worker clock jitter group tags executionId w).exec env x =
      (pollOutcome worker clock group tags executionId (ofExcept r), w'', x') := by
  have hread : ∃ w₁, (readResults worker clock jitter group tags
      { w with pollAttempts := w.pollAttempts + 1 }).exec env x =
        (resultsOf clock tags (ofExcept r), w₁, x') := by
    simp only [readResults, exec_bind, exec_onCancelled, exec_attempt, h]
    cases r with
    | error e =>
      cases hends
      simp only [exec_modify, exec_bind, exec_conclude, resultsOf, Coroutine.ofExcept]
      cases failureResults e clock tags 2 with
      | error e' => exact ⟨_, rfl⟩
      | ok results => exact ⟨_, rfl⟩
    | ok results =>
      obtain ⟨outcome, rfl⟩ := hends
      exact ⟨_, rfl⟩
  obtain ⟨w₁, hread⟩ := hread
  have hvalidate : ((Prog.conclude (ofExcept (validatePollInputs worker.connection group tags)) :
      WorkerProg Unit) w).exec env x = (.ok (), w, x) := by
    rw [hvalid]
    rfl
  have hattempt : ((Prog.modify fun w => { w with pollAttempts := w.pollAttempts + 1 } :
      WorkerProg Unit) w).exec env x = (.ok (), { w with pollAttempts := w.pollAttempts + 1 }, x) := rfl
  rw [pollGroup, exec_bind_of_ok hvalidate, exec_bind_of_ok hattempt, exec_bind, hread, pollOutcome]
  rcases resultsOf clock tags (Coroutine.ofExcept r) with e | ⟨results, k⟩
  · exact ⟨_, rfl⟩
  · simp only [exec_bind, exec_conclude]
    cases pollExecution worker group tags executionId (clock 0) (clock k) results with
    | error e => exact ⟨_, rfl⟩
    | ok execution => exact ⟨_, rfl⟩

end

/-! ## One call -/

section
open MockDriver
variable {worker : WorkerConfig} {mock : MockDriverConfig} {mockClock clock : ℕ → DateTime}
  {jitter : ℕ → ℚ}

/-- One attempt to connect. -/
theorem exec_connectOnce (worker : WorkerConfig) (mock : MockDriverConfig) (mockClock : ℕ → DateTime)
    (w : ConnectionWorker) (x : MockDriver × ℕ) :
    ∃ w', (connectOnce w).exec (answer worker.connection mock mockClock) x =
      ((ends (MockDriver.connect worker.connection mock) x.1).1, w',
        (ends (MockDriver.connect worker.connection mock) x.1).2, x.2) := by
  have hmodify : ((Prog.modify fun w => { w with connectAttempts := w.connectAttempts + 1 } :
      WorkerProg Unit) w).exec (answer worker.connection mock mockClock) x =
        (.ok (), { w with connectAttempts := w.connectAttempts + 1 }, x) := rfl
  have hawait : ∀ w : ConnectionWorker, ((Prog.await (C := WorkerCalls) .connect : WorkerProg Unit) w).exec
      (answer worker.connection mock mockClock) x =
        ((ends (MockDriver.connect worker.connection mock) x.1).1, w,
          (ends (MockDriver.connect worker.connection mock) x.1).2, x.2) := fun _ => rfl
  rw [connectOnce, exec_bind_of_ok hmodify, driverConnect, exec_bind, hawait]
  rcases (ends (MockDriver.connect worker.connection mock) x.1).1 with e | _
  · exact ⟨_, rfl⟩
  · exact ⟨_, rfl⟩

/-- The driver after `k` attempts to connect. -/
structure Attempted (mock : MockDriverConfig) (x x' : MockDriver × ℕ) (k : ℕ) : Prop where
  remaining : x'.1.remainingConnectFailures = x.1.remainingConnectFailures - k
  served : x'.1.served = x.1.served
  reads : x'.2 = x.2
  tracks : Tracks mock x'.1

/-- An attempt in time fails as long as failures remain. -/
theorem exec_connectOnce_timely
    (htimely : Timely mock mock.timeoutOnConnect worker.connection.timeoutMs)
    {x x' : MockDriver × ℕ} {k : ℕ} (hx : Attempted mock x x' k) (w : ConnectionWorker) :
    ∃ w' x'', (connectOnce w).exec (answer worker.connection mock mockClock) x' =
        (ofExcept (if k < x.1.remainingConnectFailures then .error mockConnectionFailed else .ok ()),
          w', x'') ∧
      Attempted mock x x'' (k + 1) ∧ x''.1.connected = decide (x.1.remainingConnectFailures ≤ k) := by
  obtain ⟨hremaining, hserved, hreads, htracks⟩ := hx
  obtain ⟨w', hexec⟩ := exec_connectOnce worker mock mockClock w x'
  rw [ends_connect, if_pos htimely, finishConnect] at hexec
  by_cases hfails : k < x.1.remainingConnectFailures
  · rw [if_pos (by omega)] at hexec
    rw [if_pos hfails]
    refine ⟨w', _, hexec, ⟨?_, hserved, hreads, htracks⟩, (decide_eq_false (by omega)).symm⟩
    show x'.1.remainingConnectFailures - 1 = _
    omega
  · rw [if_neg (by omega)] at hexec
    rw [if_neg hfails]
    refine ⟨w', _, hexec, ⟨?_, hserved, hreads, htracks⟩, (decide_eq_true (by omega)).symm⟩
    show x'.1.remainingConnectFailures = _
    omega

/-- The attempts to connect end as the session says. -/
theorem exec_connectAttempts (mockClock : ℕ → DateTime)
    (hpaced : Paced worker.connectRetryPolicy jitter) {x : MockDriver × ℕ}
    (htracks : Tracks mock x.1) (w : ConnectionWorker) :
    ∃ o w' x', ((runWithRetry connectOnce worker.connectRetryPolicy retrySleep jitter
        recordConnectRetry) w).exec (answer worker.connection mock mockClock) x = (o, w', x') ∧
      RetriedTo ((session x).connect worker mock).1 o ∧
      session x' = ((session x).connect worker mock).2 ∧ Tracks mock x'.1 := by
  have hpos := worker.connectRetryPolicy.attempts_pos
  rw [MockSession.connect]
  by_cases htimely : Timely mock mock.timeoutOnConnect worker.connection.timeoutMs
  · have hop : ∀ k (w : ConnectionWorker) x', Attempted mock x x' k →
        ∃ w' x'', (connectOnce w).exec (answer worker.connection mock mockClock) x' =
          (ofExcept (if k < x.1.remainingConnectFailures then .error mockConnectionFailed else .ok ()),
            w', x'') ∧ Attempted mock x x'' (k + 1) ∧
              x''.1.connected = decide (x.1.remainingConnectFailures ≤ k) :=
      fun k w x' hx => exec_connectOnce_timely htimely hx w
    have hsleep : ∀ k e delay (w : ConnectionWorker) x',
        Attempted mock x x' (k + 1) ∧ x'.1.connected = decide (x.1.remainingConnectFailures ≤ k) →
          ∃ w' x'', (retrySleep delay (recordConnectRetry e delay (k + 1) w)).exec
            (answer worker.connection mock mockClock) x' = (.ok (), w', x'') ∧
              Attempted mock x x'' (k + 1) := fun k e delay w x' hx => ⟨_, _, rfl, hx.1⟩
    obtain ⟨o, w', x', hexec, hends, ⟨hremaining, hserved, hreads, htracks'⟩, hconnected⟩ :=
      exec_runWithRetry_failing hop hsleep (rfl : isRetryable mockConnectionFailed = true) hpaced
        (fun k hk => if_pos hk) (Or.inr ⟨(), if_neg (lt_irrefl _)⟩) (s := w) ⟨rfl, rfl, rfl, htracks⟩
    refine ⟨o, w', x', hexec, ?_, ?_, htracks'⟩
    · rw [if_neg (not_not.2 htimely)]
      by_cases hlt : x.1.remainingConnectFailures < worker.connectRetryPolicy.maxAttempts
      · rw [if_neg (by omega)] at hends
        rw [if_pos (show (session x).failures < _ from hlt)]
        exact hends
      · rw [if_pos (by omega)] at hends
        rw [if_neg (show ¬ (session x).failures < _ from hlt)]
        exact hends
    · rw [if_neg (not_not.2 htimely), session, hremaining, hconnected, hserved, hreads]
      by_cases hlt : x.1.remainingConnectFailures < worker.connectRetryPolicy.maxAttempts
      · rw [if_pos (show (session x).failures < _ from hlt), decide_eq_true (by omega),
          Nat.sub_eq_zero_of_le (by omega)]
        rfl
      · have hmin : min x.1.remainingConnectFailures (worker.connectRetryPolicy.maxAttempts - 1) + 1 =
            worker.connectRetryPolicy.maxAttempts := by omega
        rw [if_neg (show ¬ (session x).failures < _ from hlt), decide_eq_false (by omega), hmin]
        rfl
  · have hop : ∀ (k : ℕ) (w : ConnectionWorker) x', x' = x →
        ∃ w' x'', (connectOnce w).exec (answer worker.connection mock mockClock) x' =
          (Coroutine.ofExcept (.error (mockTimeout "connect")), w', x'') ∧ x'' = x := by
      rintro k w x' rfl
      obtain ⟨w', hexec⟩ := exec_connectOnce worker mock mockClock w x'
      rw [ends_connect, if_neg htimely] at hexec
      exact ⟨w', _, hexec, rfl⟩
    have hsleep : ∀ (k : ℕ) e delay (w : ConnectionWorker) x', x' = x →
        ∃ w' x'', (retrySleep delay (recordConnectRetry e delay (k + 1) w)).exec
          (answer worker.connection mock mockClock) x' = (.ok (), w', x'') ∧ x'' = x :=
      fun k e delay w x' hx => ⟨_, _, rfl, hx⟩
    obtain ⟨o, w', x', hexec, hends, hx⟩ :=
      exec_runWithRetry_failing hop hsleep (rfl : isRetryable (mockTimeout "connect") = true) hpaced
        (fun k hk => rfl) (Or.inl le_rfl) (s := w) rfl
    rw [hx] at hexec
    rw [if_pos htimely]
    exact ⟨o, w', x, hexec, hends, rfl, htracks⟩

theorem read_session_answers {x : MockDriver × ℕ} {requests : List TagRequest}
    (hanswers : x.1.Answers worker.connection mock requests) :
    (session x).read worker mock mockClock requests =
      (resultsFrom mock (mockClock x.2) x.1.served requests, ⟨x.1.remainingConnectFailures,
        x.1.connected, x.1.served ++ answered mock (mockClock x.2) x.1.served requests, x.2 + 1⟩) := by
  obtain ⟨hconnected, htimely⟩ := hanswers
  have hnot : ¬ (session x).connected = false := by
    intro h
    rw [session, hconnected] at h
    cases h
  rw [MockSession.read, if_neg hnot, if_neg (not_not.2 htimely)]
  rfl

theorem read_session_refused {x : MockDriver × ℕ} {requests : List TagRequest}
    (hanswers : ¬ x.1.Answers worker.connection mock requests) :
    (session x).read worker mock mockClock requests = (.error x.1.refusedWith, session x) := by
  rw [MockSession.read, refusedWith]
  show (if x.1.connected = false then _ else _) = _
  cases hconnected : x.1.connected with
  | false => rfl
  | true =>
    have htimely : ¬ Timely mock mock.timeoutOnRead
        (batchTimeoutMs requests worker.connection.timeoutMs) :=
      fun htimely => hanswers ⟨hconnected, htimely⟩
    rw [if_neg (Bool.false_ne_true ∘ Eq.symm), if_pos htimely]
    rfl

/-- The reads of a poll end as the session says. -/
theorem exec_readAttempts (mockClock : ℕ → DateTime)
    (hpaced : Paced worker.pollRetryPolicy jitter) {x : MockDriver × ℕ}
    (htracks : Tracks mock x.1) (requests : List TagRequest) (w : ConnectionWorker) :
    ∃ o w' x', ((runWithRetry (driverRead requests) worker.pollRetryPolicy retrySleep jitter
        recordPollRetry) w).exec (answer worker.connection mock mockClock) x = (o, w', x') ∧
      RetriedTo ((session x).read worker mock mockClock requests).1 o ∧
      session x' = ((session x).read worker mock mockClock requests).2 ∧ Tracks mock x'.1 := by
  have hread : ∀ w x, (driverRead requests w).exec (answer worker.connection mock mockClock) x =
      ((ends (read worker.connection mock requests (mockClock x.2)) x.1).1, w,
        (ends (read worker.connection mock requests (mockClock x.2)) x.1).2,
        if x.1.Answers worker.connection mock requests then x.2 + 1 else x.2) := fun _ _ => rfl
  by_cases hanswers : x.1.Answers worker.connection mock requests
  · obtain ⟨hresults, htracks', answered', offsets, hd, -⟩ :=
      readTags_spec htracks (mockClock x.2) requests
    have hserved := readTags_served htracks (mockClock x.2) requests
    have hsession : session ((readTags mock (mockClock x.2) requests x.1).2, x.2 + 1) =
        ((session x).read worker mock mockClock requests).2 := by
      rw [read_session_answers hanswers, session, hserved, hd]
    have hfirst := hread w x
    rw [if_pos hanswers, ends_read hanswers, hresults] at hfirst
    cases hvalues : resultsFrom mock (mockClock x.2) x.1.served requests with
    | ok results =>
      rw [hvalues] at hfirst
      have hretries : ∃ outcome, ((runWithRetry (driverRead requests) worker.pollRetryPolicy
          retrySleep jitter recordPollRetry) w).exec (answer worker.connection mock mockClock) x =
            (.ok (results, outcome), w, (readTags mock (mockClock x.2) requests x.1).2, x.2 + 1) :=
        exec_runWithRetry_ok hfirst
      obtain ⟨outcome, hexec⟩ := hretries
      refine ⟨_, _, _, hexec, ?_, hsession, htracks'⟩
      rw [read_session_answers hanswers, hvalues]
      exact ⟨outcome, rfl⟩
    | error e =>
      rw [hvalues] at hfirst
      have hexec : ((runWithRetry (driverRead requests) worker.pollRetryPolicy retrySleep jitter
          recordPollRetry) w).exec (answer worker.connection mock mockClock) x =
            (.error (.error e), w, (readTags mock (mockClock x.2) requests x.1).2, x.2 + 1) :=
        exec_runWithRetry_fatal hfirst (isRetryable_resultsFrom hvalues)
      refine ⟨_, _, _, hexec, ?_, hsession, htracks'⟩
      rw [read_session_answers hanswers, hvalues]
      rfl
  · have hop : ∀ (k : ℕ) (w : ConnectionWorker) x', x' = x →
        ∃ w' x'', (driverRead requests w).exec (answer worker.connection mock mockClock) x' =
          (Coroutine.ofExcept (.error x.1.refusedWith), w', x'') ∧ x'' = x := by
      rintro k w x' rfl
      have hexec := hread w x'
      rw [if_neg hanswers, ends_read_refused hanswers] at hexec
      exact ⟨w, _, hexec, rfl⟩
    have hsleep : ∀ (k : ℕ) e delay (w : ConnectionWorker) x', x' = x →
        ∃ w' x'', (retrySleep delay (recordPollRetry e delay (k + 1) w)).exec
          (answer worker.connection mock mockClock) x' = (.ok (), w', x'') ∧ x'' = x :=
      fun k e delay w x' hx => ⟨_, _, rfl, hx⟩
    obtain ⟨o, w', x', hexec, hends, hx⟩ :=
      exec_runWithRetry_failing hop hsleep x.1.isRetryable_refusedWith hpaced (fun k hk => rfl)
        (Or.inl le_rfl) (s := w) rfl
    rw [hx] at hexec
    rw [read_session_refused hanswers]
    exact ⟨o, w', x, hexec, hends, rfl, htracks⟩

/-- The worker after a health check. -/
def checked (now : DateTime) (healthy : Bool) (w : ConnectionWorker) : ConnectionWorker :=
  let w := { w with reports := w.reports ++ [.health healthy w.connected] }
  if healthy then setState now .running "Healthy." none none w
  else setState now .degraded "Health check failed." none none w

/-- A health check reports whether the driver is connected. -/
theorem exec_healthCheck (w : ConnectionWorker) (x : MockDriver × ℕ) :
    (healthCheck worker clock w).exec (answer worker.connection mock mockClock) x =
      (.ok ((session x).healthStatus worker (clock 0)), checked (clock 0) x.1.connected w, x) := by
  have hanswer : ((Prog.attempt driverHealthCheck) w).exec
      (answer worker.connection mock mockClock) x = (.ok (.ok x.1.connected), w, x) := rfl
  have hstatus : (session x).healthStatus worker (clock 0) =
      status worker (clock 1) (checked (clock 0) x.1.connected w) := by
    unfold MockSession.healthStatus status checked session
    cases x.1.connected with
    | true =>
      simp only [if_true, setState]
      rfl
    | false =>
      simp only [Bool.false_eq_true, if_false, setState]
      rfl
  rw [hstatus, healthCheck, exec_bind, exec_onCancelled, hanswer]
  unfold checked
  rfl

end

end ConnectionWorker

open MockDriver

section
variable {worker : WorkerConfig} {mock : MockDriverConfig} {mockClock : ℕ → DateTime}

/-- **One call ends as the session says**, and leaves the driver in the session after it. -/
theorem MockedCall.exec_prog {c : MockedCall} (mockClock : ℕ → DateTime) (hpaced : c.Paced worker) {x : MockDriver × ℕ}
    (htracks : Tracks mock x.1) (w : ConnectionWorker) :
    ∃ w' x', (c.prog worker w).exec (answer worker.connection mock mockClock) x =
        (((session x).call worker mock mockClock c).1, w', x') ∧
      session x' = ((session x).call worker mock mockClock c).2 ∧ Tracks mock x'.1 := by
  cases c with
  | connect clock jitter =>
    obtain ⟨o, w₁, x', hattempts, hends, hsession, htracks'⟩ := ConnectionWorker.exec_connectAttempts
      mockClock hpaced htracks (w.setState (clock 0) .starting "Connecting." none none)
    obtain ⟨w', hexec⟩ := ConnectionWorker.exec_connect hattempts hends
    refine ⟨w', x', ?_, hsession, htracks'⟩
    rw [prog, exec_bind, hexec, MockSession.call]
    cases ((session x).connect worker mock).1 <;> rfl
  | disconnect clock => exact ⟨_, _, rfl, rfl, htracks⟩
  | pollGroup clock jitter group tags executionId =>
    rw [prog, exec_bind, MockSession.call]
    cases hvalid : validatePollInputs worker.connection group tags with
    | error e =>
      refine ⟨w, x, ?_, rfl, htracks⟩
      rw [ConnectionWorker.pollGroup, exec_bind, hvalid]
      rfl
    | ok _ =>
      obtain ⟨o, w₁, x', hattempts, hends, hsession, htracks'⟩ := ConnectionWorker.exec_readAttempts
        mockClock hpaced htracks (tags.map (tagRequestFromConfig group)) { w with pollAttempts := w.pollAttempts + 1 }
      obtain ⟨w', hexec⟩ := ConnectionWorker.exec_pollGroup_of_reads clock executionId hvalid
        hattempts hends
      refine ⟨w', x', ?_, hsession, htracks'⟩
      rw [hexec]
      simp only
      cases pollOutcome worker clock group tags executionId (Coroutine.ofExcept
        ((session x).read worker mock mockClock (tags.map (tagRequestFromConfig group))).1) <;> rfl
  | healthCheck clock =>
    refine ⟨w.checked (clock 0) x.1.connected, x, ?_, rfl, htracks⟩
    rw [prog, exec_bind, ConnectionWorker.exec_healthCheck]
    rfl

theorem callAll_eq {calls : List MockedCall} (hpaced : ∀ c ∈ calls, c.Paced worker)
    {x : MockDriver × ℕ} (htracks : Tracks mock x.1) (w : ConnectionWorker) :
    callAll worker mock mockClock calls w x = (session x).outcomes worker mock mockClock calls := by
  induction calls generalizing w x with
  | nil => rfl
  | cons c calls ih =>
    obtain ⟨w', x', hexec, hsession, htracks'⟩ :=
      MockedCall.exec_prog mockClock (hpaced c List.mem_cons_self) htracks w
    rw [callAll, hexec, MockSession.outcomes, ← hsession,
      ← ih (fun c hc => hpaced c (List.mem_cons_of_mem _ hc)) htracks' w']

/-- **A worker over a mock driver refines its session.**  However its callers connect, poll,
    check its health and disconnect, every call ends as the session says: a connection
    succeeds once the configured failures are used up, `maxAttempts` of them a call; a poll
    answers with the next values of its tags; and a poll that is refused, however often it is
    tried, uses no value up. -/
theorem mock_worker_refines {calls : List MockedCall} (hpaced : ∀ c ∈ calls, c.Paced worker) :
    callAll worker mock mockClock calls ConnectionWorker.init (MockDriver.init mock, 0) =
      (MockSession.init mock).outcomes worker mock mockClock calls :=
  callAll_eq hpaced (sound_init mock).tracks ConnectionWorker.init

theorem paced_fakeConfig : PlcGateway.Paced fakeConfig.connectRetryPolicy (fun _ => defaultRandom) ∧
    PlcGateway.Paced fakeConfig.pollRetryPolicy (fun _ => defaultRandom) := by
  have hrandom : ∀ _ : ℕ, (0 : ℚ) ≤ defaultRandom ∧ defaultRandom ≤ 1 := by
    intro _
    rw [defaultRandom]
    norm_num
  exact ⟨paced_of_fits hrandom (RetryPolicy.two_pow_le_maxDouble_iff.2 (by decide)),
    paced_of_fits hrandom (RetryPolicy.two_pow_le_maxDouble_iff.2 (by decide))⟩

/-- One connection that uses the configured failure up, two polls, and one after the
    connection was closed. -/
def mockedCalls : List MockedCall :=
  let poll := .pollGroup fixedClock (fun _ => defaultRandom) fastGroupConfig [temperatureConfig] pollOne
  [.connect fixedClock fun _ => defaultRandom, poll, poll, .disconnect fixedClock, poll,
    .healthCheck fixedClock]

theorem mock_worker_refines_counting :
    callAll fakeConfig countingConfig fixedClock mockedCalls ConnectionWorker.init
        (MockDriver.init countingConfig, 0) =
      (MockSession.init countingConfig).outcomes fakeConfig countingConfig fixedClock mockedCalls := by
  refine mock_worker_refines fun c hc => ?_
  simp only [mockedCalls, List.mem_cons, List.not_mem_nil, or_false] at hc
  rcases hc with rfl | rfl | rfl | rfl | rfl | rfl
  · exact paced_fakeConfig.1
  · exact paced_fakeConfig.2
  · exact paced_fakeConfig.2
  · trivial
  · exact paced_fakeConfig.2
  · trivial

end

end PlcGateway
