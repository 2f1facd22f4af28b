/-
  Retry policy and backoff (`runtime/retry.py`).

  Durations are exact rationals.  As in Python, raising the multiplier to a power
  fails when the result exceeds the largest double.
-/
import PlcGateway.Domain.Exceptions
import PlcGateway.Library.Interleaving
import Mathlib.Data.Rat.Defs
import Mathlib.Algebra.Order.Ring.Rat

namespace PlcGateway

open Coroutine

/-- How an error counts for retry decisions. -/
inductive ErrorClass where
  | configuration
  | permanent
  | transient
  | unknown
  deriving DecidableEq, Repr

def classifyError (e : PyError) : ErrorClass :=
  match e.kind with
  | .configurationError => .configuration
  | .permanentProtocolError => .permanent
  | .transientCommunicationError | .storageError | .timeoutError => .transient
  | .other => .unknown

def isRetryable (e : PyError) : Bool := classifyError e = .transient

/-- What the validators check of a count. -/
theorem toNat_pos {n : ℤ} (h : ¬ n ≤ 0) : 0 < n.toNat := by omega

/-- What the validators check of a delay. -/
theorem nonneg_of_not_neg {q : ℚ} (h : ¬ q < 0) : 0 ≤ q := not_lt.1 h

/-- Exponential backoff with a capped delay and jitter. -/
structure RetryPolicy where
  maxAttempts : ℕ
  initialDelayS : ℚ
  maxDelayS : ℚ
  multiplier : ℚ
  jitterRatio : ℚ
  attempts_pos : 0 < maxAttempts
  initial_nonneg : 0 ≤ initialDelayS
  initial_le_max : initialDelayS ≤ maxDelayS
  one_le_multiplier : 1 ≤ multiplier
  jitter_nonneg : 0 ≤ jitterRatio
  jitter_le_one : jitterRatio ≤ 1
  deriving Repr

namespace RetryPolicy

/-- `RetryPolicy.__post_init__` -/
def init (maxAttempts : ℤ) (initialDelayS maxDelayS multiplier jitterRatio : ℚ) :
    Except PyError RetryPolicy :=
  if h₁ : maxAttempts ≤ 0 then throw (.valueError "max_attempts must be positive.")
  else if h₂ : initialDelayS < 0 then throw (.valueError "initial_delay_s must be non-negative.")
  else if maxDelayS < 0 then throw (.valueError "max_delay_s must be non-negative.")
  else if h₃ : maxDelayS < initialDelayS then
    throw (.valueError "max_delay_s must be at least initial_delay_s.")
  else if h₄ : multiplier < 1 then throw (.valueError "multiplier must be at least 1.")
  else if h₅ : ¬ (0 ≤ jitterRatio ∧ jitterRatio ≤ 1) then
    throw (.valueError "jitter_ratio must be between 0 and 1.")
  else return {
    maxAttempts := maxAttempts.toNat
    initialDelayS, maxDelayS, multiplier, jitterRatio
    attempts_pos := toNat_pos h₁
    initial_nonneg := nonneg_of_not_neg h₂
    initial_le_max := not_lt.1 h₃
    one_le_multiplier := not_lt.1 h₄
    jitter_nonneg := (not_not.1 h₅).1
    jitter_le_one := (not_not.1 h₅).2 }

/-- The largest double. -/
def maxDouble : ℚ := (2 ^ 53 - 1) * 2 ^ 971

/-- The capped exponential delay before a retry, counted from 1. -/
def delayForRetry (p : RetryPolicy) (retryNumber : ℕ) (randomValue : ℚ) : Except PyError ℚ :=
  if retryNumber = 0 then throw (.valueError "retry_number must be positive.")
  else if ¬ (0 ≤ randomValue ∧ randomValue ≤ 1) then
    throw (.valueError "random_value must be between 0 and 1.")
  else if maxDouble < p.multiplier ^ (retryNumber - 1) then
    throw (.overflowError "(34, 'Numerical result out of range')")
  else
    let baseDelay := p.initialDelayS * p.multiplier ^ (retryNumber - 1)
    let cappedDelay := min baseDelay p.maxDelayS
    if cappedDelay = 0 ∨ p.jitterRatio = 0 then return cappedDelay
    else
      let jitterSpan := cappedDelay * p.jitterRatio
      let jitterOffset := (randomValue * 2 - 1) * jitterSpan
      return max 0 (min p.maxDelayS (cappedDelay + jitterOffset))

/-- `_retry_policy_from_legacy_settings` -/
def ofLegacySettings (maxRetries : ℕ) (retryDelayS : ℚ) : Except PyError RetryPolicy :=
  let retryDelays := max maxRetries 1
  if maxDouble < 2 ^ (retryDelays - 1) then
    throw (.overflowError "int too large to convert to float")
  else
    init (maxRetries + 1) retryDelayS (retryDelayS * 2 ^ (retryDelays - 1)) 2
      (if 0 < retryDelayS then 1 / 5 else 0)

end RetryPolicy

/-- What a retried operation took. -/
structure RetryOutcome where
  attempts : ℕ
  retries : ℕ
  exhausted : Bool
  lastErrorClass : Option ErrorClass := none
  lastErrorCode : Option String := none
  lastErrorMessage : Option String := none
  deriving DecidableEq, Repr

/-- `_default_random` -/
def defaultRandom : ℚ := 1 / 2

section
variable {C : Calls} {σ α : Type}
variable (operation : Prog C σ PyError α) (policy : RetryPolicy) (sleeper : ℚ → Prog C σ PyError Unit)
  (jitterSource : ℕ → ℚ) (onRetry : PyError → ℚ → ℕ → σ → σ)

/-- The `while` loop of `run_with_retry`, with the attempts that are left. -/
def retryLoop : (left attempts retries : ℕ) → Prog C σ PyError (α × RetryOutcome)
  | 0, _, _ => .raise (.error (.runtimeError "retry loop exited without result"))
  | left + 1, attempts, retries => do
    match ← Prog.attempt operation with
    | .ok result => return (result, { attempts := attempts + 1, retries, exhausted := false })
    | .error e =>
      if ¬ isRetryable e ∨ policy.maxAttempts ≤ attempts + 1 then
        .raise (.error e)
      else
        match policy.delayForRetry (retries + 1) (jitterSource retries) with
        | .error e' => .raise (.error e')
        | .ok delayS =>
          .modify (onRetry e delayS (retries + 1))
          sleeper delayS
          retryLoop left (attempts + 1) (retries + 1)

/-- Run an operation until it succeeds, fails for good, or has used its attempts. -/
def runWithRetry : Prog C σ PyError (α × RetryOutcome) :=
  retryLoop operation policy sleeper jitterSource onRetry policy.maxAttempts 0 0

variable {operation policy sleeper jitterSource onRetry} {K : Contract C σ PyError}
  {Q : Outcome PyError (α × RetryOutcome) → σ → History C PyError → Prop}
  {I : σ → History C PyError → Prop}

/-- What one attempt must ensure for the loop to keep `I` and to end in `Q`. -/
def AttemptPost (K : Contract C σ PyError) (sleeper : ℚ → Prog C σ PyError Unit)
    (onRetry : PyError → ℚ → ℕ → σ → σ) (I : σ → History C PyError → Prop)
    (Q : Outcome PyError (α × RetryOutcome) → σ → History C PyError → Prop) :
    Outcome PyError α → σ → History C PyError → Prop
  | .ok a, s, h => ∀ o, Q (.ok (a, o)) s h
  | .error .cancelled, s, h => Q (.error .cancelled) s h
  | .error (.error e), s, h => (∀ e', Q (.error (.error e')) s h) ∧
    ∀ delay n, ((sleeper delay) (onRetry e delay n s)).wp K (fun r s' h' => match r with
      | .ok _ => I s' h'
      | .error x => Q (.error x) s' h') h

/-- An attempt that restores `I` or ends in `Q` makes the loop end in `Q`.  The
    attempts made and the attempts left are those of the policy, so the loop
    never runs out without a result. -/
theorem wp_retryLoop
    (hop : ∀ s h, I s h → (operation s).wp K (AttemptPost K sleeper onRetry I Q) h)
    (left attempts retries : ℕ) (hl : left + attempts = policy.maxAttempts) (hpos : 0 < left)
    {s : σ} {h : History C PyError} (hI : I s h) :
    ((retryLoop operation policy sleeper jitterSource onRetry left attempts retries) s).wp K Q h := by
  induction left generalizing attempts retries s h with
  | zero => omega
  | succ left ih =>
    rw [retryLoop, wp_bind, wp_attempt]
    refine wp_mono ?_ (hop s h hI)
    rintro ((e | _) | a) s' h' hq
    · obtain ⟨hraise, hnext⟩ := hq
      simp only
      split_ifs with hstop
      · exact hraise e
      · cases policy.delayForRetry (retries + 1) (jitterSource retries) with
        | error e' => exact hraise e'
        | ok delay =>
          simp only [wp_bind, wp_modify]
          refine wp_mono ?_ (hnext delay (retries + 1))
          rintro (x | _) s'' h'' hq'
          · exact hq'
          · exact ih (attempts + 1) (retries + 1) (by omega) (by omega) hq'
    · exact hq
    · exact hq _

/-- **The rule of `run_with_retry`.** -/
theorem wp_runWithRetry
    (hop : ∀ s h, I s h → (operation s).wp K (AttemptPost K sleeper onRetry I Q) h)
    {s : σ} {h : History C PyError} (hI : I s h) :
    ((runWithRetry operation policy sleeper jitterSource onRetry) s).wp K Q h :=
  wp_retryLoop hop policy.maxAttempts 0 0 rfl policy.attempts_pos hI

/-- The retries move the state as the attempts, the pauses and the hook do. -/
theorem stretches_runWithRetry {I : σ → Prop} {E R : σ → σ → Prop}
    {P : Outcome PyError α → σ → Prop} {Q : Outcome PyError (α × RetryOutcome) → σ → Prop}
    (hrefl : ∀ a, R a a) (htrans : ∀ a b c, R a b → R b c → R a c)
    (hop : ∀ s, I s → (operation s).Stretches I E R P s)
    (hsleep : ∀ d s, I s → (sleeper d s).Stretches I E R (fun _ _ => True) s)
    (hretry : ∀ e d n s, I s → R s (onRetry e d n s) ∧ I (onRetry e d n s))
    (hok : ∀ a o s, I s → P (.ok a) s → Q (.ok (a, o)) s) (herror : ∀ x s, I s → Q (.error x) s)
    {s : σ} (hI : I s) :
    ((runWithRetry operation policy sleeper jitterSource onRetry) s).Stretches I E R Q s := by
  have hle : ∀ a b, R a b → R a b := fun _ _ h => h
  have hloop : ∀ left attempts retries s, I s →
      ((retryLoop operation policy sleeper jitterSource onRetry left attempts retries) s).Stretches
        I E R Q s := by
    intro left
    induction left with
    | zero => exact fun _ _ s hI => ⟨⟨hrefl s, hI⟩, herror _ s hI⟩
    | succ left ih =>
      intro attempts retries s hI
      rw [retryLoop]
      refine stretches_bind hle htrans hrefl
        (stretches_attempt hrefl htrans (stretches_mono ?_ (hop s hI)))
      rintro ((e | _) | a) s' hI' hQ
      · simp only
        split_ifs
        · exact ⟨⟨hrefl s', hI'⟩, herror _ s' hI'⟩
        · cases policy.delayForRetry (retries + 1) (jitterSource retries) with
          | error e' => exact ⟨⟨hrefl s', hI'⟩, herror _ s' hI'⟩
          | ok d =>
            refine stretches_bind hle htrans hrefl ⟨hretry e d _ s' hI', ?_⟩
            refine stretches_bind hle htrans hrefl (stretches_mono ?_ (hsleep d _ (hretry e d _ s' hI').2))
            rintro (x | _) s'' hI'' -
            · exact herror x s'' hI''
            · exact ih _ _ s'' hI''
      · exact herror _ s' hI'
      · exact ⟨⟨hrefl s', hI'⟩, hok a _ s' hI' hQ⟩
  exact hloop _ _ _ s hI

/-! ## An operation whose outcome does not change -/

variable {τ : Type} {env : (c : C.Call) → σ → τ → Outcome PyError (C.Res c) × σ × τ}

theorem exec_runWithRetry_ok {s s' : σ} {x x' : τ} {a : α}
    (hop : (operation s).exec env x = (.ok a, s', x')) :
    ∃ o, ((runWithRetry operation policy sleeper jitterSource onRetry) s).exec env x =
      (.ok (a, o), s', x') := by
  obtain ⟨left, hl⟩ := Nat.exists_eq_succ_of_ne_zero policy.attempts_pos.ne'
  refine ⟨{ attempts := 1, retries := 0, exhausted := false }, ?_⟩
  have hattempt : ((Prog.attempt operation) s).exec env x = (.ok (.ok a), s', x') := by
    rw [exec_attempt, hop]
  rw [runWithRetry, hl, retryLoop, exec_bind_of_ok hattempt]
  rfl

theorem exec_runWithRetry_fatal {s s' : σ} {x x' : τ} {e : PyError}
    (hop : (operation s).exec env x = (.error (.error e), s', x')) (he : isRetryable e = false) :
    ((runWithRetry operation policy sleeper jitterSource onRetry) s).exec env x =
      (.error (.error e), s', x') := by
  obtain ⟨left, hl⟩ := Nat.exists_eq_succ_of_ne_zero policy.attempts_pos.ne'
  have hattempt : ((Prog.attempt operation) s).exec env x = (.ok (.error e), s', x') := by
    rw [exec_attempt, hop]
  have hstop : ¬ isRetryable e = true ∨ policy.maxAttempts ≤ 0 + 1 := by
    rw [he]
    exact Or.inl Bool.false_ne_true
  rw [runWithRetry, hl, retryLoop, exec_bind_of_ok hattempt]
  simp only [if_pos hstop]
  rfl

/-- The retries keep what the attempts and the pauses keep. -/
theorem keeps_runWithRetry {J : τ → Prop} (hop : Prog.Keeps env J operation)
    (hsleep : ∀ d, Prog.Keeps env J (sleeper d)) :
    Prog.Keeps env J (runWithRetry operation policy sleeper jitterSource onRetry) := by
  have hloop : ∀ left attempts retries, Prog.Keeps env J
      (retryLoop operation policy sleeper jitterSource onRetry left attempts retries) := by
    intro left
    induction left with
    | zero => exact fun _ _ _ _ hx => hx
    | succ left ih =>
      intro attempts retries
      refine Prog.keeps_bind (Prog.keeps_attempt hop) ?_
      rintro (e | a)
      · simp only
        split_ifs
        · exact fun _ _ hx => hx
        · cases policy.delayForRetry (retries + 1) (jitterSource retries) with
          | error e' => exact fun _ _ hx => hx
          | ok d => exact Prog.keeps_bind (Prog.keeps_modify _) fun _ =>
              Prog.keeps_bind (hsleep d) fun _ => ih _ _
      · exact Prog.keeps_pure _
  exact hloop _ 0 0

/-- What the retries return, an attempt has returned. -/
theorem exists_attempt_of_exec_runWithRetry {s s' : σ} {x x' : τ} {a : α} {o : RetryOutcome}
    (h : ((runWithRetry operation policy sleeper jitterSource onRetry) s).exec env x =
      (.ok (a, o), s', x')) : ∃ s₁ x₁, (operation s₁).exec env x₁ = (.ok a, s', x') := by
  have hloop : ∀ left attempts retries s x,
      ((retryLoop operation policy sleeper jitterSource onRetry left attempts retries) s).exec env x =
        (.ok (a, o), s', x') → ∃ s₁ x₁, (operation s₁).exec env x₁ = (.ok a, s', x') := by
    intro left
    induction left with
    | zero =>
      intro _ _ s x h
      cases h
    | succ left ih =>
      intro attempts retries s x h
      rw [retryLoop, exec_bind, exec_attempt] at h
      rcases hop : (operation s).exec env x with ⟨(e | _) | a', s₁, x₁⟩ <;> rw [hop] at h
      · simp only at h
        split_ifs at h
        · cases h
        · cases hd : policy.delayForRetry (retries + 1) (jitterSource retries) with
          | error e' =>
            rw [hd] at h
            cases h
          | ok d =>
            simp only [hd] at h
            rw [exec_bind_of_ok (exec_modify _ _ _ _), exec_bind] at h
            rcases hpause : (sleeper d (onRetry e d (retries + 1) s₁)).exec env x₁ with
              ⟨e' | _, s₂, x₂⟩ <;> rw [hpause] at h
            · cases h
            · exact ih _ _ _ _ h
      · cases h
      · cases h
        exact ⟨s, x, hop⟩
  exact hloop _ 0 0 s x h

/-! ## An operation whose attempts are given -/

/-- The pause after attempt `k`: its delay, and the sleep. -/
def pause (policy : RetryPolicy) (jitterSource : ℕ → ℚ) (sleeps : ℕ → Except PyError Unit) (k : ℕ) :
    Except PyError Unit := do
  let _ ← policy.delayForRetry (k + 1) (jitterSource k)
  sleeps k

/-- What comes of the attempts from number `k` on, and which one is the last. -/
def retried (policy : RetryPolicy) (jitterSource : ℕ → ℚ) (attempt : ℕ → Except PyError α)
    (sleeps : ℕ → Except PyError Unit) : (left k : ℕ) → Except PyError α × ℕ
  | 0, k => (.error (.runtimeError "retry loop exited without result"), k)
  | left + 1, k => match attempt k with
    | .ok a => (.ok a, k)
    | .error e =>
      if ¬ isRetryable e ∨ policy.maxAttempts ≤ k + 1 then (.error e, k)
      else match pause policy jitterSource sleeps k with
        | .error e' => (.error e', k)
        | .ok _ => retried policy jitterSource attempt sleeps left (k + 1)

/-- The outcome of the loop for an outcome of its operation. -/
def RetriedTo (r : Except PyError α) (o : Outcome PyError (α × RetryOutcome)) : Prop :=
  match r with
  | .ok a => ∃ outcome, o = .ok (a, outcome)
  | .error e => o = .error (.error e)

/-- What comes of the attempts when each may be cancelled, and which one is the last. -/
def retriedOrCancelled (policy : RetryPolicy) (jitterSource : ℕ → ℚ) (attempt : ℕ → Outcome PyError α)
    (sleeps : ℕ → Outcome PyError Unit) : (left k : ℕ) → Outcome PyError α × ℕ
  | 0, k => (.error (.error (.runtimeError "retry loop exited without result")), k)
  | left + 1, k => match attempt k with
    | .ok a => (.ok a, k)
    | .error .cancelled => (.error .cancelled, k)
    | .error (.error e) =>
      if ¬ isRetryable e ∨ policy.maxAttempts ≤ k + 1 then (.error (.error e), k)
      else match policy.delayForRetry (k + 1) (jitterSource k) with
        | .error e' => (.error (.error e'), k)
        | .ok _ => match sleeps k with
          | .error x => (.error x, k)
          | .ok _ => retriedOrCancelled policy jitterSource attempt sleeps left (k + 1)

/-- The outcome of the loop for an outcome of the last attempt. -/
def EndsAs (r : Outcome PyError α) (o : Outcome PyError (α × RetryOutcome)) : Prop :=
  match r with
  | .ok a => ∃ outcome, o = .ok (a, outcome)
  | .error x => o = .error x

/-- The loop makes the attempts: `I k` holds before attempt `k`, and `J k` when the
    loop ends with it. -/
theorem exec_retryLoop_cancelled {attempt : ℕ → Outcome PyError α} {sleeps : ℕ → Outcome PyError Unit}
    {I J : ℕ → σ → τ → Prop}
    (hop : ∀ k s x, I k s x → ∃ s' x', (operation s).exec env x = (attempt k, s', x') ∧ J k s' x')
    (hsleep : ∀ k e d s x, J k s x → ∃ s' x', (sleeper d (onRetry e d (k + 1) s)).exec env x =
      (sleeps k, s', x') ∧ match sleeps k with
        | .ok _ => I (k + 1) s' x'
        | .error _ => J k s' x')
    (left k : ℕ) (hl : left + k = policy.maxAttempts) (hpos : 0 < left) {s : σ} {x : τ} (hI : I k s x) :
    ∃ o s' x', ((retryLoop operation policy sleeper jitterSource onRetry left k k) s).exec env x =
      (o, s', x') ∧ EndsAs (retriedOrCancelled policy jitterSource attempt sleeps left k).1 o ∧
      J (retriedOrCancelled policy jitterSource attempt sleeps left k).2 s' x' := by
  induction left generalizing k s x with
  | zero => omega
  | succ left ih =>
    obtain ⟨s₁, x₁, h₁, hJ⟩ := hop k s x hI
    rw [retriedOrCancelled, retryLoop]
    rcases ha : attempt k with (e | _) | a
    · rw [ha] at h₁
      have hattempt : ((Prog.attempt operation) s).exec env x = (.ok (.error e), s₁, x₁) := by
        rw [exec_attempt, h₁]
      rw [exec_bind_of_ok hattempt]
      simp only
      split_ifs with hstop
      · exact ⟨_, s₁, x₁, rfl, rfl, hJ⟩
      · cases hd : policy.delayForRetry (k + 1) (jitterSource k) with
        | error e' => exact ⟨_, s₁, x₁, rfl, rfl, hJ⟩
        | ok d =>
          obtain ⟨s₂, x₂, h₂, hnext⟩ := hsleep k e d s₁ x₁ hJ
          have hmodify : ((Prog.modify (onRetry e d (k + 1)) : Prog C σ PyError Unit) s₁).exec env x₁ =
              (.ok (), onRetry e d (k + 1) s₁, x₁) := rfl
          simp only
          rw [exec_bind_of_ok hmodify]
          cases hs : sleeps k with
          | error y =>
            rw [hs] at h₂ hnext
            rw [exec_bind, h₂]
            exact ⟨_, s₂, x₂, rfl, rfl, hnext⟩
          | ok u =>
            rw [hs] at h₂ hnext
            rw [exec_bind_of_ok h₂]
            exact ih (k + 1) (by omega) (by omega) hnext
    · rw [ha] at h₁
      rw [exec_bind, exec_attempt, h₁]
      exact ⟨_, s₁, x₁, rfl, rfl, hJ⟩
    · rw [ha] at h₁
      have hattempt : ((Prog.attempt operation) s).exec env x = (.ok (.ok a), s₁, x₁) := by
        rw [exec_attempt, h₁]
      rw [exec_bind_of_ok hattempt]
      exact ⟨_, s₁, x₁, rfl, ⟨_, rfl⟩, hJ⟩

theorem exec_runWithRetry_cancelled {attempt : ℕ → Outcome PyError α} {sleeps : ℕ → Outcome PyError Unit}
    {I J : ℕ → σ → τ → Prop}
    (hop : ∀ k s x, I k s x → ∃ s' x', (operation s).exec env x = (attempt k, s', x') ∧ J k s' x')
    (hsleep : ∀ k e d s x, J k s x → ∃ s' x', (sleeper d (onRetry e d (k + 1) s)).exec env x =
      (sleeps k, s', x') ∧ match sleeps k with
        | .ok _ => I (k + 1) s' x'
        | .error _ => J k s' x')
    {s : σ} {x : τ} (hI : I 0 s x) :
    ∃ o s' x', ((runWithRetry operation policy sleeper jitterSource onRetry) s).exec env x = (o, s', x') ∧
      EndsAs (retriedOrCancelled policy jitterSource attempt sleeps policy.maxAttempts 0).1 o ∧
      J (retriedOrCancelled policy jitterSource attempt sleeps policy.maxAttempts 0).2 s' x' :=
  exec_retryLoop_cancelled hop hsleep policy.maxAttempts 0 rfl policy.attempts_pos hI

/-- The last attempt ended as the attempts do, apart from what a pause raised. -/
theorem retriedOrCancelled_last (policy : RetryPolicy) (jitterSource : ℕ → ℚ)
    (attempt : ℕ → Outcome PyError α) (sleeps : ℕ → Outcome PyError Unit) {left k : ℕ} (hpos : 0 < left)
    (hl : left + k = policy.maxAttempts) :
    match (retriedOrCancelled policy jitterSource attempt sleeps left k).1 with
    | .ok a => attempt (retriedOrCancelled policy jitterSource attempt sleeps left k).2 = .ok a
    | .error (.error _) =>
      ∃ e, attempt (retriedOrCancelled policy jitterSource attempt sleeps left k).2 = .error (.error e)
    | .error .cancelled => True := by
  induction left generalizing k with
  | zero => omega
  | succ left ih =>
    rw [retriedOrCancelled]
    rcases ha : attempt k with (e | _) | a
    · simp only
      split_ifs with hstop
      · exact ⟨e, ha⟩
      · cases policy.delayForRetry (k + 1) (jitterSource k) with
        | error e' => exact ⟨e, ha⟩
        | ok d =>
          rcases hs : sleeps k with (e' | _) | _
          · exact ⟨e, ha⟩
          · trivial
          · exact ih (by omega) (by omega)
    · trivial
    · exact ha

/-- Without cancellations, `retried` says what comes of the attempts. -/
theorem retriedOrCancelled_ofExcept (policy : RetryPolicy) (jitterSource : ℕ → ℚ)
    (attempt : ℕ → Except PyError α) (sleeps : ℕ → Except PyError Unit) (left k : ℕ) :
    retriedOrCancelled policy jitterSource (fun k => ofExcept (attempt k)) (fun k => ofExcept (sleeps k))
      left k = (ofExcept (retried policy jitterSource attempt sleeps left k).1,
        (retried policy jitterSource attempt sleeps left k).2) := by
  induction left generalizing k with
  | zero => rfl
  | succ left ih =>
    rw [retriedOrCancelled, retried]
    cases attempt k with
    | ok a => rfl
    | error e =>
      by_cases hstop : ¬ isRetryable e ∨ policy.maxAttempts ≤ k + 1
      · simp only [Coroutine.ofExcept, if_pos hstop]
      · simp only [Coroutine.ofExcept, if_neg hstop]
        cases hd : policy.delayForRetry (k + 1) (jitterSource k) with
        | error e' =>
          rw [pause, hd, error_bind]
        | ok d =>
          rw [pause, hd, ok_bind]
          cases sleeps k with
          | error e' => rfl
          | ok u => exact ih (k + 1)

/-- The loop makes the attempts, none of which is cancelled. -/
theorem exec_runWithRetry {attempt : ℕ → Except PyError α} {sleeps : ℕ → Except PyError Unit}
    {I J : ℕ → σ → τ → Prop}
    (hop : ∀ k s x, I k s x → ∃ s' x', (operation s).exec env x = (ofExcept (attempt k), s', x') ∧
      J k s' x')
    (hsleep : ∀ k e d s x, J k s x → ∃ s' x', (sleeper d (onRetry e d (k + 1) s)).exec env x =
      (ofExcept (sleeps k), s', x') ∧ match sleeps k with
        | .ok _ => I (k + 1) s' x'
        | .error _ => J k s' x')
    {s : σ} {x : τ} (hI : I 0 s x) :
    ∃ o s' x', ((runWithRetry operation policy sleeper jitterSource onRetry) s).exec env x = (o, s', x') ∧
      RetriedTo (retried policy jitterSource attempt sleeps policy.maxAttempts 0).1 o ∧
      J (retried policy jitterSource attempt sleeps policy.maxAttempts 0).2 s' x' := by
  have hpause : ∀ k e d s x, J k s x → ∃ s' x', (sleeper d (onRetry e d (k + 1) s)).exec env x =
      (ofExcept (sleeps k), s', x') ∧ match ofExcept (sleeps k) with
        | .ok _ => I (k + 1) s' x'
        | .error _ => J k s' x' := by
    intro k e d s x hJ
    obtain ⟨s', x', hexec, hnext⟩ := hsleep k e d s x hJ
    refine ⟨s', x', hexec, ?_⟩
    cases hs : sleeps k <;> rw [hs] at hnext <;> exact hnext
  have hrun : ∃ o s' x',
      ((runWithRetry operation policy sleeper jitterSource onRetry) s).exec env x = (o, s', x') ∧
        EndsAs (retriedOrCancelled policy jitterSource (fun k => ofExcept (attempt k))
          (fun k => ofExcept (sleeps k)) policy.maxAttempts 0).1 o ∧
        J (retriedOrCancelled policy jitterSource (fun k => ofExcept (attempt k))
          (fun k => ofExcept (sleeps k)) policy.maxAttempts 0).2 s' x' :=
    exec_runWithRetry_cancelled hop hpause hI
  rw [retriedOrCancelled_ofExcept] at hrun
  obtain ⟨o, s', x', hexec, hends, hJ⟩ := hrun
  refine ⟨o, s', x', hexec, ?_, hJ⟩
  revert hends
  cases (retried policy jitterSource attempt sleeps policy.maxAttempts 0).1 <;> exact id

/-- An operation that fails whenever `J` holds fails in the end. -/
theorem exec_retryLoop_error {J : τ → Prop}
    (hop : ∀ s x, J x → ∃ e s' x', (operation s).exec env x = (.error (.error e), s', x') ∧ J x')
    (hsleep : ∀ d s x, J x → ∃ s' x', (sleeper d s).exec env x = (.ok (), s', x') ∧ J x')
    (left attempts retries : ℕ) {s : σ} {x : τ} (hx : J x) :
    ∃ e s' x', ((retryLoop operation policy sleeper jitterSource onRetry left attempts retries) s).exec
      env x = (.error (.error e), s', x') ∧ J x' := by
  induction left generalizing attempts retries s x with
  | zero => exact ⟨_, s, x, rfl, hx⟩
  | succ left ih =>
    obtain ⟨e, s₁, x₁, h₁, hx₁⟩ := hop s x hx
    have hattempt : ((Prog.attempt operation) s).exec env x = (.ok (.error e), s₁, x₁) := by
      rw [exec_attempt, h₁]
    rw [retryLoop, exec_bind_of_ok hattempt]
    simp only
    split_ifs with hstop
    · exact ⟨e, s₁, x₁, rfl, hx₁⟩
    · cases policy.delayForRetry (retries + 1) (jitterSource retries) with
      | error e' => exact ⟨e', s₁, x₁, rfl, hx₁⟩
      | ok delay =>
        obtain ⟨s₂, x₂, h₂, hx₂⟩ := hsleep delay (onRetry e delay (retries + 1) s₁) x₁ hx₁
        have hmodify : ((Prog.modify (onRetry e delay (retries + 1)) : Prog C σ PyError Unit) s₁).exec
            env x₁ = (.ok (), onRetry e delay (retries + 1) s₁, x₁) := rfl
        simp only [exec_bind_of_ok hmodify, exec_bind_of_ok h₂]
        exact ih (attempts + 1) (retries + 1) hx₂

theorem exec_runWithRetry_error {J : τ → Prop}
    (hop : ∀ s x, J x → ∃ e s' x', (operation s).exec env x = (.error (.error e), s', x') ∧ J x')
    (hsleep : ∀ d s x, J x → ∃ s' x', (sleeper d s).exec env x = (.ok (), s', x') ∧ J x')
    {s : σ} {x : τ} (hx : J x) :
    ∃ e s' x', ((runWithRetry operation policy sleeper jitterSource onRetry) s).exec env x =
      (.error (.error e), s', x') ∧ J x' :=
  exec_retryLoop_error hop hsleep policy.maxAttempts 0 0 hx

end

end PlcGateway
