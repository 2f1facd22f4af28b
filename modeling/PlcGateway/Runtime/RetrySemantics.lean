/-
  What `run_with_retry` does, call by call.

  The outcomes of the operation are a sequence.  The last attempt is the first one
  that succeeds, fails for good, or is the last that the policy allows; before it
  every attempt is followed by the hook and by one sleep.
-/
import PlcGateway.Runtime.ConnectionWorker
import Mathlib.Data.Nat.Find
import Mathlib.Tactic.NormNum
import Mathlib.Order.Bounds.Basic

namespace PlcGateway

open Coroutine

/-! ## The reference -/

section
variable {α : Type} (policy : RetryPolicy) (outcomes : ℕ → Except PyError α)

/-- No attempt follows attempt `i`, counted from 1, if this is its outcome. -/
def IsFinal (i : ℕ) : Except PyError α → Prop
  | .ok _ => True
  | .error e => classifyError e ≠ .transient ∨ i = policy.maxAttempts

instance (i : ℕ) : DecidablePred (IsFinal (α := α) policy i)
  | .ok _ => inferInstanceAs (Decidable True)
  | .error e => inferInstanceAs (Decidable (classifyError e ≠ .transient ∨ i = policy.maxAttempts))

theorem isFinal_maxAttempts (r : Except PyError α) : IsFinal policy policy.maxAttempts r := by
  cases r with
  | ok a => trivial
  | error e => exact Or.inr rfl

theorem exists_isFinal : ∃ i, 1 ≤ i ∧ IsFinal policy i (outcomes i) :=
  ⟨policy.maxAttempts, policy.attempts_pos, isFinal_maxAttempts policy _⟩

/-- The least attempt that no other follows. -/
def lastAttempt : ℕ := Nat.find (exists_isFinal policy outcomes)

/-- What a caller of `run_with_retry` can observe. -/
inductive RetryEvent where
  | operation
  | onRetry (error : PyError) (delayS : ℚ) (retry : ℕ)
  | sleep (delayS : ℚ)
  deriving DecidableEq

/-- Attempt `i` and what comes of its failure. -/
def retryRound (delays : ℕ → ℚ) (i : ℕ) : List RetryEvent := match outcomes i with
  | .ok _ => [.operation]
  | .error e => [.operation, .onRetry e (delays i) i, .sleep (delays i)]

/-- What `run_with_retry` returns or raises after `k` attempts. -/
def retryResult (k : ℕ) : Outcome PyError (α × RetryOutcome) := match outcomes k with
  | .ok value => .ok (value, { attempts := k, retries := k - 1, exhausted := false })
  | .error e => .error (.error e)

end

/-! ## The execution -/

/-- The calls of `run_with_retry`. -/
inductive RetryCall where
  | operation
  | sleep (delayS : ℚ)

def RetryCalls (α : Type) : Calls where
  Call := RetryCall
  Res
    | .operation => α
    | .sleep _ => Unit

section
variable {α : Type} (policy : RetryPolicy) (outcomes : ℕ → Except PyError α) (random : ℕ → ℚ)

def callOperation : Prog (RetryCalls α) (List RetryEvent) PyError α :=
  Prog.await (C := RetryCalls α) .operation

def callSleep (delayS : ℚ) : Prog (RetryCalls α) (List RetryEvent) PyError Unit :=
  Prog.await (C := RetryCalls α) (.sleep delayS)

/-- The hook `on_retry` of a caller that keeps a log. -/
def logRetry (error : PyError) (delayS : ℚ) (retry : ℕ) (log : List RetryEvent) : List RetryEvent :=
  log ++ [.onRetry error delayS retry]

/-- `run_with_retry`, with the random value `i` before retry `i`. -/
def loggedRetry : Prog (RetryCalls α) (List RetryEvent) PyError (α × RetryOutcome) :=
  runWithRetry callOperation policy callSleep (fun retries => random (retries + 1)) logRetry

/-- The operation answers call `i` with outcome `i`, and every sleep ends. -/
def retryEnv : (c : (RetryCalls α).Call) → List RetryEvent → ℕ →
    Outcome PyError ((RetryCalls α).Res c) × List RetryEvent × ℕ
  | .operation, log, calls => (ofExcept (outcomes (calls + 1)), log ++ [.operation], calls + 1)
  | .sleep delayS, log, calls => (.ok (), log ++ [.sleep delayS], calls)

end

section
variable {α : Type} (policy : RetryPolicy) (outcomes : ℕ → Except PyError α)

theorem lastAttempt_spec :
    1 ≤ lastAttempt policy outcomes ∧
      IsFinal policy (lastAttempt policy outcomes) (outcomes (lastAttempt policy outcomes)) :=
  Nat.find_spec (exists_isFinal policy outcomes)

theorem lastAttempt_le : lastAttempt policy outcomes ≤ policy.maxAttempts :=
  Nat.find_min' _ ⟨policy.attempts_pos, isFinal_maxAttempts policy _⟩

variable {policy outcomes} {random delays : ℕ → ℚ}

/-- An attempt before the last one fails and may be repeated. -/
theorem of_lt_lastAttempt {i : ℕ} (hpos : 1 ≤ i) (h : i < lastAttempt policy outcomes) :
    ∃ e, outcomes i = .error e ∧ classifyError e = .transient ∧ i ≠ policy.maxAttempts := by
  have hnot : ¬ IsFinal policy i (outcomes i) := fun hfinal =>
    Nat.find_min (exists_isFinal policy outcomes) h ⟨hpos, hfinal⟩
  cases ho : outcomes i with
  | ok a => rw [ho] at hnot; exact absurd trivial hnot
  | error e =>
    rw [ho, IsFinal, not_or, not_not] at hnot
    exact ⟨e, rfl, hnot⟩

theorem exec_callOperation (log : List RetryEvent) (n : ℕ) :
    (callOperation log).exec (retryEnv outcomes) n =
      (ofExcept (outcomes (n + 1)), log ++ [.operation], n + 1) := rfl

theorem exec_callSleep (outcomes : ℕ → Except PyError α) (delayS : ℚ) (log : List RetryEvent) (n : ℕ) :
    (callSleep delayS log).exec (retryEnv outcomes) n = (.ok (), log ++ [.sleep delayS], n) := rfl

theorem exec_attempt_operation (log : List RetryEvent) (n : ℕ) :
    ((Prog.attempt callOperation) log).exec (retryEnv outcomes) n =
      (.ok (outcomes (n + 1)), log ++ [.operation], n + 1) := by
  rw [exec_attempt, exec_callOperation]
  cases outcomes (n + 1) <;> rfl

/-- The loop before attempt `n + 1`: it makes the rounds up to the last attempt. -/
theorem exec_loggedLoop
    (hdelays : ∀ i, 1 ≤ i → i < lastAttempt policy outcomes →
      policy.delayForRetry i (random i) = .ok (delays i))
    (left n : ℕ) (hl : left + n = policy.maxAttempts) (hn : n < lastAttempt policy outcomes)
    (log : List RetryEvent) :
    ((retryLoop callOperation policy callSleep (fun retries => random (retries + 1)) logRetry
        left n n) log).exec (retryEnv outcomes) n =
      (retryResult outcomes (lastAttempt policy outcomes),
        log ++ (List.range' (n + 1) (lastAttempt policy outcomes - (n + 1))).flatMap
          (retryRound outcomes delays) ++ [.operation],
        lastAttempt policy outcomes) := by
  induction left generalizing n log with
  | zero =>
    have hle := lastAttempt_le policy outcomes
    omega
  | succ left ih =>
    have hle := lastAttempt_le policy outcomes
    rw [retryLoop, exec_bind_of_ok (exec_attempt_operation log n)]
    by_cases hlast : n + 1 = lastAttempt policy outcomes
    · -- attempt `n + 1` is the last one
      obtain ⟨-, hfinal⟩ := lastAttempt_spec policy outcomes
      rw [← hlast] at hfinal
      rw [← hlast, Nat.sub_self, List.range'_zero, List.flatMap_nil, List.append_nil, retryResult]
      cases ho : outcomes (n + 1) with
      | ok a => rfl
      | error e =>
        have hstop : ¬ isRetryable e = true ∨ policy.maxAttempts ≤ n + 1 := by
          rw [ho] at hfinal
          rcases hfinal with hclass | hmax
          · exact Or.inl fun hr => hclass (of_decide_eq_true hr)
          · exact Or.inr hmax.ge
        simp only [if_pos hstop]
        rfl
    · -- it fails, and the round ends with its sleep
      have hlt : n + 1 < lastAttempt policy outcomes := by omega
      obtain ⟨e, ho, hclass, hmax⟩ := of_lt_lastAttempt (by omega) hlt
      have hgo : ¬ (¬ isRetryable e = true ∨ policy.maxAttempts ≤ n + 1) := by
        rintro (hr | hm)
        · exact hr (decide_eq_true hclass)
        · omega
      have hround : retryRound outcomes delays (n + 1) =
          [.operation, .onRetry e (delays (n + 1)) (n + 1), .sleep (delays (n + 1))] := by
        rw [retryRound, ho]
      have hrest : lastAttempt policy outcomes - (n + 1) =
          (lastAttempt policy outcomes - (n + 1 + 1)) + 1 := by omega
      have hsleep := exec_callSleep outcomes (delays (n + 1))
        (logRetry e (delays (n + 1)) (n + 1) (log ++ [.operation])) (n + 1)
      have hlog : logRetry e (delays (n + 1)) (n + 1) (log ++ [.operation]) ++ [.sleep (delays (n + 1))] =
          log ++ retryRound outcomes delays (n + 1) := by
        rw [hround, logRetry, List.append_assoc, List.append_assoc]
        rfl
      rw [hlog] at hsleep
      simp only [ho, if_neg hgo, hdelays (n + 1) (by omega) hlt]
      rw [exec_bind_of_ok (exec_modify (retryEnv outcomes) _ _ _), exec_bind_of_ok hsleep,
        ih (n + 1) (by omega) hlt, hrest, List.range'_succ, List.flatMap_cons, List.append_assoc log]

/-- **Reference semantics of `run_with_retry`.**  With `k` the last attempt, the rounds
    1 to `k - 1` and one more call of the operation are all that happens, and the
    outcome is that of attempt `k`: what is raised is never the closing error of the loop. -/
theorem run_with_retry_reference (policy : RetryPolicy) (outcomes : ℕ → Except PyError α)
    (random delays : ℕ → ℚ)
    (hdelays : ∀ i, 1 ≤ i → i < lastAttempt policy outcomes →
      policy.delayForRetry i (random i) = .ok (delays i)) :
    let k := lastAttempt policy outcomes
    let r := ((loggedRetry policy random) []).exec (retryEnv outcomes) 0
    IsLeast {i | 1 ≤ i ∧ IsFinal policy i (outcomes i)} k ∧
      r = (retryResult outcomes k,
        (List.range' 1 (k - 1)).flatMap (retryRound outcomes delays) ++ [.operation], k) ∧
      ∀ e, r.1 = .error (.error e) → outcomes k = .error e := by
  have hrun := exec_loggedLoop hdelays policy.maxAttempts 0 rfl (lastAttempt_spec policy outcomes).1 []
  refine ⟨⟨lastAttempt_spec policy outcomes, fun i hi => Nat.find_min' _ hi⟩, hrun, fun e he => ?_⟩
  rw [loggedRetry, runWithRetry, hrun, retryResult] at he
  cases ho : outcomes (lastAttempt policy outcomes) with
  | ok a => rw [ho] at he; cases he
  | error e' => rw [ho] at he; cases he; rfl

theorem noJitter_nonneg : (0 : ℚ) ≤ 0 := le_rfl

theorem noJitter_le_one : (0 : ℚ) ≤ 1 := zero_le_one

/-- Three attempts, without jitter. -/
def threeAttempts : RetryPolicy where
  maxAttempts := 3
  initialDelayS := 1 / 10
  maxDelayS := 1
  multiplier := 2
  jitterRatio := 0
  attempts_pos := defaultConnectRetryPolicy.attempts_pos
  initial_nonneg := defaultConnectRetryPolicy.initial_nonneg
  initial_le_max := by norm_num
  one_le_multiplier := defaultConnectRetryPolicy.one_le_multiplier
  jitter_nonneg := noJitter_nonneg
  jitter_le_one := noJitter_le_one

/-- The third attempt succeeds. -/
def thirdSucceeds (i : ℕ) : Except PyError ℕ := if i < 3 then .error .timeout else .ok i

theorem run_with_retry_reference_third :
    (∀ i, 1 ≤ i → i < lastAttempt threeAttempts thirdSucceeds →
      threeAttempts.delayForRetry i (1 / 2) = .ok (i / 10)) ∧
    ((loggedRetry threeAttempts fun _ => 1 / 2) []).exec (retryEnv thirdSucceeds) 0 =
      (.ok (3, { attempts := 3, retries := 2, exhausted := false }),
        [.operation, .onRetry .timeout (1 / 10) 1, .sleep (1 / 10),
          .operation, .onRetry .timeout (2 / 10) 2, .sleep (2 / 10), .operation], 3) := by
  have hlast : lastAttempt threeAttempts thirdSucceeds = 3 := by decide +kernel
  have hdelays : ∀ i, 1 ≤ i → i < lastAttempt threeAttempts thirdSucceeds →
      threeAttempts.delayForRetry i (1 / 2) = .ok (i / 10) := by
    rw [hlast]
    intro i hpos hlt
    obtain rfl | rfl : i = 1 ∨ i = 2 := by omega
    · decide +kernel
    · decide +kernel
  refine ⟨hdelays, ?_⟩
  have h := (run_with_retry_reference threeAttempts thirdSucceeds (fun _ => 1 / 2) (fun i => i / 10)
    hdelays).2.1
  rw [hlast] at h
  exact h

end

end PlcGateway
