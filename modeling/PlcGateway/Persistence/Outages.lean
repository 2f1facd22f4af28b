/-
  Retries of a database outage.

  The engine raises exceptions of its own when the database is locked, unreachable
  or failing.  The retry loop classifies them as unknown, so that the first one
  ends it.
-/
import PlcGateway.Persistence.Writer

namespace PlcGateway

open Coroutine

section
variable {τ : Type}

/-- The `k`-th save gives `outcomes k`; a sleep ends, and nothing else counts retries. -/
structure Answers.Saves (env : Answers τ) (outcomes : ℕ → Except PyError ℕ) (attempts : τ → ℕ) :
    Prop where
  save : ∀ batch t s x, (env (.toThread (.savePollResults batch) t) s x).1 =
      ofExcept (outcomes (attempts x)) ∧
    attempts (env (.toThread (.savePollResults batch) t) s x).2.2 = attempts x + 1
  sleep : ∀ d s x, (env (.sleep d) s x).1 = .ok () ∧ attempts (env (.sleep d) s x).2.2 = attempts x
  counters : ∀ c s x, (env c s x).2.1.counters.retryAttempts = s.counters.retryAttempts

/-- The batch is saved until it succeeds, or `maxAttempts` attempts have failed;
    each attempt but the first counts as a retry. -/
structure Retries (cfg : WriterConfig) (batch : List WorkerPollResult) (env : Answers τ)
    (outcomes : ℕ → Except PyError ℕ) (attempts : τ → ℕ) (s : WriterState) (x : τ) : Prop where
  persisted : let y := ((Writer.persistBatch cfg batch) s).exec env x
    (∃ k n, k < cfg.retryPolicy.maxAttempts ∧ outcomes k = .ok n ∧
      (∀ j < k, ∃ e, outcomes j = .error e) ∧ attempts y.2.2 = k + 1 ∧ y.1 = .ok true) ∨
    ((∀ j < cfg.retryPolicy.maxAttempts, ∃ e, outcomes j = .error e) ∧
      attempts y.2.2 = cfg.retryPolicy.maxAttempts ∧ y.1 = .ok false)
  counted : let y := ((Writer.persistBatch cfg batch) s).exec env x
    y.2.1.counters.retryAttempts + 1 = s.counters.retryAttempts + attempts y.2.2

variable {env : Answers τ} {outcomes : ℕ → Except PyError ℕ} {attempts : τ → ℕ} {x : τ}
  (cfg : WriterConfig) (batch : List WorkerPollResult) (s : WriterState)

/-! ## The attempts -/

theorem not_isRetryable_of_other {e : PyError} (he : e.kind = .other) : ¬ isRetryable e := by
  simp [isRetryable, classifyError, he]

/-- An outage ends the retries at once. -/
theorem retried_outage {e : PyError} (h : outcomes 0 = .error e) (he : e.kind = .other)
    (sleeps : ℕ → Except PyError Unit) :
    retried cfg.retryPolicy (fun _ => defaultRandom) outcomes sleeps cfg.retryPolicy.maxAttempts 0 =
      (.error e, 0) := by
  obtain ⟨left, hl⟩ := Nat.exists_eq_succ_of_ne_zero cfg.retryPolicy.attempts_pos.ne'
  rw [hl, retried, h]
  exact if_pos (Or.inl (not_isRetryable_of_other he))

theorem retried_success {n : ℕ} (h : outcomes 0 = .ok n) (sleeps : ℕ → Except PyError Unit) :
    retried cfg.retryPolicy (fun _ => defaultRandom) outcomes sleeps cfg.retryPolicy.maxAttempts 0 =
      (.ok n, 0) := by
  obtain ⟨left, hl⟩ := Nat.exists_eq_succ_of_ne_zero cfg.retryPolicy.attempts_pos.ne'
  rw [hl, retried, h]

/-- What `_persist_batch` does, attempt by attempt. -/
theorem exec_persistBatch (henv : env.Saves outcomes attempts) (hx : attempts x = 0) :
    let last := retried cfg.retryPolicy (fun _ => defaultRandom) outcomes (fun _ => .ok ())
      cfg.retryPolicy.maxAttempts 0
    let y := ((Writer.persistBatch cfg batch) s).exec env x
    y.1 = .ok last.1.isOk ∧ attempts y.2.2 = last.2 + 1 ∧
      y.2.1.counters.retryAttempts = s.counters.retryAttempts + last.2 := by
  intro last y
  have hattempt : ∀ k s' x', attempts x' = k ∧
      s'.counters.retryAttempts = s.counters.retryAttempts + k →
      ∃ s'' x'', ((Writer.saveBatch cfg batch) s').exec env x' =
        (ofExcept (outcomes k), s'', x'') ∧ attempts x'' = k + 1 ∧
        s''.counters.retryAttempts = s.counters.retryAttempts + k := by
    rintro k s' x' ⟨rfl, hc⟩
    obtain ⟨hsave, hmade⟩ := henv.save batch cfg.storageTimeoutS s' x'
    exact ⟨_, _, Prod.ext hsave rfl, hmade, (henv.counters _ s' x').trans hc⟩
  have hpause : ∀ k (e : PyError) d s' x', attempts x' = k + 1 ∧
      s'.counters.retryAttempts = s.counters.retryAttempts + k →
      ∃ s'' x'', (Writer.sleep d (Writer.recordRetry e d (k + 1) s')).exec env x' =
        (ofExcept (.ok ()), s'', x'') ∧ attempts x'' = k + 1 ∧
        s''.counters.retryAttempts = s.counters.retryAttempts + (k + 1) := by
    rintro k e d s' x' ⟨hk, hc⟩
    obtain ⟨hsleep, hmade⟩ := henv.sleep d (Writer.recordRetry e d (k + 1) s') x'
    refine ⟨_, _, Prod.ext hsleep rfl, hmade.trans hk, (henv.counters _ _ x').trans ?_⟩
    simp only [Writer.recordRetry, hc, Nat.add_assoc]
  obtain ⟨o, s', x', hexec, hto, hmade, hcount⟩ : ∃ o s' x',
      ((runWithRetry (Writer.saveBatch cfg batch) cfg.retryPolicy Writer.sleep (fun _ => defaultRandom)
        Writer.recordRetry) s).exec env x = (o, s', x') ∧ RetriedTo last.1 o ∧
      attempts x' = last.2 + 1 ∧
      s'.counters.retryAttempts = s.counters.retryAttempts + last.2 :=
    exec_runWithRetry hattempt hpause ⟨hx, rfl⟩
  cases hl : last.1 with
  | ok n =>
    rw [hl] at hto
    obtain ⟨outcome, rfl⟩ := hto
    have hy : y = (.ok true, { s' with counters := { s'.counters with
        insertedReadings := s'.counters.insertedReadings + n } }, x') := by
      rw [show y = _ from exec_bind_of_ok (by rw [exec_attempt, hexec])]
      rfl
    rw [hy]
    exact ⟨rfl, hmade, hcount⟩
  | error e =>
    rw [hl] at hto
    have hy : y = (.ok false, { s' with lastError := some e.describe }, x') := by
      rw [show y = _ from exec_bind_of_ok (by rw [exec_attempt, hexec, hto])]
      rfl
    rw [hy]
    exact ⟨rfl, hmade, hcount⟩

/-- **Outages are retried only when there is nothing to retry.** -/
theorem outages_retried_iff (henv : env.Saves outcomes attempts) (hx : attempts x = 0)
    (hout : ∀ k e, outcomes k = .error e → e.kind = .other) :
    Retries cfg batch env outcomes attempts s x ↔
      cfg.retryPolicy.maxAttempts = 1 ∨ ∃ n, outcomes 0 = .ok n := by
  have hpos := cfg.retryPolicy.attempts_pos
  obtain ⟨hy, hmade, hcount⟩ := exec_persistBatch cfg batch s henv hx
  cases h₀ : outcomes 0 with
  | ok n =>
    rw [retried_success cfg h₀] at hy hmade hcount
    refine iff_of_true ⟨Or.inl ⟨0, n, hpos, h₀, fun j hj => absurd hj j.not_lt_zero, hmade, hy⟩, ?_⟩
      (Or.inr ⟨n, rfl⟩)
    show _ + 1 = _ + attempts _
    rw [hcount, hmade, Nat.add_assoc]
  | error e =>
    rw [retried_outage cfg h₀ (hout 0 e h₀)] at hy hmade hcount
    constructor
    · rintro ⟨⟨k, n, -, -, -, -, hok⟩ | ⟨-, hall, -⟩, -⟩
      · exact absurd (hy.symm.trans hok) (by simp [Except.isOk, Except.toBool])
      · exact Or.inl (hall.symm.trans hmade)
    · rintro (h₁ | ⟨n, hn⟩)
      · refine ⟨Or.inr ⟨fun j hj => ?_, hmade.trans h₁.symm, hy⟩, ?_⟩
        · obtain rfl : j = 0 := by omega
          exact ⟨e, h₀⟩
        · show _ + 1 = _ + attempts _
          rw [hcount, hmade, Nat.add_assoc]
      · cases hn

end

/-! ## A database that is locked once -/

/-- The surroundings that answer the saves by `outcomes` and count them. -/
def saving (outcomes : ℕ → Except PyError ℕ) : Answers ℕ
  | .toThread (.savePollResults _) _, s, x => (ofExcept (outcomes x), s, x + 1)
  | .toThread (.append batch) _, s, x => (.ok batch.length, s, x)
  | .toThread (.fetchDue _) _, s, x => (.ok [], s, x)
  | .toThread (.markReplayed ids) _, s, x => (.ok ids.length, s, x)
  | .toThread (.markFailed ids _) _, s, x => (.ok ids.length, s, x)
  | .wait _, s, x => (.ok true, s, x)
  | .gather _, s, x => (.ok (), s, x)
  | .sleep _, s, x => (.ok (), s, x)

theorem saving_saves (outcomes : ℕ → Except PyError ℕ) : (saving outcomes).Saves outcomes id := by
  refine ⟨fun _ _ _ _ => ⟨rfl, rfl⟩, fun _ _ _ => ⟨rfl, rfl⟩, ?_⟩
  rintro (_ | _ | ⟨_ | _ | _ | _ | _, _⟩ | _) s x <;> rfl

/-- The first save finds the database locked, the next ones succeed. -/
def lockedOnce : ℕ → Except PyError ℕ
  | 0 => .error (.operationalError "database is locked")
  | _ => .ok 1

theorem lockedOnce_outage : ∀ k e, lockedOnce k = .error e → e.kind = .other := by
  rintro (_ | k) e h
  · cases h
    rfl
  · cases h

def twoAttempts : WriterConfig :=
  { testConfig false with retryPolicy := { oneAttempt with maxAttempts := 2, attempts_pos := Nat.two_pos } }

/-- A batch of one poll result. -/
def onePoll : List WorkerPollResult := [makePollResult pollOne (.boolean true)]

/-- A batch whose first save finds the database locked, and one whose first save succeeds. -/
theorem outages_retried_iff_locked :
    (Retries twoAttempts onePoll (saving lockedOnce) lockedOnce id testState 0 ↔
      twoAttempts.retryPolicy.maxAttempts = 1 ∨ ∃ n, lockedOnce 0 = .ok n) ∧
    Retries twoAttempts onePoll (saving fun _ => .ok 1) (fun _ => .ok 1) id testState 0 :=
  ⟨outages_retried_iff twoAttempts onePoll testState (saving_saves lockedOnce) rfl
      lockedOnce_outage,
    (outages_retried_iff twoAttempts onePoll testState (saving_saves _) rfl
      fun _ _ h => by cases h).2 (.inr ⟨1, rfl⟩)⟩

/-- The batch is given up after the first of two attempts. -/
theorem locked_database_not_retried :
    (saving lockedOnce).Saves lockedOnce id ∧ (∀ k e, lockedOnce k = .error e → e.kind = .other) ∧
      ((Writer.persistBatch twoAttempts onePoll) testState).exec (saving lockedOnce) 0 =
        (.ok false, { testState with lastError := some "database is locked" }, 1) ∧
      ¬ Retries twoAttempts onePoll (saving lockedOnce) lockedOnce id testState 0 := by
  have hexec : ((Writer.persistBatch twoAttempts onePoll) testState).exec (saving lockedOnce) 0 =
      (.ok false, { testState with lastError := some "database is locked" }, 1) := rfl
  refine ⟨saving_saves lockedOnce, lockedOnce_outage, hexec, ?_⟩
  rintro ⟨⟨k, n, -, -, -, -, hok⟩ | ⟨-, hall, -⟩, -⟩
  · rw [hexec] at hok
    cases hok
  · rw [hexec] at hall
    exact absurd hall (by decide)

end PlcGateway
