/-
  The delays of a retry policy.

  As long as the power of the multiplier is a double, a delay is the capped power, spread
  by the jitter and clamped (`delayForRetry_eq`); so it is bounded and grows from retry to
  retry.  The cap comes after the power, though, which overflows in the long run whenever
  delays grow at all (`backsOff_forever_iff`).
-/
import PlcGateway.Runtime.ConnectionWorker
import PlcGateway.Library.Backoff
import Mathlib.Algebra.Order.Archimedean.Basic
import Mathlib.Data.Rat.Cast.Order

namespace PlcGateway

namespace RetryPolicy

/-- The delay before jitter, capped. -/
def cappedDelay (p : RetryPolicy) (retryNumber : ℕ) : ℚ :=
  min (p.initialDelayS * p.multiplier ^ (retryNumber - 1)) p.maxDelayS

/-- The retry has a delay, which is bounded, near the capped one, and no shorter than that
    of any retry before. -/
def BacksOff (p : RetryPolicy) (retryNumber : ℕ) (randomValue : ℚ) : Prop :=
  ∃ d, p.delayForRetry retryNumber randomValue = .ok d ∧ 0 ≤ d ∧ d ≤ p.maxDelayS ∧
    |d - p.cappedDelay retryNumber| ≤ p.cappedDelay retryNumber * p.jitterRatio ∧
    ∀ earlier, 0 < earlier → earlier ≤ retryNumber →
      ∃ d', p.delayForRetry earlier randomValue = .ok d' ∧ d' ≤ d

/-- The defaults of the fields. -/
def defaultPolicy : RetryPolicy where
  maxAttempts := 3
  initialDelayS := 1 / 10
  maxDelayS := 5
  multiplier := 2
  jitterRatio := 1 / 5
  attempts_pos := defaultConnectRetryPolicy.attempts_pos
  initial_nonneg := defaultConnectRetryPolicy.initial_nonneg
  initial_le_max := by norm_num
  one_le_multiplier := defaultConnectRetryPolicy.one_le_multiplier
  jitter_nonneg := defaultConnectRetryPolicy.jitter_nonneg
  jitter_le_one := defaultConnectRetryPolicy.jitter_le_one

/-- The default policy, with attempts for a long outage. -/
def patientPolicy : RetryPolicy :=
  { defaultPolicy with
    maxAttempts := 2000
    attempts_pos := by norm_num }

/-- The doublings that are doubles. -/
theorem two_pow_le_maxDouble_iff {k : ℕ} : 2 ^ k ≤ maxDouble ↔ k < 1024 := by
  have hscale : (0 : ℚ) < 2 ^ 971 := pow_pos two_pos _
  constructor
  · intro hle
    by_contra hk
    have hpow : (2 : ℚ) ^ 1024 ≤ 2 ^ k := pow_le_pow_right₀ one_le_two (not_lt.1 hk)
    have hlarge : maxDouble < 2 ^ 1024 := by
      rw [maxDouble, show 1024 = 53 + 971 from rfl, pow_add]
      exact mul_lt_mul_of_pos_right (sub_one_lt _) hscale
    exact absurd (hpow.trans hle) (not_le.2 hlarge)
  · intro hk
    have hpow : (2 : ℚ) ^ k ≤ 2 ^ 1023 := pow_le_pow_right₀ one_le_two (Nat.le_of_lt_succ hk)
    refine hpow.trans ?_
    rw [maxDouble, show 1023 = 52 + 971 from rfl, pow_add]
    exact mul_le_mul_of_nonneg_right (by norm_num) hscale.le

theorem one_le_maxDouble : 1 ≤ maxDouble := by
  have hone := (two_pow_le_maxDouble_iff (k := 0)).2 (by decide)
  rwa [pow_zero] at hone

/-- Policies are what the validator accepts. -/
theorem init_self (p : RetryPolicy) :
    init p.maxAttempts p.initialDelayS p.maxDelayS p.multiplier p.jitterRatio = .ok p := by
  have hattempts : ¬ (p.maxAttempts : ℤ) ≤ 0 := by
    have hpos := p.attempts_pos
    omega
  have hinitial : ¬ p.initialDelayS < 0 := not_lt.2 p.initial_nonneg
  have hmax : ¬ p.maxDelayS < 0 := not_lt.2 (p.initial_nonneg.trans p.initial_le_max)
  have hle : ¬ p.maxDelayS < p.initialDelayS := not_lt.2 p.initial_le_max
  have hmultiplier : ¬ p.multiplier < 1 := not_lt.2 p.one_le_multiplier
  have hjitter : ¬ ¬ (0 ≤ p.jitterRatio ∧ p.jitterRatio ≤ 1) :=
    not_not.2 ⟨p.jitter_nonneg, p.jitter_le_one⟩
  simp only [init, hattempts, hinitial, hmax, hle, hmultiplier, hjitter, dif_neg, if_neg,
    not_false_eq_true]
  rfl

section
variable (p : RetryPolicy) {n : ℕ} {r : ℚ}

theorem max_nonneg : 0 ≤ p.maxDelayS := p.initial_nonneg.trans p.initial_le_max

theorem cappedDelay_nonneg (n : ℕ) : 0 ≤ p.cappedDelay n :=
  Backoff.capped_nonneg p.initial_nonneg (zero_le_one.trans p.one_le_multiplier) p.max_nonneg _

theorem cappedDelay_le (n : ℕ) : p.cappedDelay n ≤ p.maxDelayS := Backoff.capped_le _ _ _ (n - 1)

theorem cappedDelay_mono {m n : ℕ} (h : m ≤ n) : p.cappedDelay m ≤ p.cappedDelay n :=
  Backoff.capped_mono p.initial_nonneg p.one_le_multiplier (Nat.sub_le_sub_right h 1)

/-- A random value turns the jitter by a part of at most one. -/
theorem abs_part_le (h₀ : 0 ≤ r) (h₁ : r ≤ 1) : |r * 2 - 1| ≤ 1 := by
  rw [abs_le]
  constructor <;> linarith

/-- **The delay of a retry**: the early returns are those where jitter does nothing. -/
theorem delayForRetry_eq (hn : 0 < n) (h₀ : 0 ≤ r) (h₁ : r ≤ 1)
    (hfits : p.multiplier ^ (n - 1) ≤ maxDouble) :
    p.delayForRetry n r =
      .ok (Backoff.spread p.maxDelayS p.jitterRatio (r * 2 - 1) (p.cappedDelay n)) := by
  rw [delayForRetry, if_neg hn.ne', if_neg (not_not.2 ⟨h₀, h₁⟩), if_neg (not_lt.2 hfits)]
  simp only
  split_ifs with hnone
  · have hshare : p.cappedDelay n * p.jitterRatio = 0 := mul_eq_zero.2 hnone
    rw [Backoff.spread_of_mul_eq_zero (p.cappedDelay_nonneg n) (p.cappedDelay_le n) hshare]
    rfl
  · rfl

/-- Where the power is no double, there is no delay. -/
theorem delayForRetry_overflow (hn : 0 < n) (h₀ : 0 ≤ r) (h₁ : r ≤ 1)
    (hlarge : maxDouble < p.multiplier ^ (n - 1)) :
    p.delayForRetry n r = .error (.overflowError "(34, 'Numerical result out of range')") := by
  rw [delayForRetry, if_neg hn.ne', if_neg (not_not.2 ⟨h₀, h₁⟩), if_pos hlarge]
  rfl

/-- A retry whose power is a double backs off. -/
theorem backsOff_of_fits (hn : 0 < n) (h₀ : 0 ≤ r) (h₁ : r ≤ 1)
    (hfits : p.multiplier ^ (n - 1) ≤ maxDouble) : p.BacksOff n r := by
  have hc := p.cappedDelay_nonneg n
  have hle := p.cappedDelay_le n
  refine ⟨_, p.delayForRetry_eq hn h₀ h₁ hfits, Backoff.spread_nonneg _ _ _ _,
    Backoff.spread_le p.max_nonneg _ _ _,
    Backoff.abs_spread_sub_le hc hle p.jitter_nonneg (abs_part_le h₀ h₁), fun m hm hmn => ?_⟩
  -- the powers of earlier retries are smaller
  have hpow : p.multiplier ^ (m - 1) ≤ p.multiplier ^ (n - 1) :=
    pow_le_pow_right₀ p.one_le_multiplier (Nat.sub_le_sub_right hmn 1)
  exact ⟨_, p.delayForRetry_eq hm h₀ h₁ (hpow.trans hfits),
    Backoff.spread_mono p.jitter_nonneg p.jitter_le_one (abs_part_le h₀ h₁) (p.cappedDelay_mono hmn)⟩

theorem fits_of_backsOff (hn : 0 < n) (h₀ : 0 ≤ r) (h₁ : r ≤ 1) (h : p.BacksOff n r) :
    p.multiplier ^ (n - 1) ≤ maxDouble := by
  by_contra hlarge
  obtain ⟨d, hd, -⟩ := h
  rw [p.delayForRetry_overflow hn h₀ h₁ (not_le.1 hlarge)] at hd
  cases hd

/-- **A retry backs off exactly if the power of the multiplier is a double.** -/
theorem backs_off_iff (hn : 0 < n) (h₀ : 0 ≤ r) (h₁ : r ≤ 1) :
    p.BacksOff n r ↔ p.multiplier ^ (n - 1) ≤ maxDouble :=
  ⟨p.fits_of_backsOff hn h₀ h₁, p.backsOff_of_fits hn h₀ h₁⟩

end

theorem backs_off_third : defaultPolicy.BacksOff 3 (1 / 4) :=
  (defaultPolicy.backs_off_iff (by decide) (by norm_num) (by norm_num)).2
    (two_pow_le_maxDouble_iff.2 (by decide))

/-- The power overflows after 1024 doublings, although the delay has long been at its cap. -/
theorem delay_overflows :
    patientPolicy.cappedDelay 1025 = patientPolicy.maxDelayS ∧
      patientPolicy.delayForRetry 1025 (1 / 2) =
        .error (.overflowError "(34, 'Numerical result out of range')") ∧
      ¬ patientPolicy.BacksOff 1025 (1 / 2) := by
  have hlarge : maxDouble < patientPolicy.multiplier ^ (1025 - 1) :=
    not_le.1 (mt two_pow_le_maxDouble_iff.1 (by decide))
  have hoverflow := patientPolicy.delayForRetry_overflow (n := 1025) (r := 1 / 2) (by decide)
    (by norm_num) (by norm_num) hlarge
  refine ⟨le_antisymm (patientPolicy.cappedDelay_le 1025) ?_, hoverflow, ?_⟩
  · -- the seventh delay is at the cap
    have hseventh : patientPolicy.cappedDelay 7 = patientPolicy.maxDelayS := by
      norm_num [cappedDelay, patientPolicy, defaultPolicy]
    rw [← hseventh]
    exact patientPolicy.cappedDelay_mono (by decide)
  · rintro ⟨d, hd, -⟩
    rw [hoverflow] at hd
    cases hd

/-! ## Every retry -/

/-- Every retry that `run_with_retry` schedules backs off exactly if the last one does. -/
theorem backsOff_scheduled_iff (p : RetryPolicy) :
    (∀ n, 0 < n → n < p.maxAttempts → ∀ r, 0 ≤ r → r ≤ 1 → p.BacksOff n r) ↔
      p.multiplier ^ (p.maxAttempts - 2) ≤ maxDouble := by
  constructor
  · intro h
    by_cases hlast : p.maxAttempts - 1 = 0
    · rw [show p.maxAttempts - 2 = 0 by omega, pow_zero]
      exact one_le_maxDouble
    · have hpos : 0 < p.maxAttempts - 1 := Nat.pos_of_ne_zero hlast
      have hscheduled := h (p.maxAttempts - 1) hpos (by omega) 0 le_rfl zero_le_one
      exact p.fits_of_backsOff hpos le_rfl zero_le_one hscheduled
  · intro hfits n hn hlt r h₀ h₁
    refine p.backsOff_of_fits hn h₀ h₁ ?_
    exact (pow_le_pow_right₀ p.one_le_multiplier (by omega)).trans hfits

/-- **Every retry backs off, however many there are, only where delays do not grow.** -/
theorem backsOff_forever_iff (p : RetryPolicy) :
    (∀ n, 0 < n → ∀ r, 0 ≤ r → r ≤ 1 → p.BacksOff n r) ↔ p.multiplier = 1 := by
  constructor
  · intro h
    by_contra hne
    have hgrows : 1 < p.multiplier := lt_of_le_of_ne p.one_le_multiplier (Ne.symm hne)
    obtain ⟨k, hk⟩ := pow_unbounded_of_one_lt maxDouble hgrows
    have hfits := p.fits_of_backsOff k.succ_pos le_rfl zero_le_one
      (h (k + 1) k.succ_pos 0 le_rfl zero_le_one)
    exact absurd hk (not_lt.2 hfits)
  · intro hone n hn r h₀ h₁
    refine p.backsOff_of_fits hn h₀ h₁ ?_
    rw [hone, one_pow]
    exact one_le_maxDouble

end RetryPolicy

end PlcGateway
