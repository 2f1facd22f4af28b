/-
  Exponential backoff in an ordered field: a capped power, spread around its value and
  clamped again.

  `capped` grows and stays under the cap.  Clamping moves no two values apart
  (`abs_clamp_sub_clamp_le`), so that a spread value is no farther from the capped one
  than its share allows (`abs_spread_sub_le`), and it grows with it (`spread_mono`).
-/
import Mathlib.Algebra.Order.Group.MinMax
import Mathlib.Algebra.Order.Ring.Abs
import Mathlib.Algebra.Order.Ring.Pow
import Mathlib.Tactic.Linarith
import Mathlib.Tactic.Ring

namespace Backoff

variable {K : Type} [Field K] [LinearOrder K]

/-- The powers from `initial` on, capped. -/
def capped (initial multiplier cap : K) (k : ℕ) : K := min (initial * multiplier ^ k) cap

/-- The nearest value between 0 and `cap`. -/
def clamp (cap x : K) : K := max 0 (min cap x)

/-- `c`, moved by the part `t` of its share `ratio` and clamped. -/
def spread (cap ratio t c : K) : K := clamp cap (c + t * (c * ratio))

section
variable {cap ratio t c x y : K}

theorem capped_le (initial multiplier cap : K) (k : ℕ) : capped initial multiplier cap k ≤ cap :=
  min_le_right _ _

theorem clamp_nonneg (cap x : K) : 0 ≤ clamp cap x := le_max_left _ _

theorem clamp_le (hcap : 0 ≤ cap) (x : K) : clamp cap x ≤ cap := max_le hcap (min_le_left _ _)

theorem clamp_of_mem (h₀ : 0 ≤ x) (h₁ : x ≤ cap) : clamp cap x = x := by
  rw [clamp, min_eq_right h₁, max_eq_right h₀]

theorem clamp_mono (h : x ≤ y) : clamp cap x ≤ clamp cap y :=
  max_le_max le_rfl (min_le_min le_rfl h)

theorem spread_nonneg (cap ratio t c : K) : 0 ≤ spread cap ratio t c := clamp_nonneg _ _

theorem spread_le (hcap : 0 ≤ cap) (ratio t c : K) : spread cap ratio t c ≤ cap := clamp_le hcap _

/-- Nothing is spread where the share is nothing. -/
theorem spread_of_mul_eq_zero (hc : 0 ≤ c) (hcap : c ≤ cap) (h : c * ratio = 0) :
    spread cap ratio t c = c := by
  rw [spread, h, mul_zero, add_zero, clamp_of_mem hc hcap]

end

variable [IsStrictOrderedRing K]

/-- Clamping moves no two values apart. -/
theorem abs_clamp_sub_clamp_le (cap x y : K) : |clamp cap x - clamp cap y| ≤ |x - y| := by
  have hmin : |min cap x - min cap y| ≤ |x - y| := by
    refine (abs_min_sub_min_le_max cap x cap y).trans ?_
    rw [sub_self, abs_zero]
    exact max_le (abs_nonneg _) le_rfl
  refine (abs_max_sub_max_le_max 0 (min cap x) 0 (min cap y)).trans ?_
  rw [sub_self, abs_zero]
  exact max_le (abs_nonneg _) hmin

section
variable {initial multiplier cap : K}

theorem capped_nonneg (hinitial : 0 ≤ initial) (hmultiplier : 0 ≤ multiplier) (hcap : 0 ≤ cap)
    (k : ℕ) : 0 ≤ capped initial multiplier cap k :=
  le_min (mul_nonneg hinitial (pow_nonneg hmultiplier k)) hcap

theorem capped_mono (hinitial : 0 ≤ initial) (hmultiplier : 1 ≤ multiplier) {j k : ℕ} (h : j ≤ k) :
    capped initial multiplier cap j ≤ capped initial multiplier cap k := by
  have hpow : multiplier ^ j ≤ multiplier ^ k := pow_le_pow_right₀ hmultiplier h
  exact min_le_min (mul_le_mul_of_nonneg_left hpow hinitial) le_rfl

end

section
variable {cap ratio t c c' : K}

/-- **A spread value is within the share.** -/
theorem abs_spread_sub_le (hc : 0 ≤ c) (hcap : c ≤ cap) (hratio : 0 ≤ ratio) (ht : |t| ≤ 1) :
    |spread cap ratio t c - c| ≤ c * ratio := by
  have hshare : 0 ≤ c * ratio := mul_nonneg hc hratio
  calc |spread cap ratio t c - c|
      = |clamp cap (c + t * (c * ratio)) - clamp cap c| := by rw [spread, clamp_of_mem hc hcap]
    _ ≤ |c + t * (c * ratio) - c| := abs_clamp_sub_clamp_le _ _ _
    _ = |t| * (c * ratio) := by rw [add_sub_cancel_left, abs_mul, abs_of_nonneg hshare]
    _ ≤ c * ratio := mul_le_of_le_one_left hshare ht

/-- **A spread value grows with the one that is spread.** -/
theorem spread_mono (hratio : 0 ≤ ratio) (hle : ratio ≤ 1) (ht : |t| ≤ 1) (h : c ≤ c') :
    spread cap ratio t c ≤ spread cap ratio t c' := by
  have hfactor : 0 ≤ 1 + t * ratio := by
    have htratio : |t * ratio| ≤ 1 := by
      rw [abs_mul, abs_of_nonneg hratio]
      exact mul_le_one₀ ht hratio hle
    have hneg := (abs_le.1 htratio).1
    linarith
  refine clamp_mono ?_
  calc c + t * (c * ratio) = c * (1 + t * ratio) := by ring
    _ ≤ c' * (1 + t * ratio) := mul_le_mul_of_nonneg_right h hfactor
    _ = c' + t * (c' * ratio) := by ring

end

end Backoff
