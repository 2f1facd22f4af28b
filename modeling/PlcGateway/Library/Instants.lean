/-
  The order of instants, of date-times and of their texts.

  Date-times are compared by the instants they name.  This is the lexicographic
  order of their fields, and the order of their ISO-8601 texts: every field has
  its fixed number of digits, and the `+` of the offset comes before the `.` of a
  fraction.
-/
import PlcGateway.Library.Calendar
import Mathlib.Data.String.Basic

namespace Calendar

/-! ## Texts of a fixed length -/

theorem append_lt_append_iff {u v s t : List Char} (h : u.length = v.length) :
    u ++ s < v ++ t ↔ u < v ∨ u = v ∧ s < t := by
  induction u generalizing v with
  | nil =>
    obtain rfl : v = [] := List.length_eq_zero_iff.1 h.symm
    simp
  | cons a u ih =>
    cases v with
    | nil => simp at h
    | cons b v =>
      simp only [List.cons_append, List.cons_lt_cons_iff, List.cons.injEq,
        ih (Nat.succ.inj h)]
      tauto

@[simp] theorem length_pad (w n : ℕ) : (pad w n).length = w := by
  induction w generalizing n with
  | zero => rfl
  | succ w ih => rw [pad, List.length_append, ih, List.length_singleton]

theorem digitChar_lt_iff {m n : ℕ} (hm : m < 10) (hn : n < 10) :
    Nat.digitChar m < Nat.digitChar n ↔ m < n := by
  have key : ∀ a b : Fin 10, Nat.digitChar a < Nat.digitChar b ↔ a < b := by decide
  exact key ⟨m, hm⟩ ⟨n, hn⟩

theorem pad_inj {w m n : ℕ} (hm : m < 10 ^ w) (hn : n < 10 ^ w) : pad w m = pad w n ↔ m = n := by
  refine ⟨fun h => ?_, fun h => by rw [h]⟩
  have hread := readDigits_pad_zero w m [] hm
  rw [h, readDigits_pad_zero w n [] hn] at hread
  simpa using hread.symm

/-- Padded numbers are ordered as their texts. -/
theorem pad_lt_pad {w m n : ℕ} (hm : m < 10 ^ w) (hn : n < 10 ^ w) : pad w m < pad w n ↔ m < n := by
  induction w generalizing m n with
  | zero => simp only [pow_zero] at hm hn; simp [pad]; omega
  | succ w ih =>
    have hm' : m / 10 < 10 ^ w := by rw [pow_succ] at hm; omega
    have hn' : n / 10 < 10 ^ w := by rw [pow_succ] at hn; omega
    rw [pad, pad, append_lt_append_iff (by simp), ih hm' hn', pad_inj hm' hn']
    simp only [List.cons_lt_cons_iff, List.not_lt_nil, and_false, or_false,
      digitChar_lt_iff (Nat.mod_lt m (by omega : 10 > 0)) (Nat.mod_lt n (by omega : 10 > 0))]
    omega

/-! ## Days -/

/-- The days before year `y`. -/
def daysBeforeYear (y : ℕ) : ℕ := 365 * (y - 1) + (y - 1) / 4 - (y - 1) / 100 + (y - 1) / 400

/-- The days of year `y` before month `m`. -/
def daysBeforeMonth (y m : ℕ) : ℕ := ((List.range' 1 (m - 1)).map (daysInMonth y)).sum

def daysInYear (y : ℕ) : ℕ := if isLeap y then 366 else 365

theorem daysBeforeYear_succ {y : ℕ} (h : 1 ≤ y) :
    daysBeforeYear (y + 1) = daysBeforeYear y + daysInYear y := by
  obtain ⟨n, rfl⟩ := Nat.exists_eq_add_of_le' h
  have hle : n / 100 ≤ n / 4 := Nat.div_le_div_left (by decide) (by decide)
  have h₁₀₀ : 100 ∣ n + 1 → 4 ∣ n + 1 := (show 4 ∣ 100 by decide).trans
  have h₄₀₀ : 400 ∣ n + 1 → 100 ∣ n + 1 := (show 100 ∣ 400 by decide).trans
  have hleap : isLeap (n + 1) ↔ 4 ∣ n + 1 ∧ (¬ 100 ∣ n + 1 ∨ 400 ∣ n + 1) := by
    simp [isLeap, Nat.dvd_iff_mod_eq_zero]
  simp only [daysBeforeYear, daysInYear, Nat.add_sub_cancel, Nat.succ_div, hleap]
  generalize n / 4 = a, n / 100 = b, n / 400 = c at hle ⊢
  split_ifs <;> omega

theorem daysBeforeMonth_succ {y m : ℕ} (h : 1 ≤ m) :
    daysBeforeMonth y (m + 1) = daysBeforeMonth y m + daysInMonth y m := by
  obtain ⟨n, rfl⟩ := Nat.exists_eq_add_of_le' h
  rw [daysBeforeMonth, Nat.add_sub_cancel, List.range'_1_concat, List.map_append, List.sum_append,
    List.map_singleton, List.sum_singleton, Nat.add_comm 1 n]
  rfl

theorem daysBeforeMonth_end (y : ℕ) : daysBeforeMonth y 13 = daysInYear y := by
  cases hl : isLeap y <;>
    simp [daysBeforeMonth, daysInYear, List.range', daysInMonth, hl]

theorem daysBeforeMonth_december (y : ℕ) : daysBeforeMonth y 12 + 31 = daysInYear y := by
  cases hl : isLeap y <;>
    simp [daysBeforeMonth, daysInYear, List.range', daysInMonth, hl]

theorem daysBeforeYear_mono : Monotone daysBeforeYear := by
  refine monotone_nat_of_le_succ fun y => ?_
  rcases y.eq_zero_or_pos with rfl | hy
  · rfl
  · rw [daysBeforeYear_succ hy]
    exact Nat.le_add_right _ _

theorem daysBeforeMonth_mono (y : ℕ) : Monotone (daysBeforeMonth y) := by
  refine monotone_nat_of_le_succ fun m => ?_
  rcases m.eq_zero_or_pos with rfl | hm
  · rfl
  · rw [daysBeforeMonth_succ hm]
    exact Nat.le_add_right _ _

namespace Date

theorem toOrdinal_eq (d : Date) :
    d.toOrdinal = daysBeforeYear d.year + daysBeforeMonth d.year d.month + d.day := rfl

theorem toOrdinal_pos (d : Date) : 0 < d.toOrdinal := by
  have := d.hday.1
  rw [toOrdinal_eq]
  omega

/-- The days before the end of the month of a date. -/
theorem toOrdinal_le_month (d : Date) :
    d.toOrdinal ≤ daysBeforeYear d.year + daysBeforeMonth d.year (d.month + 1) := by
  have := d.hday.2
  rw [toOrdinal_eq, daysBeforeMonth_succ d.hmonth.1]
  omega

theorem toOrdinal_le_year (d : Date) : d.toOrdinal ≤ daysBeforeYear (d.year + 1) := by
  have hle := d.toOrdinal_le_month
  have hmonth := daysBeforeMonth_mono d.year (Nat.add_le_add_right d.hmonth.2 1)
  rw [daysBeforeMonth_end] at hmonth
  rw [daysBeforeYear_succ d.hyear.1]
  omega

/-- A date with smaller fields is earlier. -/
theorem toOrdinal_lt {d e : Date}
    (h : d.year < e.year ∨ d.year = e.year ∧ (d.month < e.month ∨ d.month = e.month ∧ d.day < e.day)) :
    d.toOrdinal < e.toOrdinal := by
  have hday := e.hday.1
  rw [e.toOrdinal_eq]
  rcases h with hy | ⟨hy, hm | ⟨hm, hd⟩⟩
  · have hle := d.toOrdinal_le_year
    have hmono : daysBeforeYear (d.year + 1) ≤ daysBeforeYear e.year := daysBeforeYear_mono hy
    omega
  · have hle := d.toOrdinal_le_month
    have hmono : daysBeforeMonth d.year (d.month + 1) ≤ daysBeforeMonth d.year e.month :=
      daysBeforeMonth_mono d.year hm
    rw [← hy]
    omega
  · rw [d.toOrdinal_eq, hy, hm]
    omega

/-- **Days are ordered as their fields.** -/
theorem toOrdinal_lt_iff {d e : Date} : d.toOrdinal < e.toOrdinal ↔
    d.year < e.year ∨ d.year = e.year ∧ (d.month < e.month ∨ d.month = e.month ∧ d.day < e.day) := by
  refine ⟨fun h => ?_, toOrdinal_lt⟩
  by_contra hn
  rcases eq_or_ne d e with rfl | hne
  · exact lt_irrefl _ h
  · have hlt : e.toOrdinal < d.toOrdinal := by
      refine toOrdinal_lt ?_
      have : ¬ (d.year = e.year ∧ d.month = e.month ∧ d.day = e.day) := by
        rintro ⟨h₁, h₂, h₃⟩
        cases d
        cases e
        cases h₁
        cases h₂
        cases h₃
        exact hne rfl
      omega
    exact lt_asymm h hlt

theorem toOrdinal_inj {d e : Date} : d.toOrdinal = e.toOrdinal ↔ d = e := by
  refine ⟨fun h => ?_, fun h => by rw [h]⟩
  have h₁ := toOrdinal_lt_iff (d := d) (e := e)
  have h₂ := toOrdinal_lt_iff (d := e) (e := d)
  rw [h] at h₁ h₂
  simp only [lt_irrefl, false_iff] at h₁ h₂
  cases d
  cases e
  simp only [mk.injEq]
  simp only at h₁ h₂
  omega

theorem of_ofFields {y m d : ℕ} {e : Date} (h : ofFields y m d = some e) :
    e.year = y ∧ e.month = m ∧ e.day = d := by
  rw [ofFields] at h
  split_ifs at h
  cases h
  exact ⟨rfl, rfl, rfl⟩

theorem ofFields_isSome {y m d : ℕ} (hy : 1 ≤ y ∧ y ≤ 9999) (hm : 1 ≤ m ∧ m ≤ 12)
    (hd : 1 ≤ d ∧ d ≤ daysInMonth y m) : ∃ e, ofFields y m d = some e :=
  ⟨_, dif_pos ⟨hy, hm, hd⟩⟩

theorem ofFields_eq_none {y m d : ℕ}
    (h : ¬ (1 ≤ y ∧ y ≤ 9999) ∨ ¬ (1 ≤ m ∧ m ≤ 12) ∨ ¬ (1 ≤ d ∧ d ≤ daysInMonth y m)) :
    ofFields y m d = none := by
  rw [ofFields, dif_neg]
  rintro ⟨hy, hm, hd⟩
  rcases h with h | h | h
  · exact h hy
  · exact h hm
  · exact h hd

theorem le_daysInMonth (y m : ℕ) : 28 ≤ daysInMonth y m := by
  unfold daysInMonth
  split <;> (try split) <;> omega

/-- The next day is one day later; there is none after the last day. -/
theorem next_spec (d : Date) :
    (∃ e, d.next = some e ∧ e.toOrdinal = d.toOrdinal + 1) ∨
      d.next = none ∧ d.toOrdinal = daysBeforeYear 10000 := by
  have hlen := le_daysInMonth d.year (d.month + 1)
  rw [next]
  by_cases hday : d.day < daysInMonth d.year d.month
  · obtain ⟨e, he⟩ := ofFields_isSome d.hyear d.hmonth ⟨Nat.le_add_left 1 _, hday⟩
    obtain ⟨hy, hm, hd⟩ := of_ofFields he
    refine Or.inl ⟨e, by rw [he, Option.some_or], ?_⟩
    rw [toOrdinal_eq, toOrdinal_eq, hy, hm, hd]
    rfl
  · have hd : d.day = daysInMonth d.year d.month := le_antisymm d.hday.2 (not_lt.1 hday)
    rw [ofFields_eq_none (Or.inr (Or.inr (by omega))), Option.none_or]
    have hend : d.toOrdinal = daysBeforeYear d.year + daysBeforeMonth d.year (d.month + 1) := by
      rw [toOrdinal_eq, daysBeforeMonth_succ d.hmonth.1, hd, Nat.add_assoc]
    by_cases hmonth : d.month < 12
    · obtain ⟨e, he⟩ := ofFields_isSome (d := 1) d.hyear (m := d.month + 1) (by omega) (by omega)
      obtain ⟨hy, hm, hd⟩ := of_ofFields he
      refine Or.inl ⟨e, by rw [he, Option.some_or], ?_⟩
      rw [toOrdinal_eq, hend, hy, hm, hd]
    · have hm : d.month = 12 := le_antisymm d.hmonth.2 (not_lt.1 hmonth)
      rw [ofFields_eq_none (Or.inr (Or.inl (by omega))), Option.none_or]
      have hyend : d.toOrdinal = daysBeforeYear (d.year + 1) := by
        rw [hend, hm, daysBeforeMonth_end, daysBeforeYear_succ d.hyear.1]
      by_cases hyear : d.year < 9999
      · obtain ⟨e, he⟩ := ofFields_isSome (y := d.year + 1) (m := 1) (d := 1) (by omega) (by omega)
          ⟨le_rfl, (by decide : 1 ≤ 28).trans (le_daysInMonth _ _)⟩
        obtain ⟨hy, hm, hd⟩ := of_ofFields he
        refine Or.inl ⟨e, he, ?_⟩
        rw [toOrdinal_eq, hyend, hy, hm, hd]
        rfl
      · have hy : d.year = 9999 := le_antisymm d.hyear.2 (not_lt.1 hyear)
        refine Or.inr ⟨ofFields_eq_none (Or.inl (by omega)), ?_⟩
        rw [hyend, hy]

/-- The day before, if there is one. -/
def prev (d : Date) : Option Date :=
  (ofFields d.year d.month (d.day - 1)).or
    ((ofFields d.year (d.month - 1) (daysInMonth d.year (d.month - 1))).or
      (ofFields (d.year - 1) 12 31))

/-- The day before is one day earlier; there is none before the first day. -/
theorem prev_spec (d : Date) :
    (∃ e, d.prev = some e ∧ e.toOrdinal + 1 = d.toOrdinal) ∨ d.prev = none ∧ d.toOrdinal = 1 := by
  have hlen := le_daysInMonth d.year (d.month - 1)
  obtain ⟨hd₁, hd₂⟩ := d.hday
  obtain ⟨hm₁, hm₂⟩ := d.hmonth
  obtain ⟨hy₁, hy₂⟩ := d.hyear
  rw [prev]
  by_cases hday : 1 < d.day
  · obtain ⟨e, he⟩ := ofFields_isSome (d := d.day - 1) d.hyear d.hmonth (by omega)
    obtain ⟨hy, hm, hd⟩ := of_ofFields he
    refine Or.inl ⟨e, by rw [he, Option.some_or], ?_⟩
    rw [toOrdinal_eq, toOrdinal_eq, hy, hm, hd]
    omega
  · have hd : d.day = 1 := by omega
    rw [ofFields_eq_none (Or.inr (Or.inr (by omega))), Option.none_or]
    by_cases hmonth : 1 < d.month
    · obtain ⟨m, hm⟩ := Nat.exists_eq_add_of_le' hm₁
      rw [hm, Nat.add_sub_cancel] at hlen ⊢
      obtain ⟨e, he⟩ := ofFields_isSome (d := daysInMonth d.year m) d.hyear (m := m) (by omega)
        (by omega)
      obtain ⟨hy', hm', hd'⟩ := of_ofFields he
      refine Or.inl ⟨e, by rw [he, Option.some_or], ?_⟩
      rw [toOrdinal_eq, toOrdinal_eq, hy', hm', hd', hm, daysBeforeMonth_succ (by omega), hd]
      omega
    · have hm : d.month = 1 := by omega
      rw [ofFields_eq_none (Or.inr (Or.inl (by omega))), Option.none_or]
      have hstart : d.toOrdinal = daysBeforeYear d.year + 1 := by
        rw [toOrdinal_eq, hm, hd]
        rfl
      by_cases hyear : 1 < d.year
      · obtain ⟨y, hy⟩ := Nat.exists_eq_add_of_le' hy₁
        rw [hy, Nat.add_sub_cancel]
        obtain ⟨e, he⟩ := ofFields_isSome (y := y) (m := 12) (d := 31) (by omega) (by omega)
          ⟨by omega, le_rfl⟩
        obtain ⟨hy', hm', hd'⟩ := of_ofFields he
        refine Or.inl ⟨e, he, ?_⟩
        rw [hstart, toOrdinal_eq, hy', hm', hd', hy, daysBeforeYear_succ (by omega),
          ← daysBeforeMonth_december]
        omega
      · have hy : d.year = 1 := by omega
        refine Or.inr ⟨ofFields_eq_none (Or.inl (by omega)), ?_⟩
        rw [hstart, hy]
        rfl

theorem toOrdinal_le (d : Date) : d.toOrdinal ≤ daysBeforeYear 10000 :=
  d.toOrdinal_le_year.trans (daysBeforeYear_mono (Nat.succ_le_succ d.hyear.2))

theorem addDays_spec (n : ℕ) (d : Date) :
    (∃ e, d.addDays n = some e ∧ e.toOrdinal = d.toOrdinal + n) ∨
      d.addDays n = none ∧ daysBeforeYear 10000 < d.toOrdinal + n := by
  induction n generalizing d with
  | zero => exact Or.inl ⟨d, rfl, rfl⟩
  | succ n ih =>
    obtain ⟨d', hnext, hd'⟩ | ⟨hnext, hlast⟩ := d.next_spec
    · rw [addDays, hnext, Option.bind_some]
      have hsum : d'.toOrdinal + n = d.toOrdinal + (n + 1) := by omega
      rw [← hsum]
      exact ih d'
    · rw [addDays, hnext]
      exact Or.inr ⟨rfl, by omega⟩

end Date

/-! ## Date-times -/

namespace DateTime

/-- The microseconds before the start of year 10000. -/
def endOfTime : ℕ := daysBeforeYear 10000 * microsPerDay

theorem timeMicros_lt (d : DateTime) : d.timeMicros < microsPerDay := by
  obtain ⟨h₁, h₂, h₃, h₄⟩ := d.htime
  unfold timeMicros microsPerDay
  omega

theorem timeMicros_atMicros {n : ℕ} (d : Date) (h : n < microsPerDay) :
    (atMicros d n).timeMicros = n := by
  simp only [timeMicros, atMicros]
  unfold microsPerDay at h
  omega

/-- Microseconds are those of the days before, and those of the day. -/
theorem toMicros_add (d : DateTime) :
    d.toMicros + microsPerDay = d.date.toOrdinal * microsPerDay + d.timeMicros := by
  have h := d.date.toOrdinal_pos
  obtain ⟨n, hn⟩ := Nat.exists_eq_add_of_le' h
  rw [toMicros, hn, Nat.add_sub_cancel, Nat.add_mul]
  omega

theorem toMicros_atMicros {n : ℕ} (d : Date) (h : n < microsPerDay) :
    (atMicros d n).toMicros + microsPerDay = d.toOrdinal * microsPerDay + n := by
  rw [toMicros_add, timeMicros_atMicros d h]
  rfl

theorem toMicros_lt (d : DateTime) : d.toMicros < endOfTime := by
  have hadd := d.toMicros_add
  have hlt := d.timeMicros_lt
  have hle := Nat.mul_le_mul_right microsPerDay d.date.toOrdinal_le
  unfold endOfTime
  omega

theorem toMicros_lt_iff_date {a b : DateTime} : a.toMicros < b.toMicros ↔
    a.date.toOrdinal < b.date.toOrdinal ∨ a.date = b.date ∧ a.timeMicros < b.timeMicros := by
  have ha := a.toMicros_add
  have hb := b.toMicros_add
  have hla := a.timeMicros_lt
  have hlb := b.timeMicros_lt
  rcases lt_trichotomy a.date.toOrdinal b.date.toOrdinal with h | h | h
  · have hmul := Nat.mul_le_mul_right microsPerDay (Nat.succ_le_of_lt h)
    rw [Nat.succ_mul] at hmul
    exact iff_of_true (by omega) (Or.inl h)
  · rw [h] at ha
    rw [← Date.toOrdinal_inj, h]
    omega
  · have hmul := Nat.mul_le_mul_right microsPerDay (Nat.succ_le_of_lt h)
    rw [Nat.succ_mul] at hmul
    refine iff_of_false (by omega) ?_
    rintro (hlt | ⟨heq, -⟩)
    · exact lt_asymm h hlt
    · rw [heq] at h
      exact lt_irrefl _ h

theorem timeMicros_lt_iff {a b : DateTime} : a.timeMicros < b.timeMicros ↔
    a.hour < b.hour ∨ a.hour = b.hour ∧ (a.minute < b.minute ∨ a.minute = b.minute ∧
      (a.second < b.second ∨ a.second = b.second ∧ a.microsecond < b.microsecond)) := by
  obtain ⟨-, ha₁, ha₂, ha₃⟩ := a.htime
  obtain ⟨-, hb₁, hb₂, hb₃⟩ := b.htime
  unfold timeMicros
  omega

/-- A later instant, or none when it is past the last year. -/
theorem addMicros_spec (n : ℕ) (d : DateTime) :
    (∃ e, d.addMicros n = some e ∧ e.toMicros = d.toMicros + n) ∨
      d.addMicros n = none ∧ endOfTime ≤ d.toMicros + n := by
  have hadd := d.toMicros_add
  have hdiv := Nat.div_add_mod (d.timeMicros + n) microsPerDay
  have hmod : (d.timeMicros + n) % microsPerDay < microsPerDay := Nat.mod_lt _ (by decide)
  rw [Nat.mul_comm] at hdiv
  rw [addMicros]
  generalize (d.timeMicros + n) / microsPerDay = days, (d.timeMicros + n) % microsPerDay = time at *
  obtain ⟨e, he, hord⟩ | ⟨he, hlast⟩ := d.date.addDays_spec days
  · refine Or.inl ⟨atMicros e time, by rw [he, Option.map_some], ?_⟩
    have hadd' := toMicros_atMicros e hmod
    rw [hord, Nat.add_mul] at hadd'
    omega
  · refine Or.inr ⟨by rw [he, Option.map_none], ?_⟩
    have hmul := Nat.mul_le_mul_right microsPerDay (Nat.succ_le_of_lt hlast)
    rw [Nat.succ_mul, Nat.add_mul] at hmul
    unfold endOfTime
    omega

end DateTime

/-! ## Texts -/

theorem isoFraction_lt_iff {m n : ℕ} (hm : m < 1000000) (hn : n < 1000000) :
    (if m = 0 then [] else '.' :: pad 6 m) ++ ['+', '0', '0', ':', '0', '0'] <
      (if n = 0 then [] else '.' :: pad 6 n) ++ ['+', '0', '0', ':', '0', '0'] ↔ m < n := by
  have hplus : '+' < '.' := by decide
  split_ifs with hm₀ hn₀ hn₀
  · rw [hm₀, hn₀]
    exact iff_of_false (lt_irrefl _) (lt_irrefl _)
  · simp only [List.nil_append, List.cons_append, List.cons_lt_cons_iff, hplus, true_or, true_iff]
    omega
  · simp only [List.nil_append, List.cons_append, List.cons_lt_cons_iff, hplus.not_gt,
      hplus.ne', false_and, or_false, false_iff]
    omega
  · rw [List.cons_append, List.cons_append, List.cons_lt_cons_iff,
      append_lt_append_iff (by simp), pad_lt_pad hm hn]
    simp

theorem pad_append_lt_iff {w m n : ℕ} {s t : List Char} (hm : m < 10 ^ w) (hn : n < 10 ^ w) :
    pad w m ++ s < pad w n ++ t ↔ m < n ∨ m = n ∧ s < t := by
  rw [append_lt_append_iff (by simp), pad_lt_pad hm hn, pad_inj hm hn]

theorem cons_lt_cons_self {c : Char} {s t : List Char} : c :: s < c :: t ↔ s < t := by
  simp

theorem Date.ext_iff {d e : Date} :
    d = e ↔ d.year = e.year ∧ d.month = e.month ∧ d.day = e.day := by
  cases d
  cases e
  simp

/-- The texts are ordered as the instants. -/
theorem isoChars_lt_iff (a b : DateTime) : isoChars a < isoChars b ↔ a.toMicros < b.toMicros := by
  have hyear : ∀ d : Date, d.year < 10 ^ 4 := fun d => by have := d.hyear; omega
  have hmonth : ∀ d : Date, d.month < 10 ^ 2 := fun d => by have := d.hmonth; omega
  have hday : ∀ d : Date, d.day < 10 ^ 2 := fun d => by
    have := d.hday; have := daysInMonth_le d.year d.month; omega
  have htime : ∀ d : DateTime, d.hour < 10 ^ 2 ∧ d.minute < 10 ^ 2 ∧ d.second < 10 ^ 2 := fun d => by
    have := d.htime; omega
  rw [DateTime.toMicros_lt_iff_date, Date.toOrdinal_lt_iff, DateTime.timeMicros_lt_iff, Date.ext_iff,
    isoChars, isoChars]
  simp only [pad_append_lt_iff, hyear, hmonth, hday, htime, cons_lt_cons_self,
    isoFraction_lt_iff a.htime.2.2.2 b.htime.2.2.2]
  omega

/-- **Texts are ordered as instants**, with a fraction of a second or without. -/
theorem isoformat_le_iff (a b : DateTime) : isoformat a ≤ isoformat b ↔ a.toMicros ≤ b.toMicros := by
  rw [← not_lt, ← not_lt, ← isoChars_lt_iff, String.lt_iff_toList_lt, isoformat, isoformat,
    String.toList_ofList, String.toList_ofList]

theorem isoformat_lt_iff (a b : DateTime) : isoformat a < isoformat b ↔ a.toMicros < b.toMicros := by
  rw [← not_le, ← not_le, isoformat_le_iff]

theorem isoformat_eq_iff (a b : DateTime) : isoformat a = isoformat b ↔ a.toMicros = b.toMicros := by
  rw [le_antisymm_iff, le_antisymm_iff, isoformat_le_iff, isoformat_le_iff]

/-! ## Timezones -/

/-- The offset from UTC in microseconds, at a local date-time and its fold. -/
structure TimeZone where
  utcoffset : DateTime → Bool → ℤ
  bounded : ∀ d fold, -DateTime.microsPerDay < utcoffset d fold ∧
    utcoffset d fold < DateTime.microsPerDay

/-- UTC, or a timezone of a fixed offset. -/
def TimeZone.fixed (offset : ℤ)
    (h : -DateTime.microsPerDay < offset ∧ offset < DateTime.microsPerDay) : TimeZone :=
  ⟨fun _ _ => offset, fun _ _ => h⟩

def TimeZone.utc : TimeZone := .fixed 0 (by decide)

/-- A local date-time in a timezone. -/
structure AwareDateTime where
  wall : DateTime
  fold : Bool
  tzinfo : TimeZone

namespace AwareDateTime

def ofUtc (d : DateTime) : AwareDateTime := ⟨d, false, .utc⟩

/-- The microseconds from the start of year 1 in UTC. -/
def instant (a : AwareDateTime) : ℤ := a.wall.toMicros - a.tzinfo.utcoffset a.wall a.fold

/-- `astimezone(UTC)`; none outside the years 1 to 9999. -/
def astimezone (a : AwareDateTime) : Option DateTime :=
  let time := a.wall.timeMicros - a.tzinfo.utcoffset a.wall a.fold
  if time < 0 then a.wall.date.prev.map fun d => .atMicros d (time + DateTime.microsPerDay).toNat
  else if time < DateTime.microsPerDay then some (.atMicros a.wall.date time.toNat)
  else a.wall.date.next.map fun d => .atMicros d (time - DateTime.microsPerDay).toNat

/-- `n` microseconds later on the wall clock. -/
def addMicros (n : ℕ) (a : AwareDateTime) : Option AwareDateTime :=
  (a.wall.addMicros n).map fun wall => ⟨wall, false, a.tzinfo⟩

/-- An instant is in the years 1 to 9999. -/
def InRange (a : AwareDateTime) : Prop := 0 ≤ a.instant ∧ a.instant < DateTime.endOfTime

instance (a : AwareDateTime) : Decidable a.InRange :=
  inferInstanceAs (Decidable (0 ≤ a.instant ∧ _))

/-- The instant at which the wall clock shows `n` microseconds more; none when the
    wall clock or the instant is out of range. -/
def later (n : ℕ) (a : AwareDateTime) : Option ℤ :=
  (a.addMicros n).bind fun b => if b.InRange then some b.instant else none

theorem atMicros_timeMicros (d : DateTime) : DateTime.atMicros d.date d.timeMicros = d := by
  obtain ⟨date, h, m, s, us, ht⟩ := d
  simp only [DateTime.atMicros, DateTime.timeMicros, DateTime.mk.injEq, true_and]
  omega

@[simp] theorem astimezone_ofUtc (d : DateTime) : (ofUtc d).astimezone = some d := by
  have hlt := d.timeMicros_lt
  have htime : (d.timeMicros : ℤ) - TimeZone.utc.utcoffset d false = d.timeMicros := Int.sub_zero _
  rw [astimezone]
  simp only [ofUtc, htime]
  rw [if_neg (by omega), if_pos (by omega), Int.toNat_natCast, atMicros_timeMicros]

theorem addMicros_ofUtc (n : ℕ) (d : DateTime) : (ofUtc d).addMicros n = (d.addMicros n).map ofUtc := rfl

/-- The UTC date-time is the same instant; there is none just when the instant is
    out of range. -/
theorem astimezone_spec (a : AwareDateTime) :
    (∃ d, a.astimezone = some d ∧ (d.toMicros : ℤ) = a.instant) ∨
      a.astimezone = none ∧ ¬ a.InRange := by
  obtain ⟨hlow, hhigh⟩ := a.tzinfo.bounded a.wall a.fold
  have hadd := a.wall.toMicros_add
  have htime := a.wall.timeMicros_lt
  have hord := a.wall.date.toOrdinal_pos
  unfold InRange instant astimezone
  generalize a.tzinfo.utcoffset a.wall a.fold = offset at hlow hhigh ⊢
  simp only
  split_ifs with hneg hlt
  · obtain ⟨e, he, hprev⟩ | ⟨he, hfirst⟩ := a.wall.date.prev_spec
    · refine Or.inl ⟨_, by rw [he, Option.map_some], ?_⟩
      have hn := DateTime.toMicros_atMicros e
        (n := ((a.wall.timeMicros : ℤ) - offset + DateTime.microsPerDay).toNat) (by omega)
      rw [← hprev, Nat.succ_mul] at hadd
      omega
    · refine Or.inr ⟨by rw [he, Option.map_none], ?_⟩
      rw [hfirst, Nat.one_mul] at hadd
      omega
  · refine Or.inl ⟨_, rfl, ?_⟩
    have hn := DateTime.toMicros_atMicros a.wall.date
      (n := ((a.wall.timeMicros : ℤ) - offset).toNat) (by omega)
    omega
  · obtain ⟨e, he, hnext⟩ | ⟨he, hlast⟩ := a.wall.date.next_spec
    · refine Or.inl ⟨_, by rw [he, Option.map_some], ?_⟩
      have hn := DateTime.toMicros_atMicros e
        (n := ((a.wall.timeMicros : ℤ) - offset - DateTime.microsPerDay).toNat) (by omega)
      rw [hnext, Nat.succ_mul] at hn
      omega
    · refine Or.inr ⟨by rw [he, Option.map_none], ?_⟩
      rw [hlast] at hadd
      unfold DateTime.endOfTime
      omega

theorem map_astimezone (a : AwareDateTime) :
    a.astimezone.map (fun d => (d.toMicros : ℤ)) = if a.InRange then some a.instant else none := by
  obtain ⟨d, hd, hinstant⟩ | ⟨hd, hrange⟩ := a.astimezone_spec
  · have hlt := d.toMicros_lt
    have hrange : a.InRange := ⟨by omega, by omega⟩
    rw [hd, if_pos hrange, Option.map_some, hinstant]
  · rw [hd, if_neg hrange, Option.map_none]

theorem later_eq (n : ℕ) (a : AwareDateTime) :
    a.later n = ((a.addMicros n).bind astimezone).map fun d => (d.toMicros : ℤ) := by
  rw [later]
  cases a.addMicros n with
  | none => rfl
  | some b => exact b.map_astimezone.symm

end AwareDateTime

end Calendar
