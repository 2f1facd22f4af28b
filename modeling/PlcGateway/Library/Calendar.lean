/-
  UTC date-times with a microsecond, and their ISO-8601 texts.

  Days are those of the proleptic Gregorian calendar, years 1 to 9999.
  `DateTime.toMicros` counts microseconds from the start of year 1, and is what
  date-times are compared by; `isoformat` writes a date-time in the form
  `YYYY-MM-DDTHH:MM:SS[.ffffff]+00:00`, and `fromisoformat` reads that form.
-/
import Mathlib.Data.Nat.Digits.Defs
import Mathlib.Algebra.Order.Floor.Ring
import Mathlib.Data.Rat.Floor

namespace Calendar

def isLeap (y : ℕ) : Bool := y % 4 == 0 && (y % 100 != 0 || y % 400 == 0)

def daysInMonth (y : ℕ) : ℕ → ℕ
  | 2 => if isLeap y then 29 else 28
  | 4 | 6 | 9 | 11 => 30
  | _ => 31

/-- A day of the calendar. -/
structure Date where
  year : ℕ
  month : ℕ
  day : ℕ
  hyear : 1 ≤ year ∧ year ≤ 9999
  hmonth : 1 ≤ month ∧ month ≤ 12
  hday : 1 ≤ day ∧ day ≤ daysInMonth year month
  deriving DecidableEq, Repr

namespace Date

def ofFields (y m d : ℕ) : Option Date :=
  if h : (1 ≤ y ∧ y ≤ 9999) ∧ (1 ≤ m ∧ m ≤ 12) ∧ 1 ≤ d ∧ d ≤ daysInMonth y m then
    some ⟨y, m, d, h.1, h.2.1, h.2.2⟩
  else none

theorem ofFields_eq (d : Date) : ofFields d.year d.month d.day = some d :=
  dif_pos ⟨d.hyear, d.hmonth, d.hday⟩

/-- The number of the day, counted from 1 for 0001-01-01. -/
def toOrdinal (d : Date) : ℕ :=
  365 * (d.year - 1) + (d.year - 1) / 4 - (d.year - 1) / 100 + (d.year - 1) / 400 +
    ((List.range' 1 (d.month - 1)).map (daysInMonth d.year)).sum + d.day

/-- The next day, if there is one. -/
def next (d : Date) : Option Date :=
  (ofFields d.year d.month (d.day + 1)).or
    ((ofFields d.year (d.month + 1) 1).or (ofFields (d.year + 1) 1 1))

def addDays : ℕ → Date → Option Date
  | 0, d => some d
  | n + 1, d => d.next.bind (addDays n)

end Date

/-- A UTC date-time. -/
structure DateTime where
  date : Date
  hour : ℕ
  minute : ℕ
  second : ℕ
  microsecond : ℕ
  htime : hour < 24 ∧ minute < 60 ∧ second < 60 ∧ microsecond < 1000000
  deriving DecidableEq, Repr

namespace DateTime

/-- The microseconds of a day. -/
def microsPerDay : ℕ := 86400000000

def timeMicros (d : DateTime) : ℕ :=
  ((d.hour * 60 + d.minute) * 60 + d.second) * 1000000 + d.microsecond

/-- Microseconds since the start of year 1. -/
def toMicros (d : DateTime) : ℕ := (d.date.toOrdinal - 1) * microsPerDay + d.timeMicros

instance : LE DateTime := ⟨fun a b => a.toMicros ≤ b.toMicros⟩

instance (a b : DateTime) : Decidable (a ≤ b) := inferInstanceAs (Decidable (_ ≤ _))

theorem le_refl (a : DateTime) : a ≤ a := Nat.le_refl a.toMicros

/-- The time of day at `n` microseconds after midnight. -/
def atMicros (d : Date) (n : ℕ) : DateTime where
  date := d
  hour := n / 3600000000 % 24
  minute := n / 60000000 % 60
  second := n / 1000000 % 60
  microsecond := n % 1000000
  htime := by omega

/-- `n` microseconds later; none past the last year. -/
def addMicros (n : ℕ) (d : DateTime) : Option DateTime :=
  (d.date.addDays ((d.timeMicros + n) / microsPerDay)).map
    fun e => atMicros e ((d.timeMicros + n) % microsPerDay)

end DateTime

/-- The whole microseconds of a time span in seconds, halves to even. -/
def microsOfSeconds (q : ℚ) : ℕ :=
  let x := q * 1000000
  let n := ⌊x⌋₊
  if x - n < 1 / 2 then n else if 1 / 2 < x - n then n + 1 else if n % 2 = 0 then n else n + 1

/-! ## Texts -/

/-- The `w` last decimal digits of `n`. -/
def pad : ℕ → ℕ → List Char
  | 0, _ => []
  | w + 1, n => pad w (n / 10) ++ [Nat.digitChar (n % 10)]

/-- Read `w` decimal digits. -/
def readDigits : ℕ → ℕ → List Char → Option (ℕ × List Char)
  | 0, acc, t => some (acc, t)
  | _ + 1, _, [] => none
  | w + 1, acc, c :: t => if c.isDigit then readDigits w (acc * 10 + (c.toNat - 48)) t else none

/-- Read the character `c`. -/
def expect (c : Char) : List Char → Option (List Char)
  | [] => none
  | d :: t => if d = c then some t else none

def isoChars (d : DateTime) : List Char :=
  pad 4 d.date.year ++ '-' :: (pad 2 d.date.month ++ '-' :: (pad 2 d.date.day ++ 'T' ::
    (pad 2 d.hour ++ ':' :: (pad 2 d.minute ++ ':' :: (pad 2 d.second ++
      ((if d.microsecond = 0 then [] else '.' :: pad 6 d.microsecond) ++
        ['+', '0', '0', ':', '0', '0']))))))

def isoformat (d : DateTime) : String := String.ofList (isoChars d)

/-- Read the optional fraction of a second. -/
def readFraction : List Char → Option (ℕ × List Char)
  | '.' :: t => readDigits 6 0 t
  | t => some (0, t)

def DateTime.ofFields (date : Date) (h m s us : ℕ) : Option DateTime :=
  if ht : h < 24 ∧ m < 60 ∧ s < 60 ∧ us < 1000000 then some ⟨date, h, m, s, us, ht⟩ else none

/-- Read a text in the form that `isoformat` writes. -/
def fromisoformat (text : String) : Option DateTime := do
  let (year, t) ← readDigits 4 0 text.toList
  let (month, t) ← readDigits 2 0 (← expect '-' t)
  let (day, t) ← readDigits 2 0 (← expect '-' t)
  let (hour, t) ← readDigits 2 0 (← expect 'T' t)
  let (minute, t) ← readDigits 2 0 (← expect ':' t)
  let (second, t) ← readDigits 2 0 (← expect ':' t)
  let (us, t) ← readFraction t
  guard (t = ['+', '0', '0', ':', '0', '0'])
  let date ← Date.ofFields year month day
  DateTime.ofFields date hour minute second us

theorem digitChar_isDigit {n : ℕ} (h : n < 10) :
    (Nat.digitChar n).isDigit = true ∧ (Nat.digitChar n).toNat - 48 = n := by
  have key : ∀ m : Fin 10, (Nat.digitChar m).isDigit = true ∧ (Nat.digitChar m).toNat - 48 = m := by
    decide
  exact key ⟨n, h⟩

theorem readDigits_add (w v acc : ℕ) (t : List Char) :
    readDigits (w + v) acc t = (readDigits w acc t).bind fun p => readDigits v p.1 p.2 := by
  induction w generalizing acc t with
  | zero => simp [readDigits]
  | succ w ih =>
    rw [show w + 1 + v = (w + v) + 1 by omega]
    cases t with
    | nil => rfl
    | cons c t => simp only [readDigits]; split <;> simp [ih]

theorem readDigits_pad (w n acc : ℕ) (t : List Char) (h : n < 10 ^ w) :
    readDigits w acc (pad w n ++ t) = some (acc * 10 ^ w + n, t) := by
  induction w generalizing n t with
  | zero => simp [pad, readDigits] at h ⊢; omega
  | succ w ih =>
    obtain ⟨h1, h2⟩ := digitChar_isDigit (Nat.mod_lt n (show 10 > 0 by omega))
    have hn : n / 10 < 10 ^ w := by rw [pow_succ] at h; omega
    rw [readDigits_add, pad, List.append_assoc, ih (n / 10) _ hn]
    simp only [Option.bind_some, List.cons_append, List.nil_append, readDigits, h1, h2, if_true]
    rw [add_mul, mul_assoc, ← pow_succ, add_assoc, Nat.div_add_mod' n 10]

theorem readDigits_pad_zero (w n : ℕ) (t : List Char) (h : n < 10 ^ w) :
    readDigits w 0 (pad w n ++ t) = some (n, t) := by
  rw [readDigits_pad w n 0 t h, Nat.zero_mul, Nat.zero_add]

theorem expect_cons (c : Char) (t : List Char) : expect c (c :: t) = some t := if_pos rfl

/-- A field is read after the character that stands before it. -/
theorem expect_readDigits {β : Type} (c : Char) (w n : ℕ) (t : List Char) (h : n < 10 ^ w)
    (f : ℕ × List Char → Option β) :
    (do readDigits w 0 (← expect c (c :: (pad w n ++ t))) >>= f) = f (n, t) := by
  rw [expect_cons, Option.bind_eq_bind, Option.bind_some, readDigits_pad_zero w n t h]
  rfl

theorem daysInMonth_le (y m : ℕ) : daysInMonth y m ≤ 31 := by
  unfold daysInMonth; split <;> (try split) <;> omega

theorem readFraction_iso (us : ℕ) (h : us < 1000000) :
    readFraction ((if us = 0 then [] else '.' :: pad 6 us) ++ ['+', '0', '0', ':', '0', '0']) =
      some (us, ['+', '0', '0', ':', '0', '0']) := by
  split_ifs with h0
  · subst h0; rfl
  · exact readDigits_pad_zero 6 us _ h

/-- **A date-time is read back from its text.** -/
theorem fromisoformat_isoformat (d : DateTime) : fromisoformat (isoformat d) = some d := by
  obtain ⟨date, h, m, s, us, ht⟩ := d
  have hy : date.year < 10 ^ 4 := by have := date.hyear.2; omega
  have hm : date.month < 10 ^ 2 := by have := date.hmonth.2; omega
  have hd : date.day < 10 ^ 2 := by
    have := date.hday.2; have := daysInMonth_le date.year date.month; omega
  have hh : h < 10 ^ 2 ∧ m < 10 ^ 2 ∧ s < 10 ^ 2 := by omega
  rw [fromisoformat, isoformat, String.toList_ofList, isoChars, readDigits_pad_zero 4 _ _ hy]
  refine (expect_readDigits '-' 2 date.month _ hm _).trans ?_
  refine (expect_readDigits '-' 2 date.day _ hd _).trans ?_
  refine (expect_readDigits 'T' 2 h _ hh.1 _).trans ?_
  refine (expect_readDigits ':' 2 m _ hh.2.1 _).trans ?_
  refine (expect_readDigits ':' 2 s _ hh.2.2 _).trans ?_
  simp only [readFraction_iso us ht.2.2.2, Date.ofFields_eq, Option.bind_eq_bind,
    Option.bind_some, guard, if_true]
  exact dif_pos ht

end Calendar
