/-
  ElectricEel.Lib.Calendar — dates of the Gregorian calendar, and the days between them.

  A date's number counts the days of the years before it, of the months before it, and of
  its month. The year 0 is the first.

  Proved: the day after has the next number (`dayNumber_tomorrow`) and no two dates share one
  (`dayNumber_injective`), so one date is n days after another exactly where their numbers
  differ by n (`iterate_tomorrow_eq_iff`); the days before a year (`daysBeforeYear_eq`) and
  before a month (`daysBeforeMonth_eq`) in closed form.
-/
import Mathlib.Algebra.Order.Ring.Nat
import Mathlib.Logic.Function.Iterate
import Mathlib.Order.Monotone.Basic
import Mathlib.Tactic.IntervalCases

namespace ElectricEel.Lib.Calendar

def isLeap (year : Nat) : Bool := year % 4 = 0 ∧ (year % 100 ≠ 0 ∨ year % 400 = 0)

def daysIn (year month : Nat) : Nat :=
  if month = 2 then if isLeap year then 29 else 28
  else if month = 4 ∨ month = 6 ∨ month = 9 ∨ month = 11 then 30
  else 31

structure Date where
  year : Nat
  month : Nat
  day : Nat
  month_range : 1 ≤ month ∧ month ≤ 12
  day_range : 1 ≤ day ∧ day ≤ daysIn year month
  deriving DecidableEq

/-- Of the months of the year. -/
def daysBeforeMonth (year : Nat) : Nat → Nat
  | month + 2 => daysBeforeMonth year (month + 1) + daysIn year (month + 1)
  | _ => 0

def daysBeforeYear : Nat → Nat
  | 0 => 0
  | year + 1 => daysBeforeYear year + daysBeforeMonth year 13

def dayNumber (date : Date) : Nat := daysBeforeYear date.year + daysBeforeMonth date.year date.month + (date.day - 1)

theorem daysIn_pos (year month : Nat) : 0 < daysIn year month := by
  unfold daysIn
  split
  · split <;> decide
  · split <;> decide

theorem daysIn_le (year month : Nat) : daysIn year month ≤ 31 := by
  unfold daysIn
  split
  · split <;> decide
  · split <;> decide

def tomorrow (date : Date) : Date :=
  if hd : date.day < daysIn date.year date.month then
    ⟨date.year, date.month, date.day + 1, date.month_range, Nat.succ_pos _, hd⟩
  else if hm : date.month < 12 then ⟨date.year, date.month + 1, 1, ⟨Nat.succ_pos _, hm⟩, Nat.le_refl 1, daysIn_pos _ _⟩
  else ⟨date.year + 1, 1, 1, by decide, Nat.le_refl 1, daysIn_pos _ _⟩

/-! ## Numbers -/

theorem daysBeforeMonth_succ {year month : Nat} (h : 1 ≤ month) :
    daysBeforeMonth year (month + 1) = daysBeforeMonth year month + daysIn year month := by
  cases month with
  | zero => cases h
  | succ month => rfl

theorem dayNumber_tomorrow (date : Date) : dayNumber (tomorrow date) = dayNumber date + 1 := by
  have hm := date.month_range
  have hd := date.day_range
  unfold tomorrow
  split
  · simp only [dayNumber]
    omega
  · split
    · simp only [dayNumber, daysBeforeMonth_succ hm.1]
      omega
    · have hlast : date.month = 12 := by omega
      simp only [dayNumber, daysBeforeYear, daysBeforeMonth_succ (show 1 ≤ 12 by decide), hlast] at *
      simp only [daysBeforeMonth]
      omega

theorem daysBeforeMonth_mono (year : Nat) : Monotone (daysBeforeMonth year) := by
  refine monotone_nat_of_le_succ fun month => ?_
  cases month with
  | zero => exact Nat.le_refl 0
  | succ month => exact Nat.le_add_right _ _

theorem daysBeforeYear_mono : Monotone daysBeforeYear := monotone_nat_of_le_succ fun _ => Nat.le_add_right _ _

/-- The day's place in its year comes before the next month. -/
theorem day_lt_month (date : Date) :
    daysBeforeMonth date.year date.month + (date.day - 1) < daysBeforeMonth date.year (date.month + 1) := by
  have hd := date.day_range
  rw [daysBeforeMonth_succ date.month_range.1]
  omega

theorem dayNumber_lt_year (date : Date) : dayNumber date < daysBeforeYear (date.year + 1) := by
  have hm : daysBeforeMonth date.year (date.month + 1) ≤ daysBeforeMonth date.year 13 :=
    daysBeforeMonth_mono date.year (Nat.succ_le_succ date.month_range.2)
  have hd := day_lt_month date
  simp only [dayNumber, daysBeforeYear]
  omega

theorem year_le_of_dayNumber_le {a b : Date} (h : dayNumber a ≤ dayNumber b) : a.year ≤ b.year := by
  by_contra hlt
  have hmono : daysBeforeYear (b.year + 1) ≤ daysBeforeYear a.year := daysBeforeYear_mono (Nat.not_le.1 hlt)
  have hb := dayNumber_lt_year b
  simp only [dayNumber] at h hb
  omega

theorem month_le_of_dayNumber_le {a b : Date} (hy : a.year = b.year) (h : dayNumber a ≤ dayNumber b) : a.month ≤ b.month := by
  by_contra hlt
  have hmono : daysBeforeMonth b.year (b.month + 1) ≤ daysBeforeMonth b.year a.month :=
    daysBeforeMonth_mono b.year (Nat.not_le.1 hlt)
  have hb := day_lt_month b
  simp only [dayNumber, hy] at h
  omega

theorem dayNumber_injective : Function.Injective dayNumber := by
  intro a b h
  have hy : a.year = b.year := Nat.le_antisymm (year_le_of_dayNumber_le h.le) (year_le_of_dayNumber_le h.ge)
  have hm : a.month = b.month :=
    Nat.le_antisymm (month_le_of_dayNumber_le hy h.le) (month_le_of_dayNumber_le hy.symm h.ge)
  have hda := a.day_range
  have hdb := b.day_range
  have hd : a.day = b.day := by
    simp only [dayNumber, hy, hm] at h
    omega
  cases a
  cases b
  simp only at hy hm hd
  subst hy hm hd
  rfl

theorem dayNumber_iterate_tomorrow (date : Date) (n : Nat) : dayNumber (tomorrow^[n] date) = dayNumber date + n := by
  induction n with
  | zero => rfl
  | succ n ih => rw [Function.iterate_succ_apply', dayNumber_tomorrow, ih, Nat.add_assoc]

theorem iterate_tomorrow_eq_iff (a b : Date) (n : Nat) : tomorrow^[n] a = b ↔ dayNumber b = dayNumber a + n := by
  rw [← dayNumber_iterate_tomorrow]
  constructor
  · intro h
    rw [h]
  · intro h
    exact (dayNumber_injective h).symm

/-! ## Closed forms -/

theorem isLeap_iff (year : Nat) : isLeap year = true ↔ year % 4 = 0 ∧ (year % 100 ≠ 0 ∨ year % 400 = 0) := decide_eq_true_iff

theorem daysBeforeMonth_eq {year month : Nat} (h : 3 ≤ month ∧ month ≤ 13) :
    daysBeforeMonth year month = (153 * (month - 3) + 2) / 5 + if isLeap year then 60 else 59 := by
  obtain ⟨hlo, hhi⟩ := h
  cases hl : isLeap year <;> interval_cases month <;> simp [daysBeforeMonth, daysIn, hl]

/-- Of the years before, one in four is leap, but for three in four hundred. -/
theorem daysBeforeYear_eq (year : Nat) :
    daysBeforeYear year + (year + 99) / 100 = 365 * year + (year + 3) / 4 + (year + 399) / 400 := by
  induction year with
  | zero => rfl
  | succ year ih =>
    rw [daysBeforeYear, daysBeforeMonth_eq (by decide)]
    have h4 : (year + 1 + 3) / 4 = (year + 3) / 4 + if year % 4 = 0 then 1 else 0 := by split <;> omega
    have h100 : (year + 1 + 99) / 100 = (year + 99) / 100 + if year % 100 = 0 then 1 else 0 := by split <;> omega
    have h400 : (year + 1 + 399) / 400 = (year + 399) / 400 + if year % 400 = 0 then 1 else 0 := by split <;> omega
    have hc : year % 400 = 0 → year % 100 = 0 := by omega
    have hq : year % 100 = 0 → year % 4 = 0 := by omega
    rw [h4, h100, h400]
    have hleap := isLeap_iff year
    by_cases hl : isLeap year = true
    · rw [if_pos hl]
      have hyes := hleap.1 hl
      rw [if_pos hyes.1]
      split
      · next h => rw [if_pos (hyes.2.resolve_left fun hn => hn h)]; omega
      · next h => rw [if_neg (mt hc h)]; omega
    · rw [if_neg hl]
      have hno := mt hleap.2 hl
      by_cases hy : year % 4 = 0
      · have hyc : year % 100 = 0 := by
          by_contra h
          exact hno ⟨hy, .inl h⟩
        rw [if_pos hy, if_pos hyc, if_neg fun h => hno ⟨hy, .inr h⟩]
        omega
      · rw [if_neg hy, if_neg (mt hq hy), if_neg fun h => hy (hq (hc h))]
        omega

end ElectricEel.Lib.Calendar
