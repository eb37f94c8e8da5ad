/-
  ElectricEel.KeyLog.Days — the days of the log files as texts (helper/src/keylog.rs:
  `local_day_string`, `civil_ord`; keylog.go: `time.Parse("2006-01-02")`).

  The core reads a day with three integers, the child the text of a date and no other.
  Integers of the core have 64 bits and wrap.

  Proved: `civil_ord` of a date's text is the date's number, counted from 1970
  (`civilOrd_localDayString`), so the difference of two is the days between them
  (`civilOrd_sub_iff`); the child reads a date exactly from its text (`timeParse_eq_some_iff`).
-/
import ElectricEel.Lib.Calendar
import ElectricEel.Lib.Text
import ElectricEel.Numbers.Validate
import Mathlib.Algebra.Order.Ring.Int

namespace ElectricEel.KeyLog

open Lib Lib.Calendar Numbers Share

/-! ## Printing -/

/-- `{:0w}`. -/
def padded (w n : Nat) : List Char := List.replicate (w - (Nat.toDigits 10 n).length) '0' ++ Nat.toDigits 10 n

def localDayString (date : Date) : List Char :=
  padded 4 date.year ++ '-' :: (padded 2 date.month ++ '-' :: padded 2 date.day)

theorem isDigit_padded {w n : Nat} {c : Char} (hc : c ∈ padded w n) : c.isDigit = true := by
  rcases List.mem_append.1 hc with h | h
  · rw [List.eq_of_mem_replicate h]
    decide
  · exact Nat.isDigit_of_mem_toDigits (by decide) (by decide) h

theorem padded_ne_nil (w n : Nat) : padded w n ≠ [] := fun h => Nat.toDigits_ne_nil (List.append_eq_nil_iff.1 h).2

theorem length_padded {w n : Nat} (hw : 0 < w) (hn : n < 10 ^ w) : (padded w n).length = w := by
  have hlen : (Nat.toDigits 10 n).length ≤ w := (Nat.length_toDigits_le_iff (by decide) hw).2 hn
  rw [padded, List.length_append, List.length_replicate, Nat.sub_add_cancel hlen]

theorem digitsValue_eq (ds : List Char) : F64.digitsValue ds = Nat.ofDigitChars 10 ds 0 := rfl

theorem digitsValue_padded (w n : Nat) : F64.digitsValue (padded w n) = n := by
  rw [digitsValue_eq, padded, Nat.ofDigitChars_append, Nat.ofDigitChars_replicate_zero, Nat.mul_zero,
    Nat.ofDigitChars_ten_toDigits]

theorem digit_range {c : Char} (h : c.isDigit = true) : '0'.toNat ≤ c.toNat ∧ c.toNat ≤ '0'.toNat + 9 := by
  simpa [Char.isDigit, UInt32.le_iff_toNat_le] using h

/-- Digits are known by their number and their value. -/
theorem digits_ext {a b : List Char} (ha : ∀ c ∈ a, c.isDigit = true) (hb : ∀ c ∈ b, c.isDigit = true)
    (hlen : a.length = b.length) (hv : F64.digitsValue a = F64.digitsValue b) : a = b := by
  induction a using List.reverseRecOn generalizing b with
  | nil => exact (List.length_eq_zero_iff.1 hlen.symm).symm
  | append_singleton a c ih =>
    rcases List.eq_nil_or_concat' b with rfl | ⟨b, d, rfl⟩
    · simp at hlen
    · have hc := digit_range (ha c (by simp))
      have hd := digit_range (hb d (by simp))
      simp only [F64.digitsValue, List.foldl_append, List.foldl_cons, List.foldl_nil] at hv
      have hlast : c.toNat = d.toNat := by omega
      have hcd : c = d := Char.toNat_inj.1 hlast
      have hab : a = b := by
        refine ih (fun x hx => ha x (by simp [hx])) (fun x hx => hb x (by simp [hx])) (by simpa using hlen) ?_
        simp only [F64.digitsValue]
        omega
      rw [hcd, hab]

theorem digitsValue_lt {ds : List Char} (h : ∀ c ∈ ds, c.isDigit = true) : F64.digitsValue ds < 10 ^ ds.length := by
  induction ds using List.reverseRecOn with
  | nil => decide
  | append_singleton ds c ih =>
    have hc := digit_range (h c (by simp))
    have hds := ih fun x hx => h x (by simp [hx])
    simp only [F64.digitsValue, List.foldl_append, List.foldl_cons, List.foldl_nil] at hds ⊢
    rw [List.length_append, List.length_singleton, Nat.pow_succ]
    omega

/-! ## civil_ord -/

/-- `y` and the others are i64. -/
def daysFromCivil (y m d : Int) : Int :=
  let yAdj := if m ≤ 2 then y - 1 else y
  let era := yAdj / 400
  let yoe := yAdj % 400
  let mp := (m + 9) % 12
  let doy := (153 * mp + 2) / 5 + d - 1
  let doe := yoe * 365 + yoe / 4 - yoe / 100 + doy
  int64 (era * 146097 + doe - 719468)

def civilOrd (day : List Char) : Option Int :=
  match day.splitOn '-' with
  | [y, m, d] => do
    let y ← parseI64 y
    let m ← parseI64 m
    let d ← parseI64 d
    if (1 ≤ m ∧ m ≤ 12) ∧ 1 ≤ d ∧ d ≤ 31 then some (daysFromCivil y m d) else none
  | _ => none

example : civilOrd "2026-03-01".toList = (civilOrd "2026-02-22".toList).map (· + 7) := by decide +kernel

theorem parseI64_padded {w n : Nat} (hn : n < 2 ^ 63) : parseI64 (padded w n) = some (n : Int) := by
  have hsign : F64.takeSign (padded w n) = (false, padded w n) := by
    have h := F64.takeSign_digits (fun c (hc : c ∈ padded w n) => isDigit_padded hc) (padded_ne_nil w n) []
    rwa [List.append_nil] at h
  have hall : (padded w n).all Char.isDigit = true := List.all_eq_true.2 fun c hc => isDigit_padded hc
  have hfits : fitsInt 64 (n : Int) = true := decide_eq_true ⟨by omega, by omega⟩
  rw [parseI64, parseSigned, hsign]
  simp only [hall, digitsValue_padded, Bool.false_eq_true, if_false]
  rw [if_pos ⟨padded_ne_nil w n, trivial⟩, Option.filter_some, if_pos hfits]

theorem splitOn_localDayString (date : Date) :
    (localDayString date).splitOn '-' = [padded 4 date.year, padded 2 date.month, padded 2 date.day] := by
  have hno : ∀ w n, '-' ∉ padded w n := fun w n h => absurd (isDigit_padded h) (by decide)
  rw [localDayString, List.splitOn_append_cons_self_of_not_mem (hno _ _), List.splitOn_append_cons_self_of_not_mem (hno _ _),
    List.splitOn_eq_singleton (hno _ _)]

/-- Years of the era, and eras: 365 days a year and the leap days. -/
theorem era_days (y : Int) :
    y / 400 * 146097 + (y % 400 * 365 + y % 400 / 4 - y % 400 / 100) = 365 * y + y / 4 - y / 100 + y / 400 := by
  have h4 : y / 4 = y / 400 * 100 + y % 400 / 4 := by omega
  have h100 : y / 100 = y / 400 * 4 + y % 400 / 100 := by omega
  omega

/-- A date of a clock: the year of `struct tm` is an int. -/
structure Day extends Date where
  year_lt : year < 2 ^ 31 + 1900

def epoch : Int := 719528

theorem dayNumber_lt (day : Day) : dayNumber day.toDate < 2 ^ 40 := by
  have hlt := dayNumber_lt_year day.toDate
  have hyear := daysBeforeYear_eq (day.year + 1)
  have hy := day.year_lt
  omega

/-- January and February are of the year before. -/
theorem daysFromCivil_early (day : Day) (hm : day.month ≤ 2) :
    daysFromCivil day.year day.month day.day = dayNumber day.toDate - epoch := by
  have hlo := day.month_range.1
  have hd := day.day_range.1
  have hlt := dayNumber_lt day
  have hyear := daysBeforeYear_eq day.year
  have hera := era_days ((day.year : Int) - 1)
  have hmonth : (153 * (((day.month : Int) + 9) % 12) + 2) / 5 = 306 + daysBeforeMonth day.year day.month := by
    have hcases : day.month = 1 ∨ day.month = 2 := by omega
    rcases hcases with h | h
    · rw [h]
      rfl
    · have hjan : daysBeforeMonth day.year 2 = 31 := rfl
      rw [h, hjan]
      rfl
  have hdays : ((day.year : Int) - 1) / 400 * 146097 + (((day.year : Int) - 1) % 400 * 365 + ((day.year : Int) - 1) % 400 / 4 -
      ((day.year : Int) - 1) % 400 / 100 + ((153 * (((day.month : Int) + 9) % 12) + 2) / 5 + day.day - 1)) - 719468 =
      dayNumber day.toDate - epoch := by
    rw [hmonth, epoch, dayNumber]
    omega
  simp only [daysFromCivil, if_pos (show (day.month : Int) ≤ 2 by omega)]
  rw [hdays]
  exact int64_eq (by rw [epoch]; omega) (by rw [epoch]; omega)

/-- The months count from March. -/
theorem place_of_march {month : Nat} (h : 2 < month) (hhi : month ≤ 12) :
    (153 * (((month : Int) + 9) % 12) + 2) / 5 = ((153 * (month - 3) + 2) / 5 : Nat) := by
  have hmp : ((month : Int) + 9) % 12 = ((month - 3 : Nat) : Int) := by omega
  rw [hmp]
  rfl

theorem daysFromCivil_late (day : Day) (hm : 2 < day.month) :
    daysFromCivil day.year day.month day.day = dayNumber day.toDate - epoch := by
  have hhi := day.month_range.2
  have hd := day.day_range.1
  have hlt := dayNumber_lt day
  have hyear := daysBeforeYear_eq (day.year + 1)
  have hera := era_days day.year
  have hlast : daysBeforeYear (day.year + 1) = daysBeforeYear day.year + daysBeforeMonth day.year 13 := rfl
  rw [daysBeforeMonth_eq (by decide)] at hlast
  have hmonth := @daysBeforeMonth_eq day.year day.month ⟨hm, by omega⟩
  have hdays : (day.year : Int) / 400 * 146097 + ((day.year : Int) % 400 * 365 + (day.year : Int) % 400 / 4 -
      (day.year : Int) % 400 / 100 + ((153 * (((day.month : Int) + 9) % 12) + 2) / 5 + day.day - 1)) - 719468 =
      dayNumber day.toDate - epoch := by
    have h4 : (day.year + 1 + 3) / 4 = day.year / 4 + 1 := by omega
    have h100 : (day.year + 1 + 99) / 100 = day.year / 100 + 1 := by omega
    have h400 : (day.year + 1 + 399) / 400 = day.year / 400 + 1 := by omega
    rw [h4, h100, h400] at hyear
    rw [place_of_march hm hhi, epoch, dayNumber]
    omega
  simp only [daysFromCivil, if_neg (show ¬(day.month : Int) ≤ 2 by omega)]
  rw [hdays]
  exact int64_eq (by rw [epoch]; omega) (by rw [epoch]; omega)

theorem civilOrd_localDayString (day : Day) : civilOrd (localDayString day.toDate) = some (dayNumber day.toDate - epoch) := by
  have hy := day.year_lt
  have hm := day.month_range
  have hd := day.day_range
  have hdays : day.day ≤ 31 := hd.2.trans (daysIn_le _ _)
  have hciv : daysFromCivil day.year day.month day.day = dayNumber day.toDate - epoch :=
    (Nat.lt_or_ge 2 day.month).elim (daysFromCivil_late day) (daysFromCivil_early day)
  rw [civilOrd, splitOn_localDayString]
  simp only [parseI64_padded (show day.year < 2 ^ 63 by omega), parseI64_padded (show day.month < 2 ^ 63 by omega),
    parseI64_padded (show day.day < 2 ^ 63 by omega), Option.bind_eq_bind, Option.bind_some, hciv]
  rw [if_pos (by omega)]

/-- The difference of two days is the number of days from one to the other. -/
theorem civilOrd_sub_iff (a b : Day) (n : Nat) :
    (civilOrd (localDayString b.toDate)).bind (fun ordB => (civilOrd (localDayString a.toDate)).map (ordB - ·)) = some (n : Int) ↔
      tomorrow^[n] a.toDate = b.toDate := by
  rw [civilOrd_localDayString, civilOrd_localDayString, iterate_tomorrow_eq_iff, Option.bind_some, Option.map_some,
    Option.some.injEq]
  omega

/-! ## time.Parse -/

/-- So many digits and what follows. -/
def getDigits (n : Nat) (value : List Char) : Option (Nat × List Char) :=
  if (value.take n).length = n ∧ (value.take n).all Char.isDigit then some (F64.digitsValue (value.take n), value.drop n) else none

def skip (c : Char) : List Char → Option (List Char)
  | d :: value => if d = c then some value else none
  | [] => none

def dateOf (year month day : Nat) : Option Date :=
  if h : (1 ≤ month ∧ month ≤ 12) ∧ 1 ≤ day ∧ day ≤ daysIn year month then some ⟨year, month, day, h.1, h.2⟩ else none

/-- `time.Parse("2006-01-02", value)`: midnight UTC of a date. -/
def timeParse (value : List Char) : Option Date := do
  let (year, value) ← getDigits 4 value
  let value ← skip '-' value
  let (month, value) ← getDigits 2 value
  let value ← skip '-' value
  let (day, value) ← getDigits 2 value
  if value = [] then dateOf year month day else none

example : timeParse "2024-02-29".toList ≠ none ∧ timeParse "2026-02-29".toList = none := by decide +kernel

theorem getDigits_padded {n x : Nat} (hn : 0 < n) (hx : x < 10 ^ n) (rest : List Char) :
    getDigits n (padded n x ++ rest) = some (x, rest) := by
  have hlen := length_padded hn hx
  have hall : (padded n x).all Char.isDigit = true := List.all_eq_true.2 fun c hc => isDigit_padded hc
  rw [getDigits, List.take_left' hlen, List.drop_left' hlen, if_pos ⟨hlen, hall⟩, digitsValue_padded]

theorem getDigits_eq_some {n x : Nat} {value rest : List Char} (hn : 0 < n) (h : getDigits n value = some (x, rest)) :
    x < 10 ^ n ∧ value = padded n x ++ rest := by
  unfold getDigits at h
  split at h
  · next hd =>
    cases h
    have hdigits : ∀ c ∈ value.take n, c.isDigit = true := List.all_eq_true.1 hd.2
    have hlt : F64.digitsValue (value.take n) < 10 ^ n := by
      have h := digitsValue_lt hdigits
      rwa [hd.1] at h
    have hpad : padded n (F64.digitsValue (value.take n)) = value.take n :=
      digits_ext (fun c hc => isDigit_padded hc) hdigits ((length_padded hn hlt).trans hd.1.symm) (digitsValue_padded n _)
    refine ⟨hlt, ?_⟩
    rw [hpad, List.take_append_drop]
  · cases h

theorem skip_eq_some_iff {c : Char} {value rest : List Char} : skip c value = some rest ↔ value = c :: rest := by
  cases value with
  | nil => simp [skip]
  | cons d value => simp [skip]

theorem dateOf_eq_some_iff {year month day : Nat} {date : Date} :
    dateOf year month day = some date ↔ date.year = year ∧ date.month = month ∧ date.day = day := by
  unfold dateOf
  constructor
  · intro h
    split at h
    · cases h
      exact ⟨rfl, rfl, rfl⟩
    · cases h
  · rintro ⟨rfl, rfl, rfl⟩
    rw [dif_pos ⟨date.month_range, date.day_range⟩]

theorem timeParse_eq_some_iff (value : List Char) (date : Date) :
    timeParse value = some date ↔ date.year < 10 ^ 4 ∧ value = localDayString date := by
  constructor
  · intro h
    simp only [timeParse, Option.bind_eq_bind, Option.bind_eq_some_iff] at h
    obtain ⟨⟨year, v⟩, hy, v', hv, ⟨month, w⟩, hm, w', hw, ⟨day, u⟩, hd, hend⟩ := h
    obtain ⟨hyear, rfl⟩ := getDigits_eq_some (by decide) hy
    cases skip_eq_some_iff.1 hv
    obtain ⟨-, rfl⟩ := getDigits_eq_some (by decide) hm
    cases skip_eq_some_iff.1 hw
    obtain ⟨-, rfl⟩ := getDigits_eq_some (by decide) hd
    split at hend
    · next hu =>
      obtain ⟨rfl, rfl, rfl⟩ := dateOf_eq_some_iff.1 hend
      refine ⟨hyear, ?_⟩
      show padded 4 date.year ++ '-' :: (padded 2 date.month ++ '-' :: (padded 2 date.day ++ u)) = localDayString date
      rw [show u = [] from hu, List.append_nil]
      rfl
    · cases hend
  · rintro ⟨hyear, rfl⟩
    have hmonth : date.month < 10 ^ 2 := Nat.lt_of_le_of_lt date.month_range.2 (by decide)
    have hday : date.day < 10 ^ 2 := Nat.lt_of_le_of_lt (date.day_range.2.trans (daysIn_le _ _)) (by decide)
    have hlast := getDigits_padded (show 0 < 2 by decide) hday []
    rw [List.append_nil] at hlast
    simp only [timeParse, localDayString, getDigits_padded (show 0 < 4 by decide) hyear, getDigits_padded (show 0 < 2 by decide) hmonth,
      hlast, skip_eq_some_iff.2 rfl, Option.bind_eq_bind, Option.bind_some, if_true]
    exact dateOf_eq_some_iff.2 ⟨rfl, rfl, rfl⟩

end ElectricEel.KeyLog
