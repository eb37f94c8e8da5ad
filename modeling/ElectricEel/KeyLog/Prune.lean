/-
  ElectricEel.KeyLog.Prune — which of the daily logs the core and the child remove
  (helper/src/keylog.rs: `prune_old_logs`; keylog.go: `pruneKeyLogsLocked`).

  Both look at one directory. The core compares days: it removes what lies more than seven
  days before the local date. The child compares instants: it removes what begins, at
  midnight UTC, before the clock's time of seven days ago. The names are those of the files,
  as texts.

  Proved: what either removes, in terms of dates (`mem_pruneOldLogs_iff`,
  `mem_pruneKeyLogs_iff`); both remove the logs more than seven days old and no others
  exactly where the time of day does not matter to any log in the directory, and no other
  name reads as an old day (`pruners_agree_iff`). A week-old log at noon is removed by the
  child (`week_old_log_removed`).
-/
import ElectricEel.KeyLog.Days

namespace ElectricEel.KeyLog

open Lib Lib.Calendar Numbers

def keyLogFilePrefix : List Char := "phone-key-".toList

def logSuffix : List Char := ".log".toList

def keepDays : Int := 7

/-- A day's file, whatever the day's text. -/
def fileName (day : List Char) : List Char := keyLogFilePrefix ++ (day ++ logSuffix)

def logName (date : Date) : List Char := fileName (localDayString date)

/-- The local date and time. Where the offset changes with the seasons it is the one of seven
    days before. -/
structure Clock where
  date : Day
  /-- Nanoseconds. -/
  timeOfDay : Nat
  /-- Seconds east of UTC. -/
  offset : Int
  timeOfDay_lt : timeOfDay < 86400 * 10 ^ 9

/-! ## The core -/

def stripPrefix (p s : List Char) : Option (List Char) := if p.isPrefixOf s then some (s.drop p.length) else none

def stripSuffix (p s : List Char) : Option (List Char) := if p.isSuffixOf s then some (s.take (s.length - p.length)) else none

/-- The names it removes. -/
def pruneOldLogs (today : Day) (names : List (List Char)) : List (List Char) :=
  match civilOrd (localDayString today.toDate) with
  | none => []
  | some todayOrd =>
    names.filter fun name =>
      match (stripPrefix keyLogFilePrefix name).bind (stripSuffix logSuffix) with
      | none => false
      | some day =>
        match civilOrd day with
        | none => false
        | some ord => decide (keepDays < int64 (todayOrd - ord))

theorem stripPrefix_eq_some_iff {p s rest : List Char} : stripPrefix p s = some rest ↔ s = p ++ rest := by
  unfold stripPrefix
  constructor
  · intro h
    split at h
    · next hp =>
      obtain ⟨t, rfl⟩ := List.isPrefixOf_iff_prefix.1 hp
      rw [List.drop_left, Option.some.injEq] at h
      rw [h]
    · cases h
  · rintro rfl
    rw [if_pos (List.isPrefixOf_iff_prefix.2 (List.prefix_append p rest)), List.drop_left]

theorem stripSuffix_eq_some_iff {p s rest : List Char} : stripSuffix p s = some rest ↔ s = rest ++ p := by
  unfold stripSuffix
  constructor
  · intro h
    split at h
    · next hp =>
      obtain ⟨t, rfl⟩ := List.isSuffixOf_iff_suffix.1 hp
      rw [List.length_append, Nat.add_sub_cancel, List.take_left, Option.some.injEq] at h
      rw [h]
    · cases h
  · rintro rfl
    rw [if_pos (List.isSuffixOf_iff_suffix.2 (List.suffix_append rest p)), List.length_append, Nat.add_sub_cancel, List.take_left]

theorem strip_eq_some_iff {name day : List Char} :
    (stripPrefix keyLogFilePrefix name).bind (stripSuffix logSuffix) = some day ↔ name = fileName day := by
  rw [Option.bind_eq_some_iff]
  constructor
  · rintro ⟨rest, hp, hs⟩
    rw [stripPrefix_eq_some_iff.1 hp, stripSuffix_eq_some_iff.1 hs]
    rfl
  · rintro rfl
    exact ⟨day ++ logSuffix, stripPrefix_eq_some_iff.2 rfl, stripSuffix_eq_some_iff.2 rfl⟩

theorem mem_pruneOldLogs_iff (today : Day) (names : List (List Char)) (name : List Char) :
    name ∈ pruneOldLogs today names ↔
      name ∈ names ∧ ∃ day ord, name = fileName day ∧ civilOrd day = some ord ∧
        keepDays < int64 (dayNumber today.toDate - epoch - ord) := by
  rw [pruneOldLogs, civilOrd_localDayString]
  simp only [List.mem_filter]
  constructor
  · rintro ⟨hmem, hold⟩
    refine ⟨hmem, ?_⟩
    split at hold
    · exact absurd hold Bool.false_ne_true
    · next day hday =>
      split at hold
      · exact absurd hold Bool.false_ne_true
      · next ord hord => exact ⟨day, ord, strip_eq_some_iff.1 hday, hord, of_decide_eq_true hold⟩
  · rintro ⟨hmem, day, ord, hname, hord, hold⟩
    refine ⟨hmem, ?_⟩
    rw [strip_eq_some_iff.2 hname]
    simp only [hord]
    exact decide_eq_true hold

/-! ## The child -/

def trimPrefix (s p : List Char) : List Char := (stripPrefix p s).getD s

def trimSuffix (s p : List Char) : List Char := (stripSuffix p s).getD s

def dayNanos : Int := 86400 * 10 ^ 9

/-- `time.Date` as nanoseconds: a day outside its month counts on. -/
def timeDate (year month : Nat) (day : Int) (timeOfDay : Nat) (offset : Int) : Int :=
  (daysBeforeYear year + daysBeforeMonth year month + (day - 1)) * dayNanos + timeOfDay - offset * 10 ^ 9

/-- `now.AddDate(0, 0, days)`. -/
def addDays (now : Clock) (days : Int) : Int :=
  timeDate now.date.year now.date.month (now.date.day + days) now.timeOfDay now.offset

/-- The names it removes. -/
def pruneKeyLogsLocked (keep : Int) (now : Clock) (names : List (List Char)) : List (List Char) :=
  let cutoff := addDays now (-keep)
  names.filter fun name =>
    keyLogFilePrefix.isPrefixOf name && logSuffix.isSuffixOf name &&
      match timeParse (trimSuffix (trimPrefix name keyLogFilePrefix) logSuffix) with
      | none => false
      | some date => decide (timeDate date.year date.month date.day 0 0 < cutoff)

/-- The prefix and the suffix have no letter in common at the seam. -/
theorem affixes_iff {name : List Char} :
    keyLogFilePrefix.isPrefixOf name = true ∧ logSuffix.isSuffixOf name = true ↔ ∃ day, name = fileName day := by
  rw [List.isPrefixOf_iff_prefix, List.isSuffixOf_iff_suffix]
  constructor
  · rintro ⟨⟨rest, rfl⟩, front, hf⟩
    rcases List.append_eq_append_iff.1 hf with ⟨mid, hpre, hsuf⟩ | ⟨mid, -, hrest⟩
    · rcases List.eq_nil_or_concat' mid with rfl | ⟨mid, c, rfl⟩
      · have hrest : logSuffix = rest := hsuf
        exact ⟨[], by rw [← hrest]; rfl⟩
      · -- the last letter of the prefix is none of the suffix
        have hlast : c = '-' := by
          have h := congrArg List.getLast? hpre
          rw [← List.append_assoc, List.getLast?_concat] at h
          exact (Option.some.inj h).symm
        have hmem : c ∈ logSuffix := by
          rw [hsuf]
          simp
        rw [hlast] at hmem
        exact absurd hmem (by decide)
    · exact ⟨mid, by rw [hrest]; rfl⟩
  · rintro ⟨day, rfl⟩
    exact ⟨List.prefix_append _ _, (List.suffix_append day logSuffix).trans (List.suffix_append _ _)⟩

theorem trim_fileName (day : List Char) : trimSuffix (trimPrefix (fileName day) keyLogFilePrefix) logSuffix = day := by
  have hp : stripPrefix keyLogFilePrefix (fileName day) = some (day ++ logSuffix) := stripPrefix_eq_some_iff.2 rfl
  have hs : stripSuffix logSuffix (day ++ logSuffix) = some day := stripSuffix_eq_some_iff.2 rfl
  rw [trimPrefix, hp, Option.getD_some, trimSuffix, hs, Option.getD_some]

theorem timeDate_date (date : Date) : timeDate date.year date.month date.day 0 0 = dayNumber date * dayNanos := by
  have hd := date.day_range.1
  have hday : ((dayNumber date : Nat) : Int) =
      daysBeforeYear date.year + daysBeforeMonth date.year date.month + ((date.day : Int) - 1) := by
    rw [dayNumber]
    omega
  rw [timeDate, hday]
  omega

theorem addDays_eq (now : Clock) (days : Int) :
    addDays now days = (dayNumber now.date.toDate + days) * dayNanos + now.timeOfDay - now.offset * 10 ^ 9 := by
  have hd := now.date.day_range.1
  have hday : ((dayNumber now.date.toDate : Nat) : Int) + days =
      daysBeforeYear now.date.year + daysBeforeMonth now.date.year now.date.month + ((now.date.day : Int) + days - 1) := by
    rw [dayNumber]
    omega
  rw [addDays, timeDate, hday]

theorem mem_pruneKeyLogs_iff (keep : Int) (now : Clock) (names : List (List Char)) (name : List Char) :
    name ∈ pruneKeyLogsLocked keep now names ↔
      name ∈ names ∧ ∃ date : Date, date.year < 10 ^ 4 ∧ name = logName date ∧
        dayNumber date * dayNanos < (dayNumber now.date.toDate + -keep) * dayNanos + now.timeOfDay - now.offset * 10 ^ 9 := by
  simp only [pruneKeyLogsLocked, List.mem_filter, Bool.and_eq_true, affixes_iff]
  constructor
  · rintro ⟨hmem, ⟨day, rfl⟩, hold⟩
    refine ⟨hmem, ?_⟩
    rw [trim_fileName] at hold
    split at hold
    · exact absurd hold Bool.false_ne_true
    · next date hdate =>
      obtain ⟨hyear, rfl⟩ := (timeParse_eq_some_iff day date).1 hdate
      refine ⟨date, hyear, rfl, ?_⟩
      rw [← timeDate_date, ← addDays_eq]
      exact of_decide_eq_true hold
  · rintro ⟨hmem, date, hyear, rfl, hold⟩
    refine ⟨hmem, ⟨localDayString date, rfl⟩, ?_⟩
    rw [logName, trim_fileName, (timeParse_eq_some_iff _ date).2 ⟨hyear, rfl⟩]
    rw [← timeDate_date, ← addDays_eq] at hold
    exact decide_eq_true hold

/-! ## Both -/

/-- The log of a date more than a week before. -/
def TooOld (today : Date) (name : List Char) : Prop :=
  ∃ date n, keepDays < (n : Nat) ∧ tomorrow^[n] date = today ∧ date.year < 10 ^ 4 ∧ name = logName date

structure PrunersAgree (now : Clock) (names : List (List Char)) : Prop where
  core : ∀ name, name ∈ pruneOldLogs now.date names ↔ name ∈ names ∧ TooOld now.date.toDate name
  child : ∀ name, name ∈ pruneKeyLogsLocked keepDays now names ↔ name ∈ names ∧ TooOld now.date.toDate name

/-- Days from the date to today. -/
def age (now : Clock) (date : Date) : Int := dayNumber now.date.toDate - dayNumber date

/-- Midnight UTC and the local time are on the right sides of each other for every log, and
    no other name is an old day to the core. -/
structure InStep (now : Clock) (names : List (List Char)) : Prop where
  young : ∀ date : Date, date.year < 10 ^ 4 → logName date ∈ names → age now date ≤ keepDays →
    now.timeOfDay - now.offset * 10 ^ 9 ≤ (keepDays - age now date) * dayNanos
  old : ∀ date : Date, date.year < 10 ^ 4 → logName date ∈ names → keepDays < age now date →
    (keepDays - age now date) * dayNanos < now.timeOfDay - now.offset * 10 ^ 9
  others : ∀ day ord, fileName day ∈ names → timeParse day = none → civilOrd day = some ord →
    int64 (dayNumber now.date.toDate - epoch - ord) ≤ keepDays

theorem tooOld_iff (now : Clock) (name : List Char) :
    TooOld now.date.toDate name ↔ ∃ date : Date, date.year < 10 ^ 4 ∧ name = logName date ∧ keepDays < age now date := by
  constructor
  · rintro ⟨date, n, hn, hdays, hyear, hname⟩
    rw [iterate_tomorrow_eq_iff] at hdays
    refine ⟨date, hyear, hname, ?_⟩
    rw [age]
    omega
  · rintro ⟨date, hyear, hname, hage⟩
    refine ⟨date, (age now date).toNat, ?_, (iterate_tomorrow_eq_iff _ _ _).2 ?_, hyear, hname⟩
    · have hkeep : (0 : Int) ≤ keepDays := by decide
      omega
    · have hkeep : (0 : Int) ≤ keepDays := by decide
      rw [age] at hage ⊢
      omega

theorem fileName_injective : Function.Injective fileName := fun a b h => by
  rw [← trim_fileName a, h, trim_fileName]

theorem logName_inj {a b : Date} (ha : a.year < 10 ^ 4) (hb : b.year < 10 ^ 4) (h : logName a = logName b) : a = b := by
  have hday : localDayString a = localDayString b := fileName_injective h
  have hpa := (timeParse_eq_some_iff _ a).2 ⟨ha, rfl⟩
  have hpb := (timeParse_eq_some_iff _ b).2 ⟨hb, rfl⟩
  rw [hday, hpb] at hpa
  exact (Option.some.inj hpa).symm

theorem tooOld_logName_iff (now : Clock) {date : Date} (hyear : date.year < 10 ^ 4) :
    TooOld now.date.toDate (logName date) ↔ keepDays < age now date := by
  rw [tooOld_iff]
  constructor
  · rintro ⟨date', hyear', hname, hage⟩
    rw [logName_inj hyear hyear' hname]
    exact hage
  · exact fun hage => ⟨date, hyear, rfl, hage⟩

/-- The child's test on a date's log. -/
theorem pruneKeyLogs_logName_iff (now : Clock) {names : List (List Char)} {date : Date} (hyear : date.year < 10 ^ 4)
    (hmem : logName date ∈ names) :
    logName date ∈ pruneKeyLogsLocked keepDays now names ↔
      (keepDays - age now date) * dayNanos < now.timeOfDay - now.offset * 10 ^ 9 := by
  have hshift : dayNumber date * dayNanos < (dayNumber now.date.toDate + -keepDays) * dayNanos + now.timeOfDay - now.offset * 10 ^ 9 ↔
      (keepDays - age now date) * dayNanos < now.timeOfDay - now.offset * 10 ^ 9 := by
    rw [age, dayNanos]
    omega
  rw [mem_pruneKeyLogs_iff, ← hshift]
  constructor
  · rintro ⟨-, date', hyear', hname, hold⟩
    rw [logName_inj hyear hyear' hname]
    exact hold
  · exact fun hold => ⟨hmem, date, hyear, rfl, hold⟩

/-- The core's test on a date's log. -/
theorem civilOrd_age (now : Clock) {date : Date} (hyear : date.year < 10 ^ 4) :
    ∃ ord, civilOrd (localDayString date) = some ord ∧ int64 (dayNumber now.date.toDate - epoch - ord) = age now date := by
  have hday : date.year < 2 ^ 31 + 1900 := by omega
  refine ⟨_, civilOrd_localDayString ⟨date, hday⟩, ?_⟩
  have hnow := dayNumber_lt now.date
  have hdate : dayNumber date < 2 ^ 40 := dayNumber_lt ⟨date, hday⟩
  have hsub : (dayNumber now.date.toDate : Int) - epoch - (dayNumber date - epoch) = age now date := by
    rw [age]
    omega
  rw [hsub]
  refine int64_eq ?_ ?_
  · rw [age]
    omega
  · rw [age]
    omega

theorem PrunersAgree.inStep {now : Clock} {names : List (List Char)} (h : PrunersAgree now names) : InStep now names where
  young := by
    intro date hyear hmem hage
    refine Int.not_lt.1 fun hlt => ?_
    have hchild := (h.child _).1 ((pruneKeyLogs_logName_iff now hyear hmem).2 hlt)
    have hold := (tooOld_logName_iff now hyear).1 hchild.2
    omega
  old := by
    intro date hyear hmem hage
    have htoo := (tooOld_logName_iff now hyear).2 hage
    exact (pruneKeyLogs_logName_iff now hyear hmem).1 ((h.child _).2 ⟨hmem, htoo⟩)
  others := by
    intro day ord hmem hparse hord
    refine Int.not_lt.1 fun hlt => ?_
    have hcore := (h.core _).1 ((mem_pruneOldLogs_iff _ _ _).2 ⟨hmem, day, ord, rfl, hord, hlt⟩)
    obtain ⟨date, hyear, hname, -⟩ := (tooOld_iff now _).1 hcore.2
    rw [fileName_injective hname, (timeParse_eq_some_iff _ date).2 ⟨hyear, rfl⟩] at hparse
    cases hparse

theorem InStep.prunersAgree {now : Clock} {names : List (List Char)} (h : InStep now names) : PrunersAgree now names where
  core := by
    intro name
    rw [mem_pruneOldLogs_iff, tooOld_iff]
    refine and_congr_right fun hmem => ?_
    constructor
    · rintro ⟨day, ord, rfl, hord, hold⟩
      cases hparse : timeParse day with
      | none => exact absurd (h.others day ord hmem hparse hord) (Int.not_le.2 hold)
      | some date =>
        obtain ⟨hyear, rfl⟩ := (timeParse_eq_some_iff day date).1 hparse
        obtain ⟨ord', hord', hage⟩ := civilOrd_age now hyear
        rw [hord, Option.some.injEq] at hord'
        rw [hord', hage] at hold
        exact ⟨date, hyear, rfl, hold⟩
    · rintro ⟨date, hyear, rfl, hage⟩
      obtain ⟨ord, hord, hsub⟩ := civilOrd_age now hyear
      refine ⟨_, ord, rfl, hord, ?_⟩
      rw [hsub]
      exact hage
  child := by
    intro name
    constructor
    · intro hrem
      obtain ⟨hmem, date, hyear, rfl, -⟩ := (mem_pruneKeyLogs_iff _ _ _ _).1 hrem
      refine ⟨hmem, (tooOld_logName_iff now hyear).2 (Int.not_le.1 fun hle => ?_)⟩
      have hlt := (pruneKeyLogs_logName_iff now hyear hmem).1 hrem
      exact absurd (h.young date hyear hmem hle) (Int.not_le.2 hlt)
    · rintro ⟨hmem, htoo⟩
      obtain ⟨date, hyear, rfl, hage⟩ := (tooOld_iff now _).1 htoo
      exact (pruneKeyLogs_logName_iff now hyear hmem).2 (h.old date hyear hmem hage)

theorem pruners_agree_iff (now : Clock) (names : List (List Char)) :
    (∀ (a b : Day) (n : Nat),
      (civilOrd (localDayString b.toDate)).bind (fun ordB => (civilOrd (localDayString a.toDate)).map (ordB - ·)) = some (n : Int) ↔
        tomorrow^[n] a.toDate = b.toDate) ∧
      (PrunersAgree now names ↔ InStep now names) :=
  ⟨civilOrd_sub_iff, PrunersAgree.inStep, InStep.prunersAgree⟩

/-- Noon, where the local time is UTC. -/
def noon : Clock where
  date := ⟨⟨2026, 12, 24, by decide, by decide⟩, by decide⟩
  timeOfDay := 43200 * 10 ^ 9
  offset := 0
  timeOfDay_lt := by decide

def weekBefore : Date := ⟨2026, 12, 17, by decide, by decide⟩

theorem week_old_log_removed :
    logName weekBefore ∈ pruneKeyLogsLocked keepDays noon [logName weekBefore] ∧
      pruneOldLogs noon.date [logName weekBefore] = [] ∧ ¬PrunersAgree noon [logName weekBefore] := by
  have hage : age noon weekBefore = 7 := by
    have hweek : tomorrow^[7] weekBefore = noon.date.toDate := by decide
    rw [iterate_tomorrow_eq_iff] at hweek
    rw [age, hweek]
    omega
  have hchild : logName weekBefore ∈ pruneKeyLogsLocked keepDays noon [logName weekBefore] := by
    rw [pruneKeyLogs_logName_iff noon (by decide) List.mem_cons_self, hage]
    decide
  refine ⟨hchild, by decide +kernel, ?_⟩
  intro h
  have hold := (tooOld_logName_iff noon (by decide)).1 ((h.child _).1 hchild).2
  rw [hage] at hold
  exact absurd hold (by decide)

end ElectricEel.KeyLog
