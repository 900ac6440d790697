import Mathlib.Algebra.Order.Ring.Nat
import Mathlib.Data.List.Basic

/-! The Gregorian calendar from the year 2000 on. Years and days are counted from the start
of 2000, a Saturday; since 2000 is a multiple of 400, leap years follow the usual rule.
-/

namespace N8n.Calendar

def isLeapYear (year : Nat) : Bool :=
  year % 4 = 0 && (year % 100 ≠ 0 || year % 400 = 0)

def daysInYear (year : Nat) : Nat := if isLeapYear year then 366 else 365

def monthLengths (year : Nat) : List Nat :=
  [31, if isLeapYear year then 29 else 28, 31, 30, 31, 30, 31, 31, 30, 31, 30, 31]

/-- The first day of a year. -/
def firstDay : Nat → Nat
  | 0 => 0
  | year + 1 => firstDay year + daysInYear year

/-- A day of a year, the first one being 1. -/
structure Date where
  year : Nat
  dayOfYear : Nat
  deriving DecidableEq, Repr

def Date.next (date : Date) : Date :=
  if date.dayOfYear < daysInYear date.year then { date with dayOfYear := date.dayOfYear + 1 }
  else ⟨date.year + 1, 1⟩

def dateOf : Nat → Date
  | 0 => ⟨0, 1⟩
  | day + 1 => (dateOf day).next

/-- The month in which a day of the year lies, and the day of the month, both from 0 on. -/
def monthAndDay : List Nat → Nat → Nat × Nat
  | [], day => (0, day)
  | length :: rest, day =>
      if day < length then (0, day)
      else ((monthAndDay rest (day - length)).1 + 1, (monthAndDay rest (day - length)).2)

/-- The month of a date, January being 0. -/
def Date.month (date : Date) : Nat :=
  (monthAndDay (monthLengths date.year) (date.dayOfYear - 1)).1

/-- The day of the month of a date, the first one being 1. -/
def Date.dayOfMonth (date : Date) : Nat :=
  (monthAndDay (monthLengths date.year) (date.dayOfYear - 1)).2 + 1

/-- The day of the week, Sunday being 0. -/
def weekday (day : Nat) : Nat := (day + 6) % 7

/-- Weeks start on Sunday, and the first week of a year is the one with its first day. -/
def weeksInYear (year : Nat) : Nat :=
  (daysInYear year + weekday (firstDay year) - weekday (firstDay (year + 1))) / 7

def Date.weekFromJanuary (date : Date) : Nat :=
  (date.dayOfYear + weekday (firstDay date.year) - 1) / 7 + 1

/-- The number of the week, which is 1 where the next year has begun in the same week. -/
def Date.week (date : Date) : Nat :=
  if date.weekFromJanuary > weeksInYear date.year then
    date.weekFromJanuary - weeksInYear date.year
  else date.weekFromJanuary

/-- The year to which the number of the week belongs. -/
def Date.weekYear (date : Date) : Nat :=
  if date.weekFromJanuary > weeksInYear date.year then date.year + 1 else date.year

theorem daysInYear_cases (year : Nat) : daysInYear year = 365 ∨ daysInYear year = 366 := by
  unfold daysInYear
  split <;> simp

theorem firstDay_succ (year : Nat) : firstDay (year + 1) = firstDay year + daysInYear year := rfl

variable {early late : Nat}

theorem firstDay_mono (order : early ≤ late)
    : firstDay early ≤ firstDay late := by
  induction order with
  | refl => exact Nat.le_refl _
  | step _ ih => exact Nat.le_trans ih (Nat.le_add_right _ _)

/-- A date and the number of its day. -/
structure Date.IsDay (date : Date) (day : Nat) : Prop where
  positive : 1 ≤ date.dayOfYear
  inYear : date.dayOfYear ≤ daysInYear date.year
  number : firstDay date.year + date.dayOfYear = day + 1

theorem dateOf_isDay (day : Nat) : (dateOf day).IsDay day := by
  induction day with
  | zero => exact ⟨Nat.le_refl _, by decide, rfl⟩
  | succ day ih =>
      obtain ⟨positive, inYear, number⟩ := ih
      unfold dateOf Date.next
      split
      · refine ⟨by simp, ?_, ?_⟩ <;> simp only <;> omega
      · refine ⟨Nat.le_refl _, ?_, ?_⟩
        · have := daysInYear_cases ((dateOf day).year + 1)
          simp
          omega
        · simp only [firstDay_succ]
          omega

variable {day : Nat}

/-- A day has only one date. -/
theorem Date.IsDay.eq {date : Date} (isDay : date.IsDay day)
    : dateOf day = date := by
  obtain ⟨positive, inYear, number⟩ := isDay
  obtain ⟨otherPositive, otherInYear, otherNumber⟩ := dateOf_isDay day
  have sameYear : (dateOf day).year = date.year := by
    rcases Nat.lt_trichotomy (dateOf day).year date.year with less | same | more
    · have := firstDay_mono (show (dateOf day).year + 1 ≤ date.year from less)
      rw [firstDay_succ] at this
      omega
    · exact same
    · have := firstDay_mono (show date.year + 1 ≤ (dateOf day).year from more)
      rw [firstDay_succ] at this
      omega
  have sameDay : (dateOf day).dayOfYear = date.dayOfYear := by
    rw [sameYear] at otherNumber
    omega
  exact congrArg₂ Date.mk sameYear sameDay

theorem year_mono (order : early ≤ late)
    : (dateOf early).year ≤ (dateOf late).year := by
  obtain ⟨positive, _, number⟩ := dateOf_isDay early
  obtain ⟨_, inYear, lateNumber⟩ := dateOf_isDay late
  by_contra notMono
  have := firstDay_mono (show (dateOf late).year + 1 ≤ (dateOf early).year by omega)
  rw [firstDay_succ] at this
  omega

/-- The date some days later, less than a year, in the same year or in the next one. -/
theorem dateOf_add {day days : Nat} (short : days ≤ 365)
    : dateOf (day + days)
      = if (dateOf day).dayOfYear + days ≤ daysInYear (dateOf day).year then
          ⟨(dateOf day).year, (dateOf day).dayOfYear + days⟩
        else
          ⟨(dateOf day).year + 1,
            (dateOf day).dayOfYear + days - daysInYear (dateOf day).year⟩ := by
  obtain ⟨positive, inYear, number⟩ := dateOf_isDay day
  split
  · refine Date.IsDay.eq ⟨?_, ?_, ?_⟩ <;> simp only <;> omega
  · refine Date.IsDay.eq ⟨by simp; omega, ?_, ?_⟩
    · have := daysInYear_cases ((dateOf day).year + 1)
      simp
      omega
    · simp only [firstDay_succ]
      omega

theorem monthAndDay_mono (order : early ≤ late) (lengths : List Nat)
    : (monthAndDay lengths early).1 ≤ (monthAndDay lengths late).1 := by
  induction lengths generalizing early late with
  | nil => exact Nat.le_refl _
  | cons length rest ih =>
      simp only [monthAndDay]
      split
      · exact Nat.zero_le _
      · have := ih (show early - length ≤ late - length by omega)
        rw [if_neg (by omega)]
        simpa using this

theorem monthAndDay_eq {lengths : List Nat} {month : Nat} (inMonth : day < lengths.getD month 0)
    : monthAndDay lengths ((lengths.take month).sum + day) = (month, day) := by
  induction lengths generalizing month with
  | nil => simp at inMonth
  | cons length rest ih =>
      cases month with
      | zero => simpa [monthAndDay] using inMonth
      | succ month =>
          have found : monthAndDay rest ((rest.take month).sum + day) = (month, day) :=
            ih (by simpa using inMonth)
          rw [List.take_succ_cons, List.sum_cons, monthAndDay, if_neg (by omega)]
          rw [show length + (rest.take month).sum + day - length = (rest.take month).sum + day
            by omega, found]

theorem monthAndDay_spec {lengths : List Nat} (inYear : day < lengths.sum)
    : (monthAndDay lengths day).1 < lengths.length
      ∧ (monthAndDay lengths day).2 < lengths.getD (monthAndDay lengths day).1 0
      ∧ day = (lengths.take (monthAndDay lengths day).1).sum + (monthAndDay lengths day).2 := by
  induction lengths generalizing day with
  | nil => simp at inYear
  | cons length rest ih =>
      rw [List.sum_cons] at inYear
      simp only [monthAndDay]
      split
      · next here => simpa using here
      · have found := @ih (day - length) (by omega)
        refine ⟨by simpa using found.1, by simpa using found.2.1, ?_⟩
        simp only [List.take_succ_cons, List.sum_cons]
        omega

theorem monthLengths_sum (year : Nat) : (monthLengths year).sum = daysInYear year := by
  unfold monthLengths daysInYear
  split <;> rfl

/-- Months counted from January 2000 on. -/
def Date.monthNumber (date : Date) : Nat := 12 * date.year + date.month

theorem monthOf_spec (day : Nat)
    : (dateOf day).month < 12
      ∧ (dateOf day).dayOfMonth ≤ (monthLengths (dateOf day).year).getD (dateOf day).month 0
      ∧ (dateOf day).dayOfYear
        = ((monthLengths (dateOf day).year).take (dateOf day).month).sum
          + (dateOf day).dayOfMonth := by
  obtain ⟨positive, inYear, _⟩ := dateOf_isDay day
  have inMonths
      : (dateOf day).dayOfYear - 1 < (monthLengths (dateOf day).year).sum := by
    rw [monthLengths_sum]
    omega
  have found := monthAndDay_spec inMonths
  refine ⟨found.1, found.2.1, ?_⟩
  have := found.2.2
  unfold Date.month Date.dayOfMonth
  omega

theorem monthNumber_mono (order : early ≤ late)
    : (dateOf early).monthNumber ≤ (dateOf late).monthNumber := by
  unfold Date.monthNumber
  have inYear := (monthOf_spec early).1
  rcases Nat.lt_or_eq_of_le (year_mono order) with earlier | same
  · omega
  · have days : (dateOf early).dayOfYear - 1 ≤ (dateOf late).dayOfYear - 1 := by
      have := (dateOf_isDay early).number
      have := (dateOf_isDay late).number
      rw [same] at *
      omega
    have := monthAndDay_mono days (monthLengths (dateOf late).year)
    unfold Date.month
    rw [same]
    omega

/-- A day is known by its month and its day of the month. -/
theorem day_eq_of_month {first second : Nat}
    (sameMonth : (dateOf first).monthNumber = (dateOf second).monthNumber)
    (sameDay : (dateOf first).dayOfMonth = (dateOf second).dayOfMonth)
    : first = second := by
  obtain ⟨firstMonth, _, firstDays⟩ := monthOf_spec first
  obtain ⟨secondMonth, _, secondDays⟩ := monthOf_spec second
  have firstNumber := (dateOf_isDay first).number
  have secondNumber := (dateOf_isDay second).number
  unfold Date.monthNumber at sameMonth
  have sameYear : (dateOf first).year = (dateOf second).year := by omega
  have sameMonth : (dateOf first).month = (dateOf second).month := by omega
  rw [sameYear, sameMonth, sameDay] at firstDays
  rw [sameYear] at firstNumber
  omega

theorem sum_take_add_getD_le (lengths : List Nat) (month : Nat)
    : (lengths.take month).sum + lengths.getD month 0 ≤ lengths.sum := by
  induction lengths generalizing month with
  | nil => simp
  | cons length rest ih =>
      cases month with
      | zero => simp
      | succ month =>
          have := ih month
          simp only [List.take_succ_cons, List.sum_cons, List.getD_cons_succ]
          omega

theorem exists_day {year month dayOfMonth : Nat} (positive : 1 ≤ dayOfMonth)
    (inMonth : dayOfMonth ≤ (monthLengths year).getD month 0)
    : ∃ day,
        (dateOf day).year = year
        ∧ (dateOf day).month = month
        ∧ (dateOf day).dayOfMonth = dayOfMonth := by
  have fits := sum_take_add_getD_le (monthLengths year) month
  rw [monthLengths_sum] at fits
  have isDay
      : Date.IsDay ⟨year, ((monthLengths year).take month).sum + dayOfMonth⟩
          (firstDay year + ((monthLengths year).take month).sum + (dayOfMonth - 1)) := by
    refine ⟨?_, ?_, ?_⟩ <;> simp only <;> omega
  have found
      : monthAndDay (monthLengths year)
          (((monthLengths year).take month).sum + (dayOfMonth - 1))
        = (month, dayOfMonth - 1) :=
    monthAndDay_eq (by omega)
  have sameDay
      : ((monthLengths year).take month).sum + dayOfMonth - 1
        = ((monthLengths year).take month).sum + (dayOfMonth - 1) := by
    omega
  refine ⟨_, congrArg Date.year isDay.eq, ?_, ?_⟩
  · rw [isDay.eq, Date.month, sameDay, found]
  · rw [isDay.eq, Date.dayOfMonth, sameDay, found]
    simp only
    omega

/-- Weeks counted from the one with the first day of 2000 on. -/
def weekNumber (day : Nat) : Nat := (day + 6) / 7

/-- The week in which a year starts. -/
def firstWeek (year : Nat) : Nat := weekNumber (firstDay year)

theorem weekNumber_mono (order : early ≤ late)
    : weekNumber early ≤ weekNumber late := by
  unfold weekNumber
  omega

theorem weeksInYear_eq (year : Nat)
    : firstWeek (year + 1) = firstWeek year + weeksInYear year := by
  unfold firstWeek weeksInYear weekNumber weekday
  rw [firstDay_succ]
  have := daysInYear_cases year
  omega

theorem weeksInYear_cases (year : Nat) : weeksInYear year = 52 ∨ weeksInYear year = 53 := by
  have := weeksInYear_eq year
  unfold firstWeek weekNumber at this
  rw [firstDay_succ] at this
  have := daysInYear_cases year
  omega

theorem firstWeek_mono (order : early ≤ late)
    : firstWeek early ≤ firstWeek late :=
  weekNumber_mono (firstDay_mono order)

/-- The number of a week says how many weeks of its year have passed. -/
theorem weekOf_spec (day : Nat)
    : firstWeek (dateOf day).weekYear ≤ weekNumber day
      ∧ weekNumber day < firstWeek ((dateOf day).weekYear + 1)
      ∧ (dateOf day).week = weekNumber day - firstWeek (dateOf day).weekYear + 1 := by
  obtain ⟨positive, inYear, number⟩ := dateOf_isDay day
  have weeks := weeksInYear_eq (dateOf day).year
  have nextWeeks := weeksInYear_eq ((dateOf day).year + 1)
  have nextCases := weeksInYear_cases ((dateOf day).year + 1)
  have fromJanuary
      : (dateOf day).weekFromJanuary + firstWeek (dateOf day).year = weekNumber day + 1 := by
    unfold Date.weekFromJanuary firstWeek weekNumber weekday
    omega
  have beforeNext : weekNumber day ≤ firstWeek ((dateOf day).year + 1) := by
    apply weekNumber_mono
    rw [firstDay_succ]
    omega
  have afterFirst : firstWeek (dateOf day).year ≤ weekNumber day := by
    apply weekNumber_mono
    omega
  unfold Date.weekYear Date.week
  split
  · omega
  · omega

theorem weekYear_eq {year : Nat} (after : firstWeek year ≤ weekNumber day)
    (before : weekNumber day < firstWeek (year + 1))
    : (dateOf day).weekYear = year := by
  obtain ⟨first, last, _⟩ := weekOf_spec day
  rcases Nat.lt_trichotomy (dateOf day).weekYear year with less | same | more
  · have := firstWeek_mono (show (dateOf day).weekYear + 1 ≤ year from less)
    omega
  · exact same
  · have := firstWeek_mono (show year + 1 ≤ (dateOf day).weekYear from more)
    omega

/-- The number of a week some weeks later, in the same year or in the next one. -/
theorem week_add {later weeks : Nat} (short : weeks ≤ 52)
    (after : weekNumber later = weekNumber day + weeks)
    : (dateOf later).week
      = if (dateOf day).week + weeks ≤ weeksInYear (dateOf day).weekYear then
          (dateOf day).week + weeks
        else (dateOf day).week + weeks - weeksInYear (dateOf day).weekYear := by
  obtain ⟨first, last, number⟩ := weekOf_spec day
  have weeksHere := weeksInYear_eq (dateOf day).weekYear
  have weeksNext := weeksInYear_eq ((dateOf day).weekYear + 1)
  have cases := weeksInYear_cases ((dateOf day).weekYear + 1)
  have spec := (weekOf_spec later).2.2
  split
  · have sameYear : (dateOf later).weekYear = (dateOf day).weekYear :=
      weekYear_eq (by omega) (by omega)
    rw [sameYear] at spec
    omega
  · have nextYear : (dateOf later).weekYear = (dateOf day).weekYear + 1 :=
      weekYear_eq (by omega) (by omega)
    rw [nextYear] at spec
    omega

theorem daysInYear_cycle (year : Nat) : daysInYear (year + 400) = daysInYear year := by
  have sameRule : isLeapYear (year + 400) = isLeapYear year := by
    simp only [isLeapYear, show (year + 400) % 4 = year % 4 by omega,
      show (year + 400) % 100 = year % 100 by omega,
      show (year + 400) % 400 = year % 400 by omega]
  simp only [daysInYear, sameRule]

theorem firstDay_cycle (year : Nat) : firstDay (year + 400) = firstDay year + 146097 := by
  induction year with
  | zero => decide +kernel
  | succ year ih =>
      rw [show year + 1 + 400 = year + 400 + 1 by omega, firstDay_succ (year + 400),
        firstDay_succ year, ih, daysInYear_cycle]
      omega

theorem dateOf_cycle (day : Nat)
    : dateOf (day + 146097) = ⟨(dateOf day).year + 400, (dateOf day).dayOfYear⟩ := by
  obtain ⟨positive, inYear, number⟩ := dateOf_isDay day
  have cycle := firstDay_cycle (dateOf day).year
  exact Date.IsDay.eq ⟨positive, by rw [daysInYear_cycle]; exact inYear, by simp only; omega⟩

theorem weekday_cycle (year : Nat)
    : weekday (firstDay (year + 400)) = weekday (firstDay year) := by
  rw [firstDay_cycle]
  unfold weekday
  omega

theorem weeksInYear_cycle (year : Nat) : weeksInYear (year + 400) = weeksInYear year := by
  unfold weeksInYear
  rw [daysInYear_cycle, weekday_cycle, show year + 400 + 1 = year + 1 + 400 by omega,
    weekday_cycle (year + 1)]

theorem weekFromJanuary_cycle (date : Date)
    : Date.weekFromJanuary ⟨date.year + 400, date.dayOfYear⟩ = date.weekFromJanuary := by
  simp only [Date.weekFromJanuary, weekday_cycle]

theorem week_cycle (day cycles : Nat)
    : (dateOf (day + 146097 * cycles)).week = (dateOf day).week := by
  induction cycles with
  | zero => rfl
  | succ cycles ih =>
      rw [Nat.mul_succ, ← Nat.add_assoc, dateOf_cycle, ← ih, Date.week, Date.week,
        weekFromJanuary_cycle, weeksInYear_cycle]

end N8n.Calendar
