import N8n.Library.Timeline
import N8n.ScheduleTrigger.RecurrenceCheck

/-! When the recurrence rules keep their interval. Only a calendar number is remembered, and
the number expected next is taken modulo 24, 365, 52 or 12, so that what follows depends on
where the last execution was in its day or year.
-/

namespace N8n.ScheduleTrigger

open Calendar

/-! ### Intervals and their periods -/

namespace ScheduleInterval

/-- The size of an interval. A custom expression has none. -/
def size : ScheduleInterval → Nat
  | .cronExpression _ => 0
  | .seconds secondsInterval => secondsInterval
  | .minutes minutesInterval => minutesInterval
  | .hours hoursInterval _ => hoursInterval
  | .days daysInterval _ _ => daysInterval
  | .weeks weeksInterval _ _ _ => weeksInterval
  | .months monthsInterval _ _ _ => monthsInterval

/-- The hour, day, week or month of a time, counted from the start of 2000 on. -/
def period : ScheduleInterval → Nat → Nat
  | .hours _ _, time => time / 3600
  | .days _ _ _, time => time / 86400
  | .weeks _ _ _ _, time => weekNumber (time / 86400)
  | .months _ _ _ _, time => (dateOf (time / 86400)).monthNumber
  | _, time => time

/-- An interval of days, weeks or months. -/
def isCalendar : ScheduleInterval → Bool
  | .days _ _ _ | .weeks _ _ _ _ | .months _ _ _ _ => true
  | _ => false

def isWeekly : ScheduleInterval → Bool
  | .weeks _ _ _ _ => true
  | _ => false

def isHourly : ScheduleInterval → Bool
  | .hours _ _ => true
  | _ => false

/-- After an execution at this time, the expected number is that of the right tick. Intervals
of more than 51 weeks are not kept, but they do not stop either.
-/
def Keeps (interval : ScheduleInterval) (time : Nat) : Prop :=
  let date := dateOf (time / 86400)
  match interval with
  | .hours hoursInterval _ => time / 3600 % 24 + hoursInterval ≤ 24
  | .days daysInterval _ _ =>
      date.dayOfYear + daysInterval ≤ 364
      ∨ 366 ≤ date.dayOfYear + daysInterval ∧ daysInYear date.year = 365
  | .weeks weeksInterval _ _ _ =>
      weeksInterval ≤ 51
      → date.week + weeksInterval < 52
        ∨ 53 ≤ date.week + weeksInterval ∧ weeksInYear date.weekYear = 52
  | .months monthsInterval _ _ _ =>
      date.month + monthsInterval ≤ 12
      ∧ date.dayOfMonth
        ≤ (monthLengths date.year).getD ((date.month + monthsInterval) % 12) 0
  | _ => True

end ScheduleInterval

/-- The times at which the cron job of an interval runs. -/
def Ticks (random : RandomTimes) (interval : ScheduleInterval) : Nat → Prop :=
  (toCronExpression random interval).Fires

/-- The rule of an interval, checked at a time. -/
def checkAt (interval : ScheduleInterval) (index : Nat) (recurrenceRules : List (Slot Nat))
    (time : Nat)
    : Bool × List (Slot Nat) :=
  recurrenceCheck (intervalToRecurrence interval index) recurrenceRules (momentAt time)

/-! ### What a rule compares -/

namespace TypeInterval

def number : TypeInterval → MomentTz → Nat
  | .hours, momentTz => momentTz.hour
  | .days, momentTz => momentTz.dayOfYear
  | .weeks, momentTz => momentTz.week
  | .months, momentTz => momentTz.month

def modulus : TypeInterval → Nat
  | .hours => 24
  | .days => 365
  | .weeks => 52
  | .months => 12

end TypeInterval

/-- The number of the current time is the expected one, or it is that of the same week. -/
def IsDue (intervalSize : Nat) (typeInterval : TypeInterval) (last now : Nat) : Prop :=
  now = (intervalSize + last) % typeInterval.modulus ∨ typeInterval = .weeks ∧ now = last

/-- The memory of a rule after an execution at a time. -/
def Remembers (index : Nat) (typeInterval : TypeInterval) (recurrenceRules : List (Slot Nat))
    (time : Nat)
    : Prop :=
  Slot.read recurrenceRules index = .value (typeInterval.number (momentAt time))

/-- The rule of an interval keeps it as far as the interval is kept by what the rule remembers. -/
def Recurs (random : RandomTimes) (index : Nat) (recurrenceRules : List (Slot Nat))
    (interval : ScheduleInterval) (intervalSize : Nat) (typeInterval : TypeInterval)
    : Prop :=
  Recurring (Ticks random interval) (checkAt interval index) recurrenceRules interval.period
    intervalSize (Remembers index typeInterval) interval.Keeps

section Checks

variable {index intervalSize : Nat} {typeInterval : TypeInterval}
  {recurrenceRules : List (Slot Nat)}

theorem recurrenceCheck_first (positive : 0 < intervalSize)
    (fresh : Slot.read recurrenceRules index = .undefined) (momentTz : MomentTz)
    : recurrenceCheck (.activated index intervalSize typeInterval) recurrenceRules momentTz
      = (true,
          Slot.write recurrenceRules index (.value (typeInterval.number momentTz))) := by
  have notZero : intervalSize ≠ 0 := by omega
  cases typeInterval <;> simp [recurrenceCheck, notZero, fresh, TypeInterval.number]

variable {last : Nat} {momentTz : MomentTz}

section

variable (positive : 0 < intervalSize) (remembered : Slot.read recurrenceRules index = .value last)

include positive remembered

theorem recurrenceCheck_due
    (due : IsDue intervalSize typeInterval last (typeInterval.number momentTz))
    : recurrenceCheck (.activated index intervalSize typeInterval) recurrenceRules momentTz
      = (true,
          Slot.write recurrenceRules index (.value (typeInterval.number momentTz))) := by
  have notZero : intervalSize ≠ 0 := by omega
  cases typeInterval <;>
    simp_all [recurrenceCheck, lastNumber, IsDue, TypeInterval.number, TypeInterval.modulus]

theorem recurrenceCheck_notDue
    (notDue : ¬ IsDue intervalSize typeInterval last (typeInterval.number momentTz))
    : recurrenceCheck (.activated index intervalSize typeInterval) recurrenceRules momentTz
      = (false, recurrenceRules) := by
  have notZero : intervalSize ≠ 0 := by omega
  cases typeInterval <;>
    simp_all [recurrenceCheck, lastNumber, IsDue, TypeInterval.number, TypeInterval.modulus]

end

/-- A rule keeps its interval if the number that it compares is the expected one exactly in
the same period and at the end of the interval.
-/
theorem recurs_of_isDue {random : RandomTimes} {interval : ScheduleInterval}
    (size : 2 ≤ intervalSize)
    (rule : intervalToRecurrence interval index = .activated index intervalSize typeInterval)
    (fresh : Slot.read recurrenceRules index = .undefined)
    (mono : ∀ {early late : Nat}, early ≤ late → interval.period early ≤ interval.period late)
    (returns
      : ∀ {time : Nat}, Ticks random interval time → interval.Keeps time
          → ∃ late, Ticks random interval late
              ∧ interval.period late = interval.period time + intervalSize)
    (isDue
      : ∀ {time tick : Nat}, Ticks random interval time → interval.Keeps time
          → Ticks random interval tick → time < tick
          → interval.period tick ≤ interval.period time + intervalSize
          → (IsDue intervalSize typeInterval (typeInterval.number (momentAt time))
                (typeInterval.number (momentAt tick))
              ↔ interval.period tick = interval.period time
                ∨ interval.period tick = interval.period time + intervalSize))
    : Recurs random index recurrenceRules interval intervalSize typeInterval where
  positive := by omega
  mono := mono
  returns := returns
  first here := by
    rw [checkAt, rule, recurrenceCheck_first (by omega) fresh]
    exact ⟨rfl, by simp [Remembers, Slot.read_write]⟩
  accepts {state time tick} remembered fired kept here after inPeriod := by
    have due := (isDue fired kept here after (by omega)).mpr inPeriod
    rw [checkAt, rule, recurrenceCheck_due (by omega) remembered due]
    exact ⟨rfl, by simp [Remembers, Slot.read_write]⟩
  refuses {state time tick} remembered fired kept here after before := by
    have later : time < tick := by
      by_contra notLater
      have := mono (Nat.le_of_not_lt notLater)
      omega
    have notDue := mt (isDue fired kept here later (by omega)).mp (by omega)
    rw [checkAt, rule, recurrenceCheck_notDue (by omega) remembered notDue]

end Checks

/-! ### Ticks -/

/-- The cron job runs at this time of the day. -/
def AtTimeOfDay (random : RandomTimes) (triggerAtHour triggerAtMinute : Option Nat) (time : Nat)
    : Prop :=
  time % 60 = random.second
  ∧ time / 60 % 60 = triggerAtMinute.getD random.minute
  ∧ time / 3600 % 24 = triggerAtHour.getD random.hour

variable {triggerAtMinute triggerAtHour : Option Nat} {random : RandomTimes}

/-- Two times of one day that are at the same time of the day are the same. -/
theorem AtTimeOfDay.eq {first second : Nat}
    (atFirst : AtTimeOfDay random triggerAtHour triggerAtMinute first)
    (atSecond : AtTimeOfDay random triggerAtHour triggerAtMinute second)
    (sameDay : first / 86400 = second / 86400)
    : first = second := by
  unfold AtTimeOfDay at *
  omega

variable {time : Nat}

theorem AtTimeOfDay.add_days (atTime : AtTimeOfDay random triggerAtHour triggerAtMinute time)
    (days : Nat)
    : AtTimeOfDay random triggerAtHour triggerAtMinute (time + 86400 * days) := by
  unfold AtTimeOfDay at *
  omega

variable {hoursInterval : Nat}

theorem ticks_hours_iff
    : Ticks random (.hours hoursInterval triggerAtMinute) time
      ↔ time % 60 = random.second
        ∧ time / 60 % 60 = triggerAtMinute.getD random.minute
        ∧ time / 3600 % 24 % hoursInterval = 0 := by
  simp [Ticks, toCronExpression, CronExpression.Fires, CronField.matches]

variable {daysInterval : Nat}

theorem ticks_days_iff
    : Ticks random (.days daysInterval triggerAtHour triggerAtMinute) time
      ↔ AtTimeOfDay random triggerAtHour triggerAtMinute time := by
  simp [Ticks, toCronExpression, CronExpression.Fires, CronField.matches, AtTimeOfDay]

/-- The days of the week on which an interval of weeks has its ticks. -/
def OnDayOfWeek (triggerAtDay : List Nat) (day : Nat) : Prop :=
  triggerAtDay = [] ∨ weekday day ∈ triggerAtDay ∨ weekday day = 0 ∧ 7 ∈ triggerAtDay

variable {weeksInterval : Nat} {triggerAtDay : List Nat}

theorem ticks_weeks_iff
    : Ticks random (.weeks weeksInterval triggerAtDay triggerAtHour triggerAtMinute) time
      ↔ AtTimeOfDay random triggerAtHour triggerAtMinute time
        ∧ OnDayOfWeek triggerAtDay (time / 86400) := by
  cases triggerAtDay <;>
    simp [Ticks, toCronExpression, CronExpression.Fires, CronField.matches, AtTimeOfDay,
      OnDayOfWeek, and_assoc]

theorem ticks_months_iff {monthsInterval : Nat} {triggerAtDayOfMonth : Option Nat}
    : Ticks random
          (.months monthsInterval triggerAtDayOfMonth triggerAtHour triggerAtMinute) time
      ↔ AtTimeOfDay random triggerAtHour triggerAtMinute time
        ∧ (dateOf (time / 86400)).dayOfMonth = triggerAtDayOfMonth.getD random.dayOfMonth
        ∧ (dateOf (time / 86400)).month % monthsInterval = 0 := by
  simp [Ticks, toCronExpression, CronExpression.Fires, CronField.matches, AtTimeOfDay,
    and_assoc]

/-! ### The four units -/

section Units

variable {random : RandomTimes} {index : Nat} {recurrenceRules : List (Slot Nat)}
  {triggerAtHour triggerAtMinute : Option Nat}

theorem hours_recurring (size : 2 ≤ hoursInterval) (valid : hoursInterval ≤ 23)
    (fresh : Slot.read recurrenceRules index = .undefined)
    : Recurs random index recurrenceRules
        (.hours hoursInterval triggerAtMinute) hoursInterval .hours := by
  have notOne : hoursInterval ≠ 1 := by omega
  refine recurs_of_isDue size (by simp [intervalToRecurrence, notOne]) fresh ?_ ?_ ?_
  · intro early late order
    exact Nat.div_le_div_right order
  · intro time here kept
    refine ⟨time + 3600 * hoursInterval, ?_, ?_⟩
    · rw [ticks_hours_iff] at here ⊢
      obtain ⟨second, minute, hour⟩ := here
      have later : (time + 3600 * hoursInterval) / 3600 = time / 3600 + hoursInterval := by omega
      refine ⟨by omega, by omega, ?_⟩
      rw [later]
      change time / 3600 % 24 + hoursInterval ≤ 24 at kept
      rcases Nat.lt_or_eq_of_le kept with sameDay | midnight
      · rw [show (time / 3600 + hoursInterval) % 24 = time / 3600 % 24 + hoursInterval by omega,
          Nat.add_mod_right]
        exact hour
      · rw [show (time / 3600 + hoursInterval) % 24 = 0 by omega]
        exact Nat.zero_mod _
    · simp only [ScheduleInterval.period]
      omega
  · intro time tick fired kept here after inTime
    rw [ticks_hours_iff] at fired here
    simp only [ScheduleInterval.period] at inTime ⊢
    simp only [IsDue, TypeInterval.number, TypeInterval.modulus, momentAt]
    omega

theorem days_recurring (size : 2 ≤ daysInterval) (valid : daysInterval ≤ 31)
    (fresh : Slot.read recurrenceRules index = .undefined)
    : Recurs random index recurrenceRules
        (.days daysInterval triggerAtHour triggerAtMinute) daysInterval .days := by
  have notOne : daysInterval ≠ 1 := by omega
  refine recurs_of_isDue size (by simp [intervalToRecurrence, notOne]) fresh ?_ ?_ ?_
  · intro early late order
    exact Nat.div_le_div_right order
  · intro time here kept
    refine ⟨time + 86400 * daysInterval, ?_, ?_⟩
    · rw [ticks_days_iff] at here ⊢
      exact here.add_days daysInterval
    · simp only [ScheduleInterval.period]
      omega
  · intro time tick fired kept here after inTime
    rw [ticks_days_iff] at fired here
    have different : time / 86400 ≠ tick / 86400 := by
      intro sameDay
      have := fired.eq here sameDay
      omega
    simp only [ScheduleInterval.period] at inTime ⊢
    simp only [ScheduleInterval.Keeps] at kept
    simp only [IsDue, TypeInterval.number, TypeInterval.modulus, momentAt]
    obtain ⟨days, later⟩ : ∃ days, tick / 86400 = time / 86400 + days :=
      ⟨tick / 86400 - time / 86400, by omega⟩
    have date := @dateOf_add (time / 86400) days (by omega)
    obtain ⟨positive, inYear, _⟩ := dateOf_isDay (time / 86400)
    have lengths := daysInYear_cases (dateOf (time / 86400)).year
    rw [later, date]
    split <;> simp <;> omega

theorem weeks_recurring (size : 2 ≤ weeksInterval) (valid : weeksInterval ≤ 51)
    (fresh : Slot.read recurrenceRules index = .undefined)
    : Recurs random index recurrenceRules
        (.weeks weeksInterval triggerAtDay triggerAtHour triggerAtMinute) weeksInterval .weeks := by
  have notOne : weeksInterval ≠ 1 := by omega
  refine recurs_of_isDue size (by simp [intervalToRecurrence, notOne]) fresh ?_ ?_ ?_
  · intro early late order
    exact weekNumber_mono (Nat.div_le_div_right order)
  · intro time here kept
    have later : (time + 86400 * (7 * weeksInterval)) / 86400
        = time / 86400 + 7 * weeksInterval := by
      omega
    refine ⟨time + 86400 * (7 * weeksInterval), ?_, ?_⟩
    · rw [ticks_weeks_iff] at here ⊢
      refine ⟨here.1.add_days _, ?_⟩
      have sameDay : weekday (time / 86400 + 7 * weeksInterval) = weekday (time / 86400) := by
        unfold weekday
        omega
      rw [later]
      simpa only [OnDayOfWeek, sameDay] using here.2
    · simp only [ScheduleInterval.period, later, weekNumber]
      omega
  · intro time tick fired kept here after inTime
    have order : weekNumber (time / 86400) ≤ weekNumber (tick / 86400) :=
      weekNumber_mono (Nat.div_le_div_right (Nat.le_of_lt after))
    simp only [ScheduleInterval.period] at inTime ⊢
    simp only [ScheduleInterval.Keeps] at kept
    simp only [IsDue, TypeInterval.number, TypeInterval.modulus, momentAt]
    obtain ⟨weeks, later⟩
        : ∃ weeks, weekNumber (tick / 86400) = weekNumber (time / 86400) + weeks :=
      ⟨weekNumber (tick / 86400) - weekNumber (time / 86400), by omega⟩
    have number := week_add (show weeks ≤ 52 by omega) later
    obtain ⟨first, last, spec⟩ := weekOf_spec (time / 86400)
    have length := weeksInYear_eq (dateOf (time / 86400)).weekYear
    have lengths := weeksInYear_cases (dateOf (time / 86400)).weekYear
    have kept := kept valid
    rw [number, later]
    split <;> simp <;> omega

/-- The same day some months later, if there is such a day. -/
theorem exists_month_later {day months : Nat}
    (onGrid : (dateOf day).month % months = 0)
    (kept
      : (dateOf day).month + months ≤ 12
        ∧ (dateOf day).dayOfMonth
          ≤ (monthLengths (dateOf day).year).getD (((dateOf day).month + months) % 12) 0)
    : ∃ later,
        (dateOf later).monthNumber = (dateOf day).monthNumber + months
        ∧ (dateOf later).dayOfMonth = (dateOf day).dayOfMonth
        ∧ (dateOf later).month % months = 0 := by
  obtain ⟨notLate, fits⟩ := kept
  have positive : 1 ≤ (dateOf day).dayOfMonth := Nat.le_add_left 1 _
  rcases Nat.lt_or_eq_of_le notLate with sameYear | nextYear
  · rw [Nat.mod_eq_of_lt sameYear] at fits
    obtain ⟨later, year, month, sameDay⟩ := exists_day positive fits
    refine ⟨later, ?_, sameDay, ?_⟩
    · simp only [Date.monthNumber, year, month]
      omega
    · rw [month, Nat.add_mod_right]
      exact onGrid
  · rw [nextYear] at fits
    -- January has the same length in every year.
    have january
        : (dateOf day).dayOfMonth ≤ (monthLengths ((dateOf day).year + 1)).getD 0 0 := fits
    obtain ⟨later, year, month, sameDay⟩ := exists_day positive january
    refine ⟨later, ?_, sameDay, ?_⟩
    · simp only [Date.monthNumber, year, month]
      omega
    · rw [month]
      exact Nat.zero_mod _

theorem months_recurring {monthsInterval : Nat} {triggerAtDayOfMonth : Option Nat}
    (size : 2 ≤ monthsInterval) (fresh : Slot.read recurrenceRules index = .undefined)
    : Recurs random index recurrenceRules
        (.months monthsInterval triggerAtDayOfMonth triggerAtHour triggerAtMinute) monthsInterval
        .months := by
  have notOne : monthsInterval ≠ 1 := by omega
  refine recurs_of_isDue size (by simp [intervalToRecurrence, notOne]) fresh ?_ ?_ ?_
  · intro early late order
    exact monthNumber_mono (Nat.div_le_div_right order)
  · intro time here kept
    rw [ticks_months_iff] at here
    obtain ⟨atTime, onDay, inMonth⟩ := here
    obtain ⟨day, monthNumber, sameDay, onGrid⟩ := exists_month_later inMonth kept
    have sameTime
        : AtTimeOfDay random triggerAtHour triggerAtMinute (86400 * day + time % 86400) := by
      unfold AtTimeOfDay at *
      omega
    have isDay : (86400 * day + time % 86400) / 86400 = day := by omega
    refine ⟨86400 * day + time % 86400, ?_, ?_⟩
    · rw [ticks_months_iff, isDay]
      exact ⟨sameTime, sameDay.trans onDay, onGrid⟩
    · simp only [ScheduleInterval.period, isDay, monthNumber]
  · intro time tick fired kept here after inTime
    rw [ticks_months_iff] at fired here
    have order : (dateOf (time / 86400)).monthNumber ≤ (dateOf (tick / 86400)).monthNumber :=
      monthNumber_mono (Nat.div_le_div_right (Nat.le_of_lt after))
    have different
        : (dateOf (time / 86400)).monthNumber ≠ (dateOf (tick / 86400)).monthNumber := by
      intro sameMonth
      have sameDay := day_eq_of_month sameMonth (fired.2.1.trans here.2.1.symm)
      have := fired.1.eq here.1 sameDay
      omega
    obtain ⟨notLate, _⟩ := kept
    have month := (monthOf_spec (time / 86400)).1
    have laterMonth := (monthOf_spec (tick / 86400)).1
    simp only [ScheduleInterval.period] at inTime ⊢
    simp only [IsDue, TypeInterval.number, TypeInterval.modulus, momentAt]
    simp only [Date.monthNumber] at *
    omega

end Units

/-! ### Runs -/

theorem unchanged_of_refused {due : Prop} [Decidable due] {changed rules : List (Slot Nat)}
    (refused : (if due then (true, changed) else (false, rules)).1 = false)
    : (if due then (true, changed) else (false, rules)).2 = rules := by
  by_cases isDue : due
  · simp [isDue] at refused
  · simp [isDue]

theorem recurrenceCheck_unchanged (recurrence : IRecurrenceRule)
    (recurrenceRules : List (Slot Nat)) (momentTz : MomentTz)
    (refused : (recurrenceCheck recurrence recurrenceRules momentTz).1 = false)
    : (recurrenceCheck recurrence recurrenceRules momentTz).2 = recurrenceRules := by
  cases recurrence with
  | notActivated => rfl
  | activated index intervalSize typeInterval =>
      by_cases isZero : intervalSize = 0
      · simp [recurrenceCheck, isZero]
      · simp only [recurrenceCheck, isZero, if_false] at refused ⊢
        cases typeInterval <;> exact unchanged_of_refused refused

theorem checkAt_unchanged (interval : ScheduleInterval) (index : Nat)
    (recurrenceRules : List (Slot Nat)) (tick : Nat)
    (refused : (checkAt interval index recurrenceRules tick).1 = false)
    : (checkAt interval index recurrenceRules tick).2 = recurrenceRules :=
  recurrenceCheck_unchanged _ _ _ refused

theorem hours_le_of_valid (valid : validateInterval (.hours hoursInterval triggerAtMinute) = .ok ⟨⟩)
    : hoursInterval ≤ 23 := by
  by_contra tooLarge
  have refused : hoursInterval > 23 ∨ hoursInterval < 1 := by omega
  simp only [validateInterval, refused, if_true] at valid
  contradiction

theorem days_le_of_valid
    (valid : validateInterval (.days daysInterval triggerAtHour triggerAtMinute) = .ok ⟨⟩)
    : daysInterval ≤ 31 := by
  by_contra tooLarge
  have refused : daysInterval > 31 ∨ daysInterval < 1 := by omega
  simp only [validateInterval, refused, if_true] at valid
  contradiction

section Runs

variable {random : RandomTimes} {interval : ScheduleInterval} {index : Nat}
  {recurrenceRules : List (Slot Nat)} {first last : Nat} {ticks : List Nat}

/-- The times up to the next execution of a run. -/
def GoesOn (random : RandomTimes) (interval : ScheduleInterval) (index : Nat)
    (recurrenceRules : List (Slot Nat)) (first : Nat) (ticks : List Nat) (last : Nat)
    (limit : Nat)
    : Prop :=
  ∃ more late,
    Timeline (Ticks random interval) first (ticks ++ more) late
    ∧ last < late
    ∧ late ≤ limit
    ∧ late ∈ accepted (checkAt interval index) recurrenceRules (ticks ++ more)

/-- A rule that is not activated accepts every tick. -/
theorem goesOn_notActivated
    (notActivated : intervalToRecurrence interval index = .notActivated)
    (timeline : Timeline (Ticks random interval) first ticks last) {target : Nat}
    (here : Ticks random interval target) (after : last < target)
    : GoesOn random interval index recurrenceRules first ticks last target := by
  refine accepts_until (checkAt_unchanged interval index) timeline here after ?_
  simp [checkAt, notActivated, recurrenceCheck]

theorem seconds_goesOn {secondsInterval : Nat}
    (timeline : Timeline (Ticks random (.seconds secondsInterval)) first ticks last)
    : GoesOn random (.seconds secondsInterval) index recurrenceRules first ticks last
        (last + 60) := by
  have here : Ticks random (.seconds secondsInterval) (last + 60 - last % 60) := by
    have minute : (last + 60 - last % 60) % 60 = 0 := by omega
    simp [Ticks, toCronExpression, CronExpression.Fires, CronField.matches, minute]
  obtain ⟨more, late, goesOn, later, notLater, isAccepted⟩ :=
    @goesOn_notActivated _ _ index recurrenceRules _ _ _ rfl timeline _ here (by omega)
  exact ⟨more, late, goesOn, later, by omega, isAccepted⟩

theorem minutes_goesOn {minutesInterval : Nat}
    (timeline : Timeline (Ticks random (.minutes minutesInterval)) first ticks last)
    : GoesOn random (.minutes minutesInterval) index recurrenceRules first ticks last
        (last + 3600) := by
  have here
      : Ticks random (.minutes minutesInterval) (last + 3600 - 60 * (last / 60 % 60)) := by
    have fired := timeline.fires_last
    have hour : (last + 3600 - 60 * (last / 60 % 60)) / 60 % 60 = 0 := by omega
    have second : (last + 3600 - 60 * (last / 60 % 60)) % 60 = last % 60 := by omega
    simp only [Ticks, toCronExpression, CronExpression.Fires, CronField.matches, hour, second]
      at fired ⊢
    simpa using fired.1
  obtain ⟨more, late, goesOn, later, notLater, isAccepted⟩ :=
    @goesOn_notActivated _ _ index recurrenceRules _ _ _ rfl timeline _ here (by omega)
  exact ⟨more, late, goesOn, later, by omega, isAccepted⟩

variable {intervalSize : Nat} {typeInterval : TypeInterval}

/-- After a run, a rule remembers the time of one of its ticks. -/
theorem exists_remembered (rule
      : intervalToRecurrence interval index = .activated index intervalSize typeInterval)
    (positive : 0 < intervalSize) (fresh : Slot.read recurrenceRules index = .undefined)
    (timeline : Timeline (Ticks random interval) first ticks last)
    : ∃ time ∈ ticks,
        Remembers index typeInterval
          (stateAfter (checkAt interval index) recurrenceRules ticks) time := by
  induction timeline with
  | start here =>
      refine ⟨first, by simp, ?_⟩
      simp [stateAfter, checkAt, rule, recurrenceCheck_first positive fresh, Remembers,
        Slot.read_write]
  | @next ticks last tick before follows ih =>
      obtain ⟨time, member, remembered⟩ := ih
      rw [stateAfter_snoc]
      by_cases due
          : IsDue intervalSize typeInterval (typeInterval.number (momentAt time))
              (typeInterval.number (momentAt tick))
      · refine ⟨tick, by simp, ?_⟩
        rw [checkAt, rule, recurrenceCheck_due positive remembered due]
        simp [Remembers, Slot.read_write]
      · refine ⟨time, by simp [member], ?_⟩
        rw [checkAt, rule, recurrenceCheck_notDue positive remembered due]
        exact remembered

/-- Each tick of an interval of weeks comes again in a week with the same number. -/
theorem exists_same_week (fired
      : Ticks random (.weeks weeksInterval triggerAtDay triggerAtHour triggerAtMinute) time)
    (last : Nat)
    : ∃ target,
        Ticks random (.weeks weeksInterval triggerAtDay triggerAtHour triggerAtMinute) target
        ∧ last < target
        ∧ (momentAt target).week = (momentAt time).week := by
  obtain ⟨days, cycle⟩ : ∃ days, days = 146097 * (last + 1) := ⟨_, rfl⟩
  have later : (time + 86400 * days) / 86400 = time / 86400 + days := by omega
  rw [ticks_weeks_iff] at fired
  refine ⟨time + 86400 * days, ?_, by omega, ?_⟩
  · have sameDay : weekday (time / 86400 + days) = weekday (time / 86400) := by
      unfold weekday
      omega
    rw [ticks_weeks_iff, later]
    refine ⟨fired.1.add_days days, ?_⟩
    simpa only [OnDayOfWeek, sameDay] using fired.2
  · simp only [momentAt, later]
    rw [cycle, week_cycle]

/-- The week of the last execution comes again, after a cycle of 400 years at the latest. -/
theorem weeks_goesOn (size : 2 ≤ weeksInterval)
    (fresh : Slot.read recurrenceRules index = .undefined)
    (timeline
      : Timeline
          (Ticks random (.weeks weeksInterval triggerAtDay triggerAtHour triggerAtMinute))
          first ticks last)
    : ∃ limit,
        GoesOn random (.weeks weeksInterval triggerAtDay triggerAtHour triggerAtMinute) index
          recurrenceRules first ticks last limit := by
  have notOne : weeksInterval ≠ 1 := by omega
  have rule
      : intervalToRecurrence
            (.weeks weeksInterval triggerAtDay triggerAtHour triggerAtMinute) index
        = .activated index weeksInterval .weeks := by
    simp [intervalToRecurrence, notOne]
  obtain ⟨time, member, remembered⟩ := exists_remembered rule (by omega) fresh timeline
  have fired := ((timeline.mem_iff time).mp member).1
  obtain ⟨target, here, after, sameWeek⟩ := exists_same_week fired last
  have due
      : IsDue weeksInterval .weeks (TypeInterval.weeks.number (momentAt time))
          (TypeInterval.weeks.number (momentAt target)) :=
    .inr ⟨rfl, sameWeek⟩
  refine ⟨target, accepts_until (checkAt_unchanged _ index) timeline here after ?_⟩
  rw [checkAt, rule, recurrenceCheck_due (by omega) remembered due]

/-- The part about the runs of an interval that keeps what it remembers. -/
theorem kept_of_recurring
    (recurring : Recurs random index recurrenceRules interval intervalSize typeInterval)
    (timeline : Timeline (Ticks random interval) first ticks last)
    : ((∀ time ∈ accepted (checkAt interval index) recurrenceRules ticks,
            time < last → interval.Keeps time)
          → ∀ tick ∈ ticks,
              tick ∈ accepted (checkAt interval index) recurrenceRules ticks
              ↔ intervalSize ∣ interval.period tick - interval.period first)
      ∧ ((∀ time ∈ accepted (checkAt interval index) recurrenceRules ticks,
            interval.Keeps time)
          → ∃ more late,
              Timeline (Ticks random interval) first (ticks ++ more) late
              ∧ last < late
              ∧ interval.period late ≤ interval.period last + intervalSize
              ∧ late ∈ accepted (checkAt interval index) recurrenceRules (ticks ++ more)) := by
  refine ⟨?_, ?_⟩
  · exact fun kept => (recurring.kept_run timeline kept).accepted_iff
  · intro kept
    exact recurring.goes_on (checkAt_unchanged interval index) timeline
      (recurring.kept_run timeline (fun time member _ => kept time member)) kept

/-- In a run of an interval of two units or more, starting without an execution, as long as
the executions before the last tick are followed by the right ones: for days, months and
weeks, exactly the ticks a multiple of the interval after the first one are accepted. And if
the last execution keeps the interval too, the run goes on to another execution, for hours
within a day.
-/
theorem recurrenceCheck_keeps_interval (valid : validateInterval interval = .ok ⟨⟩)
    (size : 2 ≤ interval.size) (fresh : Slot.read recurrenceRules index = .undefined)
    (timeline : Timeline (Ticks random interval) first ticks last)
    : ((∀ time ∈ accepted (checkAt interval index) recurrenceRules ticks,
            time < last → interval.Keeps time)
          → interval.isCalendar = true
          → (interval.isWeekly = true → interval.size ≤ 51)
          → ∀ tick ∈ ticks,
              tick ∈ accepted (checkAt interval index) recurrenceRules ticks
              ↔ interval.size ∣ interval.period tick - interval.period first)
      ∧ ((∀ time ∈ accepted (checkAt interval index) recurrenceRules ticks,
            interval.Keeps time)
          → ∃ limit,
              GoesOn random interval index recurrenceRules first ticks last limit
              ∧ (interval.isHourly = true → limit ≤ last + 24 * 3600)) := by
  cases interval with
  | cronExpression expression => simp [ScheduleInterval.size] at size
  | seconds secondsInterval =>
      refine ⟨fun _ calendar => by contradiction, fun _ => ?_⟩
      exact ⟨_, seconds_goesOn timeline, fun hourly => by contradiction⟩
  | minutes minutesInterval =>
      refine ⟨fun _ calendar => by contradiction, fun _ => ?_⟩
      exact ⟨_, minutes_goesOn timeline, fun hourly => by contradiction⟩
  | hours hoursInterval triggerAtMinute =>
      have inRange : hoursInterval ≤ 23 := hours_le_of_valid valid
      obtain ⟨_, goesOn⟩ := kept_of_recurring (hours_recurring size inRange fresh) timeline
      refine ⟨fun _ calendar => by contradiction, fun kept => ?_⟩
      obtain ⟨more, late, longer, later, inTime, isAccepted⟩ := goesOn kept
      simp only [ScheduleInterval.period, ScheduleInterval.size] at inTime
      exact ⟨last + 24 * 3600, ⟨more, late, longer, later, by omega, isAccepted⟩,
        fun _ => Nat.le_refl _⟩
  | days daysInterval triggerAtHour triggerAtMinute =>
      have inRange : daysInterval ≤ 31 := days_le_of_valid valid
      obtain ⟨onGrid, goesOn⟩ := kept_of_recurring (days_recurring size inRange fresh) timeline
      refine ⟨fun kept _ _ => onGrid kept, fun kept => ?_⟩
      obtain ⟨more, late, longer, later, _, isAccepted⟩ := goesOn kept
      exact ⟨late, ⟨more, late, longer, later, Nat.le_refl _, isAccepted⟩,
        fun hourly => by contradiction⟩
  | weeks weeksInterval triggerAtDay triggerAtHour triggerAtMinute =>
      refine ⟨fun kept _ short => ?_, fun _ => ?_⟩
      · exact (kept_of_recurring (weeks_recurring size (short rfl) fresh) timeline).1 kept
      · obtain ⟨limit, goesOn⟩ := weeks_goesOn size fresh timeline
        exact ⟨limit, goesOn, fun hourly => by contradiction⟩
  | months monthsInterval triggerAtDayOfMonth triggerAtHour triggerAtMinute =>
      obtain ⟨onGrid, goesOn⟩ := kept_of_recurring (months_recurring size fresh) timeline
      refine ⟨fun kept _ _ => onGrid kept, fun kept => ?_⟩
      obtain ⟨more, late, longer, later, _, isAccepted⟩ := goesOn kept
      exact ⟨late, ⟨more, late, longer, later, Nat.le_refl _, isAccepted⟩,
        fun hourly => by contradiction⟩

end Runs

/-- Every second day at midnight. -/
def everySecondDay : ScheduleInterval := .days 2 (some 0) (some 0)

def onTheMinute : RandomTimes where
  second := 0
  minute := 0
  hour := 0
  dayOfMonth := 1

theorem everySecondDay_ticks
    : Ticks onTheMinute everySecondDay time ↔ 86400 ∣ time := by
  rw [everySecondDay, ticks_days_iff]
  simp only [AtTimeOfDay, onTheMinute, Option.getD_some]
  omega

theorem everySecondDay_follows (here : 86400 ∣ time)
    : Follows (Ticks onTheMinute everySecondDay) time (time + 86400) := by
  refine ⟨everySecondDay_ticks.mpr (by omega), by omega, ?_⟩
  intro between later sooner fired
  have := everySecondDay_ticks.mp fired
  omega

/-- From the first day of 2000 to the third one. -/
theorem everySecondDay_kept
    : 172800 ∈ accepted (checkAt everySecondDay 0) [] [0, 86400, 172800]
      ∧ ∃ limit, GoesOn onTheMinute everySecondDay 0 [] 0 [0, 86400, 172800] 172800 limit := by
  have timeline : Timeline (Ticks onTheMinute everySecondDay) 0 [0, 86400, 172800] 172800 :=
    ((Timeline.start (everySecondDay_ticks.mpr (by decide))).next
      (everySecondDay_follows (by decide))).next (everySecondDay_follows (by decide))
  have accepts : accepted (checkAt everySecondDay 0) [] [0, 86400, 172800] = [0, 172800] := by
    decide +kernel
  have kept
      : ∀ time ∈ accepted (checkAt everySecondDay 0) [] [0, 86400, 172800],
          everySecondDay.Keeps time := by
    rw [accepts]
    intro time member
    rcases List.mem_cons.mp member with rfl | member
    · exact .inl (by decide)
    · obtain rfl := List.mem_singleton.mp member
      exact .inl (by decide)
  have fresh : Slot.read ([] : List (Slot Nat)) 0 = .undefined := rfl
  obtain ⟨onGrid, goesOn⟩ :=
    recurrenceCheck_keeps_interval (by decide) (by decide) fresh timeline
  refine ⟨?_, ?_⟩
  · exact (onGrid (fun time member _ => kept time member) rfl (fun weekly => by contradiction)
      172800 (by decide)).mpr (by decide)
  · obtain ⟨limit, further, _⟩ := goesOn kept
    exact ⟨limit, further⟩

/-- After an execution on 29 December 2001, every second day never comes again. -/
theorem everySecondDay_stops
    : ¬ ∀ ticks last, Timeline (Ticks onTheMinute everySecondDay) 62899200 ticks last
        → (∀ tick ∈ ticks,
            tick ∈ accepted (checkAt everySecondDay 0) [] ticks
            ↔ everySecondDay.size
              ∣ everySecondDay.period tick - everySecondDay.period 62899200)
          ∧ ∃ limit, GoesOn onTheMinute everySecondDay 0 [] 62899200 ticks last limit := by
  intro keeps
  have timeline
      : Timeline (Ticks onTheMinute everySecondDay) 62899200
          [62899200, 62985600, 63072000] 63072000 :=
    ((Timeline.start (everySecondDay_ticks.mpr (by decide))).next
      (everySecondDay_follows (by decide))).next (everySecondDay_follows (by decide))
  have onGrid := ((keeps _ _ timeline).1 63072000 (by decide)).mpr (by decide)
  have refused
      : 63072000
        ∉ accepted (checkAt everySecondDay 0) [] [62899200, 62985600, 63072000] := by
    decide +kernel
  exact refused onGrid

end N8n.ScheduleTrigger
