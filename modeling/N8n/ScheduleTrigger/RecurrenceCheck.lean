import N8n.Library.Calendar
import N8n.Library.JavaScript

/-! The rules of the Schedule Trigger: an interval becomes a cron expression, which may fire too
often, and a recurrence rule that filters its ticks
(`packages/nodes-base/nodes/Schedule/GenericFunctions.ts`). Sizes of intervals are whole
numbers, and times are seconds from the start of 2000 on, in the time zone of the trigger.
-/

namespace N8n.ScheduleTrigger

open Calendar

inductive ScheduleInterval where
  | cronExpression (expression : String)
  | seconds (secondsInterval : Nat)
  | minutes (minutesInterval : Nat)
  | hours (hoursInterval : Nat) (triggerAtMinute : Option Nat)
  | days (daysInterval : Nat) (triggerAtHour triggerAtMinute : Option Nat)
  | weeks (weeksInterval : Nat) (triggerAtDay : List Nat)
    (triggerAtHour triggerAtMinute : Option Nat)
  | months (monthsInterval : Nat)
    (triggerAtDayOfMonth triggerAtHour triggerAtMinute : Option Nat)
  deriving DecidableEq, Repr

def validateInterval (interval : ScheduleInterval) : Except JsError Unit :=
  let errorMessage :=
    match interval with
    | .seconds secondsInterval =>
        if secondsInterval > 59 ∨ secondsInterval < 1 then "Seconds must be in range 1-59" else ""
    | .minutes minutesInterval =>
        if minutesInterval > 59 ∨ minutesInterval < 1 then "Minutes must be in range 1-59" else ""
    | .hours hoursInterval _ =>
        if hoursInterval > 23 ∨ hoursInterval < 1 then "Hours must be in range 1-23" else ""
    | .days daysInterval _ _ =>
        if daysInterval > 31 ∨ daysInterval < 1 then "Days must be in range 1-31" else ""
    | .months monthsInterval _ _ _ =>
        if monthsInterval < 1 then "Months must be larger than 0" else ""
    | .cronExpression _ | .weeks _ _ _ _ => ""
  if errorMessage ≠ "" then
    throw (.error "NodeOperationError" "Invalid interval" (some errorMessage))
  else return

inductive CronField where
  | any
  | every (step : Nat)
  | exactly (value : Nat)
  | oneOf (values : List Nat)
  deriving DecidableEq, Repr

def CronField.toText : CronField → String
  | .any => "*"
  | .every step => s!"*/{step}"
  | .exactly value => toString value
  | .oneOf values => ",".intercalate (values.map toString)

/-- `low` is the least value of the field. -/
def CronField.matches (low : Nat) (field : CronField) (value : Nat) : Bool :=
  match field with
  | .any => true
  | .every step => (value - low) % step = 0
  | .exactly wanted => value = wanted
  | .oneOf values => value ∈ values

inductive CronExpression where
  | custom (expression : String)
  | fields (second minute hour dayOfMonth month dayOfWeek : CronField)
  deriving DecidableEq, Repr

def CronExpression.toText : CronExpression → String
  | .custom expression => expression
  | .fields second minute hour dayOfMonth month dayOfWeek =>
      " ".intercalate
        ([second, minute, hour, dayOfMonth, month, dayOfWeek].map CronField.toText)

/-- The times at which a cron job runs. At most one of the days of the month and the days of
the week is restricted in the expressions that are built here; Sunday is 0 or 7. What a
custom expression means is left to the library.
-/
def CronExpression.Fires : CronExpression → Nat → Prop
  | .custom _, _ => False
  | .fields second minute hour dayOfMonth month dayOfWeek, time =>
      let date := dateOf (time / 86400)
      let sunday := weekday (time / 86400) = 0 ∧ dayOfWeek.matches 0 7 = true
      second.matches 0 (time % 60) = true
        ∧ minute.matches 0 (time / 60 % 60) = true
        ∧ hour.matches 0 (time / 3600 % 24) = true
        ∧ dayOfMonth.matches 1 date.dayOfMonth = true
        ∧ month.matches 1 (date.month + 1) = true
        ∧ (dayOfWeek.matches 0 (weekday (time / 86400)) = true ∨ sunday)

/-- What `randomInt` returns, for the parts of an expression that are not given. -/
structure RandomTimes where
  second : Nat
  minute : Nat
  hour : Nat
  dayOfMonth : Nat
  deriving DecidableEq, Repr

def toCronExpression (random : RandomTimes) (interval : ScheduleInterval) : CronExpression :=
  match interval with
  | .cronExpression expression => .custom expression
  | .seconds secondsInterval => .fields (.every secondsInterval) .any .any .any .any .any
  | .minutes minutesInterval =>
      .fields (.exactly random.second) (.every minutesInterval) .any .any .any .any
  | .hours hoursInterval triggerAtMinute =>
      .fields (.exactly random.second) (.exactly (triggerAtMinute.getD random.minute))
        (.every hoursInterval) .any .any .any
  | .days _ triggerAtHour triggerAtMinute =>
      .fields (.exactly random.second) (.exactly (triggerAtMinute.getD random.minute))
        (.exactly (triggerAtHour.getD random.hour)) .any .any .any
  | .weeks _ triggerAtDay triggerAtHour triggerAtMinute =>
      let daysOfWeek := if triggerAtDay.length = 0 then .any else .oneOf triggerAtDay
      .fields (.exactly random.second) (.exactly (triggerAtMinute.getD random.minute))
        (.exactly (triggerAtHour.getD random.hour)) .any .any daysOfWeek
  | .months monthsInterval triggerAtDayOfMonth triggerAtHour triggerAtMinute =>
      .fields (.exactly random.second) (.exactly (triggerAtMinute.getD random.minute))
        (.exactly (triggerAtHour.getD random.hour))
        (.exactly (triggerAtDayOfMonth.getD random.dayOfMonth)) (.every monthsInterval) .any

inductive TypeInterval where
  | hours
  | days
  | weeks
  | months
  deriving DecidableEq, Repr

inductive IRecurrenceRule where
  | notActivated
  | activated (index intervalSize : Nat) (typeInterval : TypeInterval)
  deriving DecidableEq, Repr

def intervalToRecurrence (interval : ScheduleInterval) (index : Nat) : IRecurrenceRule :=
  match interval with
  | .hours hoursInterval _ =>
      if hoursInterval ≠ 1 then .activated index hoursInterval .hours else .notActivated
  | .days daysInterval _ _ =>
      if daysInterval ≠ 1 then .activated index daysInterval .days else .notActivated
  | .weeks weeksInterval _ _ _ =>
      if weeksInterval ≠ 1 then .activated index weeksInterval .weeks else .notActivated
  | .months monthsInterval _ _ _ =>
      if monthsInterval ≠ 1 then .activated index monthsInterval .months else .notActivated
  | .cronExpression _ | .seconds _ | .minutes _ => .notActivated

/-- What is read of the current time. -/
structure MomentTz where
  hour : Nat
  dayOfYear : Nat
  week : Nat
  month : Nat
  deriving DecidableEq, Repr

def momentAt (time : Nat) : MomentTz where
  hour := time / 3600 % 24
  dayOfYear := (dateOf (time / 86400)).dayOfYear
  week := (dateOf (time / 86400)).week
  month := (dateOf (time / 86400)).month

/-- A number in a sum; `null` counts as 0. -/
def lastNumber : Slot Nat → Nat
  | .value number => number
  | _ => 0

def recurrenceCheck (recurrence : IRecurrenceRule) (recurrenceRules : List (Slot Nat))
    (momentTz : MomentTz)
    : Bool × List (Slot Nat) :=
  match recurrence with
  | .notActivated => (true, recurrenceRules)
  | .activated index intervalSize typeInterval =>
      if intervalSize = 0 then (false, recurrenceRules)
      else
        let lastExecution := Slot.read recurrenceRules index
        match typeInterval with
        | .hours =>
            let hour := momentTz.hour
            if lastExecution = .undefined
                ∨ hour = (intervalSize + lastNumber lastExecution) % 24 then
              (true, Slot.write recurrenceRules index (.value hour))
            else (false, recurrenceRules)
        | .days =>
            let dayOfYear := momentTz.dayOfYear
            if lastExecution = .undefined
                ∨ dayOfYear = (intervalSize + lastNumber lastExecution) % 365 then
              (true, Slot.write recurrenceRules index (.value dayOfYear))
            else (false, recurrenceRules)
        | .weeks =>
            let week := momentTz.week
            if lastExecution = .undefined
                ∨ week = (intervalSize + lastNumber lastExecution) % 52
                ∨ .value week = lastExecution then
              (true, Slot.write recurrenceRules index (.value week))
            else (false, recurrenceRules)
        | .months =>
            let month := momentTz.month
            if lastExecution = .undefined
                ∨ month = (intervalSize + lastNumber lastExecution) % 12 then
              (true, Slot.write recurrenceRules index (.value month))
            else (false, recurrenceRules)

end N8n.ScheduleTrigger
