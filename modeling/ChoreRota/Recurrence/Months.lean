import ChoreRota.Calendar.Moment
import ChoreRota.Chore.Basic
import ChoreRota.Fault

/-!
# Months of a schedule

Adding calendar months, where a day past the end of the target month rolls over into the next, and
the search for the next listed month, where such a day becomes the last of its month.
-/

namespace ChoreRota

/-- The moment some nanoseconds later, or the fault of a due date outside the calendar. -/
def Moment.later (moment : Moment) (nanos : Int) : Except Fault Moment :=
  match moment.shift? nanos with
  | some result => .ok result
  | none => .error .dueDateOutOfRange

/-- Years are counted in 32 bits; past them a due date is out of range before its year is. -/
def isCountableYear (year : Int) : Bool :=
  -2147483648 ≤ year && year ≤ 2147483647

/-- The same day and time some calendar months later; a day past the end of the target month rolls
over into the month after it. -/
def Moment.addMonths (moment : Moment) (count : Int) : Except Fault Moment :=
  let target := moment.month.later count
  if isCountableYear target.year then
    match Date.ofMonthDay? target 1 with
    | none => .error .yearOutOfRange
    | some first =>
      match first.addDays? (moment.date.day - 1) with
      | none => .error .dueDateOutOfRange
      | some date => .ok (moment.onDate date)
  else .error .dueDateOutOfRange

/-- Whether a list of names has the month's, whatever the case and the blanks around it. -/
def Month.isListed (month : Month) (names : List String) : Bool :=
  names.any fun listed => Text.sameLetters (Text.trim listed) month.name

/-- A day of the month, or the last one of a shorter month. -/
def Month.clampedDate (month : Month) (day : Int) : Except Fault Date :=
  match Date.ofMonthDay? month (min day month.length) with
  | some date => .ok date
  | none => .error .yearOutOfRange

def firstListedMonth (names : List String) (month : Month) : Nat → Except Fault Month
  | 0 => .error .noMonth
  | count + 1 =>
    if month.isListed names then .ok month else firstListedMonth names (month.later 1) count

def Chore.targetDay (chore : Chore) : Except Fault Int :=
  if 1 ≤ chore.frequency.toInt ∧ chore.frequency.toInt ≤ 31 then .ok chore.frequency.toInt
  else .error (.badMonthDay chore.frequency)

/-- Where the search for the next month begins. A rolling chore that is completed early begins just
after its due date, so that it does not become due on the same date again. -/
def Chore.monthSearchBase (chore : Chore) (base : Moment) (priorDue : Option Moment)
    (completedAt : Moment) : Except Fault Moment :=
  match priorDue with
  | some due =>
    if chore.isRolling then do
      let justAfter ← due.later (seconds 1)
      return if completedAt.nanos < justAfter.nanos then justAfter else base
    else .ok base
  | none => .ok base

/-- The next due date of a chore that is due on a day of listed months. The search leaves out the
month of the prior due date and covers twelve months. -/
def Chore.nextMonthDay (chore : Chore) (base : Moment) (priorDue : Option Moment)
    (completedAt : Moment) : Except Fault Moment := do
  let day ← chore.targetDay
  if chore.details.months.isEmpty then throw .monthsMissing
  let base ← chore.monthSearchBase base priorDue completedAt
  let first :=
    if priorDue.map Moment.month = some base.month then base.month.later 1 else base.month
  let month ← firstListedMonth chore.details.months first 12
  let date ← month.clampedDate day
  return ⟨date, base.time.toMinute⟩

end ChoreRota
