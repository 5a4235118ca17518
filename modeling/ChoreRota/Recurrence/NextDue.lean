import ChoreRota.Cadence
import ChoreRota.Recurrence.ConfiguredTime
import ChoreRota.Recurrence.Weekdays

/-!
# The next due date

A fixed schedule advances from its own prior due date, whenever the chore was completed; a rolling
schedule advances from the completion. All of it happens in UTC.
-/

namespace ChoreRota

namespace Chore

/-- What the schedule advances from, before any time of day is configured. -/
def anchor (chore : Chore) (priorDue : Option Moment) (completedAt : Moment) : Moment :=
  match priorDue with
  | some due => if chore.isRolling then completedAt else due
  | none => completedAt

def notBefore (slot completedAt : Moment) : Except Fault Moment :=
  if slot.nanos < completedAt.nanos then slot.later (days 1) else .ok slot

def baseDate (chore : Chore) (priorDue : Option Moment) (completedAt : Moment) :
    Except Fault Moment :=
  if chore.kind.usesTimeOfDay then do
    let time ← chore.details.configuredTime
    notBefore ((chore.anchor priorDue completedAt).atTime time) completedAt
  else .ok (chore.anchor priorDue completedAt)

def advanceInterval (chore : Chore) (base : Moment) : Except Fault Moment :=
  let count := chore.frequency.toInt
  match chore.details.unit with
  | none => .error .unitMissing
  | some .hours => base.later (seconds (count * 3600))
  | some .days => base.later (days count)
  | some .weeks => base.later (days (count * 7))
  | some .months => base.addMonths count
  | some .years => base.addMonths (count * 12)

/-- The base moved on to the next due date, for the kinds that have a base. -/
def advance [ZoneTable] (chore : Chore) (priorDue : Option Moment) (completedAt base : Moment) :
    Except Fault Moment :=
  match chore.kind with
  | .daily => base.later (days 1)
  | .weekly => base.later (days 7)
  | .monthly => base.addMonths 1
  | .yearly => base.addMonths 12
  | .interval => chore.advanceInterval base
  | .daysOfTheWeek => chore.details.nextWeekday base
  | .dayOfTheMonth => chore.nextMonthDay base priorDue completedAt
  | .once | .adaptive | .trigger | .noRepeat => .ok base

/-- The next due date after a completion, both in UTC; none for a chore that never repeats. -/
def nextDueAfter [ZoneTable] (chore : Chore) (priorDue : Option Moment) (completedAt : Moment) :
    Except Fault (Option Moment) :=
  match chore.kind with
  | .once | .noRepeat | .trigger => .ok none
  | .adaptive => Cadence.nextAfter (priorDue.map Timestamp.ofUtc) completedAt []
  | _ => do
    let base ← chore.baseDate priorDue completedAt
    return some (← chore.advance priorDue completedAt base)

def utcDue (dueDate : Option Timestamp) : Except Fault (Option Moment) :=
  match dueDate with
  | none => .ok none
  | some due => (onCalendar due.toUtc?).map some

def nextDue [ZoneTable] (chore : Chore) (completedAt : Timestamp) :
    Except Fault (Option Moment) := do
  let completedAt ← onCalendar completedAt.toUtc?
  let priorDue ← utcDue chore.dueDate
  chore.nextDueAfter priorDue completedAt

end Chore

end ChoreRota
