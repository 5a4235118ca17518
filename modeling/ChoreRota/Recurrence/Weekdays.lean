import ChoreRota.Calendar.Zone
import ChoreRota.Recurrence.Months

/-!
# Weekdays of a schedule

The search for the next listed weekday, on the clock of the chore's time zone, and for the next
listed occurrence of a weekday in its month or quarter.
-/

namespace ChoreRota

def Weekday.isListed (weekday : Weekday) (names : List String) : Bool :=
  names.any fun listed => Text.sameLetters (Text.trim listed) weekday.name

/-- The first wanted date among the `count` dates after `date`. -/
def firstWanted (isWanted : Date → Bool) (missing : Fault) (date : Date) : Nat → Except Fault Date
  | 0 => .error missing
  | count + 1 =>
    match date.addDays? 1 with
    | none => .error .dueDateOutOfRange
    | some next => if isWanted next then .ok next else firstWanted isWanted missing next count

def nextListedDate (names : List String) (date : Date) : Except Fault Date :=
  firstWanted (fun next => next.weekday.isListed names) .noWeekday date 7

def FrequencyDetails.zone [ZoneTable] (details : FrequencyDetails) : Except Fault (Option Zone) :=
  match details.timeZone.map Text.trim with
  | none => .ok none
  | some name =>
    if name.isEmpty then .ok none
    else
      match ZoneTable.named? name with
      | some zone => .ok (some zone)
      | none => .error (.unknownZone name)

/-- A result that has to exist on every clock involved. -/
def onCalendar {α : Type} : Option α → Except Fault α
  | some value => .ok value
  | none => .error .offCalendar

/-- The moment in UTC at which the zone's clock shows `wall`, by the offset that is in force there
if `offset` is the one to find that out with. -/
def Zone.settle (zone : Zone) (wall : Moment) (offset : Int) : Except Fault Moment := do
  let guess ← onCalendar (zone.clockAt? ⟨wall, offset⟩)
  onCalendar (Timestamp.toUtc? ⟨wall, guess.offset⟩)

/-- Every listed weekday at the same time of day on the zone's clock. -/
def FrequencyDetails.everyWeek [ZoneTable] (details : FrequencyDetails) (base : Moment) :
    Except Fault Moment := do
  match ← details.zone with
  | none =>
    let date ← nextListedDate details.days base.date
    return base.onDate date
  | some zone =>
    let clock ← onCalendar (zone.clockAt? (Timestamp.ofUtc base))
    let date ← nextListedDate details.days clock.wall.date
    zone.settle (clock.wall.onDate date) clock.offset

inductive Period where
  | month | quarter
  deriving DecidableEq, Repr

namespace Period

def pattern : Period → WeekPattern
  | .month => .weekOfMonth
  | .quarter => .weekOfQuarter

def firstMonth (period : Period) (date : Date) : Month :=
  match period with
  | .month => date.month
  | .quarter => date.month.quarterStart

def occurrence (period : Period) (date : Date) : Int :=
  (date.dayNumber - (period.firstMonth date).start) / 7 + 1

def isLastOccurrence (period : Period) (date : Date) : Bool :=
  match date.addDays? 7 with
  | some next => period.firstMonth next != period.firstMonth date
  | none => true

/-- Whether the occurrence that a date is has been listed; -1 stands for the last. -/
def isListed (period : Period) (occurrences : List Int32) (date : Date) : Bool :=
  occurrences.any (fun listed => listed.toInt == period.occurrence date) ||
    (occurrences.any (fun listed => listed.toInt == -1) && period.isLastOccurrence date)

end Period

/-- The listed occurrences; the week numbers count where none are listed. -/
def FrequencyDetails.listedOccurrences (details : FrequencyDetails) : List Int32 :=
  if details.occurrences.isEmpty then details.weekNumbers else details.occurrences

/-- Listed occurrences of listed weekdays in the month or quarter, at the time of day in UTC. -/
def FrequencyDetails.nextOccurrence (details : FrequencyDetails) (base : Moment)
    (period : Period) : Except Fault Moment := do
  if details.listedOccurrences.isEmpty then throw (.occurrencesMissing period.pattern)
  let date ← firstWanted
    (fun date =>
      date.weekday.isListed details.days && period.isListed details.listedOccurrences date)
    .noOccurrence base.date 730
  return base.onDate date

def FrequencyDetails.nextWeekday [ZoneTable] (details : FrequencyDetails) (base : Moment) :
    Except Fault Moment :=
  if details.days.isEmpty then .error .daysMissing
  else
    match details.weekPattern.getD .everyWeek with
    | .everyWeek => details.everyWeek base
    | .weekOfMonth => details.nextOccurrence base .month
    | .weekOfQuarter => details.nextOccurrence base .quarter

end ChoreRota
