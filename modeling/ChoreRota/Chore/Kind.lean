import ChoreRota.Text.Classes

/-!
# Kinds and their names

How a chore recurs, how its next assignee is found, and what became of an occurrence, each with the
name it is written by. A kind, a unit and a strategy are found by their name with blanks around it.
-/

namespace ChoreRota

abbrev UserId := Int64

abbrev ChoreId := Int64

inductive FrequencyKind where
  | once | daily | weekly | monthly | yearly | adaptive | interval | daysOfTheWeek | dayOfTheMonth
  | trigger | noRepeat
  deriving DecidableEq, Repr

namespace FrequencyKind

def all : List FrequencyKind :=
  [.once, .daily, .weekly, .monthly, .yearly, .adaptive, .interval, .daysOfTheWeek, .dayOfTheMonth,
    .trigger, .noRepeat]

def name : FrequencyKind → String
  | .once => "once"
  | .daily => "daily"
  | .weekly => "weekly"
  | .monthly => "monthly"
  | .yearly => "yearly"
  | .adaptive => "adaptive"
  | .interval => "interval"
  | .daysOfTheWeek => "days_of_the_week"
  | .dayOfTheMonth => "day_of_the_month"
  | .trigger => "trigger"
  | .noRepeat => "no_repeat"

def named? (text : String) : Option FrequencyKind :=
  all.find? fun kind => kind.name == Text.trim text

/-- Such a chore is over after its first completion or skip. -/
def isOneShot : FrequencyKind → Bool
  | .once | .noRepeat | .trigger => true
  | _ => false

/-- Such a chore is due at a configured time of day. -/
def usesTimeOfDay : FrequencyKind → Bool
  | .interval | .daysOfTheWeek | .dayOfTheMonth => true
  | _ => false

end FrequencyKind

inductive IntervalUnit where
  | hours | days | weeks | months | years
  deriving DecidableEq, Repr

namespace IntervalUnit

def all : List IntervalUnit :=
  [.hours, .days, .weeks, .months, .years]

def name : IntervalUnit → String
  | .hours => "hours"
  | .days => "days"
  | .weeks => "weeks"
  | .months => "months"
  | .years => "years"

def named? (text : String) : Option IntervalUnit :=
  all.find? fun unit => unit.name == Text.trim text

end IntervalUnit

inductive WeekPattern where
  | everyWeek | weekOfMonth | weekOfQuarter
  deriving DecidableEq, Repr

namespace WeekPattern

def all : List WeekPattern :=
  [.everyWeek, .weekOfMonth, .weekOfQuarter]

def name : WeekPattern → String
  | .everyWeek => "every_week"
  | .weekOfMonth => "week_of_month"
  | .weekOfQuarter => "week_of_quarter"

end WeekPattern

inductive AssignStrategy where
  | leastAssigned | leastCompleted | random | keepLastAssigned | randomExceptLastAssigned
  | roundRobin | noAssignee
  deriving DecidableEq, Repr

namespace AssignStrategy

def all : List AssignStrategy :=
  [.leastAssigned, .leastCompleted, .random, .keepLastAssigned, .randomExceptLastAssigned,
    .roundRobin, .noAssignee]

def name : AssignStrategy → String
  | .leastAssigned => "least_assigned"
  | .leastCompleted => "least_completed"
  | .random => "random"
  | .keepLastAssigned => "keep_last_assigned"
  | .randomExceptLastAssigned => "random_except_last_assigned"
  | .roundRobin => "round_robin"
  | .noAssignee => "no_assignee"

def named? (text : String) : Option AssignStrategy :=
  all.find? fun strategy => strategy.name == Text.trim text

end AssignStrategy

inductive Status where
  | pending | completed | completedLate | missed | skipped
  deriving DecidableEq, Repr

namespace Status

def all : List Status :=
  [.pending, .completed, .completedLate, .missed, .skipped]

def name : Status → String
  | .pending => "pending"
  | .completed => "completed"
  | .completedLate => "completed_late"
  | .missed => "missed"
  | .skipped => "skipped"

end Status

end ChoreRota
