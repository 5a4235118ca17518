import ChoreRota.Calendar.Moment
import ChoreRota.Chore.Kind

/-!
# Chores and their history

A chore, the details of its schedule, and the rows that record what became of its occurrences, the
latest row first.
-/

namespace ChoreRota

structure FrequencyDetails where
  days : List String
  months : List String
  unit : Option IntervalUnit
  time : Option String
  weekPattern : Option WeekPattern
  occurrences : List Int32
  weekNumbers : List Int32
  timeZone : Option String
  deriving DecidableEq, Repr

def FrequencyDetails.unset : FrequencyDetails :=
  ⟨[], [], .none, .none, .none, [], [], .none⟩

structure Chore where
  id : ChoreId
  name : String
  kind : FrequencyKind
  frequency : Int32
  details : FrequencyDetails
  dueDate : Option Timestamp
  isRolling : Bool
  strategy : AssignStrategy
  assignedTo : Option UserId
  assignees : List UserId
  createdBy : UserId
  isActive : Bool
  completionWindow : Option Int64
  deriving DecidableEq, Repr

/-- One occurrence of a chore that somebody completed or skipped. -/
structure HistoryRow where
  choreId : ChoreId
  performedAt : Option Timestamp
  dueDate : Option Timestamp
  completedBy : Option UserId
  assignedTo : Option UserId
  note : Option String
  status : Status
  deriving DecidableEq, Repr

/-- A chore together with its history, latest row first. -/
structure Snapshot where
  chore : Chore
  history : List HistoryRow
  deriving DecidableEq, Repr

end ChoreRota
