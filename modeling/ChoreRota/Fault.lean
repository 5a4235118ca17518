import ChoreRota.Chore.Kind

/-!
# Faults

Why a chore cannot be scheduled, assigned or completed, with the code and the wording of each cause.
-/

namespace ChoreRota

inductive FaultCode where
  | invalidInput | invalidData | invalidSchedule | invalidAssignment | ioError
  deriving DecidableEq, Repr

def FaultCode.name : FaultCode → String
  | .invalidInput => "invalid_input"
  | .invalidData => "invalid_data"
  | .invalidSchedule => "invalid_schedule"
  | .invalidAssignment => "invalid_assignment"
  | .ioError => "io_error"

/-- Why a chore has no next due date or no next assignee. The last cause is not reported to
anybody: a clock would have to show a date outside the calendar, and the program stops at once. -/
inductive Fault where
  | unknownKind (text : String)
  | unknownUnit (text : String)
  | timeMissing
  | badTime (text : String)
  | unitMissing
  | dueDateOutOfRange
  | yearOutOfRange
  | badMonthDay (day : Int32)
  | monthsMissing
  | noMonth
  | daysMissing
  | noWeekday
  | unknownZone (name : String)
  | occurrencesMissing (pattern : WeekPattern)
  | noOccurrence
  | unknownStrategy (text : String)
  | noAssignees
  | onlyLastAssigned
  | windowOutOfRange
  | outsideWindow
  | offCalendar
  deriving DecidableEq, Repr

namespace Fault

def code : Fault → FaultCode
  | .unknownStrategy _ | .noAssignees | .onlyLastAssigned => .invalidAssignment
  | .windowOutOfRange => .invalidData
  | .outsideWindow => .invalidInput
  | _ => .invalidSchedule

def message : Fault → String
  | .unknownKind text => "invalid frequency type: " ++ Text.trim text
  | .unknownUnit text => "invalid frequency unit: " ++ Text.trim text
  | .timeMissing => "frequency metadata time is required"
  | .badTime text => "invalid time of day: " ++ Text.trim text
  | .unitMissing => "interval requires a frequency unit"
  | .dueDateOutOfRange => "next due date is out of range"
  | .yearOutOfRange => "year was not in range"
  | .badMonthDay day => "invalid day of the month: " ++ toString day.toInt
  | .monthsMissing => "day_of_the_month requires at least one month"
  | .noMonth => "no matching month found"
  | .daysMissing => "days_of_the_week requires at least one day"
  | .noWeekday => "no matching day of the week found"
  | .unknownZone name => "unknown time zone: " ++ name
  | .occurrencesMissing pattern => pattern.name ++ " requires at least one occurrence"
  | .noOccurrence => "no matching date found for the specified occurrence pattern"
  | .unknownStrategy text => "invalid assign strategy: " ++ Text.trim text
  | .noAssignees => "no assignees available"
  | .onlyLastAssigned => "no assignees available besides the last assigned"
  | .windowOutOfRange => "completion window is out of range"
  | .outsideWindow => "chore is out of completion window"
  | .offCalendar => "a date lies outside the calendar"

end Fault

section Propagation

variable {ε α β : Type}

theorem bind_eq_ok_iff {first : Except ε α} {rest : α → Except ε β} {result : β} :
    (first >>= rest) = .ok result ↔ ∃ found, first = .ok found ∧ rest found = .ok result := by
  cases first with
  | error fault => simp [bind, Except.bind]
  | ok found => simp [bind, Except.bind]

theorem map_eq_ok_iff {first : Except ε α} {image : α → β} {result : β} :
    first.map image = .ok result ↔ ∃ found, first = .ok found ∧ image found = result := by
  cases first with
  | error fault => simp [Except.map]
  | ok found => simp [Except.map]

theorem bind_eq_error_iff {first : Except ε α} {rest : α → Except ε β} {fault : ε} :
    (first >>= rest) = .error fault ↔
      first = .error fault ∨ ∃ found, first = .ok found ∧ rest found = .error fault := by
  cases first with
  | error cause => simp [bind, Except.bind]
  | ok found => simp [bind, Except.bind]

theorem map_eq_error_iff {first : Except ε α} {image : α → β} {fault : ε} :
    first.map image = .error fault ↔ first = .error fault := by
  cases first with
  | error cause => simp [Except.map]
  | ok found => simp [Except.map]

theorem mapError_eq_ok_iff {δ : Type} {result : Except ε α} {f : ε → δ} {value : α} :
    result.mapError f = .ok value ↔ result = .ok value := by
  cases result with
  | error fault => exact ⟨nofun, nofun⟩
  | ok found =>
    change Except.ok found = .ok value ↔ _
    rw [Except.ok.injEq, Except.ok.injEq]

end Propagation

end ChoreRota
