import ChoreRota.Event
import ChoreRota.Json.Printer
import ChoreRota.Storage.Decoder

/-!
# Storing chores

Chores, their history, whole snapshots and decisions as JSON, with every field in order. A timestamp
can only be written when its year lies between 0 and 9999.
-/

namespace ChoreRota

inductive EncodeFault where
  | yearNotWritable
  deriving DecidableEq, Repr

def EncodeFault.message : EncodeFault → String
  | .yearNotWritable => "The year component cannot be formatted into the requested format."

namespace Json

def ofOption {α : Type} (write : α → Json) : Option α → Json
  | some value => write value
  | none => .null

def ofInt64 (value : Int64) : Json := .integer value.toInt

def ofInt32 (value : Int32) : Json := .integer value.toInt

def ofTimestamp (timestamp : Timestamp) : Except EncodeFault Json :=
  match Rfc3339.write? timestamp with
  | some text => .ok (.string text)
  | none => .error .yearNotWritable

def ofTimestamp? : Option Timestamp → Except EncodeFault Json
  | some timestamp => ofTimestamp timestamp
  | none => .ok .null

end Json

def FrequencyDetails.toJson (details : FrequencyDetails) : Json :=
  .object [
    ("days", .array (details.days.map .string)),
    ("months", .array (details.months.map .string)),
    ("unit", Json.ofOption (fun unit => .string unit.name) details.unit),
    ("time", Json.ofOption .string details.time),
    ("week_pattern", Json.ofOption (fun pattern => .string pattern.name) details.weekPattern),
    ("occurrences", .array (details.occurrences.map Json.ofInt32)),
    ("week_numbers", .array (details.weekNumbers.map Json.ofInt32)),
    ("timezone", Json.ofOption .string details.timeZone)]

def Chore.toJson (chore : Chore) : Except EncodeFault Json := do
  let dueDate ← Json.ofTimestamp? chore.dueDate
  return .object [
    ("id", Json.ofInt64 chore.id),
    ("name", .string chore.name),
    ("frequency_type", .string chore.kind.name),
    ("frequency", Json.ofInt32 chore.frequency),
    ("frequency_metadata", chore.details.toJson),
    ("next_due_date", dueDate),
    ("is_rolling", .bool chore.isRolling),
    ("assign_strategy", .string chore.strategy.name),
    ("assigned_to", Json.ofOption Json.ofInt64 chore.assignedTo),
    ("assignees", .array (chore.assignees.map Json.ofInt64)),
    ("created_by", Json.ofInt64 chore.createdBy),
    ("is_active", .bool chore.isActive),
    ("completion_window", Json.ofOption Json.ofInt64 chore.completionWindow)]

def HistoryRow.toJson (row : HistoryRow) : Except EncodeFault Json := do
  let performedAt ← Json.ofTimestamp? row.performedAt
  let dueDate ← Json.ofTimestamp? row.dueDate
  return .object [
    ("chore_id", Json.ofInt64 row.choreId),
    ("performed_at", performedAt),
    ("due_date", dueDate),
    ("completed_by", Json.ofOption Json.ofInt64 row.completedBy),
    ("assigned_to", Json.ofOption Json.ofInt64 row.assignedTo),
    ("note", Json.ofOption .string row.note),
    ("status", .string row.status.name)]

def Snapshot.historyJson (snapshot : Snapshot) : Except EncodeFault Json :=
  (snapshot.history.mapM HistoryRow.toJson).map .array

def StoredSnapshot.toJson (stored : StoredSnapshot) : Except EncodeFault Json := do
  let chore ← stored.snapshot.chore.toJson
  let history ← stored.snapshot.historyJson
  return .object [
    ("schema_version", .integer stored.version),
    ("chore", chore),
    ("history", history)]

def Decision.toJson (decision : Decision) : Except EncodeFault Json := do
  let dueDate ← Json.ofTimestamp? (decision.nextDueDate.map Timestamp.ofUtc)
  return .object [
    ("next_due_date", dueDate),
    ("next_assignee", Json.ofOption Json.ofInt64 decision.nextAssignee),
    ("becomes_dormant", .bool decision.becomesDormant),
    ("status", .string decision.status.name)]

end ChoreRota
