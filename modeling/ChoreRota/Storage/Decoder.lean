import ChoreRota.Chore.Basic
import ChoreRota.Json.Fields

/-!
# Stored chores

The fields of chores, of their history and of whole snapshots as they are stored, and how each of
them is read.
-/

namespace ChoreRota

open Json (Reading RecordField Slot DecodeFault)

namespace FrequencyDetails

def daysField : RecordField (List String) := ⟨"days", .list .string, some []⟩

def monthsField : RecordField (List String) := ⟨"months", .list .string, some []⟩

def unitField : RecordField (Option IntervalUnit) :=
  ⟨"unit", .optional (.named IntervalUnit.named? .unknownUnit), some none⟩

def timeField : RecordField (Option String) := ⟨"time", .optional .string, some none⟩

def weekPatternField : RecordField (Option WeekPattern) :=
  ⟨"week_pattern", .optional (.variant WeekPattern.name WeekPattern.all), some none⟩

def occurrencesField : RecordField (List Int32) := ⟨"occurrences", .list .int32, some []⟩

def weekNumbersField : RecordField (List Int32) := ⟨"week_numbers", .list .int32, some []⟩

def timeZoneField : RecordField (Option String) := ⟨"timezone", .optional .string, some none⟩

def slots : List Slot :=
  [daysField.slot, monthsField.slot, unitField.slot, timeField.slot, weekPatternField.slot,
    occurrencesField.slot, weekNumbersField.slot, timeZoneField.slot]

def reading : Reading FrequencyDetails := .record "FrequencyMetadata" slots fun members => do
  return {
    days := ← daysField.get members
    months := ← monthsField.get members
    unit := ← unitField.get members
    time := ← timeField.get members
    weekPattern := ← weekPatternField.get members
    occurrences := ← occurrencesField.get members
    weekNumbers := ← weekNumbersField.get members
    timeZone := ← timeZoneField.get members }

end FrequencyDetails

namespace Chore

def idField : RecordField ChoreId := ⟨"id", .int64, none⟩

def nameField : RecordField String := ⟨"name", .string, some ""⟩

def kindField : RecordField FrequencyKind :=
  ⟨"frequency_type", .named FrequencyKind.named? .unknownKind, none⟩

def frequencyField : RecordField Int32 := ⟨"frequency", .int32, some 0⟩

def detailsField : RecordField FrequencyDetails :=
  ⟨"frequency_metadata", FrequencyDetails.reading, some FrequencyDetails.unset⟩

def dueDateField : RecordField (Option Timestamp) :=
  ⟨"next_due_date", .optional .timestamp, some none⟩

def isRollingField : RecordField Bool := ⟨"is_rolling", .bool, some false⟩

def strategyField : RecordField AssignStrategy :=
  ⟨"assign_strategy", .named AssignStrategy.named? .unknownStrategy, none⟩

def assignedToField : RecordField (Option UserId) := ⟨"assigned_to", .optional .int64, some none⟩

def assigneesField : RecordField (List UserId) := ⟨"assignees", .list .int64, some []⟩

def createdByField : RecordField UserId := ⟨"created_by", .int64, some 0⟩

def isActiveField : RecordField Bool := ⟨"is_active", .bool, some true⟩

def completionWindowField : RecordField (Option Int64) :=
  ⟨"completion_window", .optional .int64, some none⟩

def slots : List Slot :=
  [idField.slot, nameField.slot, kindField.slot, frequencyField.slot, detailsField.slot,
    dueDateField.slot, isRollingField.slot, strategyField.slot, assignedToField.slot,
    assigneesField.slot, createdByField.slot, isActiveField.slot, completionWindowField.slot]

def reading : Reading Chore := .record "Chore" slots fun members => do
  return {
    id := ← idField.get members
    name := ← nameField.get members
    kind := ← kindField.get members
    frequency := ← frequencyField.get members
    details := ← detailsField.get members
    dueDate := ← dueDateField.get members
    isRolling := ← isRollingField.get members
    strategy := ← strategyField.get members
    assignedTo := ← assignedToField.get members
    assignees := ← assigneesField.get members
    createdBy := ← createdByField.get members
    isActive := ← isActiveField.get members
    completionWindow := ← completionWindowField.get members }

end Chore

namespace HistoryRow

def choreIdField : RecordField ChoreId := ⟨"chore_id", .int64, none⟩

def performedAtField : RecordField (Option Timestamp) :=
  ⟨"performed_at", .optional .timestamp, some none⟩

def dueDateField : RecordField (Option Timestamp) := ⟨"due_date", .optional .timestamp, some none⟩

def completedByField : RecordField (Option UserId) := ⟨"completed_by", .optional .int64, some none⟩

def assignedToField : RecordField (Option UserId) := ⟨"assigned_to", .optional .int64, some none⟩

def noteField : RecordField (Option String) := ⟨"note", .optional .string, some none⟩

def statusField : RecordField Status := ⟨"status", .variant Status.name Status.all, none⟩

def slots : List Slot :=
  [choreIdField.slot, performedAtField.slot, dueDateField.slot, completedByField.slot,
    assignedToField.slot, noteField.slot, statusField.slot]

def reading : Reading HistoryRow := .record "HistoryRecord" slots fun members => do
  return {
    choreId := ← choreIdField.get members
    performedAt := ← performedAtField.get members
    dueDate := ← dueDateField.get members
    completedBy := ← completedByField.get members
    assignedTo := ← assignedToField.get members
    note := ← noteField.get members
    status := ← statusField.get members }

end HistoryRow

/-- A snapshot with the version of the format it is stored in. -/
structure StoredSnapshot where
  version : Nat
  snapshot : Snapshot
  deriving DecidableEq, Repr

namespace StoredSnapshot

def versionField : RecordField Nat := ⟨"schema_version", .nat32, none⟩

def choreField : RecordField Chore := ⟨"chore", Chore.reading, none⟩

def historyField : RecordField (List HistoryRow) := ⟨"history", .list HistoryRow.reading, some []⟩

def slots : List Slot :=
  [versionField.slot, choreField.slot, historyField.slot]

def reading : Reading StoredSnapshot := .record "StoredSnapshot" slots fun members => do
  return {
    version := ← versionField.get members
    snapshot := {
      chore := ← choreField.get members
      history := ← historyField.get members } }

end StoredSnapshot

end ChoreRota
