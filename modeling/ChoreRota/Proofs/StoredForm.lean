import Mathlib.Data.List.Forall2
import ChoreRota.Proofs.RecordReadBack
import ChoreRota.Proofs.TimestampText
import ChoreRota.Storage.SnapshotText

/-!
# Stored chores read back

Everything that is stored about a chore is read back: every kind by its name, every number, text and
time, and from them the details of its schedule, the chore and the rows of its history. Only times
can fail to be written.
-/

namespace ChoreRota

open Json (Reading)

/-! ### Times -/

def HistoryRow.timestamps (row : HistoryRow) : List Timestamp :=
  row.performedAt.toList ++ row.dueDate.toList

theorem HistoryRow.mem_timestamps {row : HistoryRow} {timestamp : Timestamp} :
    timestamp ∈ row.timestamps ↔
      row.performedAt = some timestamp ∨ row.dueDate = some timestamp := by
  simp [timestamps]

def Snapshot.timestamps (snapshot : Snapshot) : List Timestamp :=
  snapshot.chore.dueDate.toList ++ snapshot.history.flatMap HistoryRow.timestamps

theorem Snapshot.mem_timestamps {snapshot : Snapshot} {timestamp : Timestamp} :
    timestamp ∈ snapshot.timestamps ↔
      snapshot.chore.dueDate = some timestamp ∨
        ∃ row ∈ snapshot.history, timestamp ∈ row.timestamps := by
  simp [timestamps]

/-! ### Names -/

theorem FrequencyKind.named?_name (kind : FrequencyKind) : named? kind.name = some kind := by
  cases kind <;> decide

theorem IntervalUnit.named?_name (unit : IntervalUnit) : named? unit.name = some unit := by
  cases unit <;> decide

theorem AssignStrategy.named?_name (strategy : AssignStrategy) :
    named? strategy.name = some strategy := by
  cases strategy <;> decide

theorem WeekPattern.find?_name (pattern : WeekPattern) :
    (all.find? fun other => other.name == pattern.name) = some pattern := by
  cases pattern <;> decide

theorem Status.find?_name (status : Status) :
    (all.find? fun other => other.name == status.name) = some status := by
  cases status <;> decide

/-! ### Lists and optional values -/

theorem exists_mapM_eq_ok {ε α β : Type} {f : α → Except ε β} {related : β → α → Prop}
    {values : List α} (hvalues : ∀ value ∈ values, ∃ image, f value = .ok image ∧
      related image value) :
    ∃ images, values.mapM f = .ok images ∧ List.Forall₂ related images values := by
  induction values with
  | nil => exact ⟨[], rfl, .nil⟩
  | cons value values ih =>
    obtain ⟨⟨image, himage, hrelated⟩, hvalues⟩ := List.forall_mem_cons.1 hvalues
    obtain ⟨images, himages, hall⟩ := ih hvalues
    refine ⟨image :: images, ?_, .cons hrelated hall⟩
    rw [List.mapM_cons, himage]
    simp only [himages, bind, Except.bind]
    rfl

namespace Json.Reading.ReadsBack

variable {α : Type} {reading : Reading α} {write : α → Json}

theorem listOf (hwrite : ∀ value, reading.ReadsBack (write value) value) (values : List α) :
    reading.list.ReadsBack (.array (values.map write)) values :=
  .list (List.forall₂_map_left_iff.2 (List.forall₂_same.2 fun value _ => hwrite value))

theorem ofOption (hplain : ∀ value, (write value).IsPlain)
    (hwrite : ∀ value, reading.ReadsBack (write value) value) (value? : Option α) :
    reading.optional.ReadsBack (Json.ofOption write value?) value? := by
  cases value? with
  | none => exact null reading
  | some value => exact (hwrite value).optional (hplain value)

theorem ofString? (text? : Option String) :
    Reading.string.optional.ReadsBack (Json.ofOption .string text?) text? :=
  ofOption .string string text?

theorem ofInt64? (value? : Option Int64) :
    Reading.int64.optional.ReadsBack (Json.ofOption Json.ofInt64 value?) value? := by
  have hplain : ∀ value, (Json.ofInt64 value).IsPlain := by
    intro value
    have hlow := value.le_toInt
    have hhigh := value.toInt_lt
    exact .integer (by omega) (by omega)
  exact ofOption hplain int64 value?

theorem ofName? {name : α → String}
    (hname : ∀ value, reading.ReadsBack (.string (name value)) value) (value? : Option α) :
    reading.optional.ReadsBack (Json.ofOption (fun value => .string (name value)) value?) value? :=
  ofOption (fun value => .string (name value)) hname value?

theorem ofTimestamp? {timestamp? : Option Timestamp}
    (hwritable : ∀ timestamp ∈ timestamp?, timestamp.IsWritable) :
    ∃ json, Json.ofTimestamp? timestamp? = .ok json ∧
      Reading.timestamp.optional.ReadsBack json timestamp? := by
  cases timestamp? with
  | none => exact ⟨.null, rfl, null Reading.timestamp⟩
  | some timestamp =>
    obtain ⟨text, hwrite, hread⟩ := Rfc3339.read_write (hwritable timestamp rfl)
    have hjson : Json.ofTimestamp? (some timestamp) = .ok (.string text) := by
      change Json.ofTimestamp timestamp = _
      unfold Json.ofTimestamp
      rw [hwrite]
    have hback : Reading.timestamp.optional.ReadsBack (.string text) (some timestamp) :=
      (ReadsBack.timestamp hread).optional (.string text)
    exact ⟨.string text, hjson, hback⟩

end Json.Reading.ReadsBack

open Json.Reading (ReadsBack)

/-! ### Records -/

theorem FrequencyDetails.readsBack (details : FrequencyDetails) :
    reading.ReadsBack details.toJson details := by
  have hdays : daysField.ReadsBack ("days", .array (details.days.map .string)) details.days :=
    ⟨rfl, .listOf .string _⟩
  have hmonths : monthsField.ReadsBack ("months", .array (details.months.map .string))
      details.months := ⟨rfl, .listOf .string _⟩
  have hunit : unitField.ReadsBack
      ("unit", Json.ofOption (fun unit => .string unit.name) details.unit) details.unit :=
    ⟨rfl, .ofName? (fun unit => .named unit.named?_name) _⟩
  have htime : timeField.ReadsBack ("time", Json.ofOption .string details.time) details.time :=
    ⟨rfl, .ofString? _⟩
  have hweekPattern : weekPatternField.ReadsBack
      ("week_pattern", Json.ofOption (fun pattern => .string pattern.name) details.weekPattern)
      details.weekPattern :=
    ⟨rfl, .ofName? (fun pattern => .variant pattern.find?_name) _⟩
  have hoccurrences : occurrencesField.ReadsBack
      ("occurrences", .array (details.occurrences.map Json.ofInt32)) details.occurrences :=
    ⟨rfl, .listOf .int32 _⟩
  have hweekNumbers : weekNumbersField.ReadsBack
      ("week_numbers", .array (details.weekNumbers.map Json.ofInt32)) details.weekNumbers :=
    ⟨rfl, .listOf .int32 _⟩
  have htimeZone : timeZoneField.ReadsBack ("timezone", Json.ofOption .string details.timeZone)
      details.timeZone := ⟨rfl, .ofString? _⟩
  refine .record (.cons hdays.slot <| .cons hmonths.slot <| .cons hunit.slot <|
    .cons htime.slot <| .cons hweekPattern.slot <| .cons hoccurrences.slot <|
    .cons hweekNumbers.slot <| .cons htimeZone.slot .nil) (by simp) (by decide) ?_
  intro found hfound
  simp only [List.forall_mem_cons] at hfound
  simp only [hdays.get, hmonths.get, hunit.get, htime.get, hweekPattern.get, hoccurrences.get,
    hweekNumbers.get, htimeZone.get, hfound, bind, Except.bind]
  rfl

theorem Chore.exists_toJson {chore : Chore}
    (hwritable : ∀ timestamp ∈ chore.dueDate, timestamp.IsWritable) :
    ∃ json, chore.toJson = .ok json ∧ reading.ReadsBack json chore := by
  obtain ⟨dueJson, hwrite, hdue⟩ := ReadsBack.ofTimestamp? hwritable
  have hid : idField.ReadsBack ("id", Json.ofInt64 chore.id) chore.id := ⟨rfl, .int64 _⟩
  have hname : nameField.ReadsBack ("name", .string chore.name) chore.name := ⟨rfl, .string _⟩
  have hkind : kindField.ReadsBack ("frequency_type", .string chore.kind.name) chore.kind :=
    ⟨rfl, .named chore.kind.named?_name⟩
  have hfrequency : frequencyField.ReadsBack ("frequency", Json.ofInt32 chore.frequency)
      chore.frequency := ⟨rfl, .int32 _⟩
  have hdetails : detailsField.ReadsBack ("frequency_metadata", chore.details.toJson)
      chore.details := ⟨rfl, chore.details.readsBack⟩
  have hdueDate : dueDateField.ReadsBack ("next_due_date", dueJson) chore.dueDate := ⟨rfl, hdue⟩
  have hisRolling : isRollingField.ReadsBack ("is_rolling", .bool chore.isRolling)
      chore.isRolling := ⟨rfl, .bool _⟩
  have hstrategy : strategyField.ReadsBack ("assign_strategy", .string chore.strategy.name)
      chore.strategy := ⟨rfl, .named chore.strategy.named?_name⟩
  have hassignedTo : assignedToField.ReadsBack
      ("assigned_to", Json.ofOption Json.ofInt64 chore.assignedTo) chore.assignedTo :=
    ⟨rfl, .ofInt64? _⟩
  have hassignees : assigneesField.ReadsBack
      ("assignees", .array (chore.assignees.map Json.ofInt64)) chore.assignees :=
    ⟨rfl, .listOf .int64 _⟩
  have hcreatedBy : createdByField.ReadsBack ("created_by", Json.ofInt64 chore.createdBy)
      chore.createdBy := ⟨rfl, .int64 _⟩
  have hisActive : isActiveField.ReadsBack ("is_active", .bool chore.isActive) chore.isActive :=
    ⟨rfl, .bool _⟩
  have hwindow : completionWindowField.ReadsBack
      ("completion_window", Json.ofOption Json.ofInt64 chore.completionWindow)
      chore.completionWindow := ⟨rfl, .ofInt64? _⟩
  refine ⟨_, ?_, .record (.cons hid.slot <| .cons hname.slot <| .cons hkind.slot <|
    .cons hfrequency.slot <| .cons hdetails.slot <| .cons hdueDate.slot <|
    .cons hisRolling.slot <| .cons hstrategy.slot <| .cons hassignedTo.slot <|
    .cons hassignees.slot <| .cons hcreatedBy.slot <| .cons hisActive.slot <|
    .cons hwindow.slot .nil) (by simp) (by decide) ?_⟩
  · simp only [toJson, hwrite, bind, Except.bind]
    rfl
  · intro found hfound
    simp only [List.forall_mem_cons] at hfound
    simp only [hid.get, hname.get, hkind.get, hfrequency.get, hdetails.get, hdueDate.get,
      hisRolling.get, hstrategy.get, hassignedTo.get, hassignees.get, hcreatedBy.get,
      hisActive.get, hwindow.get, hfound, bind, Except.bind]
    rfl

theorem HistoryRow.exists_toJson {row : HistoryRow}
    (hwritable : ∀ timestamp ∈ row.timestamps, timestamp.IsWritable) :
    ∃ json, row.toJson = .ok json ∧ reading.ReadsBack json row := by
  obtain ⟨performedJson, hperformedWrite, hperformed⟩ := ReadsBack.ofTimestamp?
    fun timestamp hperformed => hwritable timestamp (mem_timestamps.2 (.inl hperformed))
  obtain ⟨dueJson, hdueWrite, hdue⟩ := ReadsBack.ofTimestamp?
    fun timestamp hdue => hwritable timestamp (mem_timestamps.2 (.inr hdue))
  have hchoreId : choreIdField.ReadsBack ("chore_id", Json.ofInt64 row.choreId) row.choreId :=
    ⟨rfl, .int64 _⟩
  have hperformedAt : performedAtField.ReadsBack ("performed_at", performedJson)
      row.performedAt := ⟨rfl, hperformed⟩
  have hdueDate : dueDateField.ReadsBack ("due_date", dueJson) row.dueDate := ⟨rfl, hdue⟩
  have hcompletedBy : completedByField.ReadsBack
      ("completed_by", Json.ofOption Json.ofInt64 row.completedBy) row.completedBy :=
    ⟨rfl, .ofInt64? _⟩
  have hassignedTo : assignedToField.ReadsBack
      ("assigned_to", Json.ofOption Json.ofInt64 row.assignedTo) row.assignedTo :=
    ⟨rfl, .ofInt64? _⟩
  have hnote : noteField.ReadsBack ("note", Json.ofOption .string row.note) row.note :=
    ⟨rfl, .ofString? _⟩
  have hstatus : statusField.ReadsBack ("status", .string row.status.name) row.status :=
    ⟨rfl, .variant row.status.find?_name⟩
  refine ⟨_, ?_, .record (.cons hchoreId.slot <| .cons hperformedAt.slot <|
    .cons hdueDate.slot <| .cons hcompletedBy.slot <| .cons hassignedTo.slot <|
    .cons hnote.slot <| .cons hstatus.slot .nil) (by simp) (by decide) ?_⟩
  · simp only [toJson, hperformedWrite, hdueWrite, bind, Except.bind]
    rfl
  · intro found hfound
    simp only [List.forall_mem_cons] at hfound
    simp only [hchoreId.get, hperformedAt.get, hdueDate.get, hcompletedBy.get, hassignedTo.get,
      hnote.get, hstatus.get, hfound, bind, Except.bind]
    rfl

theorem StoredSnapshot.exists_toJson {stored : StoredSnapshot}
    (hsmall : stored.version ≤ 4294967295)
    (hwritable : ∀ timestamp ∈ stored.snapshot.timestamps, timestamp.IsWritable) :
    ∃ json, stored.toJson = .ok json ∧ reading.ReadsBack json stored := by
  obtain ⟨choreJson, hchoreWrite, hchoreBack⟩ := Chore.exists_toJson
    fun timestamp hdue => hwritable timestamp (Snapshot.mem_timestamps.2 (.inl hdue))
  have hrows : ∀ row ∈ stored.snapshot.history, ∃ json, row.toJson = .ok json ∧
      HistoryRow.reading.ReadsBack json row := fun row hrow => HistoryRow.exists_toJson
    fun timestamp hmem => hwritable timestamp (Snapshot.mem_timestamps.2 (.inr ⟨row, hrow, hmem⟩))
  obtain ⟨rowJsons, hrowsWrite, hrowsBack⟩ := exists_mapM_eq_ok hrows
  have hversion : versionField.ReadsBack ("schema_version", .integer stored.version)
      stored.version := ⟨rfl, .nat32 hsmall⟩
  have hchore : choreField.ReadsBack ("chore", choreJson) stored.snapshot.chore :=
    ⟨rfl, hchoreBack⟩
  have hhistory : historyField.ReadsBack ("history", .array rowJsons) stored.snapshot.history :=
    ⟨rfl, .list hrowsBack⟩
  refine ⟨_, ?_, .record (.cons hversion.slot <| .cons hchore.slot <| .cons hhistory.slot .nil)
    (by simp) (by decide) ?_⟩
  · simp only [toJson, Snapshot.historyJson, hchoreWrite, hrowsWrite, Except.map, bind,
      Except.bind]
    rfl
  · intro found hfound
    simp only [List.forall_mem_cons] at hfound
    simp only [hversion.get, hchore.get, hhistory.get, hfound, bind, Except.bind]
    rfl

end ChoreRota
