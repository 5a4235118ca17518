import ChoreRota.CommandLine.Run
import ChoreRota.Proofs.StoredForm

/-!
# What can be shown

A summary is printed in full as JSON exactly if the years of all its times have four digits, and as
text exactly if the local clock has a date for each of them. Printing stops at the first line that
is missing.
-/

namespace ChoreRota

section Lists

variable {ε α β : Type}

theorem exists_bind_eq_ok_iff {first : Except ε α} {rest : α → Except ε β} :
    (∃ result, (first >>= rest) = .ok result) ↔
      ∃ found, first = .ok found ∧ ∃ result, rest found = .ok result := by
  constructor
  · rintro ⟨result, hresult⟩
    obtain ⟨found, hfirst, hrest⟩ := bind_eq_ok_iff.1 hresult
    exact ⟨found, hfirst, result, hrest⟩
  · rintro ⟨found, hfirst, result, hrest⟩
    exact ⟨result, bind_eq_ok_iff.2 ⟨found, hfirst, hrest⟩⟩

theorem exists_bind_pure_iff {first : Except ε α} {image : α → β} :
    (∃ result, (first >>= fun found => pure (image found)) = .ok result) ↔
      ∃ found, first = .ok found := by
  rw [exists_bind_eq_ok_iff]
  exact ⟨fun ⟨found, hfirst, _⟩ => ⟨found, hfirst⟩,
    fun ⟨found, hfirst⟩ => ⟨found, hfirst, image found, rfl⟩⟩

theorem exists_mapM_eq_ok_iff {f : α → Except ε β} {values : List α} :
    (∃ images, values.mapM f = .ok images) ↔ ∀ value ∈ values, ∃ image, f value = .ok image := by
  induction values with
  | nil => exact ⟨fun _ => nofun, fun _ => ⟨[], rfl⟩⟩
  | cons value values ih =>
    rw [List.mapM_cons, exists_bind_eq_ok_iff, List.forall_mem_cons, ← ih]
    constructor
    · rintro ⟨image, hvalue, hrest⟩
      exact ⟨⟨image, hvalue⟩, exists_bind_pure_iff.1 hrest⟩
    · rintro ⟨⟨image, hvalue⟩, himages⟩
      exact ⟨image, hvalue, exists_bind_pure_iff.2 himages⟩

theorem mapM_eq_none_iff {f : α → Option β} {values : List α} :
    values.mapM f = none ↔ ∃ value ∈ values, f value = none := by
  induction values with
  | nil => simp
  | cons value values ih =>
    rw [List.mapM_cons, List.exists_mem_cons_iff, ← ih]
    cases f value with
    | none => simp
    | some image => cases values.mapM f <;> simp

end Lists

/-! ### Times in JSON -/

section Times

variable {property : Timestamp → Prop}

theorem HistoryRow.forall_timestamps_iff {row : HistoryRow} :
    (∀ timestamp ∈ row.timestamps, property timestamp) ↔
      (∀ timestamp ∈ row.performedAt, property timestamp) ∧
        ∀ timestamp ∈ row.dueDate, property timestamp := by
  simp only [HistoryRow.mem_timestamps, or_imp, forall_and, Option.mem_def]

theorem Snapshot.forall_timestamps_iff {snapshot : Snapshot} :
    (∀ timestamp ∈ snapshot.timestamps, property timestamp) ↔
      (∀ timestamp ∈ snapshot.chore.dueDate, property timestamp) ∧
        ∀ row ∈ snapshot.history, ∀ timestamp ∈ row.timestamps, property timestamp := by
  simp only [Snapshot.mem_timestamps, or_imp, forall_and, Option.mem_def, forall_exists_index,
    and_imp]
  exact and_congr_right fun _ =>
    ⟨fun hall row hrow timestamp hmem => hall timestamp row hrow hmem,
      fun hall timestamp row hrow hmem => hall row hrow timestamp hmem⟩

end Times

theorem Rfc3339.write?_eq_none_iff {timestamp : Timestamp} :
    write? timestamp = none ↔ ¬ timestamp.HasFourDigitYear := by
  unfold write? Timestamp.HasFourDigitYear
  split
  · rename_i hyear
    simp [hyear]
  · rename_i hyear
    simp [hyear]

theorem Json.exists_ofTimestamp?_iff {timestamp? : Option Timestamp} :
    (∃ json, Json.ofTimestamp? timestamp? = .ok json) ↔
      ∀ timestamp ∈ timestamp?, timestamp.HasFourDigitYear := by
  cases timestamp? with
  | none => exact ⟨fun _ => by simp, fun _ => ⟨.null, rfl⟩⟩
  | some timestamp =>
    simp only [Option.mem_some_iff, forall_eq']
    rw [← not_not (a := timestamp.HasFourDigitYear), ← Rfc3339.write?_eq_none_iff]
    change (∃ json, Json.ofTimestamp timestamp = .ok json) ↔ _
    unfold Json.ofTimestamp
    cases Rfc3339.write? timestamp <;> simp

theorem Decision.exists_toJson_iff {decision : Decision} :
    (∃ json, decision.toJson = .ok json) ↔
      ∀ timestamp ∈ decision.nextDueDate.map Timestamp.ofUtc, timestamp.HasFourDigitYear := by
  rw [← Json.exists_ofTimestamp?_iff]
  exact exists_bind_pure_iff

theorem Chore.exists_toJson_iff {chore : Chore} :
    (∃ json, chore.toJson = .ok json) ↔
      ∀ timestamp ∈ chore.dueDate, timestamp.HasFourDigitYear := by
  rw [← Json.exists_ofTimestamp?_iff]
  exact exists_bind_pure_iff

theorem HistoryRow.exists_toJson_iff {row : HistoryRow} :
    (∃ json, row.toJson = .ok json) ↔
      ∀ timestamp ∈ row.timestamps, timestamp.HasFourDigitYear := by
  rw [forall_timestamps_iff, ← Json.exists_ofTimestamp?_iff, ← Json.exists_ofTimestamp?_iff,
    HistoryRow.toJson, exists_bind_eq_ok_iff]
  constructor
  · rintro ⟨performedAt, hperformedAt, hrest⟩
    exact ⟨⟨performedAt, hperformedAt⟩, exists_bind_pure_iff.1 hrest⟩
  · rintro ⟨⟨performedAt, hperformedAt⟩, hdueDate⟩
    exact ⟨performedAt, hperformedAt, exists_bind_pure_iff.2 hdueDate⟩

namespace Snapshot

variable {snapshot : Snapshot}

theorem exists_historyJson_iff :
    (∃ json, snapshot.historyJson = .ok json) ↔
      ∀ row ∈ snapshot.history, ∀ timestamp ∈ row.timestamps, timestamp.HasFourDigitYear := by
  simp only [← HistoryRow.exists_toJson_iff, ← exists_mapM_eq_ok_iff, historyJson, map_eq_ok_iff]
  constructor
  · rintro ⟨_, images, himages, -⟩
    exact ⟨images, himages⟩
  · rintro ⟨images, himages⟩
    exact ⟨_, images, himages, rfl⟩

theorem exists_toJson_and_historyJson_iff {α : Type} {build : Json → Json → α} :
    (∃ written, (do
      let chore ← snapshot.chore.toJson
      let history ← snapshot.historyJson
      return build chore history) = .ok written) ↔
      ∀ timestamp ∈ snapshot.timestamps, timestamp.HasFourDigitYear := by
  rw [forall_timestamps_iff, ← Chore.exists_toJson_iff, ← exists_historyJson_iff,
    exists_bind_eq_ok_iff]
  constructor
  · rintro ⟨chore, hchore, hrest⟩
    exact ⟨⟨chore, hchore⟩, exists_bind_pure_iff.1 hrest⟩
  · rintro ⟨⟨chore, hchore⟩, hhistory⟩
    exact ⟨chore, hchore, exists_bind_pure_iff.2 hhistory⟩

theorem exists_save_iff :
    (∃ text, snapshot.save = .ok text) ↔
      ∀ timestamp ∈ snapshot.timestamps, timestamp.HasFourDigitYear := by
  have hstored : (∃ json, StoredSnapshot.toJson ⟨version, snapshot⟩ = .ok json) ↔
      ∀ timestamp ∈ snapshot.timestamps, timestamp.HasFourDigitYear :=
    exists_toJson_and_historyJson_iff
  rw [← hstored, save]
  cases StoredSnapshot.toJson ⟨version, snapshot⟩ <;> simp

end Snapshot

namespace CommandLine

/-! ### Lines -/

variable {offset : Int} {snapshot : Snapshot} {summary : Summary}

theorem isShort_printed_iff {lines : Lines} : (printed lines).2 = true ↔ none ∈ lines := by
  induction lines with
  | nil => simp [printed]
  | cons line rest ih =>
    cases line with
    | none => simp [printed]
    | some line => simpa [printed] using ih

theorem printed_append {first second : Lines} (hfirst : none ∉ first) :
    printed (first ++ second) = ((printed first).1 ++ (printed second).1, (printed second).2) := by
  induction first with
  | nil => simp [printed]
  | cons line rest ih =>
    cases line with
    | none => simp at hfirst
    | some line =>
      have hrest : none ∉ rest := fun hmem => hfirst (List.mem_cons_of_mem _ hmem)
      simp [printed, ih hrest, String.append_assoc]

theorem none_mem_jsonLine_iff {json : Except EncodeFault Json} :
    none ∈ jsonLine json ↔ ¬ ∃ value, json = .ok value := by
  cases json <;> simp [jsonLine]

/-! ### Times on the local clock -/

/-- A clock that is `offset` seconds ahead of UTC has a date for the time. -/
def IsShownAt (offset : Int) (timestamp : Timestamp) : Prop :=
  (timestamp.withOffset? offset).isSome

instance (timestamp : Timestamp) : Decidable (IsShownAt offset timestamp) :=
  inferInstanceAs (Decidable (_ = true))

theorem localText_eq_none_iff {timestamp? : Option Timestamp} :
    localText offset timestamp? = none ↔
      ¬ ∀ timestamp ∈ timestamp?, IsShownAt offset timestamp := by
  cases timestamp? with
  | none => simp [localText]
  | some timestamp => simp [localText, IsShownAt]

theorem labelled_eq_none_iff {label : String} {value : Option String} :
    labelled label value = none ↔ value = none :=
  Option.map_eq_none_iff

theorem rowCells_eq_none_iff {row : HistoryRow} :
    rowCells offset row = none ↔ ¬ ∀ timestamp ∈ row.timestamps, IsShownAt offset timestamp := by
  rw [HistoryRow.forall_timestamps_iff, Classical.not_and_iff_not_or_not, ← localText_eq_none_iff,
    ← localText_eq_none_iff, rowCells]
  cases localText offset row.performedAt with
  | none => simp
  | some performedAt => cases localText offset row.dueDate <;> simp

theorem historyText_eq_none_iff {history : List HistoryRow} :
    historyText offset history = none ↔
      ¬ ∀ row ∈ history, ∀ timestamp ∈ row.timestamps, IsShownAt offset timestamp := by
  unfold historyText
  split
  · rename_i hempty
    simp [List.isEmpty_iff.1 hempty]
  · simp only [Option.map_eq_none_iff, mapM_eq_none_iff, rowCells_eq_none_iff, not_forall,
      exists_prop]

/-! ### Summaries -/

def Summary.timestamps : Summary → List Timestamp
  | .decided _ _ decision _ => (decision.nextDueDate.map Timestamp.ofUtc).toList
  | .removed .. => []
  | .displayed snapshot => snapshot.timestamps

theorem none_mem_decisionText_iff {verb : String} {chore : Chore} {decision : Decision}
    {applied : Bool} :
    none ∈ decisionText offset verb chore decision applied ↔
      ¬ ∀ timestamp ∈ decision.nextDueDate.map Timestamp.ofUtc, IsShownAt offset timestamp := by
  rw [← localText_eq_none_iff, ← @labelled_eq_none_iff "Next due: ", decisionText]
  cases decision.becomesDormant <;> cases applied <;> simp [@eq_comm _ none]

theorem none_mem_snapshotText_iff :
    none ∈ snapshotText offset snapshot ↔
      ¬ ∀ timestamp ∈ snapshot.timestamps, IsShownAt offset timestamp := by
  rw [Snapshot.forall_timestamps_iff, Classical.not_and_iff_not_or_not, ← historyText_eq_none_iff,
    ← localText_eq_none_iff, ← @labelled_eq_none_iff "Next due: "]
  simp [snapshotText, @eq_comm _ none]

theorem Summary.isShort_text_iff :
    (printed (summary.lines false offset)).2 = true ↔
      ¬ ∀ timestamp ∈ summary.timestamps, IsShownAt offset timestamp := by
  rw [isShort_printed_iff]
  cases summary with
  | decided verb chore decision isSaved =>
    simpa [lines, decisionLines, timestamps] using none_mem_decisionText_iff
  | removed user chore isSaved =>
    cases isSaved <;> simp [lines, removalLines, removalText, timestamps]
  | displayed snapshot => exact none_mem_snapshotText_iff

theorem Summary.isShort_json_iff :
    (printed (summary.lines true offset)).2 = true ↔
      ¬ ∀ timestamp ∈ summary.timestamps, timestamp.HasFourDigitYear := by
  rw [isShort_printed_iff]
  cases summary with
  | decided verb chore decision isSaved =>
    have hjson : (∃ json, decisionJson chore decision isSaved = .ok json) ↔
        ∃ json, decision.toJson = .ok json := exists_bind_pure_iff
    change none ∈ jsonLine (decisionJson chore decision isSaved) ↔ _
    rw [none_mem_jsonLine_iff, hjson, Decision.exists_toJson_iff]
    simp [timestamps]
  | removed user chore isSaved => simp [lines, removalLines, jsonLine, timestamps]
  | displayed snapshot =>
    change none ∈ jsonLine (snapshotJson snapshot) ↔ _
    rw [none_mem_jsonLine_iff, snapshotJson, Snapshot.exists_toJson_and_historyJson_iff]
    rfl

end CommandLine

end ChoreRota
