import ChoreRota.Proofs.StoredForm
import ChoreRota.Proofs.TimestampForms

/-!
# Times that are loaded

`Yields` says of a way of reading that whatever it reads has a property, wherever it is read from.
The times of a snapshot are read from their written form, so each of them has one.
-/

namespace ChoreRota

namespace Json

variable {α β : Type} {reading : Reading α} {property : α → Prop}

structure Reading.Yields (reading : Reading α) (property : α → Prop) : Prop where
  ofText : ∀ chars value rest, reading.ofText chars = .ok (value, rest) → property value
  ofTree : ∀ json value, reading.ofTree json = .ok value → property value

theorem mismatch_ne_ok (expected : String) (json : Json) (value : α) :
    mismatch expected json ≠ .ok value := by
  simp [mismatch]

namespace Reading

theorem mismatched_ne_ok (expected : String) (chars : List Char) (result : α × List Char) :
    (mismatched expected).ofText chars ≠ .ok result := by
  intro hread
  simp only [mismatched, scalar] at hread
  split at hread
  · cases hread
  · cases hread
  · obtain ⟨⟨json, _⟩, -, hread⟩ := bind_eq_ok_iff.1 hread
    obtain ⟨found, hfound, -⟩ := bind_eq_ok_iff.1 hread
    exact mismatch_ne_ok expected json found hfound

namespace Yields

theorem andThen {next : β → Except DecodeFault α} {first : Reading β}
    (hnext : ∀ found value, next found = .ok value → property value) :
    (first.andThen next).Yields property := by
  refine ⟨?_, ?_⟩
  · intro chars value rest hread
    obtain ⟨⟨found, _⟩, -, hread⟩ := bind_eq_ok_iff.1 hread
    obtain ⟨value', hvalue, hread⟩ := bind_eq_ok_iff.1 hread
    obtain ⟨rfl, -⟩ := Prod.mk.inj (Except.ok.inj hread)
    exact hnext found value' hvalue
  · intro json value hread
    obtain ⟨found, -, hread⟩ := bind_eq_ok_iff.1 hread
    exact hnext found value hread

theorem optional (hyields : reading.Yields property) :
    reading.optional.Yields fun value? => ∀ value ∈ value?, property value := by
  refine ⟨?_, ?_⟩
  · intro chars value? rest hread
    simp only [Reading.optional] at hread
    split at hread
    · obtain ⟨_, -, hread⟩ := bind_eq_ok_iff.1 hread
      obtain ⟨rfl, -⟩ := Prod.mk.inj (Except.ok.inj hread)
      simp
    · obtain ⟨⟨value, _⟩, hvalue, hread⟩ := bind_eq_ok_iff.1 hread
      obtain ⟨rfl, -⟩ := Prod.mk.inj (Except.ok.inj hread)
      simpa using hyields.ofText _ _ _ hvalue
  · intro json value? hread
    simp only [Reading.optional] at hread
    split at hread
    · obtain rfl := Except.ok.inj hread
      simp
    · obtain ⟨value, hvalue, rfl⟩ := map_eq_ok_iff.1 hread
      simpa using hyields.ofTree _ _ hvalue

theorem items (hyields : reading.Yields property) (fuel : Nat) :
    ∀ isFirst chars values rest, reading.items fuel isFirst chars = .ok (values, rest) →
      ∀ value ∈ values, property value := by
  induction fuel with
  | zero =>
    intro isFirst chars values rest hread
    cases hread
  | succ fuel ih =>
    intro isFirst chars values rest hread
    simp only [Reading.items] at hread
    obtain ⟨⟨isItem, _⟩, -, hread⟩ := bind_eq_ok_iff.1 hread
    cases isItem with
    | false =>
      obtain ⟨rfl, -⟩ := Prod.mk.inj (Except.ok.inj hread)
      simp
    | true =>
      obtain ⟨⟨first, _⟩, hfirst, hread⟩ := bind_eq_ok_iff.1 hread
      obtain ⟨⟨others, _⟩, hothers, hread⟩ := bind_eq_ok_iff.1 hread
      obtain ⟨rfl, -⟩ := Prod.mk.inj (Except.ok.inj hread)
      exact List.forall_mem_cons.2 ⟨hyields.ofText _ _ _ hfirst, ih _ _ _ _ hothers⟩

theorem mapM_ofTree (hyields : reading.Yields property) {items : List Json} {values : List α}
    (hread : items.mapM reading.ofTree = .ok values) : ∀ value ∈ values, property value := by
  induction items generalizing values with
  | nil =>
    obtain rfl := Except.ok.inj hread
    simp
  | cons item items ih =>
    rw [List.mapM_cons] at hread
    obtain ⟨first, hfirst, hread⟩ := bind_eq_ok_iff.1 hread
    obtain ⟨others, hothers, hread⟩ := bind_eq_ok_iff.1 hread
    obtain rfl := Except.ok.inj hread
    exact List.forall_mem_cons.2 ⟨hyields.ofTree _ _ hfirst, ih hothers⟩

theorem list (hyields : reading.Yields property) :
    reading.list.Yields fun values => ∀ value ∈ values, property value := by
  refine ⟨?_, ?_⟩
  · intro chars values rest hread
    simp only [Reading.list] at hread
    split at hread
    · exact hyields.items _ _ _ _ _ hread
    · exact absurd hread (mismatched_ne_ok _ _ _)
  · intro json values hread
    simp only [Reading.list] at hread
    split at hread
    · exact hyields.mapM_ofTree hread
    · exact absurd hread (mismatch_ne_ok _ _ _)

theorem record {name : String} {slots : List Slot} {build : Members → Except DecodeFault α}
    (hbuild : ∀ members value, build members = .ok value → property value) :
    (Reading.record name slots build).Yields property := by
  refine ⟨?_, ?_⟩
  · intro chars value rest hread
    simp only [Reading.record] at hread
    split at hread
    · obtain ⟨⟨members, _⟩, -, hread⟩ := bind_eq_ok_iff.1 hread
      obtain ⟨found, hfound, hread⟩ := bind_eq_ok_iff.1 hread
      obtain ⟨rfl, -⟩ := Prod.mk.inj (Except.ok.inj hread)
      exact hbuild members found hfound
    · obtain ⟨⟨members, _⟩, -, hread⟩ := bind_eq_ok_iff.1 hread
      obtain ⟨_, -, hread⟩ := bind_eq_ok_iff.1 hread
      obtain ⟨found, hfound, hread⟩ := bind_eq_ok_iff.1 hread
      obtain ⟨rfl, -⟩ := Prod.mk.inj (Except.ok.inj hread)
      exact hbuild members found hfound
    · exact absurd hread (mismatched_ne_ok _ _ _)
  · intro json value hread
    simp only [Reading.record] at hread
    split at hread
    · obtain ⟨members, -, hread⟩ := bind_eq_ok_iff.1 hread
      exact hbuild members value hread
    · obtain ⟨members, -, hread⟩ := bind_eq_ok_iff.1 hread
      obtain ⟨_, -, hread⟩ := bind_eq_ok_iff.1 hread
      exact hbuild members value hread
    · exact absurd hread (mismatch_ne_ok _ _ _)

theorem get {field : RecordField α} (hyields : field.reading.Yields property)
    (hfallback : ∀ value ∈ field.fallback, property value) {members : Members} {value : α}
    (hget : field.get members = .ok value) : property value := by
  unfold RecordField.get at hget
  split at hget
  · rename_i located _
    cases located with
    | inText chars =>
      obtain ⟨⟨found, _⟩, hfound, rfl⟩ := map_eq_ok_iff.1 hget
      exact hyields.ofText _ _ _ hfound
    | inTree json => exact hyields.ofTree _ _ hget
  · split at hget
    · rename_i hsome
      obtain rfl := Except.ok.inj hget
      exact hfallback _ hsome
    · cases hget

end Yields

theorem timestamp_yields : Reading.timestamp.Yields Timestamp.IsWritable :=
  .andThen fun _ _ hread => Rfc3339.isWritable_of_read (mapError_eq_ok_iff.1 hread)

end Reading

end Json

open Json.Reading (timestamp_yields)

theorem Chore.reading_yields :
    reading.Yields fun chore => ∀ timestamp ∈ chore.dueDate, timestamp.IsWritable := by
  refine .record fun members chore hbuild => ?_
  simp only [bind_eq_ok_iff] at hbuild
  obtain ⟨id, -, name, -, kind, -, frequency, -, details, -, dueDate, hdueDate, isRolling, -,
    strategy, -, assignedTo, -, assignees, -, createdBy, -, isActive, -, completionWindow, -,
    hchore⟩ := hbuild
  obtain rfl := Except.ok.inj hchore
  exact timestamp_yields.optional.get (by simp [dueDateField]) hdueDate

theorem HistoryRow.reading_yields :
    reading.Yields fun row => ∀ timestamp ∈ row.timestamps, timestamp.IsWritable := by
  refine .record fun members row hbuild => ?_
  simp only [bind_eq_ok_iff] at hbuild
  obtain ⟨choreId, -, performedAt, hperformedAt, dueDate, hdueDate, completedBy, -, assignedTo, -,
    note, -, status, -, hrow⟩ := hbuild
  obtain rfl := Except.ok.inj hrow
  have hperformed := timestamp_yields.optional.get (by simp [performedAtField]) hperformedAt
  have hdue := timestamp_yields.optional.get (by simp [dueDateField]) hdueDate
  intro timestamp htimestamp
  rcases mem_timestamps.1 htimestamp with hmem | hmem
  · exact hperformed timestamp hmem
  · exact hdue timestamp hmem

theorem StoredSnapshot.reading_yields :
    reading.Yields fun stored => ∀ timestamp ∈ stored.snapshot.timestamps,
      timestamp.IsWritable := by
  refine .record fun members stored hbuild => ?_
  simp only [bind_eq_ok_iff] at hbuild
  obtain ⟨version, -, chore, hchore, history, hhistory, hstored⟩ := hbuild
  obtain rfl := Except.ok.inj hstored
  have hdue := Chore.reading_yields.get (by simp [choreField]) hchore
  have hrows := HistoryRow.reading_yields.list.get (by simp [historyField]) hhistory
  intro timestamp htimestamp
  rcases Snapshot.mem_timestamps.1 htimestamp with hmem | ⟨row, hrow, hmem⟩
  · exact hdue timestamp hmem
  · exact hrows row hrow timestamp hmem

theorem Snapshot.isWritable_of_load {text : String} {snapshot : Snapshot}
    (hload : Snapshot.load text = .ok snapshot) :
    ∀ timestamp ∈ snapshot.timestamps, timestamp.IsWritable := by
  unfold Snapshot.load at hload
  split at hload
  · cases hload
  · rename_i hdecode
    split at hload
    · cases hload
    · split at hload
      · cases hload
      · obtain rfl := Except.ok.inj hload
        obtain ⟨⟨stored, _⟩, hstored, hdecode⟩ := bind_eq_ok_iff.1 hdecode
        obtain ⟨_, -, hdecode⟩ := bind_eq_ok_iff.1 hdecode
        obtain rfl := Except.ok.inj hdecode
        exact StoredSnapshot.reading_yields.ofText _ _ _ hstored

end ChoreRota
