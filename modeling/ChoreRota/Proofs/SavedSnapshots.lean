import ChoreRota.Calendar.Zone.Table
import ChoreRota.Proofs.LoadedTimes
import ChoreRota.Proofs.Membership
import ChoreRota.Proofs.StoredForm

/-!
# Saved snapshots

A snapshot is kept by saving: what is saved loads as the same snapshot and is saved as the same text
again. That needs no more than assignees listed once each and times that can be written, which is
what every loaded snapshot has and what events keep, but for years that run out of four digits.
-/

namespace ChoreRota

/-! ### Saving and loading -/

theorem firstRepeated_of_nodup {seen users : List UserId} (hnodup : users.Nodup)
    (hnew : ∀ user ∈ users, user ∉ seen) : firstRepeated seen users = none := by
  induction users generalizing seen with
  | nil => rfl
  | cons first rest ih =>
    obtain ⟨hfirst, hnodup⟩ := List.nodup_cons.1 hnodup
    obtain ⟨hfresh, hnew⟩ := List.forall_mem_cons.1 hnew
    rw [firstRepeated, if_neg (by simpa using hfresh)]
    refine ih hnodup fun user huser hseen => ?_
    rcases List.mem_cons.1 hseen with rfl | hold
    · exact hfirst huser
    · exact hnew user huser hold

namespace Snapshot

variable {snapshot : Snapshot}

/-- Saving succeeds, what is saved loads as the same snapshot, and that is saved as the same text
again. -/
def IsKeptBySaving (snapshot : Snapshot) : Prop :=
  ∃ saved again, snapshot.save = .ok saved ∧ Snapshot.load saved = .ok again ∧
    again = snapshot ∧ again.save = .ok saved

theorem isKeptBySaving (hnodup : snapshot.chore.assignees.Nodup)
    (hwritable : ∀ timestamp ∈ snapshot.timestamps, timestamp.IsWritable) :
    snapshot.IsKeptBySaving := by
  have hversion : version ≤ 4294967295 := by decide
  obtain ⟨json, hwrite, hread⟩ :=
    @StoredSnapshot.exists_toJson ⟨version, snapshot⟩ hversion hwritable
  have hsave : snapshot.save = .ok json.pretty := by
    rw [save, hwrite]
  have hload : Snapshot.load json.pretty = .ok snapshot := by
    have hnone : firstRepeated [] snapshot.chore.assignees = none :=
      firstRepeated_of_nodup hnodup (by simp)
    simp only [Snapshot.load, Json.decodeText_pretty hread, hnone]
    rfl
  exact ⟨json.pretty, snapshot, hsave, hload, rfl, hsave⟩

/-! ### Events -/

/-- The assignees are listed once each, and the times are at offsets that can be written. -/
structure IsStorable (snapshot : Snapshot) : Prop where
  nodup : snapshot.chore.assignees.Nodup
  offset : ∀ timestamp ∈ snapshot.timestamps, IsMinuteOffset timestamp.offset

end Snapshot

/-- When an event happens. A removal happens at no time of its own. -/
def Event.performedAt? : Event → Option Timestamp
  | .complete _ performedAt _ => some performedAt
  | .skip _ performedAt _ _ => some performedAt
  | .remove _ => none

namespace State

variable {window : Nat} {state : State} {event : Event} {events : List Event}

theorem isStorable_apply {snapshot : Snapshot} (hstorable : snapshot.IsStorable)
    {performedAt : Timestamp} (hoffset : IsMinuteOffset performedAt.offset) (decision : Decision)
    (performer : UserId) (note : Option String) :
    (snapshot.apply decision performer performedAt note).IsStorable := by
  refine ⟨hstorable.nodup, fun timestamp htimestamp => ?_⟩
  rcases Snapshot.mem_timestamps.1 htimestamp with hdue | ⟨row, hrow, hmem⟩
  · -- What was decided is in UTC, whatever offset the event happened at.
    obtain ⟨moment, -, rfl⟩ := Option.map_eq_some_iff.1 hdue
    exact isMinuteOffset_zero
  · rcases List.mem_cons.1 hrow with rfl | hold
    · rcases HistoryRow.mem_timestamps.1 hmem with hperformed | hpast
      · obtain rfl := Option.some.inj hperformed
        exact hoffset
      · exact hstorable.offset timestamp (Snapshot.mem_timestamps.2 (.inl hpast))
    · exact hstorable.offset timestamp (Snapshot.mem_timestamps.2 (.inr ⟨row, hold, hmem⟩))

theorem isStorable_step [ZoneTable] (hstorable : state.snapshot.IsStorable)
    (hoffset : ∀ timestamp ∈ event.performedAt?, IsMinuteOffset timestamp.offset) :
    (state.step window event).2.snapshot.IsStorable := by
  cases hperformer : event.performer? with
  | some performer =>
    obtain ⟨fault, hstep⟩ | ⟨decision, next, hstep⟩ :=
      step_eq_error_or_decided hperformer window state
    · rw [hstep]
      exact hstorable
    · rw [hstep]
      obtain ⟨performer, performedAt, note, hsnapshot, ⟨rfl, -⟩ | ⟨rotates, rfl, -⟩⟩ :=
        step_eq_decided hstep
      · rw [hsnapshot]
        exact isStorable_apply hstorable (hoffset performedAt rfl) decision performer note
      · rw [hsnapshot]
        exact isStorable_apply hstorable (hoffset performedAt rfl) decision performer note
  | none =>
    cases event with
    | complete | skip => cases hperformer
    | remove user => exact ⟨hstorable.nodup.filter _, hstorable.offset⟩

theorem isStorable_after [ZoneTable] (hstorable : state.snapshot.IsStorable)
    (hoffsets : ∀ event ∈ events, ∀ timestamp ∈ event.performedAt?,
      IsMinuteOffset timestamp.offset) :
    (state.after window events).snapshot.IsStorable := by
  induction events generalizing state with
  | nil => exact hstorable
  | cons event rest ih =>
    obtain ⟨hoffset, hoffsets⟩ := List.forall_mem_cons.1 hoffsets
    rw [after_cons]
    exact ih (isStorable_step hstorable hoffset) hoffsets

end State

theorem Snapshot.isStorable_of_load {text : String} {snapshot : Snapshot}
    (hload : Snapshot.load text = .ok snapshot) : snapshot.IsStorable :=
  ⟨nodup_assignees_of_load hload, fun timestamp htimestamp =>
    (isWritable_of_load hload timestamp htimestamp).offset⟩

/-- **Round trip.** Every snapshot that loads is kept by saving: every field of its chore and of its
history comes back, every time down to the nanosecond and at its offset. So is every snapshot that
events lead to from there, at times whose offsets have a written form, as those of all times that
are read have (`Rfc3339.isWritable_of_read`), as long as all its years have four digits. -/
theorem Snapshot.isKeptBySaving_of_load [ZoneTable] {text : String} {snapshot : Snapshot}
    (hload : Snapshot.load text = .ok snapshot) :
    snapshot.IsKeptBySaving ∧
      ∀ (window : Nat) (source : Chance.Source) (events : List Event),
        (∀ event ∈ events, ∀ timestamp ∈ event.performedAt?, IsMinuteOffset timestamp.offset) →
        (∀ timestamp ∈ (State.after window ⟨snapshot, source⟩ events).snapshot.timestamps,
          timestamp.HasFourDigitYear) →
        (State.after window ⟨snapshot, source⟩ events).snapshot.IsKeptBySaving := by
  have hstorable := isStorable_of_load hload
  refine ⟨isKeptBySaving hstorable.nodup (isWritable_of_load hload), ?_⟩
  intro window source events hoffsets hyears
  have hreached : (State.after window ⟨snapshot, source⟩ events).snapshot.IsStorable :=
    State.isStorable_after hstorable hoffsets
  exact isKeptBySaving hreached.nodup fun timestamp htimestamp =>
    ⟨hyears timestamp htimestamp, hreached.offset timestamp htimestamp⟩

/-- A stall at the market as somebody typed it: with escapes in its name, blanks around its kind, a
field that nobody asks for, a leap second, and a zero at the end of a fraction. -/
def stallText : String :=
  "\x7b \"chore\": \x7b\"name\": \"caf\\u00e9 \\ud83c\\udf4e\", \"id\": 21, \"shelf\": [1.50],\n" ++
    "\"frequency_type\": \" weekly \", \"assign_strategy\": \"round_robin\",\n" ++
    "\"next_due_date\": \"2016-12-31T23:59:60Z\", \"assigned_to\": 4, \"assignees\": [4, 2]\x7d,\n" ++
    "\"history\": [\x7b\"chore_id\": 21, \"performed_at\": \"2016-12-24t10:00:00.250+05:30\",\n" ++
    "\"note\": \"a\\tb\", \"status\": \"completed\"\x7d], \"schema_version\": 1\x7d"

def stall : Snapshot where
  chore :=
    { id := 21, name := "café 🍎", kind := .weekly, frequency := 0
      details := FrequencyDetails.unset
      dueDate := some (timeOf "2016-12-31T23:59:59.999999999Z"), isRolling := false
      strategy := .roundRobin, assignedTo := some 4, assignees := [4, 2], createdBy := 0
      isActive := true, completionWindow := none }
  history :=
    [{ choreId := 21, performedAt := some (timeOf "2016-12-24T10:00:00.25+05:30"), dueDate := none
       completedBy := none, assignedTo := none, note := some "a\tb", status := .completed }]

/-- The last event is off the calendar and fails. -/
def stallEvents : List Event :=
  [.complete 2 (timeOf "2017-01-02T08:15:00.5-03:00") (some "sold \"everything\""),
    .skip 4 (timeOf "2017-01-03T12:00:00Z") true none, .remove 2,
    .complete 4 (timeOf "9999-12-31T23:30:00-01:00") none]

theorem stall_is_kept_by_saving :
    Snapshot.load stallText = .ok stall ∧ stall.IsKeptBySaving ∧
      (∀ event ∈ stallEvents, ∀ timestamp ∈ event.performedAt?,
        IsMinuteOffset timestamp.offset) ∧
      (∀ timestamp ∈ (State.after 5 ⟨stall, Chance.Source.start (.script [])⟩
        stallEvents).snapshot.timestamps, timestamp.HasFourDigitYear) ∧
      (State.after 5 ⟨stall, Chance.Source.start (.script [])⟩
        stallEvents).snapshot.history.length = 3 ∧
      (State.after 5 ⟨stall, Chance.Source.start (.script [])⟩
        stallEvents).snapshot.IsKeptBySaving := by
  have hload : Snapshot.load stallText = .ok stall := by
    have hloaded : (Snapshot.load stallText).toOption = some stall := by decide +kernel
    cases hresult : Snapshot.load stallText with
    | error fault =>
      rw [hresult] at hloaded
      cases hloaded
    | ok snapshot =>
      rw [hresult] at hloaded
      exact congrArg Except.ok (Option.some.inj hloaded)
  have hoffsets : ∀ event ∈ stallEvents, ∀ timestamp ∈ event.performedAt?,
      IsMinuteOffset timestamp.offset := by decide +kernel
  have hyears : ∀ timestamp ∈ (State.after 5 ⟨stall, Chance.Source.start (.script [])⟩
      stallEvents).snapshot.timestamps, timestamp.HasFourDigitYear := by decide +kernel
  obtain ⟨hkept, hreached⟩ := Snapshot.isKeptBySaving_of_load hload
  exact ⟨hload, hkept, hoffsets, hyears, by decide +kernel, hreached 5 _ stallEvents hoffsets hyears⟩

end ChoreRota
