import ChoreRota.Calendar.Zone.Table
import ChoreRota.Proofs.RollingMonths

/-!
# Where a schedule starts

A schedule that rolls, or has no due date yet, starts at the first slot from the completion on.
Otherwise it starts at the slot of the day it was due on, or at the one after it: a completion that
is late by more days moves the start by no more than one.
-/

namespace ChoreRota

/-- The slot of the day of a due date, or that of the next day where it comes before the
completion. -/
structure IsDueSlot (time : TimeOfDay) (due completed slot : Moment) : Prop where
  onTime : completed.nanos ≤ (due.atTime time).nanos → slot = due.atTime time
  late : (due.atTime time).nanos < completed.nanos →
    slot.nanos = (due.atTime time).nanos + days 1

namespace Chore

variable {chore : Chore} {priorDue : Option Moment} {completed base due : Moment}
  {time : TimeOfDay} {span : Int}

def span? (chore : Chore) : Option Int :=
  match chore.kind, chore.details.unit with
  | .interval, some .hours => some (chore.frequency.toInt * seconds 3600)
  | .interval, some .days => some (chore.frequency.toInt * days 1)
  | .interval, some .weeks => some (chore.frequency.toInt * days 7)
  | _, _ => none

theorem exists_dueSlot (huses : chore.kind.usesTimeOfDay = true) (hfixed : chore.isRolling = false)
    (htime : chore.details.configuredTime = .ok time) (hdue : due.date.dayNumber < lastDay)
    (completed : Moment) :
    ∃ slot, chore.baseDate (some due) completed = .ok slot ∧ IsDueSlot time due completed slot := by
  obtain ⟨slot, hslot⟩ := exists_baseDate hfixed htime hdue completed
  obtain ⟨hslotTime, hday⟩ := baseDate_eq_ok huses hfixed hslot
  obtain rfl := Except.ok.inj (htime.symm.trans hslotTime)
  refine ⟨slot, hslot, ?_⟩
  rcases hday with ⟨hsame, hahead⟩ | ⟨hnext, hlate⟩
  · have hdueSlot : slot = due.atTime slot.time := by rw [Moment.atTime, ← hsame]
    exact ⟨fun _ => hdueSlot, fun hlate => absurd hlate (by rw [← hdueSlot]; omega)⟩
  · refine ⟨fun hahead => absurd hlate (by omega), fun _ => ?_⟩
    exact Moment.nanos_eq_add_days_iff.2 ⟨hnext, rfl⟩

theorem kind_of_span? (hspan : chore.span? = some span) : chore.kind = .interval := by
  unfold span? at hspan
  split at hspan
  · assumption
  · assumption
  · assumption
  · cases hspan

theorem advance_of_span? [ZoneTable] (hspan : chore.span? = some span) (completed base : Moment) :
    chore.advance priorDue completed base = base.later span := by
  have hkind := kind_of_span? hspan
  rw [span?, hkind] at hspan
  rw [advance, hkind]
  change chore.advanceInterval base = base.later span
  unfold advanceInterval
  cases hunit : chore.details.unit with
  | none =>
    rw [hunit] at hspan
    cases hspan
  | some unit =>
    rw [hunit] at hspan
    cases unit with
    | hours =>
      obtain rfl := Option.some.inj hspan
      exact congrArg base.later (by unfold seconds; omega)
    | days | weeks =>
      obtain rfl := Option.some.inj hspan
      exact congrArg base.later (by unfold days; omega)
    | months | years => cases hspan

theorem nextDue_of_span? [ZoneTable] {completedAt : Timestamp} {nextDueDate : Option Moment}
    (hspan : chore.span? = some span) (hcompleted : completedAt.toUtc? = some completed)
    (hpriorDue : utcDue chore.dueDate = .ok priorDue)
    (hbase : chore.baseDate priorDue completed = .ok base) :
    chore.nextDue completedAt = .ok nextDueDate ↔
      ∃ next, nextDueDate = some next ∧ next.nanos = base.nanos + span := by
  have hkind := kind_of_span? hspan
  rw [nextDue_eq_advance (by rw [hkind]; decide) (by rw [hkind]; rfl) hcompleted hpriorDue, hbase]
  change (do return some (← chore.advance priorDue completed base)) = _ ↔ _
  rw [advance_of_span? hspan, bind_eq_ok_iff]
  constructor
  · rintro ⟨next, hnext, hsome⟩
    exact ⟨next, (Except.ok.inj hsome).symm, Moment.later_eq_ok_iff.1 hnext⟩
  · rintro ⟨next, rfl, hnanos⟩
    exact ⟨next, Moment.later_eq_ok_iff.2 hnanos, rfl⟩

end Chore

/-- **Where a schedule starts.** At a configured time of day a schedule that rolls, or has no due
date yet, starts at the first slot from the completion on, and if it is an interval of hours, days
or weeks, the chore is due so long after that, if the calendar reaches so far. Any other schedule
starts at the slot of the day it was due on, or a day later if that comes before the completion,
however late the completion is. -/
theorem baseDate_isSlot [ZoneTable] {chore : Chore} {time : TimeOfDay}
    (huses : chore.kind.usesTimeOfDay = true)
    (htime : chore.details.configuredTime = .ok time) (priorDue : Option Moment)
    (completed : Moment) :
    (chore.isRolling = true ∨ priorDue = none → completed.date.dayNumber < lastDay →
        ∃ slot, chore.baseDate priorDue completed = .ok slot ∧ IsFirstSlot time completed slot ∧
          ∀ completedAt span, completedAt.toUtc? = some completed →
            Chore.utcDue chore.dueDate = .ok priorDue → chore.span? = some span →
            ∀ nextDueDate, chore.nextDue completedAt = .ok nextDueDate ↔
              ∃ next, nextDueDate = some next ∧ next.nanos = slot.nanos + span) ∧
      (chore.isRolling = false → ∀ due ∈ priorDue, due.date.dayNumber < lastDay →
        ∃ slot, chore.baseDate priorDue completed = .ok slot ∧
          IsDueSlot time due completed slot) := by
  constructor
  · intro hanchored hcompleted
    obtain ⟨slot, hbase, hslot⟩ := Chore.exists_firstSlot huses hanchored htime hcompleted
    exact ⟨slot, hbase, hslot, fun _ _ hcompletedAt hpriorDue hspan _ =>
      Chore.nextDue_of_span? hspan hcompletedAt hpriorDue hbase⟩
  · intro hfixed due hmem hdue
    obtain rfl := Option.mem_def.1 hmem
    exact Chore.exists_dueSlot huses hfixed htime hdue completed

def sourdough (rolls : Bool) : Chore where
  id := 46
  name := "feed the sourdough"
  kind := .interval
  frequency := 36
  details :=
    { FrequencyDetails.unset with unit := some .hours, time := some "2024-06-01T06:30:00.25+02:00" }
  dueDate := some (timeOf "2024-12-27T20:00:00Z")
  isRolling := rolls
  strategy := .keepLastAssigned
  assignedTo := some 1
  assignees := [1]
  createdBy := 1
  isActive := true
  completionWindow := none

/-- Fed a nanosecond after the slot of the last day of the year, it waits for that of the next year
if the schedule rolls; otherwise the schedule has moved on by a day only. -/
theorem sourdough_starts_at_slots :
    (∀ rolls, (sourdough rolls).details.configuredTime =
        .ok (timeOf "2025-01-01T04:30:00.25Z").wall.time) ∧
      IsFirstSlot (timeOf "2025-01-01T04:30:00.25Z").wall.time
        (timeOf "2024-12-31T04:30:00.250000001Z").wall (timeOf "2025-01-01T04:30:00.25Z").wall ∧
      (sourdough true).nextDue (timeOf "2024-12-31T05:30:00.250000001+01:00") =
        .ok (some (timeOf "2025-01-02T16:30:00.25Z").wall) ∧
      (sourdough false).baseDate (some (timeOf "2024-12-27T20:00:00Z").wall)
          (timeOf "2024-12-31T04:30:00.250000001Z").wall =
        .ok (timeOf "2024-12-28T04:30:00.25Z").wall := by
  have htime : ∀ rolls, (sourdough rolls).details.configuredTime =
      .ok (timeOf "2025-01-01T04:30:00.25Z").wall.time := fun _ => rfl
  have huses : ∀ rolls, (sourdough rolls).kind.usesTimeOfDay = true := fun _ => rfl
  obtain ⟨hrolling, -⟩ := baseDate_isSlot (huses true) (htime true)
    (some (timeOf "2024-12-27T20:00:00Z").wall) (timeOf "2024-12-31T04:30:00.250000001Z").wall
  obtain ⟨slot, hbase, hslot, hnext⟩ := hrolling (.inl rfl) (by decide)
  obtain ⟨-, hfixed⟩ := baseDate_isSlot (huses false) (htime false)
    (some (timeOf "2024-12-27T20:00:00Z").wall) (timeOf "2024-12-31T04:30:00.250000001Z").wall
  obtain ⟨dueSlot, hdueBase, hdueSlot⟩ := hfixed rfl _ rfl (by decide)
  have hfirst : slot = (timeOf "2025-01-01T04:30:00.25Z").wall := by
    refine Except.ok.inj (hbase.symm.trans ?_)
    rfl
  have hmoved : dueSlot = (timeOf "2024-12-28T04:30:00.25Z").wall :=
    Moment.eq_of_nanos (hdueSlot.late (by decide))
  rw [hfirst] at hslot hnext
  rw [hmoved] at hdueBase
  exact ⟨htime, hslot, (hnext _ (36 * seconds 3600) rfl rfl rfl _).2 ⟨_, rfl, by decide⟩, hdueBase⟩

end ChoreRota
