import ChoreRota.Calendar.Zone.Table
import ChoreRota.Proofs.MonthArithmetic
import ChoreRota.Storage.SnapshotText

/-!
# The direction of an interval

An interval moves its base on by its number of units, and that number may be anything. The direction
is that of its sign, in every unit: months that are counted back end before the day they are counted
from, even where a day rolls over. A number that is left out is 0, and the schedule stands still.
-/

namespace ChoreRota

/-- The next moment lies on the side of the base that a number says: after it if the number is
positive, before it if the number is negative, and otherwise the two are the same. -/
structure LiesBy (count : Int) (base next : Moment) : Prop where
  after_iff : base.nanos < next.nanos ↔ 0 < count
  same_iff : next = base ↔ count = 0
  before_iff : next.nanos < base.nanos ↔ count < 0

namespace Moment

variable {moment result : Moment} {count : Int}

theorem liesBy_of_iff (hafter : moment.nanos < result.nanos ↔ 0 < count)
    (hbefore : result.nanos < moment.nanos ↔ count < 0) : LiesBy count moment result := by
  refine ⟨hafter, ?_, hbefore⟩
  have hsame : result = moment ↔ result.nanos = moment.nanos :=
    ⟨fun heq => congrArg nanos heq, eq_of_nanos⟩
  rw [hsame]
  omega

theorem liesBy_of_later (hlater : moment.later count = .ok result) :
    LiesBy count moment result := by
  have hnanos := later_eq_ok_iff.1 hlater
  exact liesBy_of_iff (by omega) (by omega)

theorem addMonths_zero (moment : Moment) : moment.addMonths 0 = .ok moment := by
  have hmonth : moment.month.later 0 = moment.month := Month.eq_of_index (by simp)
  rw [addMonths_eq_ok_iff, hmonth]
  refine ⟨moment.date.isOnCalendar_month, ?_, rfl⟩
  unfold Date.day month
  omega

theorem liesBy_of_addMonths (hadd : moment.addMonths count = .ok result) :
    LiesBy count moment result := by
  have hstays := moment.addMonths_zero
  rcases Int.lt_trichotomy count 0 with hback | rfl | hforth
  · have hbefore := addMonths_lt_addMonths hback hadd hstays
    exact liesBy_of_iff (by omega) (by omega)
  · obtain rfl := Except.ok.inj (hstays.symm.trans hadd)
    exact liesBy_of_iff (by omega) (by omega)
  · have hafter := addMonths_lt_addMonths hforth hstays hadd
    exact liesBy_of_iff (by omega) (by omega)

end Moment

theorem LiesBy.of_sign {count other : Int} {base next : Moment} (hlies : LiesBy count base next)
    (hforth : 0 < count ↔ 0 < other) (hback : count < 0 ↔ other < 0) : LiesBy other base next :=
  Moment.liesBy_of_iff (hlies.after_iff.trans hforth) (hlies.before_iff.trans hback)

namespace Chore

variable {chore : Chore} {base next : Moment}

theorem advanceInterval_eq_ok (hnext : chore.advanceInterval base = .ok next) :
    chore.details.unit ≠ none ∧ LiesBy chore.frequency.toInt base next := by
  unfold advanceInterval at hnext
  cases hunit : chore.details.unit with
  | none =>
    rw [hunit] at hnext
    cases hnext
  | some unit =>
    rw [hunit] at hnext
    refine ⟨by simp, ?_⟩
    cases unit with
    | hours =>
      exact (Moment.liesBy_of_later hnext).of_sign (by unfold seconds; omega)
        (by unfold seconds; omega)
    | days | weeks =>
      exact (Moment.liesBy_of_later hnext).of_sign (by unfold days; omega) (by unfold days; omega)
    | months => exact Moment.liesBy_of_addMonths hnext
    | years => exact (Moment.liesBy_of_addMonths hnext).of_sign (by omega) (by omega)

end Chore

/-- **An interval goes the way of its sign.** Wherever a chore with an interval has a next due date,
its interval has a unit, and the due date lies after the base exactly if the number of units is
positive: 0 repeats the base, and a negative number leads back. Without a unit the chore has a fault
instead, in words. -/
theorem nextDue_of_interval [ZoneTable] {chore : Chore} (hkind : chore.kind = .interval)
    (completedAt : Timestamp) :
    (∀ due, chore.nextDue completedAt = .ok due → ∃ base next,
      chore.baseAt completedAt = .ok base ∧ due = some next ∧ chore.details.unit ≠ none ∧
        LiesBy chore.frequency.toInt base next) ∧
      (∀ base, chore.baseAt completedAt = .ok base → chore.details.unit = none →
        chore.nextDue completedAt = .error .unitMissing) ∧
      Fault.message .unitMissing = "interval requires a frequency unit" := by
  have hadapts : chore.kind ≠ .adaptive := by rw [hkind]; decide
  have hrepeats : chore.kind.isOneShot = false := by rw [hkind]; rfl
  refine ⟨fun due hdue => ?_, fun base hbase hunit => ?_, rfl⟩
  · obtain ⟨completed, priorDue, base, next, hsome, -, -, hbase, -, hadvance⟩ :=
      Chore.exists_baseAt_of_nextDue hadapts hrepeats hdue
    rw [Chore.advance, hkind] at hadvance
    obtain ⟨hunit, hlies⟩ := Chore.advanceInterval_eq_ok hadvance
    exact ⟨base, next, hbase, hsome, hunit, hlies⟩
  · unfold Chore.baseAt at hbase
    obtain ⟨completed, hcompleted, hbase⟩ := bind_eq_ok_iff.1 hbase
    obtain ⟨priorDue, hpriorDue, hbase⟩ := bind_eq_ok_iff.1 hbase
    rw [Chore.nextDue, hcompleted, hpriorDue]
    change chore.nextDueAfter priorDue completed = _
    simp only [Chore.nextDueAfter, hkind, hbase, Chore.advance, Chore.advanceInterval, hunit]
    rfl

/-- A chore as somebody typed it who left out how many weeks lie between two occurrences. -/
def mowingText : String :=
  "\x7b\"schema_version\":1,\"chore\":\x7b\"id\":34,\"name\":\"mow the lawn\"," ++
    "\"frequency_type\":\"interval\"," ++
    "\"frequency_metadata\":\x7b\"unit\":\"weeks\",\"time\":\"18:00+02:00\"\x7d," ++
    "\"next_due_date\":\"2025-06-07T16:00:00Z\"," ++
    "\"assign_strategy\":\"keep_last_assigned\",\"assigned_to\":1,\"assignees\":[1]\x7d\x7d"

def mowing (weeks : Int32) : Chore where
  id := 34
  name := "mow the lawn"
  kind := .interval
  frequency := weeks
  details := { FrequencyDetails.unset with unit := some .weeks, time := some "18:00+02:00" }
  dueDate := some (timeOf "2025-06-07T16:00:00Z")
  isRolling := false
  strategy := .keepLastAssigned
  assignedTo := some 1
  assignees := [1]
  createdBy := 0
  isActive := true
  completionWindow := none

theorem mowing_goes_on_after_two_weeks :
    (mowing 2).kind = .interval ∧
      (mowing 2).nextDue (timeOf "2025-06-07T10:00:00+02:00") =
        .ok (some (timeOf "2025-06-21T16:00:00Z").wall) ∧
      ∃ base, (mowing 2).baseAt (timeOf "2025-06-07T10:00:00+02:00") = .ok base ∧
        base.nanos < (timeOf "2025-06-21T16:00:00Z").wall.nanos := by
  have hnext : (mowing 2).nextDue (timeOf "2025-06-07T10:00:00+02:00") =
      .ok (some (timeOf "2025-06-21T16:00:00Z").wall) := by decide +kernel
  have hkind : (mowing 2).kind = .interval := rfl
  obtain ⟨base, next, hbase, hsome, -, hlies⟩ := (nextDue_of_interval hkind _).1 _ hnext
  obtain rfl := Option.some.inj hsome
  exact ⟨hkind, hnext, base, hbase, hlies.after_iff.2 (by decide)⟩

/-- Without the number the lawn is due again when it was due already, and below 0 before that. -/
theorem mowing_stands_still :
    (Snapshot.load mowingText).toOption = some ⟨mowing 0, []⟩ ∧
      (mowing 0).baseAt (timeOf "2025-06-07T10:00:00+02:00") =
        .ok (timeOf "2025-06-07T16:00:00Z").wall ∧
      (mowing 0).nextDue (timeOf "2025-06-07T10:00:00+02:00") =
        .ok (some (timeOf "2025-06-07T16:00:00Z").wall) ∧
      (mowing (-2)).nextDue (timeOf "2025-06-07T10:00:00+02:00") =
        .ok (some (timeOf "2025-05-24T16:00:00Z").wall) :=
  ⟨by decide +kernel, by decide +kernel, by decide +kernel, by decide +kernel⟩

end ChoreRota
