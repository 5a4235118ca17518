import ChoreRota.Calendar.Zone.Table
import ChoreRota.Proofs.ListedMonths
import ChoreRota.Proofs.ListedWeekdays
import ChoreRota.Proofs.Strides

/-!
# After the completion

What counts days or months of UTC moves on from its base (`lt_advance`). A chore on a day of listed
months does not count from its base: its search goes by months, and where it begins in a listed
month it may end on a day of that month which is over.
-/

namespace ChoreRota

namespace Moment

variable {earlier later moment result : Moment}

theorem month_le_of_le (hle : earlier.nanos ≤ later.nanos) :
    earlier.month.index ≤ later.month.index := by
  have hearlier := earlier.time.nanos_lt
  have hlater := later.time.nanos_lt
  unfold nanos at hle
  exact index_monthOfDay_le (by omega)

theorem lt_of_month_lt (hmonth : earlier.month.index < later.month.index) :
    earlier.nanos < later.nanos := by
  by_contra hbehind
  have hle := month_le_of_le (Int.not_lt.1 hbehind)
  omega

/-- Even a day that rolls over into the month after the target comes after the day it left. -/
theorem lt_addMonths {count : Int} (hcount : 1 ≤ count)
    (hadd : moment.addMonths count = .ok result) : moment.nanos < result.nanos := by
  obtain ⟨hnumber, htime⟩ := addMonths_eq_ok hadd
  have hday : moment.date.day = moment.date.dayNumber - moment.month.start + 1 := rfl
  have hlength := moment.month.length_bounds
  have hstart : moment.month.start + moment.month.length ≤ (moment.month.later count).start := by
    rw [← Month.start_succ]
    apply Month.start_later_le_start
    rw [Month.index_later]
    omega
  unfold nanos
  rw [htime]
  omega

end Moment

namespace Chore

variable {chore : Chore} {priorDue : Option Moment} {completed base next : Moment}

/-- The chore recurs by a rule that counts days or months of UTC. An interval may count backwards,
and the clock of a zone may be put back. -/
def RecursInUtc [ZoneTable] (chore : Chore) : Prop :=
  match chore.kind with
  | .daily | .weekly | .monthly | .yearly | .dayOfTheMonth => True
  | .daysOfTheWeek => chore.details.zone = .ok none
  | .once | .adaptive | .interval | .trigger | .noRepeat => False

theorem RecursInUtc.repeats [ZoneTable] (hutc : chore.RecursInUtc) :
    chore.kind ≠ .adaptive ∧ chore.kind.isOneShot = false := by
  unfold RecursInUtc at hutc
  cases hkind : chore.kind <;> simp_all [FrequencyKind.isOneShot]

theorem lt_nextWeekday [ZoneTable] {details : FrequencyDetails} (hzone : details.zone = .ok none)
    (hnext : details.nextWeekday base = .ok next) : base.nanos < next.nanos := by
  obtain ⟨count, hone, hnanos⟩ : ∃ count : Int, 1 ≤ count ∧
      next.nanos = base.nanos + days count := by
    obtain ⟨-, heveryWeek⟩ | ⟨-, period, hoccurrence⟩ := nextWeekday_eq_ok hnext
    · obtain ⟨count, hnanos, hlisted⟩ := everyWeek_eq_ok_of_unzoned hzone heveryWeek
      exact ⟨count, hlisted.one_le, hnanos⟩
    · obtain ⟨count, hone, -, hnanos⟩ := nextOccurrence_eq_ok hoccurrence
      exact ⟨count, hone, hnanos⟩
  rw [hnanos, days]
  omega

theorem lt_advance [ZoneTable] (hutc : chore.RecursInUtc) (hmonth : chore.kind ≠ .dayOfTheMonth)
    (hnext : chore.advance priorDue completed base = .ok next) : base.nanos < next.nanos := by
  rw [advance] at hnext
  unfold RecursInUtc at hutc
  cases hkind : chore.kind with
  | daily | weekly =>
    rw [hkind] at hnext
    rw [Moment.later_eq_ok_iff.1 hnext, days]
    omega
  | monthly | yearly =>
    rw [hkind] at hnext
    exact Moment.lt_addMonths (by decide) hnext
  | daysOfTheWeek =>
    rw [hkind] at hnext hutc
    exact lt_nextWeekday hutc hnext
  | dayOfTheMonth => exact absurd hkind hmonth
  | once | adaptive | interval | trigger | noRepeat =>
    rw [hkind] at hutc
    exact hutc.elim

theorem anchor_eq_completed (hanchored : chore.isRolling = true ∨ priorDue = none) :
    chore.anchor priorDue completed = completed := by
  unfold anchor
  cases priorDue with
  | none => rfl
  | some due => simp_all

theorem le_baseDate (hanchor : chore.anchor priorDue completed = completed)
    (hbase : chore.baseDate priorDue completed = .ok base) : completed.nanos ≤ base.nanos := by
  rw [baseDate, hanchor] at hbase
  split at hbase
  · obtain ⟨time, -, hbase⟩ := bind_eq_ok_iff.1 hbase
    unfold notBefore at hbase
    split at hbase
    · have hslot : completed.date.dayNumber * 86400000000000 ≤ (completed.atTime time).nanos := by
        simp only [Moment.nanos, Moment.atTime]
        omega
      have htime := completed.time.nanos_lt
      rw [Moment.later_eq_ok_iff.1 hbase, days]
      unfold Moment.nanos at hslot ⊢
      omega
    · rename_i hearly
      obtain rfl := Except.ok.inj hbase
      omega
  · obtain rfl := Except.ok.inj hbase
    exact Int.le_refl _

theorem le_monthSearchBase {searchBase : Moment} (hbase : completed.nanos ≤ base.nanos)
    (hsearch : chore.monthSearchBase base priorDue completed = .ok searchBase) :
    completed.nanos ≤ searchBase.nanos := by
  unfold monthSearchBase at hsearch
  split at hsearch
  · split at hsearch
    · obtain ⟨justAfter, -, hsearch⟩ := bind_eq_ok_iff.1 hsearch
      obtain rfl := Except.ok.inj hsearch
      split
      · exact Int.le_of_lt ‹_›
      · exact hbase
    · obtain rfl := Except.ok.inj hsearch
      exact hbase
  · obtain rfl := Except.ok.inj hsearch
    exact hbase

/-- The day that the chore asks for, or the last one, in the month of a moment and at its minute. -/
def slotInMonthOf (chore : Chore) (moment : Moment) : Int :=
  days (moment.month.start + (min chore.frequency.toInt moment.month.length - 1)) +
    moment.time.toMinute.nanos

def EndsAtOnce (chore : Chore) (priorDue : Option Moment) (searchBase : Moment) : Prop :=
  searchBase.month.isListed chore.details.months = true ∧
    priorDue.map Moment.month ≠ some searchBase.month

theorem nextMonthDay_eq_slot_or_lt
    (hnext : chore.nextMonthDay base priorDue completed = .ok next) :
    ∃ searchBase, chore.monthSearchBase base priorDue completed = .ok searchBase ∧
      (chore.EndsAtOnce priorDue searchBase ∧ next.nanos = chore.slotInMonthOf searchBase ∧
          next.month = searchBase.month ∨
        ¬chore.EndsAtOnce priorDue searchBase ∧ searchBase.month.index < next.month.index) := by
  obtain ⟨searchBase, hsearch, -, -, hmonth, hday, htime⟩ := nextMonthDay_eq_ok hnext
  obtain ⟨hle, hlisted, hskipped⟩ := firstListedMonth_eq_ok hmonth
  refine ⟨searchBase, hsearch, ?_⟩
  by_cases hdue : priorDue.map Moment.month = some searchBase.month
  · have hfirst : searchMonth priorDue searchBase = searchBase.month.later 1 := if_pos hdue
    rw [hfirst, Month.index_later] at hle
    exact .inr ⟨fun hends => hends.2 hdue, by omega⟩
  · have hfirst : searchMonth priorDue searchBase = searchBase.month := if_neg hdue
    rw [hfirst] at hle hskipped
    by_cases hsame : next.month.index = searchBase.month.index
    · have hmonthEq : next.month = searchBase.month := Month.eq_of_index hsame
      have hnumber : next.date.day = next.date.dayNumber - next.month.start + 1 := rfl
      rw [hmonthEq] at hlisted hday hnumber
      refine .inl ⟨⟨hlisted, hdue⟩, ?_, hmonthEq⟩
      unfold slotInMonthOf days Moment.nanos
      rw [htime]
      omega
    · refine .inr ⟨fun hends => ?_, by omega⟩
      have hunlisted := hskipped searchBase.month.index (Int.le_refl _) (by omega)
      exact Bool.false_ne_true (hunlisted.symm.trans hends.1)

/-- The chore goes by months, and the search after the completion ends at once, in a slot that the
completion does not precede. -/
def FallsBehind (chore : Chore) (completedAt : Timestamp) : Prop :=
  chore.kind = .dayOfTheMonth ∧ ∃ completed priorDue base searchBase,
    completedAt.toUtc? = some completed ∧ utcDue chore.dueDate = .ok priorDue ∧
      chore.baseDate priorDue completed = .ok base ∧
      chore.monthSearchBase base priorDue completed = .ok searchBase ∧
      chore.EndsAtOnce priorDue searchBase ∧ chore.slotInMonthOf searchBase ≤ completedAt.instant

theorem lt_nextMonthDay_iff {completedAt : Timestamp} (hkind : chore.kind = .dayOfTheMonth)
    (hcompleted : completedAt.toUtc? = some completed)
    (hpriorDue : utcDue chore.dueDate = .ok priorDue)
    (hbase : chore.baseDate priorDue completed = .ok base) (hle : completed.nanos ≤ base.nanos)
    (hnext : chore.nextMonthDay base priorDue completed = .ok next) :
    completed.month.index ≤ next.month.index ∧
      (completedAt.instant < next.nanos ↔ ¬chore.FallsBehind completedAt) := by
  obtain ⟨searchBase, hsearch, hfound⟩ := nextMonthDay_eq_slot_or_lt hnext
  have hinstant : completed.nanos = completedAt.instant := Moment.ofNanos?_eq_some_iff.1 hcompleted
  have hmonth := Moment.month_le_of_le (le_monthSearchBase hle hsearch)
  have hbehind : chore.FallsBehind completedAt ↔
      chore.EndsAtOnce priorDue searchBase ∧
        chore.slotInMonthOf searchBase ≤ completedAt.instant := by
    simp [FallsBehind, hkind, hcompleted, hpriorDue, hbase, hsearch]
  rw [hbehind]
  rcases hfound with ⟨hends, hslot, hsame⟩ | ⟨hgoesOn, hlater⟩
  · rw [hslot, hsame]
    refine ⟨hmonth, ?_⟩
    simp only [hends, true_and]
    omega
  · have hlt : completed.nanos < next.nanos := Moment.lt_of_month_lt (by omega)
    rw [hinstant] at hlt
    refine ⟨by omega, ?_⟩
    simp only [hgoesOn, false_and, not_false_iff, hlt]

end Chore

/-- **A schedule that is anchored on a completion moves on from it.** What counts days or months of
UTC is due after the completion. Only the search for a day of listed months may end at once, in a
slot of the completion's own month that is over. -/
theorem lt_nextDue_of_reanchored_iff [ZoneTable] {chore : Chore} {completedAt : Timestamp}
    {due : Option Moment} (hutc : chore.RecursInUtc)
    (hanchored : chore.isRolling = true ∨ chore.dueDate = none)
    (hdue : chore.nextDue completedAt = .ok due) :
    ∃ completed next, completedAt.toUtc? = some completed ∧ due = some next ∧
      completed.month.index ≤ next.month.index ∧
      (completedAt.instant < next.nanos ↔ ¬chore.FallsBehind completedAt) := by
  obtain ⟨hadapts, hrepeats⟩ := hutc.repeats
  obtain ⟨completed, priorDue, hcompleted, hpriorDue, hsteps⟩ := Chore.nextDue_eq_ok hadapts hdue
  obtain ⟨hone, -⟩ | ⟨-, base, next, hbase, hadvance, rfl⟩ := hsteps
  · rw [hrepeats] at hone
    cases hone
  have hanchor : chore.anchor priorDue completed = completed := by
    apply Chore.anchor_eq_completed
    refine hanchored.imp id fun hnone => ?_
    rw [hnone] at hpriorDue
    exact (Except.ok.inj hpriorDue).symm
  have hle := Chore.le_baseDate hanchor hbase
  refine ⟨completed, next, hcompleted, rfl, ?_⟩
  by_cases hmonth : chore.kind = .dayOfTheMonth
  · rw [Chore.advance, hmonth] at hadvance
    exact Chore.lt_nextMonthDay_iff hmonth hcompleted hpriorDue hbase hle hadvance
  · have hlt : completed.nanos < next.nanos :=
      Int.lt_of_le_of_lt hle (Chore.lt_advance hutc hmonth hadvance)
    have hinstant := Moment.ofNanos?_eq_some_iff.1 hcompleted
    refine ⟨Moment.month_le_of_le (Int.le_of_lt hlt), ?_⟩
    rw [← hinstant]
    exact ⟨fun _ hbehind => hmonth hbehind.1, fun _ => hlt⟩

def insurance : Chore where
  id := 8
  name := "pay the insurance"
  kind := .dayOfTheMonth
  frequency := 15
  details :=
    { FrequencyDetails.unset with months := ["january", "April "], time := some "18:00-05:00" }
  dueDate := some (timeOf "2025-01-15T23:00:00Z")
  isRolling := true
  strategy := .keepLastAssigned
  assignedTo := some 1
  assignees := [1]
  createdBy := 1
  isActive := true
  completionWindow := none

theorem insurance_due_after_late_payment :
    insurance.RecursInUtc ∧ insurance.isRolling = true ∧
      insurance.nextDue (timeOf "2025-04-02T08:00:00+02:00") =
        .ok (some (timeOf "2025-04-15T23:00:00Z").wall) ∧
      ¬insurance.FallsBehind (timeOf "2025-04-02T08:00:00+02:00") := by
  have hnext : insurance.nextDue (timeOf "2025-04-02T08:00:00+02:00") =
      .ok (some (timeOf "2025-04-15T23:00:00Z").wall) := rfl
  obtain ⟨completed, next, hcompleted, hdue, -, hiff⟩ :=
    @lt_nextDue_of_reanchored_iff _ insurance _ _ trivial (.inl rfl) hnext
  obtain rfl := Option.some.inj hdue
  exact ⟨trivial, rfl, hnext, hiff.1 (by decide +kernel)⟩

/-- Paid again in the second half of April, the insurance becomes due two weeks before. -/
theorem insurance_due_before_payment :
    insurance.isRolling = true ∧
      insurance.nextDue (timeOf "2025-04-29T12:00:00Z") =
        .ok (some (timeOf "2025-04-15T23:00:00Z").wall) ∧
      ¬(timeOf "2025-04-29T12:00:00Z").instant < (timeOf "2025-04-15T23:00:00Z").wall.nanos :=
  ⟨rfl, rfl, by decide +kernel⟩

end ChoreRota
