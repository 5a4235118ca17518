import ChoreRota.Calendar.Zone.Table
import ChoreRota.Proofs.Occurrences
import ChoreRota.Proofs.RollingMonths

/-!
# Later completions

A later completion has the same or a later base. What moves on by a length of time, or to the next
listed date, keeps the two in order. Calendar months do not: a day that rolls over may come after
one that is counted from the month that follows (`addMonths_lt_addMonths_iff`).
-/

namespace ChoreRota

section Search

variable {wanted : Date → Prop} {date later found laterFound : Date} {bound laterBound : Int}

theorem IsEarliest.le_of_le (hfound : IsEarliest wanted date bound found)
    (hlater : IsEarliest wanted later laterBound laterFound)
    (hle : date.dayNumber ≤ later.dayNumber) : found.dayNumber ≤ laterFound.dayNumber := by
  by_contra hbehind
  have hafter := hlater.after
  exact hfound.skipsNone laterFound (by omega) (by omega) hlater.isWanted

/-- On the clock of UTC every search is one for the earliest date of some kind. -/
theorem exists_isEarliest_of_nextWeekday [ZoneTable] {details : FrequencyDetails}
    (hutc : details.weekPattern.getD .everyWeek = .everyWeek → details.zone = .ok none) :
    ∃ (wanted : Date → Prop) (bound : Int), ∀ base next, details.nextWeekday base = .ok next →
      next.time = base.time ∧ IsEarliest wanted base.date bound next.date := by
  by_cases hdays : details.days = []
  · refine ⟨fun _ => False, 0, fun base next hnext => ?_⟩
    rw [FrequencyDetails.nextWeekday, hdays] at hnext
    cases hnext
  cases hpattern : details.weekPattern.getD .everyWeek with
  | everyWeek =>
    refine ⟨fun date => date.weekday.isListed details.days = true, 7, fun base next hnext => ?_⟩
    rw [nextWeekday_eq_search base hpattern (hutc hpattern) hdays] at hnext
    exact (search_eq_ok_iff fun date => firstWanted_eq_ok_iff fun _ => Iff.rfl).1 hnext
  | weekOfMonth =>
    refine ⟨details.IsListedOccurrence .month, 730, fun base next hnext => ?_⟩
    rw [FrequencyDetails.nextWeekday, if_neg (by simpa using hdays), hpattern] at hnext
    exact nextOccurrence_eq_ok_iff.1 hnext
  | weekOfQuarter =>
    refine ⟨details.IsListedOccurrence .quarter, 730, fun base next hnext => ?_⟩
    rw [FrequencyDetails.nextWeekday, if_neg (by simpa using hdays), hpattern] at hnext
    exact nextOccurrence_eq_ok_iff.1 hnext

end Search

namespace Moment

variable {earlier later earlierSum laterSum : Moment} {count : Int}

theorem day_le_of_le (hle : earlier.nanos ≤ later.nanos) :
    earlier.date.dayNumber ≤ later.date.dayNumber := by
  have hearlier := earlier.time.nanos_lt
  have hlater := later.time.nanos_lt
  unfold nanos at hle
  omega

def intoMonth (moment : Moment) : Int :=
  moment.nanos - days moment.month.start

theorem intoMonth_bounds (moment : Moment) :
    0 ≤ moment.intoMonth ∧ moment.intoMonth < days moment.month.length := by
  obtain ⟨hstart, hend⟩ := Date.month_eq_iff.1 (rfl : moment.date.month = moment.date.month)
  have htime := moment.time.nanos_lt
  unfold intoMonth nanos days month
  omega

theorem nanos_of_addMonths {moment result : Moment} (hadd : moment.addMonths count = .ok result) :
    result.nanos = days (moment.month.later count).start + moment.intoMonth := by
  obtain ⟨hday, htime⟩ := addMonths_eq_ok hadd
  unfold Date.day at hday
  unfold intoMonth nanos days month at *
  rw [htime]
  omega

/-- The order of two sums is the other way around only if the later moment lies in the next month,
and so early in it that the earlier one is counted past it. -/
theorem addMonths_lt_addMonths_iff (hle : earlier.nanos ≤ later.nanos)
    (hearlier : earlier.addMonths count = .ok earlierSum)
    (hlater : later.addMonths count = .ok laterSum) :
    earlierSum.nanos < laterSum.nanos + days 3 ∧
      (laterSum.nanos < earlierSum.nanos ↔ later.month = earlier.month.later 1 ∧
        days (earlier.month.later count).length + later.intoMonth < earlier.intoMonth) := by
  have hmonths := month_le_of_le hle
  have hearlierInto := earlier.intoMonth_bounds
  have hlaterInto := later.intoMonth_bounds
  have hlength := (earlier.month.later count).length_bounds
  have hmonthLength := earlier.month.length_bounds
  have hnextMonth : later.month = earlier.month.later 1 ↔
      later.month.index = earlier.month.index + 1 :=
    ⟨fun hnext => congrArg Month.index hnext, Month.eq_of_index⟩
  rw [nanos_of_addMonths hearlier, nanos_of_addMonths hlater, hnextMonth]
  obtain hsame | hnext | hbeyond : later.month.index = earlier.month.index ∨
      later.month.index = earlier.month.index + 1 ∨
      earlier.month.index + 2 ≤ later.month.index := by omega
  · have hmonth : later.month = earlier.month := Month.eq_of_index hsame
    have hinto : earlier.intoMonth ≤ later.intoMonth := by
      unfold intoMonth
      rw [hmonth]
      omega
    rw [hmonth]
    unfold days at *
    omega
  · have hstart : (later.month.later count).start =
        (earlier.month.later count).start + (earlier.month.later count).length := by
      rw [hnextMonth.2 hnext, Month.later_later, Int.add_comm, ← Month.later_later,
        Month.start_succ]
    rw [hstart]
    unfold days at *
    omega
  · have hstart : ((earlier.month.later count).later 1).start +
        ((earlier.month.later count).later 1).length ≤ (later.month.later count).start := by
      rw [← Month.start_succ]
      apply Month.start_later_le_start
      simp only [Month.index_later]
      omega
    have hnextLength := ((earlier.month.later count).later 1).length_bounds
    rw [Month.start_succ] at hstart
    unfold days at *
    omega

end Moment

namespace Chore

variable {chore : Chore} {priorDue : Option Moment}
  {earlier later earlierBase laterBase first second : Moment}

theorem baseDate_le_baseDate (hrolling : chore.isRolling = true) (hle : earlier.nanos ≤ later.nanos)
    (hearlier : chore.baseDate priorDue earlier = .ok earlierBase)
    (hlater : chore.baseDate priorDue later = .ok laterBase) :
    earlierBase.nanos ≤ laterBase.nanos ∧
      (chore.kind.usesTimeOfDay = true → earlierBase.time = laterBase.time) := by
  have hanchor : ∀ completed, chore.anchor priorDue completed = completed := fun completed =>
    anchor_eq_completed (.inl hrolling)
  cases huses : chore.kind.usesTimeOfDay with
  | false =>
    rw [baseDate, huses, hanchor] at hearlier hlater
    obtain rfl := Except.ok.inj hearlier
    obtain rfl := Except.ok.inj hlater
    exact ⟨hle, fun htrue => absurd htrue Bool.false_ne_true⟩
  | true =>
    have hconfigured := hearlier
    rw [baseDate, if_pos huses] at hconfigured
    obtain ⟨time, htime, -⟩ := bind_eq_ok_iff.1 hconfigured
    rw [baseDate_eq_notBefore huses (hanchor _) htime] at hearlier hlater
    have hfirst := isFirstSlot_of_notBefore hearlier
    have hsecond := isFirstSlot_of_notBefore hlater
    refine ⟨hfirst.first laterBase hsecond.sameTime (Int.le_trans hle hsecond.le), fun _ => ?_⟩
    rw [hfirst.sameTime, hsecond.sameTime]

def monthStride? (chore : Chore) : Option Int :=
  match chore.kind, chore.details.unit with
  | .monthly, _ => some 1
  | .yearly, _ => some 12
  | .interval, some .months => some chore.frequency.toInt
  | .interval, some .years => some (chore.frequency.toInt * 12)
  | _, _ => none

/-- The chore moves on by a length of time, or to the next listed date of UTC. -/
def KeepsOrder [ZoneTable] (chore : Chore) : Prop :=
  match chore.kind with
  | .daily | .weekly => True
  | .interval => ∃ unit, chore.details.unit = some unit ∧ unit ≠ .months ∧ unit ≠ .years
  | .daysOfTheWeek =>
    chore.details.weekPattern.getD .everyWeek = .everyWeek → chore.details.zone = .ok none
  | .once | .monthly | .yearly | .adaptive | .dayOfTheMonth | .trigger | .noRepeat => False

theorem advance_of_monthStride? [ZoneTable] {count : Int}
    (hstride : chore.monthStride? = some count)
    (completed base : Moment) : chore.advance priorDue completed base = base.addMonths count := by
  unfold monthStride? at hstride
  unfold advance advanceInterval
  split at hstride <;> simp_all

theorem repeats_of_monthStride? {count : Int} (hstride : chore.monthStride? = some count) :
    chore.kind ≠ .adaptive ∧ chore.kind.isOneShot = false := by
  unfold monthStride? at hstride
  split at hstride <;> simp_all [FrequencyKind.isOneShot]

theorem KeepsOrder.repeats [ZoneTable] (hkeeps : chore.KeepsOrder) :
    chore.kind ≠ .adaptive ∧ chore.kind.isOneShot = false := by
  unfold KeepsOrder at hkeeps
  cases hkind : chore.kind <;> simp_all [FrequencyKind.isOneShot]

theorem KeepsOrder.advance_le_advance [ZoneTable] (hkeeps : chore.KeepsOrder)
    (hle : earlierBase.nanos ≤ laterBase.nanos)
    (htime : chore.kind.usesTimeOfDay = true → earlierBase.time = laterBase.time)
    (hfirst : chore.advance priorDue earlier earlierBase = .ok first)
    (hsecond : chore.advance priorDue later laterBase = .ok second) :
    first.nanos ≤ second.nanos := by
  have hlater : ∀ nanos, earlierBase.later nanos = .ok first → laterBase.later nanos = .ok second →
      first.nanos ≤ second.nanos := by
    intro nanos hearlierSum hlaterSum
    rw [Moment.later_eq_ok_iff.1 hearlierSum, Moment.later_eq_ok_iff.1 hlaterSum]
    omega
  unfold KeepsOrder at hkeeps
  unfold advance at hfirst hsecond
  cases hkind : chore.kind with
  | daily | weekly =>
    rw [hkind] at hfirst hsecond
    exact hlater _ hfirst hsecond
  | interval =>
    rw [hkind] at hkeeps hfirst hsecond
    obtain ⟨unit, hunit, hmonths, hyears⟩ := hkeeps
    simp only [advanceInterval, hunit] at hfirst hsecond
    cases unit with
    | hours | days | weeks => exact hlater _ hfirst hsecond
    | months => exact absurd rfl hmonths
    | years => exact absurd rfl hyears
  | daysOfTheWeek =>
    rw [hkind] at hkeeps htime hfirst hsecond
    obtain ⟨wanted, bound, hsearch⟩ := exists_isEarliest_of_nextWeekday hkeeps
    obtain ⟨hfirstTime, hearliest⟩ := hsearch earlierBase first hfirst
    obtain ⟨hsecondTime, hlaterEarliest⟩ := hsearch laterBase second hsecond
    have hday := hearliest.le_of_le hlaterEarliest (Moment.day_le_of_le hle)
    unfold Moment.nanos
    rw [hfirstTime, hsecondTime, htime rfl]
    omega
  | once | monthly | yearly | adaptive | dayOfTheMonth | trigger | noRepeat =>
    rw [hkind] at hkeeps
    exact hkeeps.elim

end Chore

/-- **A later completion is not due earlier.** This holds of a rolling chore that moves on by days,
weeks, hours or listed dates of UTC. One that counts in months may be due earlier, by less than
three days: exactly when its base lies in the next month, and fewer days into it than the base of
the earlier completion rolls over by. -/
theorem nextDue_of_later_completion [ZoneTable] {chore : Chore} {earlier later : Timestamp}
    {first second : Moment} (hrolling : chore.isRolling = true)
    (hle : earlier.instant ≤ later.instant) (hfirst : chore.nextDue earlier = .ok (some first))
    (hsecond : chore.nextDue later = .ok (some second)) :
    (chore.KeepsOrder → first.nanos ≤ second.nanos) ∧
      ∀ count, chore.monthStride? = some count →
        first.nanos < second.nanos + days 3 ∧
        ∃ earlierBase laterBase, chore.baseAt earlier = .ok earlierBase ∧
          chore.baseAt later = .ok laterBase ∧
          (second.nanos < first.nanos ↔ laterBase.month = earlierBase.month.later 1 ∧
            days (earlierBase.month.later count).length + laterBase.intoMonth <
              earlierBase.intoMonth) := by
  have hbases : chore.kind ≠ .adaptive ∧ chore.kind.isOneShot = false →
      ∃ completed completedLater priorDue earlierBase laterBase,
        chore.baseAt earlier = .ok earlierBase ∧ chore.baseAt later = .ok laterBase ∧
        earlierBase.nanos ≤ laterBase.nanos ∧
        (chore.kind.usesTimeOfDay = true → earlierBase.time = laterBase.time) ∧
        chore.advance priorDue completed earlierBase = .ok first ∧
        chore.advance priorDue completedLater laterBase = .ok second := by
    rintro ⟨hadapts, hrepeats⟩
    obtain ⟨completed, priorDue, earlierBase, _, ⟨⟩, hcompleted, hpriorDue, hearlierAt,
      hearlierBase, hearlierDue⟩ := Chore.exists_baseAt_of_nextDue hadapts hrepeats hfirst
    obtain ⟨completedLater, other, laterBase, _, ⟨⟩, hcompletedLater, hother, hlaterAt,
      hlaterBase, hlaterDue⟩ := Chore.exists_baseAt_of_nextDue hadapts hrepeats hsecond
    -- Both due dates are found from the same prior one.
    obtain rfl := Except.ok.inj (hpriorDue.symm.trans hother)
    obtain ⟨hbaseLe, htime⟩ :=
      Chore.baseDate_le_baseDate hrolling (by omega) hearlierBase hlaterBase
    exact ⟨completed, completedLater, priorDue, earlierBase, laterBase, hearlierAt, hlaterAt,
      hbaseLe, htime, hearlierDue, hlaterDue⟩
  constructor
  · intro hkeeps
    obtain ⟨completed, completedLater, priorDue, earlierBase, laterBase, -, -, hbaseLe, htime,
      hearlierDue, hlaterDue⟩ := hbases hkeeps.repeats
    exact hkeeps.advance_le_advance hbaseLe htime hearlierDue hlaterDue
  · intro count hstride
    obtain ⟨completed, completedLater, priorDue, earlierBase, laterBase, hearlierAt, hlaterAt,
      hbaseLe, -, hearlierDue, hlaterDue⟩ := hbases (Chore.repeats_of_monthStride? hstride)
    rw [Chore.advance_of_monthStride? hstride] at hearlierDue hlaterDue
    obtain ⟨hbound, hreversed⟩ := Moment.addMonths_lt_addMonths_iff hbaseLe hearlierDue hlaterDue
    exact ⟨hbound, earlierBase, laterBase, hearlierAt, hlaterAt, hreversed⟩

def curtains : Chore where
  id := 33
  name := "wash the curtains"
  kind := .monthly
  frequency := 0
  details := FrequencyDetails.unset
  dueDate := some (timeOf "2025-01-20T08:00:00Z")
  isRolling := true
  strategy := .keepLastAssigned
  assignedTo := some 1
  assignees := [1]
  createdBy := 1
  isActive := true
  completionWindow := none

/-- The last minute of January is counted on to the third of March, and the first of February, on a
clock ahead of UTC, to the first. -/
theorem curtains_due_later_after_january :
    curtains.isRolling = true ∧
      (timeOf "2025-01-31T23:59:00Z").instant ≤ (timeOf "2025-02-01T01:00:00+01:00").instant ∧
      curtains.nextDue (timeOf "2025-01-31T23:59:00Z") =
        .ok (some (timeOf "2025-03-03T23:59:00Z").wall) ∧
      curtains.nextDue (timeOf "2025-02-01T01:00:00+01:00") =
        .ok (some (timeOf "2025-03-01T00:00:00Z").wall) ∧
      (timeOf "2025-03-01T00:00:00Z").wall.nanos < (timeOf "2025-03-03T23:59:00Z").wall.nanos ∧
      (timeOf "2025-03-03T23:59:00Z").wall.nanos <
        (timeOf "2025-03-01T00:00:00Z").wall.nanos + days 3 := by
  have hle : (timeOf "2025-01-31T23:59:00Z").instant ≤
      (timeOf "2025-02-01T01:00:00+01:00").instant := by decide +kernel
  have hfirst : curtains.nextDue (timeOf "2025-01-31T23:59:00Z") =
      .ok (some (timeOf "2025-03-03T23:59:00Z").wall) := by decide +kernel
  have hsecond : curtains.nextDue (timeOf "2025-02-01T01:00:00+01:00") =
      .ok (some (timeOf "2025-03-01T00:00:00Z").wall) := by decide +kernel
  obtain ⟨-, hmonths⟩ := @nextDue_of_later_completion _ curtains _ _ _ _ rfl hle hfirst hsecond
  exact ⟨rfl, hle, hfirst, hsecond, by decide +kernel, (hmonths 1 rfl).1⟩

end ChoreRota
