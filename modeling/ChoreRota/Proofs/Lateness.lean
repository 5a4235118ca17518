import ChoreRota.Calendar.Zone.Table
import ChoreRota.Proofs.ListedMonths

/-!
# How much the time of a completion matters

A fixed schedule looks at a completion only to find out whether it comes after the slot, which is
the prior due date at the configured time of day. A kind without a time of day has no slot; for a
day of the month the day that the base is moved on by is made up for by where the search begins.
-/

namespace ChoreRota

namespace Chore

variable {chore : Chore}

theorem advance_congr [ZoneTable] (hfixed : chore.isRolling = false) (priorDue : Option Moment)
    (first second base : Moment) :
    chore.advance priorDue first base = chore.advance priorDue second base := by
  have hsearch : chore.monthSearchBase base priorDue first =
      chore.monthSearchBase base priorDue second := by
    cases priorDue with
    | none => rfl
    | some due => simp [monthSearchBase, hfixed]
  unfold advance
  split <;> try rfl
  rw [nextMonthDay, nextMonthDay, hsearch]

theorem IsDue.nextDue_congr [ZoneTable] {first second : Timestamp}
    {due firstDone secondDone : Moment} (hdue : chore.IsDue due) (hkind : chore.kind ≠ .adaptive)
    (hrepeats : chore.kind.isOneShot = false) (hfixed : chore.isRolling = false)
    (hfirst : first.toUtc? = some firstDone) (hsecond : second.toUtc? = some secondDone)
    (hbase : chore.baseDate (some due) firstDone = chore.baseDate (some due) secondDone) :
    chore.nextDue first = chore.nextDue second := by
  rw [hdue.nextDue_eq_advance hkind hrepeats hfirst,
    hdue.nextDue_eq_advance hkind hrepeats hsecond, hbase]
  congr 1
  funext base
  rw [advance_congr hfixed (some due) firstDone secondDone base]

/-- Both completions come after the slot of the chore, or neither does. -/
def SameSide (chore : Chore) (first second : Timestamp) : Prop :=
  ∀ dueDate due time, chore.dueDate = some dueDate → dueDate.toUtc? = some due →
    chore.details.configuredTime = .ok time →
      ((due.atTime time).nanos < first.instant ↔ (due.atTime time).nanos < second.instant)

theorem baseDate_congr {due first second : Moment} (hfixed : chore.isRolling = false)
    (hside : ∀ time, chore.details.configuredTime = .ok time →
      ((due.atTime time).nanos < first.nanos ↔ (due.atTime time).nanos < second.nanos)) :
    chore.baseDate (some due) first = chore.baseDate (some due) second := by
  rw [baseDate, baseDate, anchor_eq_due hfixed, anchor_eq_due hfixed]
  split
  · cases htime : chore.details.configuredTime with
    | error fault => rfl
    | ok time =>
      have hsame := hside time htime
      change notBefore (due.atTime time) first = notBefore (due.atTime time) second
      unfold notBefore
      simp only [hsame]
  · rfl

/-- Where the base lies does not matter to the search for a month, as long as it is at the same time
of day in the month of the due date or in the one after it. -/
theorem nextMonthDay_congr {due firstBase secondBase : Moment} (hfixed : chore.isRolling = false)
    (hfirst : firstBase.month = due.month ∨ firstBase.month = due.month.later 1)
    (hsecond : secondBase.month = due.month ∨ secondBase.month = due.month.later 1)
    (htime : firstBase.time = secondBase.time) (completed : Moment) :
    chore.nextMonthDay firstBase (some due) completed =
      chore.nextMonthDay secondBase (some due) completed := by
  have hsearch : ∀ base, chore.monthSearchBase base (some due) completed = .ok base := by
    intro base
    simp [monthSearchBase, hfixed]
  have hmonths := (searchMonth_eq hfirst).trans (searchMonth_eq hsecond).symm
  unfold searchMonth at hmonths
  unfold nextMonthDay
  simp only [hsearch, bind, Except.bind, htime, hmonths]

/-- A day of the month that is found after one completion is found after every other one: its month
lies after that of the due date, so that the calendar has room for a base moved on by a day. -/
theorem IsDue.nextDue_eq_ok_of_eq_ok [ZoneTable] {first second : Timestamp}
    {due firstDone secondDone : Moment} {nextDueDate : Option Moment} (hdue : chore.IsDue due)
    (hkind : chore.kind = .dayOfTheMonth) (hfixed : chore.isRolling = false)
    (hfirst : first.toUtc? = some firstDone) (hsecond : second.toUtc? = some secondDone)
    (hnext : chore.nextDue first = .ok nextDueDate) : chore.nextDue second = .ok nextDueDate := by
  have hadapts : chore.kind ≠ .adaptive := by rw [hkind]; decide
  have hrepeats : chore.kind.isOneShot = false := by rw [hkind]; rfl
  have huses : chore.kind.usesTimeOfDay = true := by rw [hkind]; rfl
  obtain ⟨base, next, hbase, hadvance, rfl⟩ :=
    (hdue.nextDue_eq_ok_iff hadapts hrepeats hfirst).1 hnext
  have hmonthOf : ∀ {completed found : Moment}, chore.baseDate (some due) completed = .ok found →
      found.month = due.month ∨ found.month = due.month.later 1 := by
    intro completed found hfound
    obtain ⟨-, ⟨hsame, -⟩ | ⟨hafter, -⟩⟩ := baseDate_eq_ok huses hfixed hfound
    · exact .inl (congrArg Date.month hsame)
    · exact Date.month_of_succ hafter
  rw [advance_congr hfixed (some due) firstDone secondDone, advance, hkind] at hadvance
  change chore.nextMonthDay base (some due) secondDone = .ok next at hadvance
  obtain ⟨hlisted, -⟩ := isNextListed_nextMonthDay hfixed (hmonthOf hbase) hadvance
  obtain ⟨htime, -⟩ := baseDate_eq_ok huses hfixed hbase
  have hroom : due.date.dayNumber < lastDay := by
    have hend : due.date.dayNumber < (due.month.later 1).start :=
      lt_start_monthOfDay_succ due.date.dayNumber
    have hstart : (due.month.later 1).start ≤ next.date.month.start :=
      Month.start_later_le_start hlisted.after
    have hnextStart := (Date.month_eq_iff.1 (rfl : next.date.month = next.date.month)).1
    have hlastDay := next.date.le_lastDay
    omega
  obtain ⟨other, hother⟩ := exists_baseDate hfixed htime hroom secondDone
  obtain ⟨hotherTime, -⟩ := baseDate_eq_ok huses hfixed hother
  have hsameTime : other.time = base.time := Except.ok.inj (hotherTime.symm.trans htime)
  have hotherNext : chore.advance (some due) secondDone other = .ok next := by
    rw [advance, hkind]
    change chore.nextMonthDay other (some due) secondDone = .ok next
    rw [nextMonthDay_congr hfixed (hmonthOf hother) (hmonthOf hbase) hsameTime, hadvance]
  exact (hdue.nextDue_eq_ok_iff hadapts hrepeats hsecond).2 ⟨other, next, hother, hotherNext, rfl⟩

theorem nextDue_eq_offCalendar [ZoneTable] {dueDate : Timestamp}
    (hdueDate : chore.dueDate = some dueDate)
    (hdue : dueDate.toUtc? = none) (completedAt : Timestamp) :
    chore.nextDue completedAt = .error .offCalendar := by
  rw [nextDue, hdueDate, utcDue, hdue]
  cases completedAt.toUtc? <;> rfl

end Chore

theorem toOption_congr {α : Type} {first second : Except Fault α}
    (hsame : ∀ result, first = .ok result ↔ second = .ok result) :
    first.toOption = second.toOption := by
  cases first with
  | ok found => rw [(hsame found).1 rfl]
  | error fault =>
    cases second with
    | ok found => cases (hsame found).2 rfl
    | error other => rfl

/-- **What a completion can change.** For a fixed chore with a due date the time of a completion
does not matter at all, or, for an interval and for days of the week, only by whether it comes after
the slot. -/
theorem nextDue_eq_of_completions [ZoneTable] {chore : Chore} {first second : Timestamp}
    (hfixed : chore.isRolling = false) (hdueDate : chore.dueDate ≠ none)
    (hfirst : first.toUtc? ≠ none) (hsecond : second.toUtc? ≠ none) :
    (chore.kind ∈ [.daily, .weekly, .monthly, .yearly, .dayOfTheMonth] →
        (chore.nextDue first).toOption = (chore.nextDue second).toOption) ∧
      (chore.kind ∈ [.interval, .daysOfTheWeek] → chore.SameSide first second →
        chore.nextDue first = chore.nextDue second) := by
  obtain ⟨dueDate, hdueDate⟩ := Option.ne_none_iff_exists'.1 hdueDate
  obtain ⟨firstDone, hfirst⟩ := Option.ne_none_iff_exists'.1 hfirst
  obtain ⟨secondDone, hsecond⟩ := Option.ne_none_iff_exists'.1 hsecond
  cases hdue : dueDate.toUtc? with
  | none =>
    rw [Chore.nextDue_eq_offCalendar hdueDate hdue, Chore.nextDue_eq_offCalendar hdueDate hdue]
    exact ⟨fun _ => rfl, fun _ _ => rfl⟩
  | some due =>
    have hisDue : chore.IsDue due := ⟨dueDate, hdueDate, hdue⟩
    constructor
    · intro hkind
      by_cases hmonthDay : chore.kind = .dayOfTheMonth
      · exact toOption_congr fun result =>
          ⟨hisDue.nextDue_eq_ok_of_eq_ok hmonthDay hfixed hfirst hsecond,
            hisDue.nextDue_eq_ok_of_eq_ok hmonthDay hfixed hsecond hfirst⟩
      · have hplain : chore.kind ≠ .adaptive ∧ chore.kind.isOneShot = false ∧
            chore.kind.usesTimeOfDay = false := by
          revert hkind hmonthDay
          cases chore.kind <;> decide
        obtain ⟨hadapts, hrepeats, huses⟩ := hplain
        have hbase : chore.baseDate (some due) firstDone =
            chore.baseDate (some due) secondDone := by
          rw [Chore.baseDate_eq_due huses hfixed, Chore.baseDate_eq_due huses hfixed]
        rw [hisDue.nextDue_congr hadapts hrepeats hfixed hfirst hsecond hbase]
    · intro hkind hside
      have hplain : chore.kind ≠ .adaptive ∧ chore.kind.isOneShot = false := by
        revert hkind
        cases chore.kind <;> decide
      obtain ⟨hadapts, hrepeats⟩ := hplain
      refine hisDue.nextDue_congr hadapts hrepeats hfixed hfirst hsecond ?_
      refine Chore.baseDate_congr hfixed fun time htime => ?_
      have hfirstNanos := Moment.ofNanos?_eq_some_iff.1 hfirst
      have hsecondNanos := Moment.ofNanos?_eq_some_iff.1 hsecond
      rw [hfirstNanos, hsecondNanos]
      exact hside dueDate due time hdueDate hdue htime

def litterBox : Chore :=
  { rent.snapshot.chore with
    kind := .interval, frequency := 3
    details := { FrequencyDetails.unset with unit := some .days, time := some "12:00Z" } }

/-- The rent is due in February, paid before the end of January or in May. Of the litter box it
matters that both times come after noon. -/
theorem nextDue_of_late_rent_and_litter :
    (rent.snapshot.chore.nextDue (timeOf "2025-01-20T08:00:00Z")).toOption =
        (rent.snapshot.chore.nextDue (timeOf "2025-05-07T20:00:00+02:00")).toOption ∧
      litterBox.SameSide (timeOf "2025-01-31T12:00:01Z") (timeOf "2025-06-30T07:00:00Z") ∧
      litterBox.nextDue (timeOf "2025-01-31T12:00:01Z") =
        litterBox.nextDue (timeOf "2025-06-30T07:00:00Z") := by
  have hside : litterBox.SameSide (timeOf "2025-01-31T12:00:01Z")
      (timeOf "2025-06-30T07:00:00Z") := by
    intro dueDate due time hdueDate hdue htime
    obtain rfl : timeOf "2025-01-31T09:00:00Z" = dueDate := Option.some.inj hdueDate
    obtain rfl : (timeOf "2025-01-31T09:00:00Z").wall = due := Option.some.inj hdue
    obtain rfl : (timeOf "2025-01-31T12:00:00Z").wall.time = time := Except.ok.inj htime
    decide +kernel
  refine ⟨?_, hside, ?_⟩
  · exact (nextDue_eq_of_completions rfl (by decide) (by decide +kernel) (by decide +kernel)).1
      (by decide)
  · exact (nextDue_eq_of_completions rfl (by decide) (by decide +kernel) (by decide +kernel)).2
      (by decide) hside

end ChoreRota
