import ChoreRota.Calendar.Zone.Table
import ChoreRota.Event
import ChoreRota.Proofs.ListedMonths

/-!
# The ends of the calendar

Reckoning beyond the calendar is a fault of the schedule, exactly where a date that the schedule
asks for lies outside the calendar. A clock beyond it would stop the program, which does not happen
as long as the times that are given can be put on the clock of UTC.
-/

namespace ChoreRota

open Chance (Source)

def IsOutside (nanos : Int) : Prop :=
  nanos < days firstDay ∨ days (lastDay + 1) ≤ nanos

def IsOutsideDay (day : Int) : Prop :=
  day < firstDay ∨ lastDay < day

section Reports

variable {α β : Type} {first : Except Fault α} {rest : α → Except Fault β} {overflows : Prop}

def IsOverflow (result : Except Fault α) : Prop :=
  result = .error .dueDateOutOfRange ∨ result = .error .yearOutOfRange

/-- If the result is a fault, it is one of the schedule that can be reported, and it is that of a
date out of range exactly in case of `overflows`. -/
structure Reports (result : Except Fault α) (overflows : Prop) : Prop where
  code : ∀ fault, result = .error fault → fault.code = .invalidSchedule ∧ fault ≠ .offCalendar
  isOverflow_iff : IsOverflow result ↔ overflows

theorem Reports.ok (value : α) : Reports (.ok value) False := by
  refine ⟨fun fault hfault => ?_, ?_⟩
  · cases hfault
  · simp [IsOverflow]

theorem Reports.error {fault : Fault} (hcode : fault.code = .invalidSchedule)
    (hfault : fault ≠ .offCalendar ∧ fault ≠ .dueDateOutOfRange ∧ fault ≠ .yearOutOfRange) :
    Reports (.error fault : Except Fault α) False := by
  refine ⟨fun other hother => ?_, ?_⟩
  · obtain rfl := Except.error.inj hother
    exact ⟨hcode, hfault.1⟩
  · simp [IsOverflow, hfault]

theorem Reports.overflow {fault : Fault}
    (hfault : fault = .dueDateOutOfRange ∨ fault = .yearOutOfRange) :
    Reports (.error fault : Except Fault α) True := by
  refine ⟨fun other hother => ?_, ?_⟩
  · obtain rfl := Except.error.inj hother
    rcases hfault with rfl | rfl <;> decide
  · simpa [IsOverflow] using hfault

theorem Reports.congr {result : Except Fault α} {other : Prop} (hreports : Reports result overflows)
    (hsame : overflows ↔ other) : Reports result other :=
  ⟨hreports.code, hreports.isOverflow_iff.trans hsame⟩

theorem Reports.of_option {found? : Option α} {result : Except Fault β} {fault : Fault}
    (hfault : fault = .dueDateOutOfRange ∨ fault = .yearOutOfRange)
    (hsome : ∀ found, found? = some found → ∃ value, result = .ok value)
    (hnone : found? = none → result = .error fault) : Reports result (found? = none) := by
  cases hfound : found? with
  | some found =>
    obtain ⟨value, rfl⟩ := hsome found hfound
    exact (Reports.ok value).congr (by simp)
  | none =>
    rw [hnone hfound]
    exact (Reports.overflow hfault).congr (by simp)

theorem Reports.of_error {fault : Fault}
    (hreports : Reports (.error fault : Except Fault α) overflows) :
    Reports (.error fault : Except Fault β) overflows := by
  refine ⟨fun other hother => hreports.code other ?_, ?_⟩
  · rw [Except.error.inj hother]
  · rw [← hreports.isOverflow_iff]
    simp [IsOverflow]

theorem Reports.not_overflows {value : α}
    (hreports : Reports (.ok value : Except Fault α) overflows) : ¬overflows := by
  rw [← hreports.isOverflow_iff]
  simp [IsOverflow]

theorem Reports.bind {restOverflows : α → Prop} (hfirst : Reports first overflows)
    (hrest : ∀ value, first = .ok value → Reports (rest value) (restOverflows value)) :
    Reports (first >>= rest) (overflows ∨ ∃ value, first = .ok value ∧ restOverflows value) := by
  cases first with
  | error fault => exact hfirst.of_error.congr (by simp)
  | ok value => exact (hrest value rfl).congr (by simp [hfirst.not_overflows])

theorem Reports.bind_of_false {restOverflows : α → Prop} (hfirst : Reports first False)
    (hrest : ∀ value, first = .ok value → Reports (rest value) (restOverflows value)) :
    Reports (first >>= rest) (∃ value, first = .ok value ∧ restOverflows value) :=
  (hfirst.bind hrest).congr (by simp)

theorem Reports.bind_pure (hfirst : Reports first overflows) (image : α → β) :
    Reports (first >>= fun value => pure (image value)) overflows :=
  (hfirst.bind fun value _ => Reports.ok (image value)).congr (by simp)

end Reports

theorem Month.isOutsideDay_start {month : Month} (hyear : isCountableYear month.year = false) :
    IsOutsideDay month.start := by
  have hnumber : 1 ≤ month.number ∧ month.number ≤ 12 := by
    unfold number
    omega
  have hfar : month.year < -2147483648 ∨ 2147483647 < month.year := by
    simp only [isCountableYear, Bool.and_eq_false_iff, decide_eq_false_iff_not] at hyear
    omega
  unfold IsOutsideDay start yearStart firstDay lastDay
  split
  · omega
  · split <;> omega

namespace Moment

theorem reports_later (moment : Moment) (nanos : Int) :
    Reports (moment.later nanos) (IsOutside (moment.nanos + nanos)) := by
  refine (Reports.of_option (.inl rfl) ?_ ?_).congr ofNanos?_eq_none_iff
  · intro result hresult
    exact ⟨result, by rw [later, shift?, hresult]⟩
  · intro hnone
    rw [later, shift?, hnone]

/-- The month counted off, or the day in it that the day of the month is counted on to, lies outside
the calendar. -/
def MonthsOverflow (moment : Moment) (count : Int) : Prop :=
  let target := moment.month.later count
  IsOutsideDay target.start ∨ IsOutsideDay (target.start + (moment.date.day - 1))

theorem reports_addMonths (moment : Moment) (count : Int) :
    Reports (moment.addMonths count) (moment.MonthsOverflow count) := by
  unfold addMonths MonthsOverflow
  simp only
  generalize moment.month.later count = target
  have hlength := target.length_bounds
  have hfirst : Date.ofMonthDay? target 1 = Date.ofDayNumber? target.start := by
    rw [Date.ofMonthDay?, if_pos (by omega), Int.sub_self, Int.add_zero]
  rw [hfirst]
  split
  · cases hstart : Date.ofDayNumber? target.start with
    | none =>
      have houtside : IsOutsideDay target.start := Date.ofDayNumber?_eq_none_iff.1 hstart
      exact (Reports.overflow (.inr rfl)).congr (iff_of_true trivial (.inl houtside))
    | some first =>
      have hinside : ¬IsOutsideDay target.start := by
        rw [IsOutsideDay, ← Date.ofDayNumber?_eq_none_iff, hstart]
        simp
      have hrolled : first.addDays? (moment.date.day - 1) = none ↔
          IsOutsideDay (target.start + (moment.date.day - 1)) := by
        rw [Date.addDays?, Date.ofDayNumber?_eq_none_iff, Date.ofDayNumber?_eq_some_iff.1 hstart]
        rfl
      refine (Reports.of_option (.inl rfl) ?_ ?_).congr (hrolled.trans (or_iff_right hinside).symm)
      · intro date hdate
        exact ⟨moment.onDate date, by simp only [hdate]⟩
      · intro hnone
        simp only [hnone]
  · rename_i hyear
    have houtside := Month.isOutsideDay_start (Bool.eq_false_iff.2 hyear)
    exact (Reports.overflow (.inl rfl)).congr (iff_of_true trivial (.inl houtside))

end Moment

/-- The calendar ends before the search among the next `count` dates has found a wanted one. -/
def ScanOverflows (isWanted : Date → Bool) (date : Date) (count : Nat) : Prop :=
  lastDay < date.dayNumber + count ∧
    ∀ next : Date, date.dayNumber < next.dayNumber → isWanted next = false

theorem reports_firstWanted (missing : Fault) (hcode : missing.code = .invalidSchedule)
    (hmissing : missing ≠ .offCalendar ∧ missing ≠ .dueDateOutOfRange ∧ missing ≠ .yearOutOfRange)
    (isWanted : Date → Bool) (date : Date) (count : Nat) :
    Reports (firstWanted isWanted missing date count) (ScanOverflows isWanted date count) := by
  induction count generalizing date with
  | zero =>
    refine (Reports.error hcode hmissing).congr (iff_of_false id fun hscan => ?_)
    have hlast := date.le_lastDay
    have hend := hscan.1
    omega
  | succ count ih =>
    rw [firstWanted]
    split
    · rename_i hnone
      refine (Reports.overflow (.inl rfl)).congr (iff_of_true trivial ?_)
      have hend := Date.ofDayNumber?_eq_none_iff.1 hnone
      have hstart := date.firstDay_le
      refine ⟨by omega, fun next hlater => ?_⟩
      have hlast := next.le_lastDay
      omega
    · rename_i next hnext
      have hday := Date.ofDayNumber?_eq_some_iff.1 hnext
      split
      · rename_i hwanted
        refine (Reports.ok next).congr (iff_of_false id fun hscan => ?_)
        have hunwanted := hscan.2 next (by omega)
        rw [hwanted] at hunwanted
        cases hunwanted
      · rename_i hunwanted
        refine (ih next).congr (and_congr (by omega) ?_)
        -- The dates after `date` are `next`, which is not wanted, and those after it.
        constructor
        · intro hlater other hother
          by_cases hsame : other.dayNumber = next.dayNumber
          · rw [Date.eq_of_dayNumber hsame]
            exact Bool.eq_false_iff.2 hunwanted
          · exact hlater other (by omega)
        · exact fun hlater other hother => hlater other (by omega)

namespace FrequencyDetails

/-- A time of day that is configured as a whole timestamp can be put on the clock of UTC. -/
def HasUtcTime (details : FrequencyDetails) : Prop :=
  ∀ text ∈ details.time, ∀ timestamp, Rfc3339.read (Text.trim text) = .ok timestamp →
    timestamp.toUtc? ≠ none

variable {details : FrequencyDetails}

theorem reports_configuredTime (htime : details.HasUtcTime) :
    Reports details.configuredTime False := by
  unfold configuredTime
  split
  · exact Reports.error rfl (by decide)
  · rename_i text htext
    split
    · exact Reports.error rfl (by decide)
    · unfold TimeOfDay.read
      split
      · rename_i timestamp hread
        split
        · exact Reports.ok _
        · rename_i hnone
          exact absurd hnone (htime text htext timestamp hread)
      · split
        · exact Reports.ok _
        · exact Reports.error rfl (by simp)

theorem reports_zone [ZoneTable] (details : FrequencyDetails) : Reports details.zone False := by
  unfold zone
  split
  · exact Reports.ok _
  · split
    · exact Reports.ok _
    · split
      · exact Reports.ok _
      · exact Reports.error rfl (by simp)

/-- No zone's clock is read: none is named, or none that is known. -/
def IsUnzoned [ZoneTable] (details : FrequencyDetails) : Prop :=
  ∀ zone, details.zone ≠ .ok (some zone)

theorem reports_everyWeek [ZoneTable] (hzone : details.IsUnzoned) (base : Moment) :
    Reports (details.everyWeek base)
      (details.zone = .ok none ∧
        ScanOverflows (fun next => next.weekday.isListed details.days) base.date 7) := by
  have hscan := (reports_firstWanted .noWeekday rfl (by decide)
    (fun next => next.weekday.isListed details.days) base.date 7).bind_pure base.onDate
  unfold everyWeek
  cases hfound : details.zone with
  | error fault =>
    have hreports := details.reports_zone
    rw [hfound] at hreports
    exact hreports.of_error.congr (by simp)
  | ok zone =>
    -- A known zone is ruled out, and an unknown one is a fault before anything is searched.
    cases zone with
    | none => exact hscan.congr (by simp)
    | some zone => exact absurd hfound (hzone zone)

def OccurrenceOverflows (details : FrequencyDetails) (date : Date) (period : Period) : Prop :=
  details.listedOccurrences ≠ [] ∧
    ScanOverflows (fun next =>
      next.weekday.isListed details.days && period.isListed details.listedOccurrences next) date 730

theorem reports_nextOccurrence (details : FrequencyDetails) (base : Moment) (period : Period) :
    Reports (details.nextOccurrence base period)
      (details.OccurrenceOverflows base.date period) := by
  unfold nextOccurrence OccurrenceOverflows
  split
  · rename_i hnone
    refine (Reports.error rfl (by simp)).congr ?_
    simp [List.isEmpty_iff.1 hnone]
  · rename_i hsome
    refine ((Reports.ok PUnit.unit).bind_of_false fun _ _ =>
      (reports_firstWanted .noOccurrence rfl (by decide) _ _ _).bind_pure base.onDate).congr ?_
    have hlisted : details.listedOccurrences ≠ [] := fun hnone => hsome (List.isEmpty_iff.2 hnone)
    simp [hlisted]

def WeekdayOverflows [ZoneTable] (details : FrequencyDetails) (date : Date) : Prop :=
  details.days ≠ [] ∧
    match details.weekPattern.getD .everyWeek with
    | .everyWeek =>
      details.zone = .ok none ∧
        ScanOverflows (fun next => next.weekday.isListed details.days) date 7
    | .weekOfMonth => details.OccurrenceOverflows date .month
    | .weekOfQuarter => details.OccurrenceOverflows date .quarter

theorem reports_nextWeekday [ZoneTable]
    (hzone : details.weekPattern.getD .everyWeek = .everyWeek → details.IsUnzoned) (base : Moment) :
    Reports (details.nextWeekday base) (details.WeekdayOverflows base.date) := by
  unfold nextWeekday WeekdayOverflows
  split
  · rename_i hnone
    refine (Reports.error rfl (by simp)).congr ?_
    simp [List.isEmpty_iff.1 hnone]
  · rename_i hsome
    have hdays : details.days ≠ [] := fun hnone => hsome (List.isEmpty_iff.2 hnone)
    simp only [hdays, ne_eq, not_false_eq_true, true_and]
    cases hpattern : details.weekPattern.getD .everyWeek with
    | everyWeek => exact reports_everyWeek (hzone hpattern) base
    | weekOfMonth => exact details.reports_nextOccurrence base .month
    | weekOfQuarter => exact details.reports_nextOccurrence base .quarter

end FrequencyDetails

theorem reports_firstListedMonth (names : List String) (month : Month) (count : Nat) :
    Reports (firstListedMonth names month count) False := by
  induction count generalizing month with
  | zero => exact Reports.error rfl (by decide)
  | succ count ih =>
    rw [firstListedMonth]
    split
    · exact Reports.ok month
    · exact ih _

theorem Month.reports_clampedDate (month : Month) {day : Int} (hday : 1 ≤ day) :
    Reports (month.clampedDate day) (IsOutsideDay (month.start + (min day month.length - 1))) := by
  have hlength := month.length_bounds
  have hdate : Date.ofMonthDay? month (min day month.length) =
      Date.ofDayNumber? (month.start + (min day month.length - 1)) := by
    rw [Date.ofMonthDay?, if_pos (by omega)]
  refine (Reports.of_option (.inr rfl) ?_ ?_).congr Date.ofDayNumber?_eq_none_iff
  · intro date hfound
    exact ⟨date, by rw [clampedDate, hdate, hfound]⟩
  · intro hnone
    rw [clampedDate, hdate, hnone]

theorem Cadence.exists_nextAfter {priorDue : Option Timestamp}
    (hpriorDue : ∀ due ∈ priorDue, due.toUtc? ≠ none) (completedAt : Moment)
    (history : List HistoryRow) : ∃ due, nextAfter priorDue completedAt history = .ok due := by
  unfold nextAfter
  split
  · unfold repeatGap
    split
    · exact ⟨_, rfl⟩
    · rename_i due
      split
      · rename_i hnone
        exact absurd hnone (hpriorDue due rfl)
      · exact ⟨_, rfl⟩
  · exact ⟨_, rfl⟩

namespace Chore

variable {chore : Chore}

theorem reports_notBefore (slot completedAt : Moment) :
    Reports (notBefore slot completedAt)
      (slot.nanos < completedAt.nanos ∧ IsOutside (slot.nanos + days 1)) := by
  unfold notBefore
  split
  · rename_i hlate
    exact (slot.reports_later (days 1)).congr (by simp [hlate])
  · rename_i hearly
    exact (Reports.ok slot).congr (by simp [hearly])

/-- The slot has to be moved on by a day, and that day is not in the calendar. -/
def BaseOverflows (chore : Chore) (priorDue : Option Moment) (completedAt : Moment) : Prop :=
  chore.kind.usesTimeOfDay = true ∧ ∃ time, chore.details.configuredTime = .ok time ∧
    let slot := (chore.anchor priorDue completedAt).atTime time
    slot.nanos < completedAt.nanos ∧ IsOutside (slot.nanos + days 1)

theorem reports_baseDate (htime : chore.kind.usesTimeOfDay = true → chore.details.HasUtcTime)
    (priorDue : Option Moment) (completedAt : Moment) :
    Reports (chore.baseDate priorDue completedAt) (chore.BaseOverflows priorDue completedAt) := by
  unfold baseDate BaseOverflows
  split
  · rename_i huses
    refine ((FrequencyDetails.reports_configuredTime (htime huses)).bind_of_false fun time _ =>
      reports_notBefore _ _).congr ?_
    simp [huses]
  · rename_i hplain
    exact (Reports.ok _).congr (by simp [hplain])

def IntervalOverflows (chore : Chore) (base : Moment) : Prop :=
  let count := chore.frequency.toInt
  match chore.details.unit with
  | none => False
  | some .hours => IsOutside (base.nanos + seconds (count * 3600))
  | some .days => IsOutside (base.nanos + days count)
  | some .weeks => IsOutside (base.nanos + days (count * 7))
  | some .months => base.MonthsOverflow count
  | some .years => base.MonthsOverflow (count * 12)

theorem reports_advanceInterval (chore : Chore) (base : Moment) :
    Reports (chore.advanceInterval base) (chore.IntervalOverflows base) := by
  unfold advanceInterval IntervalOverflows
  cases chore.details.unit with
  | none => exact (Reports.error rfl (by decide)).congr (by simp)
  | some unit =>
    cases unit with
    | hours | days | weeks => exact base.reports_later _
    | months | years => exact base.reports_addMonths _

theorem reports_targetDay (chore : Chore) : Reports chore.targetDay False := by
  unfold targetDay
  split
  · exact Reports.ok _
  · exact Reports.error rfl (by simp)

def SecondOverflows (chore : Chore) (priorDue : Option Moment) : Prop :=
  chore.isRolling = true ∧ ∃ due, priorDue = some due ∧ IsOutside (due.nanos + seconds 1)

theorem reports_monthSearchBase (chore : Chore) (base : Moment) (priorDue : Option Moment)
    (completedAt : Moment) :
    Reports (chore.monthSearchBase base priorDue completedAt) (chore.SecondOverflows priorDue) := by
  unfold monthSearchBase SecondOverflows
  cases priorDue with
  | none => exact (Reports.ok base).congr (by simp)
  | some due =>
    simp only [Option.some.injEq, exists_eq_left']
    split
    · rename_i hrolling
      exact ((due.reports_later (seconds 1)).bind_pure _).congr (by simp [hrolling])
    · rename_i hfixed
      exact (Reports.ok base).congr (by simp [hfixed])

def ListedMonthOverflows (chore : Chore) (priorDue : Option Moment) (searchBase : Moment) : Prop :=
  ∃ month,
    firstListedMonth chore.details.months (searchMonth priorDue searchBase) 12 = .ok month ∧
      IsOutsideDay (month.start + (min chore.frequency.toInt month.length - 1))

def MonthDayOverflows (chore : Chore) (base : Moment) (priorDue : Option Moment)
    (completedAt : Moment) : Prop :=
  (∃ day, chore.targetDay = .ok day) ∧ chore.details.months ≠ [] ∧
    (chore.SecondOverflows priorDue ∨
      ∃ searchBase, chore.monthSearchBase base priorDue completedAt = .ok searchBase ∧
        chore.ListedMonthOverflows priorDue searchBase)

theorem reports_nextMonthDay (chore : Chore) (base : Moment) (priorDue : Option Moment)
    (completedAt : Moment) :
    Reports (chore.nextMonthDay base priorDue completedAt)
      (chore.MonthDayOverflows base priorDue completedAt) := by
  unfold nextMonthDay MonthDayOverflows
  cases hday : chore.targetDay with
  | error fault =>
    have hreports := chore.reports_targetDay
    rw [hday] at hreports
    exact hreports.of_error.congr (by simp)
  | ok day =>
    obtain ⟨rfl, hone, -⟩ := targetDay_eq_ok_iff.1 hday
    have hsearch : ∀ searchBase, chore.monthSearchBase base priorDue completedAt = .ok searchBase →
        Reports (do
            let month ← firstListedMonth chore.details.months (searchMonth priorDue searchBase) 12
            let date ← month.clampedDate chore.frequency.toInt
            return (⟨date, searchBase.time.toMinute⟩ : Moment))
          (chore.ListedMonthOverflows priorDue searchBase) := fun searchBase _ =>
      (reports_firstListedMonth _ _ _).bind_of_false fun month _ =>
        (month.reports_clampedDate hone).bind_pure _
    by_cases hmonths : chore.details.months = []
    · rw [hmonths]
      exact (Reports.error rfl (by decide) : Reports (.error .monthsMissing) _).congr (by simp)
    · have hsome : chore.details.months.isEmpty = false := by simpa using hmonths
      simp only [bind, Except.bind, hsome]
      exact ((chore.reports_monthSearchBase base priorDue completedAt).bind hsearch).congr
        (by simp [hmonths])

def FollowsZone [ZoneTable] (chore : Chore) : Prop :=
  chore.kind = .daysOfTheWeek ∧ chore.details.weekPattern.getD .everyWeek = .everyWeek ∧
    ∃ zone, chore.details.zone = .ok (some zone)

def AdvanceOverflows [ZoneTable] (chore : Chore) (priorDue : Option Moment)
    (completedAt base : Moment) : Prop :=
  match chore.kind with
  | .daily => IsOutside (base.nanos + days 1)
  | .weekly => IsOutside (base.nanos + days 7)
  | .monthly => base.MonthsOverflow 1
  | .yearly => base.MonthsOverflow 12
  | .interval => chore.IntervalOverflows base
  | .daysOfTheWeek => chore.details.WeekdayOverflows base.date
  | .dayOfTheMonth => chore.MonthDayOverflows base priorDue completedAt
  | .once | .adaptive | .trigger | .noRepeat => False

theorem reports_advance [ZoneTable] (hzone : ¬chore.FollowsZone) (priorDue : Option Moment)
    (completedAt base : Moment) :
    Reports (chore.advance priorDue completedAt base)
      (chore.AdvanceOverflows priorDue completedAt base) := by
  unfold advance AdvanceOverflows
  cases hkind : chore.kind with
  | daily | weekly => exact base.reports_later _
  | monthly | yearly => exact base.reports_addMonths _
  | interval => exact chore.reports_advanceInterval base
  | daysOfTheWeek =>
    refine FrequencyDetails.reports_nextWeekday (fun hpattern zone hfound => ?_) base
    exact hzone ⟨hkind, hpattern, zone, hfound⟩
  | dayOfTheMonth => exact chore.reports_nextMonthDay base priorDue completedAt
  | once | adaptive | trigger | noRepeat => exact Reports.ok base

/-- A date that the schedule asks for lies outside the calendar: the base, or what it moves on to.
A chore that adapts asks for none, and is not due again where its calendar ends. -/
def Overflows [ZoneTable] (chore : Chore) (priorDue : Option Moment) (completedAt : Moment) :
    Prop :=
  chore.kind.isOneShot = false ∧ chore.kind ≠ .adaptive ∧
    (chore.BaseOverflows priorDue completedAt ∨
      ∃ base, chore.baseDate priorDue completedAt = .ok base ∧
        chore.AdvanceOverflows priorDue completedAt base)

theorem reports_nextDueAfter [ZoneTable] (hzone : ¬chore.FollowsZone)
    (htime : chore.kind.usesTimeOfDay = true → chore.details.HasUtcTime)
    (priorDue : Option Moment) (completedAt : Moment) :
    Reports (chore.nextDueAfter priorDue completedAt) (chore.Overflows priorDue completedAt) := by
  unfold nextDueAfter Overflows
  split
  · rename_i hkind
    exact (Reports.ok none).congr (by simp [hkind, FrequencyKind.isOneShot])
  · rename_i hkind
    exact (Reports.ok none).congr (by simp [hkind, FrequencyKind.isOneShot])
  · rename_i hkind
    exact (Reports.ok none).congr (by simp [hkind, FrequencyKind.isOneShot])
  · rename_i hkind
    have hutc : ∀ due ∈ priorDue.map Timestamp.ofUtc, due.toUtc? ≠ none := by
      simp [Timestamp.toUtc?_ofUtc]
    obtain ⟨due, hdue⟩ := Cadence.exists_nextAfter hutc completedAt []
    rw [hdue]
    exact (Reports.ok due).congr (by simp [hkind])
  · rename_i honce hnoRepeat htrigger hadaptive
    refine ((reports_baseDate htime priorDue completedAt).bind fun base _ =>
      (reports_advance hzone priorDue completedAt base).bind_pure some).congr ?_
    have hrepeats : chore.kind.isOneShot = false := by
      unfold FrequencyKind.isOneShot
      split <;> simp_all
    have hadapts : chore.kind ≠ .adaptive := hadaptive
    simp [hrepeats, hadapts]

/-- What the chore is scheduled by can be put on the clock of UTC, and no other clock is read. -/
structure IsOnCalendar [ZoneTable] (chore : Chore) : Prop where
  dueDate : ∀ due ∈ chore.dueDate, due.toUtc? ≠ none
  time : chore.details.HasUtcTime
  zone : ¬chore.FollowsZone

theorem exists_utcDue {dueDate : Option Timestamp} (hdueDate : ∀ due ∈ dueDate, due.toUtc? ≠ none) :
    ∃ priorDue, utcDue dueDate = .ok priorDue := by
  cases dueDate with
  | none => exact ⟨none, rfl⟩
  | some due =>
    obtain ⟨moment, hmoment⟩ := Option.ne_none_iff_exists'.1 (hdueDate due rfl)
    exact ⟨some moment, by simp [utcDue, hmoment, onCalendar, Except.map]⟩

theorem IsOnCalendar.reports_nextDue [ZoneTable] {completedAt : Timestamp} {completed : Moment}
    (hchore : chore.IsOnCalendar) (hcompleted : completedAt.toUtc? = some completed) :
    ∃ priorDue, utcDue chore.dueDate = .ok priorDue ∧
      Reports (chore.nextDue completedAt) (chore.Overflows priorDue completed) := by
  obtain ⟨priorDue, hpriorDue⟩ := exists_utcDue hchore.dueDate
  refine ⟨priorDue, hpriorDue, ?_⟩
  rw [nextDue, hcompleted, hpriorDue]
  exact reports_nextDueAfter hchore.zone (fun _ => hchore.time) priorDue completed

theorem checkWindow_ne_offCalendar (chore : Chore) (performedAt : Timestamp) :
    chore.checkWindow performedAt ≠ .error .offCalendar := by
  unfold checkWindow
  split
  · simp only
    split
    · split
      · simp
      · split <;> simp
    · simp
  · simp

theorem nextAssignee_ne_offCalendar (chore : Chore) (history : List HistoryRow)
    (performer : UserId) (source : Source) :
    (chore.nextAssignee history performer source).1 ≠ .error .offCalendar := by
  have hcounted : ∀ keys,
      (Rotation.leastCounted chore.assignees keys).map some ≠ .error .offCalendar := by
    intro keys
    rw [ne_eq, map_eq_error_iff, Rotation.leastCounted]
    split <;> simp
  have hchosen : ∀ missing users, missing ≠ .offCalendar →
      (Rotation.chooseOr missing users source).1 ≠ .error .offCalendar := by
    intro missing users hmissing
    unfold Rotation.chooseOr
    split <;> simp [hmissing]
  unfold nextAssignee
  split
  · exact hcounted _
  · exact hcounted _
  · exact hchosen _ _ (by decide)
  · simp
  · exact hchosen _ _ (by decide)
  · rw [ne_eq, map_eq_error_iff]
    unfold Rotation.following
    simp only
    split <;> simp
  · simp

theorem IsOnCalendar.dueAfterCompletion_ne_offCalendar [ZoneTable] {completedAt : Timestamp}
    {completed : Moment} (hchore : chore.IsOnCalendar)
    (hcompleted : completedAt.toUtc? = some completed) (history : List HistoryRow) (window : Nat) :
    chore.dueAfterCompletion history window completedAt ≠ .error .offCalendar := by
  unfold dueAfterCompletion
  split
  · obtain ⟨due, hdue⟩ := Cadence.exists_nextAfter hchore.dueDate completed (history.take window)
    rw [Cadence.nextDue, hcompleted]
    simp [hdue]
  · obtain ⟨_, -, hreports⟩ := hchore.reports_nextDue hcompleted
    exact fun hfault => (hreports.code _ hfault).2 rfl

end Chore

namespace Snapshot

variable {snapshot : Snapshot} {performedAt : Timestamp} {performed : Moment}

theorem complete_ne_offCalendar [ZoneTable] (hchore : snapshot.chore.IsOnCalendar)
    (hperformed : performedAt.toUtc? = some performed) (window : Nat) (performer : UserId)
    (source : Source) :
    (snapshot.complete window performer performedAt source).1 ≠ .error .offCalendar := by
  have hdue : (do
      snapshot.chore.checkWindow performedAt
      snapshot.chore.dueAfterCompletion snapshot.history window performedAt) ≠
        .error .offCalendar := by
    rw [ne_eq, bind_eq_error_iff]
    rintro (hwindow | ⟨-, -, hdue⟩)
    · exact snapshot.chore.checkWindow_ne_offCalendar performedAt hwindow
    · exact hchore.dueAfterCompletion_ne_offCalendar hperformed _ _ hdue
  simp only [complete]
  split
  · rename_i fault hfault
    exact fun hsame => hdue (hfault.trans (congrArg Except.error (Except.error.inj hsame)))
  · simp
  · simp only [ne_eq, map_eq_error_iff]
    exact snapshot.chore.nextAssignee_ne_offCalendar snapshot.history performer source

theorem skip_ne_offCalendar [ZoneTable] (hchore : snapshot.chore.IsOnCalendar)
    (hperformed : performedAt.toUtc? = some performed) (performer : UserId) (rotates : Bool)
    (source : Source) :
    (snapshot.skip performer performedAt rotates source).1 ≠ .error .offCalendar := by
  have hreference : ∃ reference,
      (snapshot.chore.skipReference performedAt).toUtc? = some reference := by
    unfold Chore.skipReference
    split
    · rename_i due hdue
      split
      · exact ⟨performed, hperformed⟩
      · exact Option.ne_none_iff_exists'.1 (hchore.dueDate due hdue)
    · exact ⟨performed, hperformed⟩
  obtain ⟨reference, hreference⟩ := hreference
  obtain ⟨_, -, hreports⟩ := hchore.reports_nextDue hreference
  simp only [skip]
  split
  · rename_i fault hfault
    exact fun hsame => (hreports.code fault hfault).2 (Except.error.inj hsame)
  · simp
  · split
    · simp only [ne_eq, map_eq_error_iff]
      exact snapshot.chore.nextAssignee_ne_offCalendar snapshot.history performer source
    · simp

end Snapshot

/-- **Beyond the calendar there are faults, but no crash.** For a chore that is scheduled by the
clock of UTC and a completion at a time on it, each fault of the next due date is one of the
schedule that is reported, and it is that of a date out of range exactly where a date that the
schedule asks for lies outside the calendar. So no completion and no skip stops the program,
whatever the history. -/
theorem overflow_is_reported [ZoneTable] {chore : Chore} {completedAt : Timestamp}
    {completed : Moment}
    (hchore : chore.IsOnCalendar) (hcompleted : completedAt.toUtc? = some completed) :
    (∀ fault, chore.nextDue completedAt = .error fault →
        fault.code = .invalidSchedule ∧ fault ≠ .offCalendar) ∧
      (∃ priorDue, Chore.utcDue chore.dueDate = .ok priorDue ∧
        (IsOverflow (chore.nextDue completedAt) ↔ chore.Overflows priorDue completed)) ∧
      ∀ history performer source,
        (∀ window, (Snapshot.complete ⟨chore, history⟩ window performer completedAt source).1 ≠
            .error .offCalendar) ∧
          ∀ rotates, (Snapshot.skip ⟨chore, history⟩ performer completedAt rotates source).1 ≠
            .error .offCalendar := by
  obtain ⟨priorDue, hpriorDue, hreports⟩ := hchore.reports_nextDue hcompleted
  refine ⟨hreports.code, ⟨priorDue, hpriorDue, hreports.isOverflow_iff⟩, ?_⟩
  intro history performer source
  exact ⟨fun window => Snapshot.complete_ne_offCalendar hchore hcompleted window performer source,
    fun rotates => Snapshot.skip_ne_offCalendar hchore hcompleted performer rotates source⟩

def archive : Chore where
  id := 15
  name := "dust the archive"
  kind := .interval
  frequency := 1
  details := { FrequencyDetails.unset with unit := some .months, time := some "12:00Z" }
  dueDate := some (timeOf "9999-11-30T12:00:00Z")
  isRolling := true
  strategy := .keepLastAssigned
  assignedTo := some 1
  assignees := [1]
  createdBy := 1
  isActive := true
  completionWindow := none

theorem archive_isOnCalendar [ZoneTable] : archive.IsOnCalendar := by
  refine ⟨?_, ?_, ?_⟩
  · rintro _ ⟨⟩
    decide +kernel
  · rintro _ ⟨⟩ timestamp hread
    cases hread
  · rintro ⟨hkind, -⟩
    cases hkind

/-- After its last month, which it is late for, the archive is not scheduled any more. -/
theorem archive_outlasts_calendar :
    archive.IsOnCalendar ∧
      archive.nextDue (timeOf "9999-12-02T09:00:00+01:00") = .error .yearOutOfRange ∧
      archive.Overflows (some (timeOf "9999-11-30T12:00:00Z").wall)
        (timeOf "9999-12-02T08:00:00Z").wall ∧
      ((Snapshot.complete ⟨archive, []⟩ 5 1 (timeOf "9999-12-02T09:00:00+01:00")
        (Source.start (.script []))).1 ≠ .error .offCalendar) := by
  have hnext : archive.nextDue (timeOf "9999-12-02T09:00:00+01:00") = .error .yearOutOfRange := by
    decide +kernel
  have hcompleted : (timeOf "9999-12-02T09:00:00+01:00").toUtc? =
      some (timeOf "9999-12-02T08:00:00Z").wall := by decide +kernel
  obtain ⟨-, ⟨priorDue, hpriorDue, hoverflow⟩, hevents⟩ :=
    overflow_is_reported archive_isOnCalendar hcompleted
  have hdue : Chore.utcDue archive.dueDate = .ok (some (timeOf "9999-11-30T12:00:00Z").wall) := by
    decide +kernel
  obtain rfl := Except.ok.inj (hpriorDue.symm.trans hdue)
  exact ⟨archive_isOnCalendar, hnext, hoverflow.1 (.inr hnext), (hevents [] 1 _).1 5⟩

end ChoreRota
