import ChoreRota.Calendar.Zone.Table
import ChoreRota.Proofs.ClockChanges
import ChoreRota.Proofs.Occurrences

/-!
# The ends of the calendar on the clock of a zone

The dates that a search on the clock of a zone counts through are looked up with care. The readings
of the clock are not: the one at the base, the one at the guess and the clock of UTC at the result
stop the program where they lie beyond the calendar.
-/

namespace ChoreRota

theorem exists_moment_iff {nanos : Int} :
    (∃ moment : Moment, moment.nanos = nanos) ↔ ¬IsOutside nanos := by
  constructor
  · rintro ⟨moment, hmoment⟩ houtside
    have hnone := Moment.ofNanos?_eq_none_iff.2 houtside
    rw [Moment.ofNanos?_eq_some_iff.2 hmoment] at hnone
    cases hnone
  · exact exists_moment

theorem onCalendar_eq_error_iff {α : Type} {value? : Option α} {fault : Fault} :
    onCalendar value? = .error fault ↔ value? = none ∧ fault = .offCalendar := by
  cases value? <;> simp [onCalendar, eq_comm]

namespace Zone

theorem clockAt?_eq_none_iff {zone : Zone} {timestamp : Timestamp} :
    zone.clockAt? timestamp = none ↔ IsOutside (zone.reading timestamp.instant) := by
  rw [clockAt?, Timestamp.withOffset?, Option.map_eq_none_iff, Moment.ofNanos?_eq_none_iff]
  rfl

/-- The clock is asked once at the guess, and the clock of UTC at the result. -/
theorem settle_eq_error_iff {zone : Zone} {wall : Moment} {offset : Int} {fault : Fault} :
    zone.settle wall offset = .error fault ↔ fault = .offCalendar ∧
      let guess := Timestamp.instant ⟨wall, offset⟩
      (IsOutside (zone.reading guess) ∨
        IsOutside (Timestamp.instant ⟨wall, zone.offsetAt guess⟩)) := by
  have hresult : ∀ other, Timestamp.toUtc? ⟨wall, other⟩ = none ↔
      IsOutside (Timestamp.instant ⟨wall, other⟩) := fun other => Moment.ofNanos?_eq_none_iff
  simp only [settle, bind_eq_error_iff, onCalendar_eq_error_iff, onCalendar_eq_ok_iff,
    clockAt?_eq_none_iff, hresult]
  constructor
  · rintro (⟨hguess, hfault⟩ | ⟨shown, hshown, hnext, hfault⟩)
    · exact ⟨hfault, .inl hguess⟩
    · rw [(clockAt?_eq_some_iff.1 hshown).2] at hnext
      exact ⟨hfault, .inr hnext⟩
  · rintro ⟨hfault, houtside⟩
    cases hshown : zone.clockAt? ⟨wall, offset⟩ with
    | none => exact .inl ⟨clockAt?_eq_none_iff.1 hshown, hfault⟩
    | some shown =>
      have hguess : ¬IsOutside (zone.reading (Timestamp.instant ⟨wall, offset⟩)) := by
        rw [← clockAt?_eq_none_iff, hshown]
        exact Option.some_ne_none shown
      refine .inr ⟨shown, rfl, ?_, hfault⟩
      rw [(clockAt?_eq_some_iff.1 hshown).2]
      exact houtside.resolve_left hguess

end Zone

section Search

variable {names : List String} {moment : Moment} {reading : Int}

def EndsUnlisted (names : List String) (reading : Int) : Prop :=
  ∃ count, 1 ≤ count ∧ count ≤ 7 ∧ IsOutside (reading + days count) ∧
    ∀ earlier, 1 ≤ earlier → earlier < count →
      (weekdayOf (reading + days earlier)).isListed names = false

theorem isOutside_add_days_iff {count : Int} (hone : 1 ≤ count) :
    IsOutside (moment.nanos + days count) ↔ lastDay < moment.date.dayNumber + count := by
  have htime := moment.time.nanos_lt
  have hstart := moment.date.firstDay_le
  unfold IsOutside Moment.nanos days
  omega

theorem weekdayOf_days_later {date : Date} {count : Int}
    (hday : date.dayNumber = moment.date.dayNumber + count) :
    weekdayOf (moment.nanos + days count) = date.weekday := by
  have hnanos : (moment.onDate date).nanos = moment.nanos + days count :=
    Moment.nanos_eq_add_days_iff.2 ⟨hday, rfl⟩
  rw [← hnanos, weekdayOf_nanos]
  rfl

theorem exists_nextListedDate_iff :
    (∃ date, nextListedDate names moment.date = .ok date) ↔
      ∃ count, IsNextListedReading names moment.nanos count ∧
        ¬IsOutside (moment.nanos + days count) := by
  constructor
  · rintro ⟨date, hdate⟩
    obtain ⟨count, hnanos, hnext⟩ := nextListedDate_eq_ok hdate
    exact ⟨count, hnext, exists_moment_iff.1 ⟨_, hnanos⟩⟩
  · rintro ⟨count, hnext, hinside⟩
    have hone := hnext.one_le
    have hseven := hnext.le_seven
    have hstart := moment.date.firstDay_le
    rw [isOutside_add_days_iff hone] at hinside
    let date : Date := ⟨moment.date.dayNumber + count, by omega, by omega⟩
    have hday : date.dayNumber = moment.date.dayNumber + count := rfl
    have hlisted : date.weekday.isListed names = true := by
      rw [← weekdayOf_days_later hday]
      exact hnext.listed
    exact exists_firstWanted_eq_ok (by omega) (by omega) hlisted

theorem firstWanted_eq_error {isWanted : Date → Bool} {missing fault : Fault} {date : Date}
    {bound : Nat} (hfault : firstWanted isWanted missing date bound = .error fault) :
    fault = missing ∨ fault = .dueDateOutOfRange := by
  induction bound generalizing date with
  | zero => exact .inl (Except.error.inj hfault).symm
  | succ bound ih =>
    rw [firstWanted] at hfault
    split at hfault
    · exact .inr (Except.error.inj hfault).symm
    · split at hfault
      · cases hfault
      · exact ih hfault

theorem nextListedDate_ne_offCalendar : nextListedDate names moment.date ≠ .error .offCalendar := by
  intro hfault
  rcases firstWanted_eq_error hfault with hother | hother <;> cases hother

theorem nextListedDate_eq_outOfRange_iff :
    nextListedDate names moment.date = .error .dueDateOutOfRange ↔
      EndsUnlisted names moment.nanos := by
  have hreports := reports_firstWanted .noWeekday rfl (by decide)
    (fun next => next.weekday.isListed names) moment.date 7
  have hoverflow : IsOverflow (nextListedDate names moment.date) ↔
      nextListedDate names moment.date = .error .dueDateOutOfRange := by
    refine or_iff_left fun hyear => ?_
    rcases firstWanted_eq_error hyear with hother | hother <;> cases hother
  rw [← hoverflow]
  refine hreports.isOverflow_iff.trans ?_
  have hstart := moment.date.firstDay_le
  have hlast := moment.date.le_lastDay
  constructor
  · rintro ⟨hroom, hunlisted⟩
    refine ⟨lastDay + 1 - moment.date.dayNumber, by omega, by omega, ?_, ?_⟩
    · rw [isOutside_add_days_iff (by omega)]
      omega
    · intro earlier hone hearlier
      let date : Date := ⟨moment.date.dayNumber + earlier, by omega, by omega⟩
      have hday : date.dayNumber = moment.date.dayNumber + earlier := rfl
      rw [weekdayOf_days_later hday]
      exact hunlisted date (by omega)
  · rintro ⟨count, hone, hseven, houtside, hunlisted⟩
    rw [isOutside_add_days_iff hone] at houtside
    refine ⟨by omega, fun next hlater => ?_⟩
    have hnextLast := next.le_lastDay
    have hday : next.dayNumber = moment.date.dayNumber +
        (next.dayNumber - moment.date.dayNumber) := by omega
    have hnext := hunlisted (next.dayNumber - moment.date.dayNumber) (by omega) (by omega)
    rwa [weekdayOf_days_later hday] at hnext

end Search

/-- The search asks a clock for a date beyond the calendar: the zone's at the base or at the guess,
or that of UTC at the result. -/
def Zone.StopsSearch (zone : Zone) (names : List String) (base : Moment) : Prop :=
  IsOutside (zone.reading base.nanos) ∨
    ∃ count, IsNextListedReading names (zone.reading base.nanos) count ∧
      ¬IsOutside (zone.reading base.nanos + days count) ∧
      (IsOutside (zone.reading (base.nanos + days count)) ∨
        IsOutside (zone.daysLater base.nanos count))

section Zoned

variable {details : FrequencyDetails} {base : Moment} {zone : Zone} {fault : Fault}

/-- A reading that the clock cannot show stops the program before any date is looked at. -/
theorem everyWeek_eq_error_iff [ZoneTable] (hzone : details.zone = .ok (some zone)) :
    details.everyWeek base = .error fault ↔
      IsOutside (zone.reading base.nanos) ∧ fault = .offCalendar ∨
        ∃ wall : Moment, wall.nanos = zone.reading base.nanos ∧
          (nextListedDate details.days wall.date = .error fault ∨
            ∃ date, nextListedDate details.days wall.date = .ok date ∧
              zone.settle (wall.onDate date) (zone.offsetAt base.nanos) = .error fault) := by
  have hinstant := Timestamp.instant_ofUtc base
  rw [FrequencyDetails.everyWeek, hzone]
  change (onCalendar (zone.clockAt? (Timestamp.ofUtc base)) >>= _) = _ ↔ _
  rw [bind_eq_error_iff, onCalendar_eq_error_iff, Zone.clockAt?_eq_none_iff, hinstant]
  refine or_congr Iff.rfl ?_
  simp only [onCalendar_eq_ok_iff, Zone.clockAt?_eq_some_iff, hinstant, bind_eq_error_iff]
  constructor
  · rintro ⟨clock, ⟨hwall, hoffset⟩, hsearch⟩
    rw [hoffset] at hsearch
    exact ⟨clock.wall, hwall, hsearch⟩
  · rintro ⟨wall, hwall, hsearch⟩
    exact ⟨⟨wall, zone.offsetAt base.nanos⟩, ⟨hwall, rfl⟩, hsearch⟩

theorem everyWeek_eq_offCalendar_iff [ZoneTable] (hzone : details.zone = .ok (some zone)) :
    details.everyWeek base = .error .offCalendar ↔ zone.StopsSearch details.days base := by
  rw [everyWeek_eq_error_iff hzone, Zone.StopsSearch]
  simp only [nextListedDate_ne_offCalendar, false_or, and_true, Zone.settle_eq_error_iff, true_and]
  by_cases hbase : IsOutside (zone.reading base.nanos)
  · exact iff_of_true (.inl hbase) (.inl hbase)
  rw [or_iff_right hbase, or_iff_right hbase]
  constructor
  · rintro ⟨wall, hwall, date, hdate, houtside⟩
    obtain ⟨count, hnanos, hnext⟩ := nextListedDate_eq_ok hdate
    rw [hwall] at hnanos hnext
    rw [Zone.instant_guess hnanos, Zone.instant_settled hnanos] at houtside
    exact ⟨count, hnext, exists_moment_iff.1 ⟨_, hnanos⟩, houtside⟩
  · rintro ⟨count, hnext, hinside, houtside⟩
    obtain ⟨wall, hwall⟩ := exists_moment hbase
    have hsearch : ∃ date, nextListedDate details.days wall.date = .ok date := by
      rw [exists_nextListedDate_iff, hwall]
      exact ⟨count, hnext, hinside⟩
    obtain ⟨date, hdate⟩ := hsearch
    obtain ⟨found, hnanos, hfound⟩ := nextListedDate_eq_ok hdate
    rw [hwall] at hnanos hfound
    obtain rfl := hnext.eq hfound
    refine ⟨wall, hwall, date, hdate, ?_⟩
    rw [Zone.instant_guess hnanos, Zone.instant_settled hnanos]
    exact houtside

theorem everyWeek_eq_outOfRange_iff [ZoneTable] (hzone : details.zone = .ok (some zone)) :
    details.everyWeek base = .error .dueDateOutOfRange ↔
      ¬IsOutside (zone.reading base.nanos) ∧
        EndsUnlisted details.days (zone.reading base.nanos) := by
  have hsettled : Fault.dueDateOutOfRange ≠ .offCalendar := by decide
  rw [everyWeek_eq_error_iff hzone]
  simp only [Zone.settle_eq_error_iff, hsettled, false_and, and_false, exists_false, or_false,
    false_or, nextListedDate_eq_outOfRange_iff]
  constructor
  · rintro ⟨wall, hwall, hends⟩
    rw [hwall] at hends
    exact ⟨exists_moment_iff.1 ⟨wall, hwall⟩, hends⟩
  · rintro ⟨hbase, hends⟩
    obtain ⟨wall, hwall⟩ := exists_moment hbase
    exact ⟨wall, hwall, by rwa [hwall]⟩

theorem IsAwayFromEnds.not_stopsSearch (haway : IsAwayFromEnds base) (names : List String) :
    ¬zone.StopsSearch names base := by
  have hbase := zone.offsetAt_bounds base.nanos
  rintro (houtside | ⟨count, hnext, -, houtside⟩)
  · refine haway.not_isOutside ?_ ?_ houtside <;> unfold Zone.reading seconds days <;> omega
  · have hone := hnext.one_le
    have hseven := hnext.le_seven
    have hguess := zone.offsetAt_bounds (base.nanos + days count)
    rcases houtside with hshown | hresult
    · refine haway.not_isOutside ?_ ?_ hshown <;> unfold Zone.reading seconds days at * <;> omega
    · refine haway.not_isOutside ?_ ?_ hresult <;> unfold Zone.daysLater seconds days at * <;> omega

theorem everyWeek_eq_error_iff_of_unzoned [ZoneTable] (hzone : details.zone = .ok none) :
    details.everyWeek base = .error fault ↔
      nextListedDate details.days base.date = .error fault := by
  rw [FrequencyDetails.everyWeek, hzone]
  exact search_eq_error_iff

theorem everyWeek_eq_error_of_unknown [ZoneTable] (base : Moment)
    (hzone : details.zone = .error fault) :
    details.everyWeek base = .error fault ∧ fault ≠ .offCalendar ∧ fault ≠ .dueDateOutOfRange := by
  have hreports := details.reports_zone
  rw [hzone] at hreports
  refine ⟨?_, (hreports.code fault rfl).2, fun hfault => ?_⟩
  · rw [FrequencyDetails.everyWeek, hzone]
    rfl
  · exact hreports.isOverflow_iff.1 (.inl (congrArg Except.error hfault))

theorem nextWeekday_eq_error_iff [ZoneTable]
    (hpattern : details.weekPattern.getD .everyWeek = .everyWeek) (hfault : fault ≠ .daysMissing) :
    details.nextWeekday base = .error fault ↔
      details.days ≠ [] ∧ details.everyWeek base = .error fault := by
  unfold FrequencyDetails.nextWeekday
  by_cases hdays : details.days = []
  · simp [hdays, hfault.symm]
  · rw [if_neg (by simpa using hdays), hpattern]
    exact (and_iff_right hdays).symm

end Zoned

/-- **Where a weekly search stops the program.** Without a known zone it never does. On the clock of
a zone it does exactly where the clock leaves the calendar at the base or, a listed reading being
left in it, at the guess, or where the result leaves it in UTC. Only the end of the dates that are
searched is reported as a due date out of range. Away from the ends of the calendar the program does
not stop. -/
theorem nextWeekday_stops_iff [ZoneTable] {details : FrequencyDetails}
    (hpattern : details.weekPattern.getD .everyWeek = .everyWeek) (base : Moment) :
    (details.nextWeekday base = .error .offCalendar ↔ details.days ≠ [] ∧
      ∃ zone, details.zone = .ok (some zone) ∧ zone.StopsSearch details.days base) ∧
    (details.nextWeekday base = .error .dueDateOutOfRange ↔ details.days ≠ [] ∧
      (details.zone = .ok none ∧ EndsUnlisted details.days base.nanos ∨
        ∃ zone, details.zone = .ok (some zone) ∧ ¬IsOutside (zone.reading base.nanos) ∧
          EndsUnlisted details.days (zone.reading base.nanos))) ∧
    (IsAwayFromEnds base → details.nextWeekday base ≠ .error .offCalendar) ∧
    Fault.code .dueDateOutOfRange = .invalidSchedule ∧
    Fault.message .dueDateOutOfRange = "next due date is out of range" := by
  have hstops : details.nextWeekday base = .error .offCalendar ↔ details.days ≠ [] ∧
      ∃ zone, details.zone = .ok (some zone) ∧ zone.StopsSearch details.days base := by
    rw [nextWeekday_eq_error_iff hpattern (by decide)]
    refine and_congr_right fun _ => ?_
    cases hzone : details.zone with
    | error cause =>
      obtain ⟨hfault, hother, -⟩ := everyWeek_eq_error_of_unknown base hzone
      simp [hfault, hother]
    | ok zone? =>
      cases zone? with
      | none =>
        rw [everyWeek_eq_error_iff_of_unzoned hzone]
        simp [nextListedDate_ne_offCalendar]
      | some zone =>
        rw [everyWeek_eq_offCalendar_iff hzone]
        simp
  refine ⟨hstops, ?_, fun haway => ?_, rfl, rfl⟩
  · rw [nextWeekday_eq_error_iff hpattern (by decide)]
    refine and_congr_right fun _ => ?_
    cases hzone : details.zone with
    | error cause =>
      obtain ⟨hfault, -, hother⟩ := everyWeek_eq_error_of_unknown base hzone
      simp [hfault, hother]
    | ok zone? =>
      cases zone? with
      | none =>
        rw [everyWeek_eq_error_iff_of_unzoned hzone, nextListedDate_eq_outOfRange_iff]
        simp
      | some zone =>
        rw [everyWeek_eq_outOfRange_iff hzone]
        simp
  · rw [ne_eq, hstops]
    rintro ⟨-, zone, hzone, hleaves⟩
    exact haway.not_stopsSearch details.days hleaves

def lanterns (day zone : String) : Timestamp → Chore :=
  weekly day "02:00Z" zone

/-- In Tokyo the last date of the calendar has begun, and a Saturday does not come any more. -/
theorem lanterns_have_no_saturday :
    (lanterns "saturday" "Asia/Tokyo" (timeOf "9999-12-31T02:00:00Z")).details.nextWeekday
        (timeOf "9999-12-31T02:00:00Z").wall = .error .dueDateOutOfRange ∧
      EndsUnlisted ["saturday"]
        (Zone.tokyo.reading (timeOf "9999-12-31T02:00:00Z").wall.nanos) := by
  have hfault : (lanterns "saturday" "Asia/Tokyo"
      (timeOf "9999-12-31T02:00:00Z")).details.nextWeekday (timeOf "9999-12-31T02:00:00Z").wall =
        .error .dueDateOutOfRange := by decide +kernel
  have hzone : (lanterns "saturday" "Asia/Tokyo" (timeOf "9999-12-31T02:00:00Z")).details.zone =
      .ok (some Zone.tokyo) := rfl
  obtain ⟨-, hiff, -⟩ := @nextWeekday_stops_iff _ (lanterns "saturday" "Asia/Tokyo"
    (timeOf "9999-12-31T02:00:00Z")).details rfl (timeOf "9999-12-31T02:00:00Z").wall
  obtain ⟨-, ⟨hnone, -⟩ | ⟨zone, hfound, -, hends⟩⟩ := hiff.1 hfault
  · cases hzone.symm.trans hnone
  · obtain rfl := Option.some.inj (Except.ok.inj (hzone.symm.trans hfound))
    exact ⟨hfault, hends⟩

/-- In New York the last Friday evening of the calendar is still to come, but in UTC the calendar
ends before. In Tokyo the calendar ends before the lanterns are due. -/
theorem lanterns_stop_in_new_york :
    (lanterns "friday" "America/New_York" (timeOf "9999-12-25T02:00:00Z")).nextDue
        (timeOf "9999-12-24T12:00:00Z") = .error .offCalendar ∧
      (lanterns "friday" "America/New_York" (timeOf "9999-12-25T02:00:00Z")).baseAt
        (timeOf "9999-12-24T12:00:00Z") = .ok (timeOf "9999-12-25T02:00:00Z").wall ∧
      (lanterns "friday" "America/New_York" (timeOf "9999-12-25T02:00:00Z")).details.nextWeekday
        (timeOf "9999-12-25T02:00:00Z").wall = .error .offCalendar ∧
      IsOutside (Zone.newYork.daysLater (timeOf "9999-12-25T02:00:00Z").wall.nanos 7) ∧
      (lanterns "friday" "Asia/Tokyo" (timeOf "9999-12-31T02:00:00Z")).details.nextWeekday
        (timeOf "9999-12-31T20:00:00Z").wall = .error .offCalendar ∧
      IsOutside (Zone.tokyo.reading (timeOf "9999-12-31T20:00:00Z").wall.nanos) :=
  ⟨by decide +kernel, by decide +kernel, by decide +kernel, by unfold IsOutside; decide +kernel,
    by decide +kernel, by unfold IsOutside; decide +kernel⟩

end ChoreRota
