import ChoreRota.Calendar.Zone.Table
import ChoreRota.Proofs.CalendarEnds
import ChoreRota.Proofs.DateSearch
import ChoreRota.Proofs.WallClock

/-!
# Across a change of the clock

The search for the first listed reading of a zone's clock guesses an instant by the offset at the
base and reads the offset once more there. With at most one change of the clock around the base that
is enough: wherever the change lies, the clock shows the reading in the end if it shows it at all.
-/

namespace ChoreRota

theorem exists_moment {nanos : Int} (hinside : ¬IsOutside nanos) :
    ∃ moment : Moment, moment.nanos = nanos := by
  have hsome : Moment.ofNanos? nanos ≠ none := fun hnone =>
    hinside (Moment.ofNanos?_eq_none_iff.1 hnone)
  obtain ⟨moment, hmoment⟩ := Option.ne_none_iff_exists'.1 hsome
  exact ⟨moment, Moment.ofNanos?_eq_some_iff.1 hmoment⟩

/-- The calendar reaches from two days before the base to ten days after it. -/
structure IsAwayFromEnds (base : Moment) : Prop where
  start : ¬IsOutside (base.nanos - days 2)
  finish : ¬IsOutside (base.nanos + days 10)

namespace IsAwayFromEnds

variable {base : Moment} {zone : Zone}

theorem not_isOutside {nanos : Int} (haway : IsAwayFromEnds base)
    (hlow : base.nanos - days 2 ≤ nanos) (hhigh : nanos ≤ base.nanos + days 10) :
    ¬IsOutside nanos := by
  have hstart := haway.start
  have hfinish := haway.finish
  unfold IsOutside at *
  omega

theorem exists_settle (haway : IsAwayFromEnds base) {wall : Moment} {count : Int}
    (hone : 1 ≤ count) (hseven : count ≤ 7)
    (hwall : wall.nanos = zone.reading base.nanos + days count) :
    ∃ next, zone.settle wall (zone.offsetAt base.nanos) = .ok next := by
  have hbase := zone.offsetAt_bounds base.nanos
  have hguess := zone.offsetAt_bounds (base.nanos + days count)
  have hshownInside : ¬IsOutside (zone.reading (base.nanos + days count)) := by
    apply haway.not_isOutside <;> unfold Zone.reading seconds days at * <;> omega
  have hnextInside :
      ¬IsOutside (Timestamp.instant ⟨wall, zone.offsetAt (base.nanos + days count)⟩) := by
    rw [Zone.instant_settled hwall]
    apply haway.not_isOutside <;> unfold Zone.daysLater seconds days at * <;> omega
  obtain ⟨shown, hshown⟩ := exists_moment hshownInside
  obtain ⟨next, hnext⟩ := exists_moment hnextInside
  refine ⟨next, bind_eq_ok_iff.2 ⟨⟨shown, zone.offsetAt (base.nanos + days count)⟩, ?_, ?_⟩⟩
  · rw [onCalendar_eq_ok_iff, Zone.clockAt?_eq_some_iff, Zone.instant_guess hwall]
    exact ⟨hshown, rfl⟩
  · rw [onCalendar_eq_ok_iff, Timestamp.toUtc?, Moment.ofNanos?_eq_some_iff]
    exact hnext

theorem exists_everyWeek [ZoneTable] {details : FrequencyDetails} (haway : IsAwayFromEnds base)
    (hzone : details.zone = .ok (some zone))
    (hlisted : ∃ weekday : Weekday, weekday.isListed details.days = true) :
    ∃ next, details.everyWeek base = .ok next := by
  have hbase := zone.offsetAt_bounds base.nanos
  have hwallInside : ¬IsOutside (zone.reading base.nanos) := by
    apply haway.not_isOutside <;> unfold Zone.reading seconds days <;> omega
  obtain ⟨wall, hwall⟩ := exists_moment hwallInside
  have hroom : wall.date.dayNumber + 7 ≤ lastDay := by
    have hfinish := haway.finish
    have htime := wall.time.nanos_lt
    unfold IsOutside Zone.reading seconds days Moment.nanos at *
    omega
  obtain ⟨date, hdate⟩ := exists_nextListedDate_eq_ok hlisted hroom
  obtain ⟨count, hcount, hnext⟩ := nextListedDate_eq_ok hdate
  rw [hwall] at hcount
  obtain ⟨next, hsettle⟩ := haway.exists_settle hnext.one_le hnext.le_seven hcount
  refine ⟨next, bind_eq_ok_iff.2 ⟨some zone, hzone, bind_eq_ok_iff.2
    ⟨⟨wall, zone.offsetAt base.nanos⟩, ?_, bind_eq_ok_iff.2 ⟨date, hdate, hsettle⟩⟩⟩⟩
  rw [onCalendar_eq_ok_iff, Zone.clockAt?_eq_some_iff, Timestamp.instant_ofUtc]
  exact ⟨hwall, rfl⟩

end IsAwayFromEnds

/-- **Once more is enough.** Away from the ends of the calendar, and with at most one transition of
the zone from two days before the base to ten days after it, a weekly chore is due again whenever it
lists a weekday. If the clock shows the first listed reading after the base at some instant, then it
shows that reading when the chore is due. -/
theorem reading_nextWeekday_of_shows [ZoneTable] {details : FrequencyDetails} {zone : Zone}
    {base : Moment} (hpattern : details.weekPattern.getD .everyWeek = .everyWeek)
    (hlisted : ∃ weekday : Weekday, weekday.isListed details.days = true)
    (hzone : details.zone = .ok (some zone)) (haway : IsAwayFromEnds base)
    (honce : zone.ChangesAtMostOnce (base.nanos - days 2) (base.nanos + days 10)) :
    ∃ next count, details.nextWeekday base = .ok next ∧
      IsNextListedReading details.days (zone.reading base.nanos) count ∧
      (zone.Shows (zone.reading base.nanos + days count) →
        zone.reading next.nanos = zone.reading base.nanos + days count) := by
  obtain ⟨next, hnext⟩ := haway.exists_everyWeek hzone hlisted
  obtain ⟨count, hnanos, hcount⟩ := everyWeek_eq_ok_of_zoned hzone hnext
  have hdays : details.days ≠ [] := by
    rintro hnone
    obtain ⟨weekday, hweekday⟩ := hlisted
    rw [hnone] at hweekday
    cases hweekday
  refine ⟨next, count, ?_, hcount, fun hshows => ?_⟩
  · rw [FrequencyDetails.nextWeekday, if_neg (by simpa using hdays), hpattern]
    exact hnext
  · rw [hnanos]
    exact Zone.reading_daysLater_of_shows honce hcount.one_le hcount.le_seven hshows

def nightWatch : FrequencyDetails :=
  { FrequencyDetails.unset with days := ["sun", "Sunday "], timeZone := some "America/New_York" }

/-- On Saturday at three in the morning the clock has not been put forward yet. On Sunday it shows
three o'clock right after two, an hour earlier in UTC than the guess. -/
theorem nightWatch_meets_three_o_clock :
    Zone.newYork.ChangesAtMostOnce ((timeOf "2025-03-08T08:00:00Z").wall.nanos - days 2)
        ((timeOf "2025-03-08T08:00:00Z").wall.nanos + days 10) ∧
      nightWatch.nextWeekday (timeOf "2025-03-08T08:00:00Z").wall =
        .ok (timeOf "2025-03-09T07:00:00Z").wall ∧
      Zone.newYork.reading (timeOf "2025-03-09T07:00:00Z").wall.nanos =
        Zone.newYork.reading (timeOf "2025-03-08T08:00:00Z").wall.nanos + days 1 := by
  have honce : Zone.newYork.ChangesAtMostOnce
      ((timeOf "2025-03-08T08:00:00Z").wall.nanos - days 2)
      ((timeOf "2025-03-08T08:00:00Z").wall.nanos + days 10) := by decide +kernel
  have haway : IsAwayFromEnds (timeOf "2025-03-08T08:00:00Z").wall :=
    ⟨by unfold IsOutside; decide +kernel, by unfold IsOutside; decide +kernel⟩
  have hfirst : IsNextListedReading ["sun", "Sunday "]
      (Zone.newYork.reading (timeOf "2025-03-08T08:00:00Z").wall.nanos) 1 :=
    ⟨by decide, by decide, by decide +kernel, fun earlier hlow hhigh => by omega⟩
  have hfound : nightWatch.nextWeekday (timeOf "2025-03-08T08:00:00Z").wall =
      .ok (timeOf "2025-03-09T07:00:00Z").wall := by decide +kernel
  have hsunday : ∃ weekday : Weekday, weekday.isListed nightWatch.days = true :=
    ⟨.sunday, by decide +kernel⟩
  obtain ⟨next, count, hnext, hcount, hshown⟩ :=
    reading_nextWeekday_of_shows rfl hsunday rfl haway honce
  obtain rfl := Except.ok.inj (hfound.symm.trans hnext)
  obtain rfl := hcount.eq hfirst
  exact ⟨honce, hfound, hshown ⟨(timeOf "2025-03-09T07:00:00Z").wall.nanos, by decide +kernel⟩⟩

end ChoreRota
