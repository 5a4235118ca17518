import ChoreRota.Calendar.Zone.Table
import ChoreRota.Proofs.WeeklySlots

/-!
# The time of day on a zone's clock

Every step of a weekly chore begins anew from the configured time of day in UTC and keeps what the
clock of the zone shows there. So the time of day on that clock outlasts a change of the offset for
the one step that crosses it (`clockTime_nextDue_eq_iff`).
-/

namespace ChoreRota

def clockTime (reading : Int) : Int :=
  reading % 86400000000000

namespace Zone

variable {zone : Zone}

def Shows (zone : Zone) (reading : Int) : Prop :=
  ∃ instant, zone.reading instant = reading

/-- Around a single change a reading up to seven days later is met, wherever the change lies and
however large it is, if the clock shows that reading at all. -/
theorem reading_daysLater_of_shows {base count : Int}
    (honce : zone.ChangesAtMostOnce (base - days 2) (base + days 10)) (hone : 1 ≤ count)
    (hseven : count ≤ 7) (hshows : zone.Shows (zone.reading base + days count)) :
    zone.reading (zone.daysLater base count) = zone.reading base + days count := by
  obtain ⟨shown, hshown⟩ := hshows
  obtain ⟨change, hchange⟩ := exists_changesAt (by unfold days; omega) honce
  have hbaseBounds := zone.offsetAt_bounds base
  have hshownBounds := zone.offsetAt_bounds shown
  have hguessBounds := zone.offsetAt_bounds (base + days count)
  rw [reading_daysLater_eq]
  unfold reading seconds at *
  unfold daysLater seconds days at *
  have hbase := hchange base (by omega) (by omega)
  have hguess := hchange (base + count * 86400000000000) (by omega) (by omega)
  have hlater := hchange (base + count * 86400000000000 -
    (zone.offsetAt (base + count * 86400000000000) - zone.offsetAt base) * 1000000000)
    (by omega) (by omega)
  have hmet := hchange shown (by omega) (by omega)
  -- The result misses the reading only if the change lies between it and the guess, and then no
  -- instant on either side of the change shows the reading.
  split at hbase <;> split at hguess <;> split at hlater <;> split at hmet <;> omega

/-- What the clock shows some days later has the time of day of another reading, whose time of day
in UTC is the same, exactly if the clock has gained whole days in all. -/
theorem clockTime_daysLater_eq_iff (zone : Zone) {base first : Moment}
    (htime : base.time = first.time) (count : Int) :
    clockTime (zone.reading (zone.daysLater base.nanos count)) =
        clockTime (zone.reading first.nanos) ↔
      86400 ∣ zone.offsetAt base.nanos - zone.offsetAt first.nanos -
        (zone.offsetAt (base.nanos + days count) -
          zone.offsetAt (zone.daysLater base.nanos count)) := by
  have hbase : base.nanos = base.date.dayNumber * 86400000000000 + first.time.nanos := by
    rw [Moment.nanos, htime]
  have hfirst : first.nanos = first.date.dayNumber * 86400000000000 + first.time.nanos := rfl
  rw [reading_daysLater_eq]
  unfold clockTime Zone.reading seconds
  generalize zone.offsetAt (zone.daysLater base.nanos count) = later
  generalize zone.offsetAt (base.nanos + days count) = guess
  generalize zone.offsetAt base.nanos = offset at *
  generalize zone.offsetAt first.nanos = firstOffset at *
  unfold days
  omega

end Zone

/-- Where a weekly chore goes on the clock of its zone: from the configured time on the day of its
due date, or on the next day for a later completion, to the first listed reading. -/
theorem Chore.IsWeekly.exists_base [ZoneTable] {chore : Chore} {zone : Zone}
    {prior completed : Moment} {time : TimeOfDay} {completedAt : Timestamp}
    {nextDueDate : Option Moment} (hweekly : chore.IsWeekly (some zone))
    (hprior : chore.IsDue prior) (htime : chore.details.configuredTime = .ok time)
    (hcompleted : completedAt.toUtc? = some completed)
    (hnext : chore.nextDue completedAt = .ok nextDueDate) :
    ∃ (base due : Moment) (count : Int), nextDueDate = some due ∧ base.time = time ∧
      (base.date = prior.date ∨ base.date.dayNumber = prior.date.dayNumber + 1 ∧
        (prior.atTime time).nanos < completed.nanos) ∧
      due.nanos = zone.daysLater base.nanos count ∧
      IsNextListedReading chore.details.days (zone.reading base.nanos) count := by
  obtain ⟨hadapts, hrepeats, huses⟩ := hweekly.repeats
  obtain ⟨base, due, hbase, hadvance, hdue⟩ :=
    (hprior.nextDue_eq_ok_iff hadapts hrepeats hcompleted).1 hnext
  obtain ⟨hconfigured, hdate⟩ := baseDate_eq_ok huses hweekly.fixed hbase
  obtain rfl := Except.ok.inj (hconfigured.symm.trans htime)
  -- The pattern leaves only the search on the zone's clock.
  rw [advance, hweekly.kind] at hadvance
  obtain ⟨-, heveryWeek⟩ | ⟨hother, -⟩ := nextWeekday_eq_ok hadvance
  · obtain ⟨count, hnanos, hlisted⟩ := everyWeek_eq_ok_of_zoned hweekly.zone heveryWeek
    refine ⟨base, due, count, hdue, rfl, ?_, hnanos, hlisted⟩
    exact hdate.imp_left And.left
  · exact absurd hweekly.pattern hother

/-- **How long a time of day lasts.** After any run, an event begins at the configured time in UTC
on the day of the due date, or on the day after it for a late completion or a due date past that
time, and aims at the first listed reading of the clock whole days later. The time of day that the
clock shows when the chore is due is that of the first due date exactly if the offsets at the
beginning of the step and at the first due date differ by what the clock gains between the due date
and the guess, up to whole days. Around a single change it gains nothing there if it shows the
reading that is aimed at, so that only the two offsets count. -/
theorem clockTime_nextDue_eq_iff [ZoneTable] {window : Nat} {state next : State}
    {past : List Event} {event : Event} {decision : Decision} {zone : Zone} {first : Moment}
    (hweekly : state.snapshot.chore.IsWeekly (some zone))
    (hfirst : state.snapshot.chore.IsDue first)
    (htime : state.snapshot.chore.details.configuredTime = .ok first.time)
    (hstep : (state.after window past).step window event = (.ok (.decided decision), next)) :
    ∃ (prior base due : Moment) (count : Int),
      (state.after window past).snapshot.chore.IsDue prior ∧ base.time = first.time ∧
      (base.date = prior.date ∨ base.date.dayNumber = prior.date.dayNumber + 1 ∧
        (decision.status = .completedLate ∨ (prior.atTime first.time).nanos < prior.nanos)) ∧
      decision.nextDueDate = some due ∧
      IsNextListedReading state.snapshot.chore.details.days (zone.reading base.nanos) count ∧
      (clockTime (zone.reading due.nanos) = clockTime (zone.reading first.nanos) ↔
        86400 ∣ zone.offsetAt base.nanos - zone.offsetAt first.nanos -
          (zone.offsetAt (base.nanos + days count) - zone.offsetAt due.nanos)) ∧
      (zone.ChangesAtMostOnce (base.nanos - days 2) (base.nanos + days 10) →
        zone.Shows (zone.reading base.nanos + days count) →
        zone.reading due.nanos = zone.reading base.nanos + days count ∧
        (clockTime (zone.reading due.nanos) = clockTime (zone.reading first.nanos) ↔
          86400 ∣ zone.offsetAt base.nanos - zone.offsetAt first.nanos)) := by
  have htask := State.task_after window state past
  have hcurrent := hweekly.of_task htask
  have hdetails : (state.after window past).snapshot.chore.details =
      state.snapshot.chore.details := Chore.eq_of_task Chore.details (fun _ => rfl) htask
  obtain ⟨hadapts, hrepeats, -⟩ := hweekly.repeats
  have hstaysDue : ∃ due, (state.after window past).snapshot.chore.IsDue due :=
    State.exists_isDue_after hadapts hrepeats hfirst past
  obtain ⟨prior, hprior⟩ := hstaysDue
  obtain ⟨reference, completed, hcompleted, hnext, hlate⟩ :=
    State.nextDue_of_step_of_isDue hcurrent.repeats.1 hprior hstep
  rw [← hdetails] at htime
  obtain ⟨base, due, count, hdue, hsameTime, hdate, hnanos, hlisted⟩ :=
    hcurrent.exists_base hprior htime hcompleted hnext
  rw [hdetails] at hlisted
  have hclock := zone.clockTime_daysLater_eq_iff hsameTime count
  rw [← hnanos] at hclock
  refine ⟨prior, base, due, count, hprior, hsameTime, ?_, hdue, hlisted, hclock, ?_⟩
  · obtain hsame | ⟨hday, hslot⟩ := hdate
    · exact .inl hsame
    · rw [hlate]
      exact .inr ⟨hday, by omega⟩
  · intro honce hshows
    have hshown := Zone.reading_daysLater_of_shows honce hlisted.one_le hlisted.le_seven hshows
    have hgain := zone.reading_daysLater_eq base.nanos count
    rw [← hnanos] at hshown hgain
    have hsteady : zone.offsetAt (base.nanos + days count) - zone.offsetAt due.nanos = 0 := by
      unfold seconds at hgain
      omega
    rw [hsteady, Int.sub_zero] at hclock
    exact ⟨hshown, hclock⟩

/-- Mondays at eight in the evening by the winter clock of New York. -/
def rehearsal : State where
  snapshot := ⟨weekly "monday" "01:00Z" "America/New_York" (timeOf "2025-03-04T01:00:00Z"), []⟩
  source := Chance.Source.start (.script [])

theorem rehearsal_isWeekly : rehearsal.snapshot.chore.IsWeekly (some Zone.newYork) :=
  ⟨rfl, rfl, rfl, rfl⟩

theorem rehearsal_isDue :
    rehearsal.snapshot.chore.IsDue (timeOf "2025-03-04T01:00:00Z").wall :=
  ⟨_, rfl, by decide +kernel⟩

def skipRehearsal : Event :=
  .skip 1 (timeOf "2025-03-03T12:00:00Z") false none

theorem rehearsal_stays_at_eight :
    rehearsal.decisions 5 [skipRehearsal] =
        [⟨some (timeOf "2025-03-11T00:00:00Z").wall, some 1, false, .skipped⟩] ∧
      clockTime (Zone.newYork.reading (timeOf "2025-03-11T00:00:00Z").wall.nanos) =
        clockTime (Zone.newYork.reading (timeOf "2025-03-04T01:00:00Z").wall.nanos) := by
  have hdecisions : rehearsal.decisions 5 [skipRehearsal] =
      [⟨some (timeOf "2025-03-11T00:00:00Z").wall, some 1, false, .skipped⟩] := by decide +kernel
  have hstep : (rehearsal.after 5 []).step 5 skipRehearsal =
      (.ok (.decided ⟨some (timeOf "2025-03-11T00:00:00Z").wall, some 1, false, .skipped⟩),
        (rehearsal.step 5 skipRehearsal).2) := by decide +kernel
  obtain ⟨prior, base, due, count, hprior, htime, hdate, hdue, hlisted, -, hclock⟩ :=
    clockTime_nextDue_eq_iff rehearsal_isWeekly rehearsal_isDue (by decide +kernel) hstep
  obtain rfl := rehearsal_isDue.eq hprior
  obtain rfl := Option.some.inj hdue
  have hbase : base = (timeOf "2025-03-04T01:00:00Z").wall := by
    obtain hsame | ⟨-, hlate | hpast⟩ := hdate
    · rw [Moment.mk.injEq]
      exact ⟨hsame, htime⟩
    · cases hlate
    · exact absurd hpast (by decide +kernel)
  subst hbase
  have hreading : Zone.newYork.reading (timeOf "2025-03-04T01:00:00Z").wall.nanos =
      1741032000000000000 := by decide +kernel
  have hcount : count = 7 := by
    have hone := hlisted.one_le
    have hseven := hlisted.le_seven
    have hmonday : (weekdayOf (1741032000000000000 + days count)).isListed ["monday"] = true :=
      hreading ▸ hlisted.listed
    have hcases : count = 1 ∨ count = 2 ∨ count = 3 ∨ count = 4 ∨ count = 5 ∨ count = 6 ∨
        count = 7 := by omega
    rcases hcases with rfl | rfl | rfl | rfl | rfl | rfl | rfl
    all_goals first | rfl | exact absurd hmonday (by decide)
  subst hcount
  have hshows : Zone.newYork.Shows
      (Zone.newYork.reading (timeOf "2025-03-04T01:00:00Z").wall.nanos + days 7) :=
    ⟨(timeOf "2025-03-11T00:00:00Z").wall.nanos, by decide +kernel⟩
  have honce : Zone.newYork.ChangesAtMostOnce
      ((timeOf "2025-03-04T01:00:00Z").wall.nanos - days 2)
      ((timeOf "2025-03-04T01:00:00Z").wall.nanos + days 10) := by decide +kernel
  exact ⟨hdecisions, (hclock honce hshows).2.2 (by decide +kernel)⟩

/-- From the second step on they are at nine, though the clock of that day shows eight as well. -/
theorem rehearsal_slips_to_nine :
    rehearsal.snapshot.chore.IsWeekly (some Zone.newYork) ∧
      rehearsal.snapshot.chore.IsDue (timeOf "2025-03-04T01:00:00Z").wall ∧
      rehearsal.snapshot.chore.details.configuredTime =
        .ok (timeOf "2025-03-04T01:00:00Z").wall.time ∧
      rehearsal.decisions 5 [skipRehearsal, skipRehearsal] =
        [⟨some (timeOf "2025-03-11T00:00:00Z").wall, some 1, false, .skipped⟩,
          ⟨some (timeOf "2025-03-18T01:00:00Z").wall, some 1, false, .skipped⟩] ∧
      clockTime (Zone.newYork.reading (timeOf "2025-03-18T01:00:00Z").wall.nanos) ≠
        clockTime (Zone.newYork.reading (timeOf "2025-03-04T01:00:00Z").wall.nanos) ∧
      ∃ reading, Zone.newYork.Shows reading ∧
        reading / days 1 =
          Zone.newYork.reading (timeOf "2025-03-18T01:00:00Z").wall.nanos / days 1 ∧
        clockTime reading =
          clockTime (Zone.newYork.reading (timeOf "2025-03-04T01:00:00Z").wall.nanos) :=
  ⟨rehearsal_isWeekly, rehearsal_isDue, by decide +kernel, by decide +kernel, by decide +kernel,
    _, ⟨(timeOf "2025-03-18T00:00:00Z").wall.nanos, rfl⟩, by decide +kernel, by decide +kernel⟩

end ChoreRota
