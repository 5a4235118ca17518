import ChoreRota.Calendar.Zone.Table
import ChoreRota.Proofs.Schedule
import ChoreRota.Proofs.ZoneClock

/-!
# The weekdays of a schedule

A chore without a zone is due at the same time of day on a later date, and a chore with a zone where
its clock is put so many days later (`everyWeek_eq_ok_of_zoned`). It depends on the transitions of
the zone whether that is on a listed weekday, and whether it is after the base at all.
-/

namespace ChoreRota

theorem firstWanted_eq_ok {isWanted : Date → Bool} {missing : Fault} {date found : Date}
    {bound : Nat} (hfound : firstWanted isWanted missing date bound = .ok found) :
    ∃ count : Int, 1 ≤ count ∧ count ≤ bound ∧ found.dayNumber = date.dayNumber + count ∧
      isWanted found = true ∧ ∀ earlier : Date, date.dayNumber < earlier.dayNumber →
        earlier.dayNumber < found.dayNumber → isWanted earlier = false := by
  induction bound generalizing date with
  | zero => cases hfound
  | succ bound ih =>
    rw [firstWanted] at hfound
    split at hfound
    · cases hfound
    · rename_i next hnext
      have hday := Date.ofDayNumber?_eq_some_iff.1 hnext
      split at hfound
      · rename_i hwanted
        obtain rfl := Except.ok.inj hfound
        exact ⟨1, by omega, by omega, hday, hwanted, fun earlier hlow hhigh => by omega⟩
      · rename_i hunwanted
        obtain ⟨count, hone, hbound, hfoundDay, hwanted, hskipped⟩ := ih hfound
        refine ⟨count + 1, by omega, by omega, by omega, hwanted, fun earlier hlow hhigh => ?_⟩
        by_cases hsame : earlier.dayNumber = next.dayNumber
        · rw [Date.eq_of_dayNumber hsame]
          exact Bool.eq_false_iff.2 hunwanted
        · exact hskipped earlier (by omega) hhigh

/-- The first reading, whole days after another one, that falls on a listed weekday. -/
structure IsNextListedReading (names : List String) (reading : Int) (count : Int) : Prop where
  one_le : 1 ≤ count
  le_seven : count ≤ 7
  listed : (weekdayOf (reading + days count)).isListed names = true
  skipsNone : ∀ earlier, 1 ≤ earlier → earlier < count →
    (weekdayOf (reading + days earlier)).isListed names = false

theorem IsNextListedReading.eq {names : List String} {reading count other : Int}
    (hcount : IsNextListedReading names reading count)
    (hother : IsNextListedReading names reading other) : count = other := by
  rcases Int.lt_trichotomy count other with hlt | heq | hgt
  · have hskipped := hother.skipsNone count hcount.one_le hlt
    rw [hcount.listed] at hskipped
    cases hskipped
  · exact heq
  · have hskipped := hcount.skipsNone other hother.one_le hgt
    rw [hother.listed] at hskipped
    cases hskipped

section EveryWeek

variable {details : FrequencyDetails} {base next : Moment}

theorem nextListedDate_eq_ok {names : List String} {moment : Moment} {date : Date}
    (hdate : nextListedDate names moment.date = .ok date) :
    ∃ count, (moment.onDate date).nanos = moment.nanos + days count ∧
      IsNextListedReading names moment.nanos count := by
  obtain ⟨count, hone, hseven, hday, hlisted, hskipped⟩ := firstWanted_eq_ok hdate
  have hshift : ∀ {later : Date} {elapsed : Int},
      later.dayNumber = moment.date.dayNumber + elapsed →
        (moment.onDate later).nanos = moment.nanos + days elapsed := fun hdays =>
    Moment.nanos_eq_add_days_iff.2 ⟨hdays, rfl⟩
  refine ⟨count, hshift hday, hone, hseven, ?_, fun earlier hlow hhigh => ?_⟩
  · rw [← hshift hday, weekdayOf_nanos]
    exact hlisted
  · have hstart := moment.date.firstDay_le
    have hend := date.le_lastDay
    let between : Date := ⟨moment.date.dayNumber + earlier, by omega, by omega⟩
    have hbetween : between.dayNumber = moment.date.dayNumber + earlier := rfl
    rw [← hshift hbetween, weekdayOf_nanos]
    exact hskipped between (by omega) (by omega)

theorem everyWeek_eq_ok_of_unzoned [ZoneTable] (hzone : details.zone = .ok none)
    (hnext : details.everyWeek base = .ok next) :
    ∃ count, next.nanos = base.nanos + days count ∧
      IsNextListedReading details.days base.nanos count := by
  obtain ⟨zone, hfound, hnext⟩ := bind_eq_ok_iff.1 hnext
  obtain rfl := Except.ok.inj (hzone.symm.trans hfound)
  obtain ⟨date, hdate, hnext⟩ := bind_eq_ok_iff.1 hnext
  obtain rfl := Except.ok.inj hnext
  exact nextListedDate_eq_ok hdate

theorem everyWeek_eq_ok_of_zoned [ZoneTable] {zone : Zone} (hzone : details.zone = .ok (some zone))
    (hnext : details.everyWeek base = .ok next) :
    ∃ count, next.nanos = zone.daysLater base.nanos count ∧
      IsNextListedReading details.days (zone.reading base.nanos) count := by
  obtain ⟨found, hfound, hnext⟩ := bind_eq_ok_iff.1 hnext
  obtain rfl := Except.ok.inj (hzone.symm.trans hfound)
  obtain ⟨clock, hclock, hnext⟩ := bind_eq_ok_iff.1 hnext
  obtain ⟨date, hdate, hnext⟩ := bind_eq_ok_iff.1 hnext
  obtain ⟨guess, hguess, hnext⟩ := bind_eq_ok_iff.1 hnext
  obtain ⟨hreading, hoffset⟩ := Zone.clockAt?_eq_some_iff.1 (onCalendar_eq_ok_iff.1 hclock)
  obtain ⟨-, hguessOffset⟩ := Zone.clockAt?_eq_some_iff.1 (onCalendar_eq_ok_iff.1 hguess)
  have hnanos := Moment.ofNanos?_eq_some_iff.1 (onCalendar_eq_ok_iff.1 hnext)
  obtain ⟨count, hwall, hlisted⟩ := nextListedDate_eq_ok hdate
  rw [Timestamp.instant_ofUtc] at hreading hoffset
  rw [hreading] at hwall hlisted
  refine ⟨count, ?_, hlisted⟩
  -- The guess is made so many days of UTC after the base, by the offset that was in force there.
  rw [hoffset, Zone.instant_guess hwall] at hguessOffset
  rw [hnanos, hguessOffset]
  exact Zone.instant_settled hwall

theorem nextOccurrence_eq_ok {period : Period}
    (hnext : details.nextOccurrence base period = .ok next) :
    ∃ count : Int, 1 ≤ count ∧ count ≤ 730 ∧ next.nanos = base.nanos + days count := by
  unfold FrequencyDetails.nextOccurrence at hnext
  split at hnext
  · cases hnext
  · obtain ⟨-, -, hnext⟩ := bind_eq_ok_iff.1 hnext
    obtain ⟨date, hdate, hnext⟩ := bind_eq_ok_iff.1 hnext
    obtain rfl := Except.ok.inj hnext
    obtain ⟨count, hone, hbound, hday, -⟩ := firstWanted_eq_ok hdate
    exact ⟨count, hone, hbound, Moment.nanos_eq_add_days_iff.2 ⟨hday, rfl⟩⟩

theorem nextWeekday_eq_ok [ZoneTable] (hnext : details.nextWeekday base = .ok next) :
    details.weekPattern.getD .everyWeek = .everyWeek ∧ details.everyWeek base = .ok next ∨
      details.weekPattern.getD .everyWeek ≠ .everyWeek ∧
        ∃ period, details.nextOccurrence base period = .ok next := by
  unfold FrequencyDetails.nextWeekday at hnext
  split at hnext
  · cases hnext
  · split at hnext
    · rename_i hpattern
      exact .inl ⟨hpattern, hnext⟩
    · rename_i hpattern
      exact .inr ⟨by rw [hpattern]; decide, .month, hnext⟩
    · rename_i hpattern
      exact .inr ⟨by rw [hpattern]; decide, .quarter, hnext⟩

end EveryWeek

theorem nextDue_eq_nextWeekday [ZoneTable] {chore : Chore} {completedAt : Timestamp} {next : Moment}
    (hkind : chore.kind = .daysOfTheWeek) (hnext : chore.nextDue completedAt = .ok (some next)) :
    ∃ base, chore.baseAt completedAt = .ok base ∧ chore.details.nextWeekday base = .ok next := by
  obtain ⟨completed, priorDue, hcompleted, hpriorDue, hsteps⟩ :=
    Chore.nextDue_eq_ok (by rw [hkind]; decide) hnext
  obtain ⟨-, hnone⟩ | ⟨-, base, found, hbase, hfound, hsome⟩ := hsteps
  · cases hnone
  · obtain rfl := Option.some.inj hsome
    rw [Chore.advance, hkind] at hfound
    exact ⟨base, (Chore.baseAt_eq_ok hcompleted hpriorDue).trans hbase, hfound⟩

/-- **The weekday on the zone's clock.** A chore that is due every week aims at the first listed
reading after its base, whole days later, and is due where the clock shows that reading less what
the offset gains between there and the guess. Around a single change the clock then shows a listed
weekday. Only when it leaps over that reading it shows one earlier by the leap, which has to be on a
listed weekday itself. -/
theorem weekday_nextDue_isListed_iff [ZoneTable] {chore : Chore} {completedAt : Timestamp}
    {zone : Zone} {next : Moment} (hkind : chore.kind = .daysOfTheWeek)
    (hpattern : chore.details.weekPattern.getD .everyWeek = .everyWeek)
    (hzone : chore.details.zone = .ok (some zone))
    (hnext : chore.nextDue completedAt = .ok (some next)) :
    ∃ base count, chore.baseAt completedAt = .ok base ∧
      IsNextListedReading chore.details.days (zone.reading base.nanos) count ∧
      zone.reading next.nanos = zone.reading base.nanos + days count -
        (seconds (zone.offsetAt (base.nanos + days count)) -
          seconds (zone.offsetAt next.nanos)) ∧
      (zone.ChangesAtMostOnce (base.nanos - days 2) (base.nanos + days 10) →
        ((weekdayOf (zone.reading next.nanos)).isListed chore.details.days = true ↔
          ∀ jump, zone.LeapsOver (zone.reading base.nanos + days count) jump →
            (weekdayOf (zone.reading base.nanos + days count - jump)).isListed
              chore.details.days = true) ∧
        ((∀ jump, ¬zone.LeapsOver (zone.reading base.nanos + days count) jump) →
          zone.reading next.nanos = zone.reading base.nanos + days count)) := by
  obtain ⟨base, hbase, hweekday⟩ := nextDue_eq_nextWeekday hkind hnext
  obtain ⟨-, heveryWeek⟩ | ⟨hother, -⟩ := nextWeekday_eq_ok hweekday
  · obtain ⟨count, hnanos, hlisted⟩ := everyWeek_eq_ok_of_zoned hzone heveryWeek
    refine ⟨base, count, hbase, hlisted, ?_, fun honce => ?_⟩
    · rw [hnanos]
      exact zone.reading_daysLater_eq base.nanos count
    · rw [hnanos]
      obtain ⟨hnever, hreading⟩ | ⟨jump, hleap, hreading⟩ :=
        Zone.reading_daysLater honce hlisted.one_le hlisted.le_seven
      · rw [hreading]
        exact ⟨⟨fun _ jump hjump => absurd hjump (hnever jump), fun _ => hlisted.listed⟩,
          fun _ => rfl⟩
      · rw [hreading]
        refine ⟨⟨fun hshown other hother => ?_, fun hall => hall jump ((hleap jump).2 rfl)⟩,
          fun hnever => absurd ((hleap jump).2 rfl) (hnever jump)⟩
        rw [(hleap other).1 hother]
        exact hshown
  · exact absurd hpattern hother

def weekly (day time zone : String) (dueDate : Timestamp) : Chore where
  id := 3
  name := "open the hall"
  kind := .daysOfTheWeek
  frequency := 1
  details :=
    { FrequencyDetails.unset with days := [day], time := some time, timeZone := some zone }
  dueDate := some dueDate
  isRolling := false
  strategy := .keepLastAssigned
  assignedTo := some 1
  assignees := [1]
  createdBy := 1
  isActive := true
  completionWindow := none

/-- Sundays at half past midnight by the winter clock of São Paulo. -/
def choir : Timestamp → Chore :=
  weekly "sunday" "03:30Z" "America/Sao_Paulo"

theorem choir_isListed_unless_leaps :
    (choir (timeOf "2018-10-14T03:30:00Z")).nextDue (timeOf "2018-10-17T20:00:00Z") =
        .ok (some (timeOf "2018-10-21T03:30:00Z").wall) ∧
      ∃ base count,
        (choir (timeOf "2018-10-14T03:30:00Z")).baseAt (timeOf "2018-10-17T20:00:00Z") =
            .ok base ∧
          IsNextListedReading ["sunday"] (Zone.saoPaulo.reading base.nanos) count ∧
          Zone.saoPaulo.ChangesAtMostOnce (base.nanos - days 2) (base.nanos + days 10) ∧
          ∀ jump, Zone.saoPaulo.LeapsOver (Zone.saoPaulo.reading base.nanos + days count) jump →
            (weekdayOf (Zone.saoPaulo.reading base.nanos + days count - jump)).isListed
              ["sunday"] = true := by
  have hnext : (choir (timeOf "2018-10-14T03:30:00Z")).nextDue (timeOf "2018-10-17T20:00:00Z") =
      .ok (some (timeOf "2018-10-21T03:30:00Z").wall) := rfl
  have hfirst : (choir (timeOf "2018-10-14T03:30:00Z")).baseAt (timeOf "2018-10-17T20:00:00Z") =
      .ok (timeOf "2018-10-15T03:30:00Z").wall := rfl
  obtain ⟨base, count, hbase, hlisted, -, hshown⟩ :=
    weekday_nextDue_isListed_iff rfl rfl rfl hnext
  obtain rfl := Except.ok.inj (hfirst.symm.trans hbase)
  have honce : Zone.saoPaulo.ChangesAtMostOnce
      ((timeOf "2018-10-15T03:30:00Z").wall.nanos - days 2)
      ((timeOf "2018-10-15T03:30:00Z").wall.nanos + days 10) := by decide +kernel
  exact ⟨hnext, _, count, hbase, hlisted, honce, (hshown honce).1.1 (by decide +kernel)⟩

/-- The clock leaps over the first hour of a Sunday, and the choir is due late on Saturday. -/
theorem choir_due_on_saturday :
    (choir (timeOf "2018-10-28T03:30:00Z")).nextDue (timeOf "2018-10-28T03:30:00Z") =
        .ok (some (timeOf "2018-11-04T02:30:00Z").wall) ∧
      (choir (timeOf "2018-10-28T03:30:00Z")).details.zone = .ok (some Zone.saoPaulo) ∧
      weekdayOf (Zone.saoPaulo.reading (timeOf "2018-11-04T02:30:00Z").wall.nanos) = .saturday ∧
      Weekday.saturday.isListed (choir (timeOf "2018-10-28T03:30:00Z")).details.days = false :=
  ⟨rfl, rfl, by decide +kernel, by decide +kernel⟩

/-- The zone's clock gains at least as many days as the next listed reading is away: when so many
days have passed, it shows twice as many. -/
def StallsAt [ZoneTable] (details : FrequencyDetails) (base : Moment) : Prop :=
  details.weekPattern.getD .everyWeek = .everyWeek ∧
    ∃ zone count, details.zone = .ok (some zone) ∧
      IsNextListedReading details.days (zone.reading base.nanos) count ∧
      zone.reading base.nanos + days (2 * count) ≤ zone.reading (base.nanos + days count)

/-- The zone's clock leaps over a listed day: a day after the base it shows two days more. -/
def LeapsOverListedDay [ZoneTable] (details : FrequencyDetails) (base : Moment) : Prop :=
  details.weekPattern.getD .everyWeek = .everyWeek ∧
    ∃ zone, details.zone = .ok (some zone) ∧
      zone.reading (base.nanos + days 1) = zone.reading base.nanos + days 2 ∧
      (weekdayOf (zone.reading base.nanos + days 1)).isListed details.days = true

def Zone.GainsADayAtMost (zone : Zone) (instant : Int) : Prop :=
  ∀ count, 1 ≤ count → count ≤ 7 →
    zone.reading (instant + days count) ≤ zone.reading instant + days (count + 1)

section Zoned

variable {details : FrequencyDetails} {zone : Zone} {base next : Moment}

theorem lt_everyWeek_iff_of_zoned [ZoneTable]
    (hpattern : details.weekPattern.getD .everyWeek = .everyWeek)
    (hzone : details.zone = .ok (some zone)) (hnext : details.everyWeek base = .ok next) :
    base.nanos < next.nanos ↔ ¬StallsAt details base := by
  obtain ⟨count, hnanos, hlisted⟩ := everyWeek_eq_ok_of_zoned hzone hnext
  rw [hnanos, Zone.lt_daysLater_iff]
  constructor
  · rintro hlt ⟨-, found, distance, hfound, hother, hle⟩
    obtain rfl := Option.some.inj (Except.ok.inj (hzone.symm.trans hfound))
    obtain rfl := hlisted.eq hother
    omega
  · intro hmoves
    by_contra hle
    exact hmoves ⟨hpattern, zone, count, hzone, hlisted, Int.not_lt.1 hle⟩

theorem le_everyWeek_of_gainsADayAtMost [ZoneTable]
    (hpattern : details.weekPattern.getD .everyWeek = .everyWeek)
    (hzone : details.zone = .ok (some zone)) (hgain : zone.GainsADayAtMost base.nanos)
    (hnext : details.everyWeek base = .ok next) :
    base.nanos ≤ next.nanos ∧ (base.nanos = next.nanos ↔ LeapsOverListedDay details base) := by
  obtain ⟨count, hnanos, hlisted⟩ := everyWeek_eq_ok_of_zoned hzone hnext
  rw [hnanos]
  obtain ⟨hle, hstill⟩ :=
    Zone.le_daysLater (hgain count hlisted.one_le hlisted.le_seven) hlisted.one_le
  refine ⟨hle, hstill.trans ?_⟩
  constructor
  · rintro ⟨rfl, hleap⟩
    exact ⟨hpattern, zone, hzone, hleap, hlisted.listed⟩
  · rintro ⟨-, found, hfound, hleap, hnextListed⟩
    obtain rfl := Option.some.inj (Except.ok.inj (hzone.symm.trans hfound))
    refine ⟨?_, hleap⟩
    by_contra hlater
    have hone := hlisted.one_le
    have hskipped := hlisted.skipsNone 1 (by omega) (by omega)
    rw [hskipped] at hnextListed
    cases hnextListed

end Zoned

/-- **Progress.** A chore on days of the week is due after its base, unless the clock of its zone
gains as many days as the next listed reading is away. A clock that gains a day at most never takes
the chore back, and makes it stand still only where it leaps over a listed day. -/
theorem lt_nextDue_iff [ZoneTable] {chore : Chore} {completedAt : Timestamp} {next : Moment}
    (hkind : chore.kind = .daysOfTheWeek) (hnext : chore.nextDue completedAt = .ok (some next)) :
    ∃ base, chore.baseAt completedAt = .ok base ∧
      (base.nanos < next.nanos ↔ ¬StallsAt chore.details base) ∧
      ((∀ zone, chore.details.zone = .ok (some zone) → zone.GainsADayAtMost base.nanos) →
        base.nanos ≤ next.nanos ∧
          (base.nanos < next.nanos ↔ ¬LeapsOverListedDay chore.details base)) := by
  obtain ⟨base, hbase, hweekday⟩ := nextDue_eq_nextWeekday hkind hnext
  refine ⟨base, hbase, ?_⟩
  -- Without a zone, or in a period, the search counts days of UTC and no clock can hold it up.
  have hforward : ∀ {count : Int}, 1 ≤ count → next.nanos = base.nanos + days count →
      base.nanos < next.nanos := fun hone hnanos => by
    rw [hnanos, days]
    omega
  obtain ⟨hpattern, heveryWeek⟩ | ⟨hpattern, period, hoccurrence⟩ := nextWeekday_eq_ok hweekday
  · obtain ⟨zone, hzone, -⟩ := bind_eq_ok_iff.1 heveryWeek
    cases zone with
    | none =>
      obtain ⟨count, hnanos, hlisted⟩ := everyWeek_eq_ok_of_unzoned hzone heveryWeek
      have hlt := hforward hlisted.one_le hnanos
      have hunzoned : ∀ zone, chore.details.zone ≠ .ok (some zone) := fun zone hfound => by
        cases hzone.symm.trans hfound
      exact ⟨iff_of_true hlt fun ⟨_, zone, _, hfound, _⟩ => hunzoned zone hfound,
        fun _ => ⟨Int.le_of_lt hlt, iff_of_true hlt fun ⟨_, zone, hfound, _⟩ =>
          hunzoned zone hfound⟩⟩
    | some zone =>
      refine ⟨lt_everyWeek_iff_of_zoned hpattern hzone heveryWeek, fun hgain => ?_⟩
      obtain ⟨hle, hstill⟩ :=
        le_everyWeek_of_gainsADayAtMost hpattern hzone (hgain zone hzone) heveryWeek
      refine ⟨hle, ?_⟩
      rw [← hstill]
      omega
  · obtain ⟨count, hone, -, hnanos⟩ := nextOccurrence_eq_ok hoccurrence
    have hlt := hforward hone hnanos
    exact ⟨iff_of_true hlt fun hstalls => hpattern hstalls.1,
      fun _ => ⟨Int.le_of_lt hlt, iff_of_true hlt fun hleaps => hpattern hleaps.1⟩⟩

/-- Fridays at noon of UTC, an early hour of the same day in Samoa. -/
def ferry : Timestamp → Chore :=
  weekly "friday" "12:00Z" "Pacific/Apia"

theorem ferry_moves_on_before_date_line :
    (ferry (timeOf "2011-12-16T12:00:00Z")).nextDue (timeOf "2011-12-14T09:00:00Z") =
        .ok (some (timeOf "2011-12-23T12:00:00Z").wall) ∧
      ¬StallsAt (ferry (timeOf "2011-12-16T12:00:00Z")).details
        (timeOf "2011-12-16T12:00:00Z").wall ∧
      Zone.apia.GainsADayAtMost (timeOf "2011-12-16T12:00:00Z").wall.nanos ∧
      ¬LeapsOverListedDay (ferry (timeOf "2011-12-16T12:00:00Z")).details
        (timeOf "2011-12-16T12:00:00Z").wall := by
  have hnext : (ferry (timeOf "2011-12-16T12:00:00Z")).nextDue (timeOf "2011-12-14T09:00:00Z") =
      .ok (some (timeOf "2011-12-23T12:00:00Z").wall) := rfl
  have hfirst : (ferry (timeOf "2011-12-16T12:00:00Z")).baseAt (timeOf "2011-12-14T09:00:00Z") =
      .ok (timeOf "2011-12-16T12:00:00Z").wall := rfl
  have hzone : (ferry (timeOf "2011-12-16T12:00:00Z")).details.zone = .ok (some Zone.apia) := rfl
  have hgain : Zone.apia.GainsADayAtMost (timeOf "2011-12-16T12:00:00Z").wall.nanos := by
    intro count hone hseven
    have hcases : count = 1 ∨ count = 2 ∨ count = 3 ∨ count = 4 ∨ count = 5 ∨ count = 6 ∨
        count = 7 := by omega
    rcases hcases with rfl | rfl | rfl | rfl | rfl | rfl | rfl <;> decide +kernel
  obtain ⟨base, hbase, hlater, hsteady⟩ := lt_nextDue_iff rfl hnext
  obtain rfl := Except.ok.inj (hfirst.symm.trans hbase)
  obtain ⟨-, hleaps⟩ := hsteady fun zone hfound => by
    obtain rfl := Option.some.inj (Except.ok.inj (hzone.symm.trans hfound))
    exact hgain
  exact ⟨hnext, hlater.1 (by decide +kernel), hgain, hleaps.1 (by decide +kernel)⟩

/-- Samoa had no Friday in the last week of 2011: the ferry stays due on the Thursday before. -/
theorem ferry_stalls_at_date_line :
    (ferry (timeOf "2011-12-29T12:00:00Z")).baseAt (timeOf "2011-12-29T12:00:00Z") =
        .ok (timeOf "2011-12-29T12:00:00Z").wall ∧
      (ferry (timeOf "2011-12-29T12:00:00Z")).nextDue (timeOf "2011-12-29T12:00:00Z") =
        .ok (some (timeOf "2011-12-29T12:00:00Z").wall) :=
  ⟨rfl, rfl⟩

end ChoreRota
