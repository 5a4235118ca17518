import ChoreRota.Calendar.Zone.Table
import ChoreRota.Proofs.DateSearch
import ChoreRota.Proofs.Months

/-!
# Occurrences of a weekday

The occurrence that a date is in its month or quarter is the number of days of its weekday from the
start of the period up to it, and it is the last one if a week later another period has begun. With
that, what a chore asks for is said without the arithmetic of its search.
-/

namespace ChoreRota

/-- Among some days in a row from `first` on, every seventh falls on the weekday of `day`. -/
theorem countP_weekdayOfDay (first day : Int) (count : Nat) :
    ((List.range count).countP fun elapsed : Nat =>
      weekdayOfDay (first + elapsed) = weekdayOfDay day : Int) =
      (count + 6 - (day - first) % 7) / 7 := by
  induction count with
  | zero =>
    simp only [List.range_zero, List.countP_nil]
    omega
  | succ count ih =>
    rw [List.range_succ, List.countP_append, List.countP_singleton]
    by_cases hsame : weekdayOfDay (first + count) = weekdayOfDay day
    · rw [if_pos (decide_eq_true hsame)]
      rw [weekdayOfDay_eq_weekdayOfDay_iff] at hsame
      push_cast
      omega
    · rw [if_neg (by simpa using hsame)]
      rw [weekdayOfDay_eq_weekdayOfDay_iff] at hsame
      push_cast
      omega

namespace Period

variable {period : Period} {date later : Date}

theorem start_firstMonth_le (period : Period) (date : Date) :
    (period.firstMonth date).start ≤ date.dayNumber := by
  have hfirst : (period.firstMonth date).index ≤ date.month.index := by
    cases period with
    | month => exact Int.le_refl _
    | quarter =>
      simp only [firstMonth, Month.quarterStart]
      omega
  exact Int.le_trans (Month.start_le_start hfirst) (start_monthOfDay_le date.dayNumber)

theorem index_firstMonth_le (hle : date.dayNumber ≤ later.dayNumber) :
    (period.firstMonth date).index ≤ (period.firstMonth later).index := by
  have hmonth : date.month.index ≤ later.month.index := index_monthOfDay_le hle
  cases period with
  | month => exact hmonth
  | quarter =>
    simp only [firstMonth, Month.quarterStart]
    omega

/-- How many days of the date's weekday there are from the start of its month or quarter up to it.
-/
def rank (period : Period) (date : Date) : Nat :=
  let first := (period.firstMonth date).start
  (List.range (date.dayNumber - first + 1).toNat).countP fun elapsed : Nat =>
    weekdayOfDay (first + elapsed) = date.weekday

def IsLast (period : Period) (date : Date) : Prop :=
  ∀ later : Date, period.firstMonth later = period.firstMonth date →
    later.weekday = date.weekday → later.dayNumber ≤ date.dayNumber

theorem occurrence_eq_rank (period : Period) (date : Date) :
    period.occurrence date = period.rank date := by
  have hstart := period.start_firstMonth_le date
  have hrank : (period.rank date : Int) = _ :=
    countP_weekdayOfDay (period.firstMonth date).start date.dayNumber _
  rw [hrank, occurrence]
  omega

theorem isLastOccurrence_iff : period.isLastOccurrence date = true ↔ period.IsLast date := by
  unfold isLastOccurrence
  cases hnext : date.addDays? 7 with
  | none =>
    refine iff_of_true rfl fun later _ hweekday => ?_
    have hend := Date.ofDayNumber?_eq_none_iff.1 hnext
    have hstart := date.firstDay_le
    have hlast := later.le_lastDay
    have hsame := weekdayOfDay_eq_weekdayOfDay_iff.1 hweekday
    omega
  | some next =>
    have hday : next.dayNumber = date.dayNumber + 7 := Date.ofDayNumber?_eq_some_iff.1 hnext
    simp only [bne_iff_ne, ne_eq]
    constructor
    · intro hother later hperiod hweekday
      by_contra hafter
      have hsame := weekdayOfDay_eq_weekdayOfDay_iff.1 hweekday
      -- The week after lies between the date and a later one of the same period.
      have hlow : (period.firstMonth date).index ≤ (period.firstMonth next).index :=
        index_firstMonth_le (by omega)
      have hhigh : (period.firstMonth next).index ≤ (period.firstMonth later).index :=
        index_firstMonth_le (by omega)
      rw [hperiod] at hhigh
      exact hother (Month.eq_of_index (by omega))
    · intro hlast hsame
      have hle := hlast next hsame (Date.weekday_of_week_later hday)
      omega

end Period

/-- The date falls on a listed weekday, and is a listed occurrence of it in its month or quarter:
the one of a listed number, or the last one where -1 is listed. -/
def FrequencyDetails.IsListedOccurrence (details : FrequencyDetails) (period : Period)
    (date : Date) : Prop :=
  date.weekday.isListed details.days = true ∧ ∃ listed ∈ details.listedOccurrences,
    listed.toInt = period.rank date ∨ listed.toInt = -1 ∧ period.IsLast date

section NextWeekday

variable {details : FrequencyDetails} {base next : Moment} {period : Period}

theorem isListed_eq_true_iff {date : Date} :
    (date.weekday.isListed details.days && period.isListed details.listedOccurrences date) = true ↔
      details.IsListedOccurrence period date := by
  simp only [Bool.and_eq_true, FrequencyDetails.IsListedOccurrence, Period.isListed, Bool.or_eq_true,
    List.any_eq_true, beq_iff_eq, Period.isLastOccurrence_iff, ← Period.occurrence_eq_rank]
  refine and_congr_right fun _ => ?_
  constructor
  · rintro (⟨listed, hlisted, hnumber⟩ | ⟨⟨listed, hlisted, hnumber⟩, hlast⟩)
    · exact ⟨listed, hlisted, .inl hnumber⟩
    · exact ⟨listed, hlisted, .inr ⟨hnumber, hlast⟩⟩
  · rintro ⟨listed, hlisted, hnumber | ⟨hnumber, hlast⟩⟩
    · exact .inl ⟨listed, hlisted, hnumber⟩
    · exact .inr ⟨⟨listed, hlisted, hnumber⟩, hlast⟩

theorem isListedOccurrence_of_named {date : Date} {listed : Int32} {finish : Int}
    (hweekday : date.weekday.isListed details.days = true)
    (hlisted : listed ∈ details.listedOccurrences)
    (hfinish : ∀ later : Date, period.firstMonth later = period.firstMonth date →
      later.dayNumber < finish)
    (hnamed : (date.dayNumber - (period.firstMonth date).start) / 7 + 1 = listed.toInt ∨
      listed.toInt = -1 ∧ finish ≤ date.dayNumber + 7) :
    details.IsListedOccurrence period date := by
  refine ⟨hweekday, listed, hlisted, ?_⟩
  rcases hnamed with hname | ⟨hname, hlast⟩
  · exact .inl (hname.symm.trans (period.occurrence_eq_rank date))
  · refine .inr ⟨hname, fun later hperiod hsameWeekday => ?_⟩
    have hend := hfinish later hperiod
    have hsame := weekdayOfDay_eq_weekdayOfDay_iff.1 hsameWeekday
    omega

theorem nextWeekday_eq_nextOccurrence [ZoneTable]
    (hpattern : details.weekPattern = some period.pattern)
    (hdays : details.days ≠ []) (base : Moment) :
    details.nextWeekday base = details.nextOccurrence base period := by
  rw [FrequencyDetails.nextWeekday, if_neg (by simpa using hdays), hpattern]
  cases period <;> rfl

theorem nextOccurrence_of_unlisted (hnone : details.listedOccurrences = []) (base : Moment)
    (period : Period) :
    details.nextOccurrence base period = .error (.occurrencesMissing period.pattern) := by
  rw [FrequencyDetails.nextOccurrence, hnone]
  rfl

theorem nextOccurrence_eq_search (hsome : details.listedOccurrences ≠ []) (base : Moment)
    (period : Period) :
    details.nextOccurrence base period = (do
      let date ← firstWanted (fun date => date.weekday.isListed details.days &&
        period.isListed details.listedOccurrences date) .noOccurrence base.date 730
      return base.onDate date) := by
  rw [FrequencyDetails.nextOccurrence, if_neg (by simpa using hsome)]

theorem search_eq_ok_iff {search : Except Fault Date} {isFound : Date → Prop}
    (hsearch : ∀ date, search = .ok date ↔ isFound date) :
    (do let date ← search; return base.onDate date) = .ok next ↔
      next.time = base.time ∧ isFound next.date := by
  rw [bind_eq_ok_iff]
  constructor
  · rintro ⟨date, hdate, hnext⟩
    obtain rfl := Except.ok.inj hnext
    exact ⟨rfl, (hsearch date).1 hdate⟩
  · rintro ⟨htime, hfound⟩
    refine ⟨next.date, (hsearch next.date).2 hfound, ?_⟩
    rw [Moment.onDate, ← htime]
    rfl

theorem search_eq_error_iff {search : Except Fault Date} {fault : Fault} :
    (do let date ← search; return base.onDate date) = .error fault ↔ search = .error fault := by
  rw [bind_eq_error_iff]
  exact or_iff_left fun ⟨_, _, hpure⟩ => by cases hpure

theorem nextWeekday_congr [ZoneTable] {occurrences weekNumbers : List Int32}
    (hlisted : FrequencyDetails.listedOccurrences { details with occurrences, weekNumbers } =
      details.listedOccurrences) (base : Moment) :
    FrequencyDetails.nextWeekday { details with occurrences, weekNumbers } base =
      details.nextWeekday base := by
  unfold FrequencyDetails.nextWeekday FrequencyDetails.nextOccurrence
  rw [hlisted]
  rfl

theorem not_isListedOccurrence (hnone : details.listedOccurrences = []) (period : Period)
    (date : Date) : ¬details.IsListedOccurrence period date := by
  rintro ⟨-, listed, hlisted, -⟩
  rw [hnone] at hlisted
  cases hlisted

theorem nextOccurrence_eq_ok_iff :
    details.nextOccurrence base period = .ok next ↔ next.time = base.time ∧
      IsEarliest (details.IsListedOccurrence period) base.date 730 next.date := by
  by_cases hnone : details.listedOccurrences = []
  · rw [nextOccurrence_of_unlisted hnone]
    exact iff_of_false (by simp) fun hfound =>
      not_isListedOccurrence hnone period next.date hfound.2.isWanted
  · rw [nextOccurrence_eq_search hnone]
    exact search_eq_ok_iff fun date => firstWanted_eq_ok_iff fun date => isListed_eq_true_iff

theorem nextOccurrence_eq_missing_iff :
    details.nextOccurrence base period = .error .noOccurrence ↔
      details.listedOccurrences ≠ [] ∧ base.date.dayNumber + 730 ≤ lastDay ∧
        NoneWithin (details.IsListedOccurrence period) base.date 730 := by
  by_cases hnone : details.listedOccurrences = []
  · rw [nextOccurrence_of_unlisted hnone]
    simp [hnone]
  · rw [nextOccurrence_eq_search hnone, search_eq_error_iff,
      firstWanted_eq_missing_iff (fun date => isListed_eq_true_iff) (by simp)]
    simp [hnone]

theorem exists_nextOccurrence_iff :
    (∃ next, details.nextOccurrence base period = .ok next) ↔
      ∃ later : Date, base.date.dayNumber < later.dayNumber ∧
        later.dayNumber ≤ base.date.dayNumber + 730 ∧
        details.IsListedOccurrence period later := by
  constructor
  · rintro ⟨next, hnext⟩
    have hearliest := (nextOccurrence_eq_ok_iff.1 hnext).2
    exact ⟨next.date, hearliest.after, hearliest.within, hearliest.isWanted⟩
  · rintro ⟨later, hafter, hwithin, hlater⟩
    have hsome : details.listedOccurrences ≠ [] := fun hnone =>
      not_isListedOccurrence hnone period later hlater
    have hwanted := isListed_eq_true_iff.2 hlater
    have hsearch : ∃ found, firstWanted (fun date => date.weekday.isListed details.days &&
        period.isListed details.listedOccurrences date) .noOccurrence base.date 730 = .ok found :=
      exists_firstWanted_eq_ok hafter hwithin hwanted
    obtain ⟨found, hfound⟩ := hsearch
    rw [nextOccurrence_eq_search hsome, hfound]
    exact ⟨base.onDate found, rfl⟩

theorem noneWithin_week_iff {names : List String} {date : Date}
    (hroom : date.dayNumber + 7 ≤ lastDay) :
    NoneWithin (fun later => later.weekday.isListed names = true) date 7 ↔
      ∀ weekday : Weekday, weekday.isListed names = false := by
  constructor
  · intro hnone weekday
    obtain ⟨day, hlow, hhigh, rfl⟩ := exists_weekdayOfDay_eq weekday (date.dayNumber + 1)
    have hstart := date.firstDay_le
    let later : Date := ⟨day, by omega, by omega⟩
    have hday : later.dayNumber = day := rfl
    exact Bool.eq_false_iff.2 (hnone later (by omega) (by omega))
  · exact fun hunlisted later _ _ => Bool.eq_false_iff.1 (hunlisted later.weekday)

end NextWeekday

/-- **The earliest date.** Every week, a chore without a zone is due on the first of the next seven
dates that falls on a listed weekday, and the search misses, away from the end of the calendar,
where no weekday is listed. In months and quarters it is due on the first of the next 730 dates that
is a listed occurrence of a listed weekday, and the search misses where occurrences are listed and
none of the dates is one. Without a listed occurrence there is no search. The time of day is that of
the base, and the week numbers count only where there are no occurrences. -/
theorem nextWeekday_is_earliest [ZoneTable] {details : FrequencyDetails} (hdays : details.days ≠ [])
    (base : Moment) :
    (details.weekPattern.getD .everyWeek = .everyWeek → details.zone = .ok none →
      (∀ next, details.nextWeekday base = .ok next ↔ next.time = base.time ∧
        IsEarliest (fun date => date.weekday.isListed details.days = true) base.date 7
          next.date) ∧
      (base.date.dayNumber + 7 ≤ lastDay →
        (details.nextWeekday base = .error .noWeekday ↔
          ∀ weekday : Weekday, weekday.isListed details.days = false)) ∧
      Fault.message .noWeekday = "no matching day of the week found") ∧
    (∀ period : Period, details.weekPattern = some period.pattern →
      (∀ next, details.nextWeekday base = .ok next ↔ next.time = base.time ∧
        IsEarliest (details.IsListedOccurrence period) base.date 730 next.date) ∧
      (details.nextWeekday base = .error .noOccurrence ↔
        details.listedOccurrences ≠ [] ∧ base.date.dayNumber + 730 ≤ lastDay ∧
          NoneWithin (details.IsListedOccurrence period) base.date 730) ∧
      Fault.message .noOccurrence =
        "no matching date found for the specified occurrence pattern" ∧
      (details.listedOccurrences = [] →
        details.nextWeekday base = .error (.occurrencesMissing period.pattern))) ∧
    (details.occurrences ≠ [] → ∀ weekNumbers,
      FrequencyDetails.nextWeekday { details with weekNumbers } base =
        details.nextWeekday base) ∧
    (details.occurrences = [] →
      FrequencyDetails.nextWeekday { details with occurrences := details.weekNumbers } base =
        details.nextWeekday base) := by
  refine ⟨fun hpattern hzone => ?_, fun period hpattern => ?_, ?_, ?_⟩
  · rw [nextWeekday_eq_search base hpattern hzone hdays]
    have hlisted : ∀ date : Date, date.weekday.isListed details.days = true ↔
        date.weekday.isListed details.days = true := fun _ => Iff.rfl
    refine ⟨fun next => search_eq_ok_iff fun date => firstWanted_eq_ok_iff hlisted, ?_, rfl⟩
    intro hroom
    rw [search_eq_error_iff, nextListedDate, firstWanted_eq_missing_iff hlisted (by decide),
      ← noneWithin_week_iff hroom]
    exact and_iff_right hroom
  · rw [nextWeekday_eq_nextOccurrence hpattern hdays]
    exact ⟨fun next => nextOccurrence_eq_ok_iff, nextOccurrence_eq_missing_iff, rfl,
      fun hnone => nextOccurrence_of_unlisted hnone base period⟩
  · intro hsome weekNumbers
    refine nextWeekday_congr ?_ base
    simp [FrequencyDetails.listedOccurrences, hsome]
  · intro hnone
    refine nextWeekday_congr ?_ base
    simp [FrequencyDetails.listedOccurrences, hnone]

def committee (occurrences weekNumbers : List Int32) : FrequencyDetails :=
  { FrequencyDetails.unset with
    days := ["friday"], weekPattern := some .weekOfQuarter, occurrences, weekNumbers }

/-- A fourteenth Friday only comes in a quarter of 92 days that begins with one. -/
theorem committee_meets_on_fourteenth_friday :
    (committee [14] [1]).days ≠ [] ∧
      (committee [14] [1]).weekPattern = some Period.quarter.pattern ∧
      (committee [14] [1]).nextWeekday (timeOf "2022-01-01T16:00:00Z").wall =
        .ok (timeOf "2022-09-30T16:00:00Z").wall ∧
      IsEarliest ((committee [14] [1]).IsListedOccurrence .quarter)
        (timeOf "2022-01-01T16:00:00Z").wall.date 730
        (timeOf "2022-09-30T16:00:00Z").wall.date := by
  have hdays : (committee [14] [1]).days ≠ [] := List.cons_ne_nil _ _
  have hfound : (committee [14] [1]).nextWeekday (timeOf "2022-01-01T16:00:00Z").wall =
      .ok (timeOf "2022-09-30T16:00:00Z").wall := by decide +kernel
  obtain ⟨-, hoccurrences, -⟩ :=
    nextWeekday_is_earliest hdays (timeOf "2022-01-01T16:00:00Z").wall
  exact ⟨hdays, rfl, hfound, (((hoccurrences .quarter rfl).1 _).1 hfound).2⟩

/-- None of the 730 days is a listed Friday where no occurrence is listed, and yet the search is not
what fails. -/
theorem committee_without_occurrences :
    (committee [] []).days ≠ [] ∧
      (timeOf "2025-01-03T10:00:00Z").wall.date.dayNumber + 730 ≤ lastDay ∧
      NoneWithin ((committee [] []).IsListedOccurrence .quarter)
        (timeOf "2025-01-03T10:00:00Z").wall.date 730 ∧
      (committee [] []).nextWeekday (timeOf "2025-01-03T10:00:00Z").wall =
        .error (.occurrencesMissing .weekOfQuarter) ∧
      (committee [] []).nextWeekday (timeOf "2025-01-03T10:00:00Z").wall ≠
        .error .noOccurrence :=
  ⟨List.cons_ne_nil _ _, by decide +kernel,
    fun later _ _ => not_isListedOccurrence rfl .quarter later, rfl, by decide +kernel⟩

end ChoreRota
