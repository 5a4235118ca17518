import ChoreRota.Calendar.Zone.Table
import ChoreRota.Proofs.MonthlyOccurrences

/-!
# Occurrences in every quarter

A quarter has 90 to 92 days, and of two in a row one has 91. A fourteenth weekday takes all 92 days:
it falls on the last of September or of December (`rank_quarter_bounds`), in the years in which that
is the weekday asked for, and those lie further apart than the search goes.
-/

namespace ChoreRota

namespace Month

def OpensQuarter (month : Month) : Prop :=
  month.index % 3 = 0

theorem opensQuarter_quarterStart (month : Month) : month.quarterStart.OpensQuarter := by
  simp only [OpensQuarter, quarterStart]
  omega

variable {first : Month}

theorem OpensQuarter.later_three (hopens : first.OpensQuarter) : (first.later 3).OpensQuarter := by
  simp only [OpensQuarter, index_later] at *
  omega

theorem OpensQuarter.length_cases (hopens : first.OpensQuarter) :
    first.number = 1 ∧ first.length = 31 ∧ (28 ≤ (first.later 1).length ∧
        (first.later 1).length ≤ 29) ∧ (first.later 2).length = 31 ∨
      first.number = 4 ∧ first.length = 30 ∧ (first.later 1).length = 31 ∧
        (first.later 2).length = 30 ∨
      first.number = 7 ∧ first.length = 31 ∧ (first.later 1).length = 31 ∧
        (first.later 2).length = 30 ∨
      first.number = 10 ∧ first.length = 31 ∧ (first.later 1).length = 30 ∧
        (first.later 2).length = 31 := by
  have hnumbers : (first.number = 1 ∨ first.number = 4 ∨ first.number = 7 ∨ first.number = 10) ∧
      (first.later 1).number = first.number + 1 ∧ (first.later 2).number = first.number + 2 := by
    simp only [OpensQuarter, number, index_later] at *
    omega
  have hfirst := first.length_cases
  have hsecond := (first.later 1).length_cases
  have hthird := (first.later 2).length_cases
  obtain ⟨hnumber, hsecondNumber, hthirdNumber⟩ := hnumbers
  rcases hnumber with hnumber | hnumber | hnumber | hnumber
  · exact .inl ⟨hnumber, by omega, by omega, by omega⟩
  · exact .inr (.inl ⟨hnumber, by omega, by omega, by omega⟩)
  · exact .inr (.inr (.inl ⟨hnumber, by omega, by omega, by omega⟩))
  · exact .inr (.inr (.inr ⟨hnumber, by omega, by omega, by omega⟩))

theorem OpensQuarter.start_bounds (hopens : first.OpensQuarter) :
    first.start + 90 ≤ (first.later 3).start ∧ (first.later 3).start ≤ first.start + 92 := by
  have hlengths := hopens.length_cases
  have hstarts := first.start_later_three
  omega

/-- Only the quarter from January on can be shorter, and it comes once a year. -/
theorem OpensQuarter.exists_long (hopens : first.OpensQuarter) :
    first.start + 91 ≤ (first.later 3).start ∨
      (first.later 3).start + 91 ≤ ((first.later 3).later 3).start := by
  have hlengths := hopens.length_cases
  have hnextLengths := hopens.later_three.length_cases
  have hstarts := first.start_later_three
  have hnextStarts := (first.later 3).start_later_three
  have hnumber : (first.later 3).number = 1 → first.number ≠ 1 := by
    simp only [number, index_later]
    omega
  omega

end Month

namespace Date

variable {date : Date} {month first : Month}

theorem start_le_dayNumber_iff : month.start ≤ date.dayNumber ↔ month.index ≤ date.month.index := by
  obtain ⟨hstart, hend⟩ := month_eq_iff.1 (rfl : date.month = date.month)
  constructor
  · intro hle
    by_contra hindex
    have hnext := Month.start_later_le_start (Int.not_le.1 hindex)
    rw [Month.start_succ] at hnext
    omega
  · intro hindex
    exact Int.le_trans (Month.start_le_start hindex) hstart

theorem quarterStart_eq_iff (hopens : first.OpensQuarter) :
    date.month.quarterStart = first ↔
      first.start ≤ date.dayNumber ∧ date.dayNumber < (first.later 3).start := by
  rw [← Int.not_le, start_le_dayNumber_iff, start_le_dayNumber_iff]
  simp only [Month.OpensQuarter, Month.index_later] at *
  constructor
  · rintro rfl
    simp only [Month.quarterStart]
    omega
  · intro hindex
    apply Month.eq_of_index
    simp only [Month.quarterStart]
    omega

theorem quarter_bounds (date : Date) :
    date.month.quarterStart.start ≤ date.dayNumber ∧
      date.dayNumber < (date.month.quarterStart.later 3).start :=
  (quarterStart_eq_iff date.month.opensQuarter_quarterStart).1 rfl

/-- The last day of September or of December, the quarters of 92 days. -/
def EndsLongQuarter (date : Date) : Prop :=
  date.month.number = 9 ∧ date.day = 30 ∨ date.month.number = 12 ∧ date.day = 31

theorem endsLongQuarter_iff :
    date.EndsLongQuarter ↔ date.month.quarterStart.start + 91 ≤ date.dayNumber := by
  have hopens := date.month.opensQuarter_quarterStart
  have hinside := date.quarter_bounds
  have hlengths := hopens.length_cases
  have hstarts := date.month.quarterStart.start_later_three
  have hday : date.day = date.dayNumber - date.month.start + 1 := rfl
  have hnumber : (date.month.quarterStart.later 2).number = date.month.quarterStart.number + 2 := by
    simp only [Month.OpensQuarter, Month.number, Month.index_later] at *
    omega
  unfold EndsLongQuarter
  constructor
  · intro hends
    have hmonth : date.month = date.month.quarterStart.later 2 := by
      apply Month.eq_of_index
      simp only [Month.number, Month.quarterStart, Month.index_later] at *
      omega
    rw [← hmonth] at hstarts hlengths hnumber
    omega
  · intro hlate
    have hmonth : date.month = date.month.quarterStart.later 2 := month_eq_iff.2 (by omega)
    rw [← hmonth] at hstarts hlengths hnumber
    omega

end Date

namespace Period

/-- There are at most fourteen of each weekday, and only one day can be the fourteenth. -/
theorem rank_quarter_bounds (date : Date) :
    1 ≤ Period.quarter.rank date ∧ Period.quarter.rank date ≤ 14 ∧
      (Period.quarter.rank date = 14 ↔ date.EndsLongQuarter) := by
  obtain ⟨hstart, hend⟩ := date.quarter_bounds
  have hlong := date.month.opensQuarter_quarterStart.start_bounds
  have hrank : (date.dayNumber - date.month.quarterStart.start) / 7 + 1 = Period.quarter.rank date :=
    Period.quarter.occurrence_eq_rank date
  rw [Date.endsLongQuarter_iff]
  omega

end Period

section Listed

variable {details : FrequencyDetails} {date : Date} {weekday : Weekday} {listed : Int32}

theorem exists_isListedOccurrence_in_quarter {first : Month} (hopens : first.OpensQuarter)
    (hweekday : weekday.isListed details.days = true)
    (hlisted : listed ∈ details.listedOccurrences)
    (hroom : listed.toInt = -1 ∨
      1 ≤ listed.toInt ∧ first.start + 7 * listed.toInt ≤ (first.later 3).start)
    (hlow : firstDay ≤ first.start) (hend : (first.later 3).start ≤ lastDay) :
    ∃ later : Date, first.start ≤ later.dayNumber ∧ later.dayNumber < (first.later 3).start ∧
      details.IsListedOccurrence .quarter later := by
  have hlong := hopens.start_bounds
  have hweeks : listed.toInt = -1 ∧ first.start + 7 ≤ (first.later 3).start ∨
      1 ≤ listed.toInt ∧ first.start + 7 * listed.toInt ≤ (first.later 3).start := by omega
  obtain ⟨day, hday, hstart, hfinish, hnamed⟩ := exists_named_day weekday hweeks
  let later : Date := ⟨day, by omega, by omega⟩
  have hquarter : Period.quarter.firstMonth later = first :=
    (Date.quarterStart_eq_iff hopens).2 ⟨hstart, hfinish⟩
  refine ⟨later, hstart, hfinish, isListedOccurrence_of_named ?_ hlisted (fun other hsame => ?_)
    (by rw [hquarter]; exact hnamed)⟩
  · rw [Date.weekday, hday]
    exact hweekday
  · exact ((Date.quarterStart_eq_iff hopens).1 (hsame.trans hquarter)).2

/-- Each occurrence but the fourteenth comes in one of the next two quarters. -/
theorem exists_isListedOccurrence_of_quarter (hweekday : weekday.isListed details.days = true)
    (hlisted : listed ∈ details.listedOccurrences)
    (hname : listed.toInt = -1 ∨ 1 ≤ listed.toInt ∧ listed.toInt ≤ 13)
    (hend : date.dayNumber + 276 ≤ lastDay) :
    ∃ later : Date, date.dayNumber < later.dayNumber ∧
      later.dayNumber ≤ date.dayNumber + 276 ∧ details.IsListedOccurrence .quarter later := by
  have hhere := date.month.opensQuarter_quarterStart
  obtain ⟨hstart, hfinish⟩ := date.quarter_bounds
  have hfirst := date.firstDay_le
  have hlength := hhere.start_bounds
  have hnextLength := hhere.later_three.start_bounds
  have hlastLength := hhere.later_three.later_three.start_bounds
  rcases hhere.later_three.exists_long with hlong | hlong
  · obtain ⟨later, hlow, hhigh, hoccurrence⟩ := exists_isListedOccurrence_in_quarter
      hhere.later_three hweekday hlisted (by omega) (by omega) (by omega)
    exact ⟨later, by omega, by omega, hoccurrence⟩
  · obtain ⟨later, hlow, hhigh, hoccurrence⟩ := exists_isListedOccurrence_in_quarter
      hhere.later_three.later_three hweekday hlisted (by omega) (by omega) (by omega)
    exact ⟨later, by omega, by omega, hoccurrence⟩

theorem isListedOccurrence_quarter_iff
    (hnone : ¬∃ listed ∈ details.listedOccurrences,
      listed.toInt = -1 ∨ 1 ≤ listed.toInt ∧ listed.toInt ≤ 13) :
    details.IsListedOccurrence .quarter date ↔
      (14 : Int32) ∈ details.listedOccurrences ∧ date.weekday.isListed details.days = true ∧
        date.EndsLongQuarter := by
  obtain ⟨hone, hlast, hfourteenth⟩ := Period.rank_quarter_bounds date
  constructor
  · rintro ⟨hweekday, listed, hlisted, hnumber⟩
    have hfourteen : listed.toInt = 14 ∧ Period.quarter.rank date = 14 := by
      by_contra hother
      exact hnone ⟨listed, hlisted, by omega⟩
    have hsame : listed = 14 := Int32.toInt_inj.1 hfourteen.1
    exact ⟨hsame ▸ hlisted, hweekday, hfourteenth.1 hfourteen.2⟩
  · rintro ⟨hlisted, hweekday, hends⟩
    refine ⟨hweekday, 14, hlisted, .inl ?_⟩
    rw [hfourteenth.2 hends]
    rfl

end Listed

/-- **Only fourteenth occurrences are missed.** Where some later date is a listed occurrence of a
listed weekday in its quarter, a chore is due again if the last or one of the first thirteen is
listed. If only the fourteenth is left, it is due again exactly where the last of September or of
December falls on a listed weekday within the 730 days that are searched, and otherwise the search
says that there is no such date, although there is one. -/
theorem nextWeekday_of_quarter_iff [ZoneTable] {details : FrequencyDetails} {base : Moment}
    (hpattern : details.weekPattern = some .weekOfQuarter)
    (hlater : ∃ later : Date, base.date.dayNumber < later.dayNumber ∧
      details.IsListedOccurrence .quarter later) :
    ((∃ next, details.nextWeekday base = .ok next) ↔
        (∃ listed ∈ details.listedOccurrences,
          listed.toInt = -1 ∨ 1 ≤ listed.toInt ∧ listed.toInt ≤ 13) ∨
        ∃ later : Date, base.date.dayNumber < later.dayNumber ∧
          later.dayNumber ≤ base.date.dayNumber + 730 ∧
          later.weekday.isListed details.days = true ∧ later.EndsLongQuarter) ∧
      ((¬∃ next, details.nextWeekday base = .ok next) →
        details.nextWeekday base = .error .noOccurrence) ∧
      Fault.message .noOccurrence =
        "no matching date found for the specified occurrence pattern" := by
  obtain ⟨later, hafter, hoccurrence⟩ := hlater
  have hweekday := hoccurrence.1
  have hdays : details.days ≠ [] := by
    intro hnone
    rw [hnone] at hweekday
    cases hweekday
  have hsame : details.nextWeekday base = details.nextOccurrence base .quarter :=
    nextWeekday_eq_nextOccurrence hpattern hdays base
  have hend := later.le_lastDay
  rw [hsame]
  refine ⟨?_, fun hmissed => ?_, rfl⟩
  · rw [exists_nextOccurrence_iff]
    by_cases hnone : ∃ listed ∈ details.listedOccurrences,
        listed.toInt = -1 ∨ 1 ≤ listed.toInt ∧ listed.toInt ≤ 13
    · refine iff_of_true ?_ (.inl hnone)
      obtain ⟨listed, hlisted, hname⟩ := hnone
      by_cases hnear : later.dayNumber ≤ base.date.dayNumber + 730
      · exact ⟨later, hafter, hnear, hoccurrence⟩
      · -- There is room for one in the next quarters, as the calendar goes on to `later`.
        have hroom : base.date.dayNumber + 276 ≤ lastDay := by omega
        obtain ⟨sooner, hlow, hhigh, hsooner⟩ :=
          exists_isListedOccurrence_of_quarter hweekday hlisted hname hroom
        exact ⟨sooner, hlow, by omega, hsooner⟩
    · have hfourteen := ((isListedOccurrence_quarter_iff hnone).1 hoccurrence).1
      rw [or_iff_right hnone]
      simp only [isListedOccurrence_quarter_iff hnone, hfourteen, true_and]
  · rw [exists_nextOccurrence_iff] at hmissed
    have hsome : details.listedOccurrences ≠ [] := fun hnone =>
      not_isListedOccurrence hnone .quarter later hoccurrence
    have hfar : ¬later.dayNumber ≤ base.date.dayNumber + 730 := fun hnear =>
      hmissed ⟨later, hafter, hnear, hoccurrence⟩
    exact nextOccurrence_eq_missing_iff.2 ⟨hsome, by omega, fun sooner hlow hhigh hsooner =>
      hmissed ⟨sooner, hlow, hhigh, hsooner⟩⟩

/-- The fourteenth Friday on the last of December 2027 is the 730th day after the last of
December 2025. -/
theorem committee_meets_on_last_friday_of_2027 :
    (committee [14] []).weekPattern = some .weekOfQuarter ∧
      (timeOf "2027-12-31T10:00:00Z").wall.date.dayNumber =
        (timeOf "2025-12-31T10:00:00Z").wall.date.dayNumber + 730 ∧
      (committee [14] []).IsListedOccurrence .quarter (timeOf "2027-12-31T10:00:00Z").wall.date ∧
      ∃ next, (committee [14] []).nextWeekday (timeOf "2025-12-31T10:00:00Z").wall = .ok next := by
  have hreach : (timeOf "2027-12-31T10:00:00Z").wall.date.dayNumber =
      (timeOf "2025-12-31T10:00:00Z").wall.date.dayNumber + 730 := by decide +kernel
  have hlisted : (committee [14] []).IsListedOccurrence .quarter
      (timeOf "2027-12-31T10:00:00Z").wall.date := isListed_eq_true_iff.1 (by decide +kernel)
  have hends : (timeOf "2027-12-31T10:00:00Z").wall.date.EndsLongQuarter := .inr (by decide +kernel)
  refine ⟨rfl, hreach, hlisted, ?_⟩
  exact (nextWeekday_of_quarter_iff rfl ⟨_, by omega, hlisted⟩).1.2
    (.inr ⟨_, by omega, by omega, hlisted.1, hends⟩)

theorem committee_misses_last_friday_of_2027 :
    (committee [14] []).weekPattern = some .weekOfQuarter ∧
      (timeOf "2025-12-30T10:00:00Z").wall.date.dayNumber <
        (timeOf "2027-12-31T10:00:00Z").wall.date.dayNumber ∧
      (committee [14] []).IsListedOccurrence .quarter (timeOf "2027-12-31T10:00:00Z").wall.date ∧
      (committee [14] []).nextWeekday (timeOf "2025-12-30T10:00:00Z").wall =
        .error .noOccurrence := by
  refine ⟨rfl, by decide +kernel, isListed_eq_true_iff.1 (by decide +kernel), ?_⟩
  -- Without the texts of the names, the search is short enough to be run.
  have hfridays : ∀ weekday : Weekday,
      weekday.isListed (committee [14] []).days = (weekday == .friday) := by
    intro weekday
    cases weekday <;> decide +kernel
  have hsame : (committee [14] []).nextWeekday (timeOf "2025-12-30T10:00:00Z").wall =
      (committee [14] []).nextOccurrence (timeOf "2025-12-30T10:00:00Z").wall .quarter := rfl
  rw [hsame, nextOccurrence_eq_search (by decide)]
  simp only [hfridays]
  decide +kernel

end ChoreRota
