import ChoreRota.Calendar.Zone.Table
import ChoreRota.Proofs.Occurrences

/-!
# Occurrences in every month

Each month has a first to fourth and a last occurrence of every weekday. A fifth one comes within
four months in a row: as long as there is none, the weekday first comes 28 days after it first came
in the month before, and four months are longer than that (`exists_fifth`).
-/

namespace ChoreRota

namespace Month

theorem length_cases (month : Month) :
    month.number = 2 ∧ 28 ≤ month.length ∧ month.length ≤ 29 ∨
      (month.number = 4 ∨ month.number = 6 ∨ month.number = 9 ∨ month.number = 11) ∧
        month.length = 30 ∨
      month.number ≠ 2 ∧ month.number ≠ 4 ∧ month.number ≠ 6 ∧ month.number ≠ 9 ∧
        month.number ≠ 11 ∧ month.length = 31 := by
  unfold length
  split
  · split <;> omega
  · split <;> omega

theorem start_later_succ (month : Month) (count : Nat) :
    (month.later (count + 1 : Nat)).start =
      (month.later count).start + (month.later count).length := by
  rw [← start_succ, later_later]
  rfl

theorem start_later_three (month : Month) :
    (month.later 2).start = month.start + month.length + (month.later 1).length ∧
      (month.later 3).start = (month.later 2).start + (month.later 2).length := by
  have hafterFirst := month.start_succ
  have hafterSecond : (month.later 2).start = (month.later 1).start + (month.later 1).length :=
    month.start_later_succ 1
  have hafterThird : (month.later 3).start = (month.later 2).start + (month.later 2).length :=
    month.start_later_succ 2
  omega

/-- Among four months in a row there are two with 31 days, or three and February. -/
theorem add_le_start_later_four (month : Month) : month.start + 120 ≤ (month.later 4).start := by
  have hfirst := month.length_cases
  have hsecond := (month.later 1).length_cases
  have hthird := (month.later 2).length_cases
  have hfourth := (month.later 3).length_cases
  have hstarts := month.start_later_three
  have hafterFourth : (month.later 4).start = (month.later 3).start + (month.later 3).length :=
    month.start_later_succ 3
  simp only [number, index_later] at hfirst hsecond hthird hfourth
  omega

theorem start_later_le (month : Month) (count : Nat) :
    (month.later count).start ≤ month.start + 31 * count := by
  induction count with
  | zero => exact Int.le_of_eq (by simp [later])
  | succ count ih =>
    have hlength := (month.later count).length_bounds
    rw [start_later_succ]
    omega

/-- The day lies in the month and is the occurrence of its weekday in it that a number names: the
last one for -1. -/
structure IsNamedDay (month : Month) (name day : Int) : Prop where
  start_le : month.start ≤ day
  lt_finish : day < (month.later 1).start
  isNamed : (day - month.start) / 7 + 1 = name ∨ name = -1 ∧ (month.later 1).start ≤ day + 7

variable {name : Int}

theorem exists_first_to_fourth_or_last (month : Month) (weekday : Weekday)
    (hname : name = -1 ∨ 1 ≤ name ∧ name ≤ 4) :
    ∃ day, weekdayOfDay day = weekday ∧ month.IsNamedDay name day := by
  have hlength := month.length_bounds
  have hfinish := start_succ month
  have hroom : name = -1 ∧ month.start + 7 ≤ (month.later 1).start ∨
      1 ≤ name ∧ month.start + 7 * name ≤ (month.later 1).start := by omega
  obtain ⟨day, hweekday, hlow, hhigh, hnamed⟩ := exists_named_day weekday hroom
  exact ⟨day, hweekday, hlow, hhigh, hnamed⟩

theorem exists_fifth (month : Month) (weekday : Weekday) :
    ∃ count : Nat, count ≤ 3 ∧
      ∃ day, weekdayOfDay day = weekday ∧ (month.later count).IsNamedDay 5 day := by
  obtain ⟨first, hlow, hhigh, hweekday⟩ := exists_weekdayOfDay_eq weekday month.start
  by_contra hnone
  -- Without a fifth one in the months before, the weekday first comes no earlier than this.
  have hfirst : ∀ count : Nat, count ≤ 4 → (month.later count).start ≤ first + 28 * count := by
    intro count
    induction count with
    | zero =>
      intro _
      have hsame : month.later (0 : Nat) = month := by simp [later]
      rw [hsame]
      omega
    | succ count ih =>
      intro hcount
      have hbefore := ih (by omega)
      have hlength := (month.later count).length_bounds
      have hfinish := month.start_later_succ count
      have hnext : (month.later count).later 1 = month.later (count + 1 : Nat) := later_later _ _ _
      by_contra hlate
      refine hnone ⟨count, by omega, first + 28 * (count + 1), ?_, by omega, ?_, .inl (by omega)⟩
      · rw [← hweekday, weekdayOfDay_eq_weekdayOfDay_iff]
        omega
      · rw [hnext]
        omega
  have hfour : (month.later 4).start ≤ first + 28 * (4 : Nat) := hfirst 4 (by omega)
  have hlong := month.add_le_start_later_four
  omega

theorem exists_isNamedDay (month : Month) (weekday : Weekday)
    (hname : name = -1 ∨ 1 ≤ name ∧ name ≤ 5) :
    ∃ count : Nat, count ≤ 3 ∧
      ∃ day, weekdayOfDay day = weekday ∧ (month.later count).IsNamedDay name day := by
  have hhere : month.later (0 : Nat) = month := by simp [later]
  by_cases hfive : name = 5
  · rw [hfive]
    exact month.exists_fifth weekday
  · have hshort : name = -1 ∨ 1 ≤ name ∧ name ≤ 4 := by omega
    exact ⟨0, by omega, by rw [hhere]; exact month.exists_first_to_fourth_or_last weekday hshort⟩

end Month

theorem Month.IsNamedDay.isListedOccurrence {month : Month} {details : FrequencyDetails}
    {date : Date} {listed : Int32} (hnamed : month.IsNamedDay listed.toInt date.dayNumber)
    (hweekday : date.weekday.isListed details.days = true)
    (hlisted : listed ∈ details.listedOccurrences) :
    details.IsListedOccurrence .month date := by
  have hlow := hnamed.start_le
  have hhigh := hnamed.lt_finish
  have hmonth : date.month = month := Date.month_eq_iff.2 ⟨hlow, by rw [← start_succ]; exact hhigh⟩
  have hfirst : Period.month.firstMonth date = month := hmonth
  refine isListedOccurrence_of_named hweekday hlisted (fun later hperiod => ?_)
    (by rw [hfirst]; exact hnamed.isNamed)
  have hlater : later.month = month := hperiod.trans hfirst
  rw [start_succ]
  exact (Date.month_eq_iff.1 hlater).2

theorem exists_isListedOccurrence {details : FrequencyDetails} {date : Date} {weekday : Weekday}
    {listed : Int32} (hweekday : weekday.isListed details.days = true)
    (hlisted : listed ∈ details.listedOccurrences)
    (hname : listed.toInt = -1 ∨ 1 ≤ listed.toInt ∧ listed.toInt ≤ 5)
    (hend : date.dayNumber + 155 ≤ lastDay) :
    ∃ later : Date, date.dayNumber < later.dayNumber ∧
      later.dayNumber ≤ date.dayNumber + 155 ∧ details.IsListedOccurrence .month later := by
  have hstart : date.month.start ≤ date.dayNumber := start_monthOfDay_le date.dayNumber
  have hnext : date.dayNumber < (date.month.later 1).start :=
    lt_start_monthOfDay_succ date.dayNumber
  have hlength := date.month.length_bounds
  have hfinish := date.month.start_succ
  obtain ⟨count, hcount, day, hday, hnamed⟩ :=
    (date.month.later 1).exists_isNamedDay weekday hname
  have hlow := hnamed.start_le
  have hhigh := hnamed.lt_finish
  have hmonths := (date.month.later 1).start_later_le (count + 1)
  rw [Month.start_succ, ← Month.start_later_succ] at hhigh
  have hafter : (date.month.later 1).start ≤ ((date.month.later 1).later count).start :=
    Month.start_le_start (by simp only [Month.index_later]; omega)
  have hfirst := date.firstDay_le
  refine ⟨⟨day, by omega, by omega⟩, by simp only; omega, by simp only; omega, ?_⟩
  refine Month.IsNamedDay.isListedOccurrence hnamed ?_ hlisted
  rw [Date.weekday, hday]
  exact hweekday

/-- **No meaningful month is missed.** With a listed weekday, and one of the first five occurrences
or the last one listed, a chore on days of the month is due again from every base with two years of
calendar after it. -/
theorem exists_nextWeekday_of_month [ZoneTable] {details : FrequencyDetails} {base : Moment}
    (hpattern : details.weekPattern = some .weekOfMonth)
    (hweekday : ∃ weekday : Weekday, weekday.isListed details.days = true)
    (hlisted : ∃ listed ∈ details.listedOccurrences, listed ∈ ([1, 2, 3, 4, 5, -1] : List Int32))
    (hend : base.date.dayNumber + 730 ≤ lastDay) :
    ∃ next, details.nextWeekday base = .ok next := by
  obtain ⟨weekday, hweekday⟩ := hweekday
  obtain ⟨listed, hlisted, hname⟩ := hlisted
  have hnumber : listed.toInt = -1 ∨ 1 ≤ listed.toInt ∧ listed.toInt ≤ 5 := by
    simp only [List.mem_cons, List.not_mem_nil, or_false] at hname
    rcases hname with rfl | rfl | rfl | rfl | rfl | rfl <;> decide
  have hdays : details.days ≠ [] := by
    intro hnone
    rw [hnone] at hweekday
    cases hweekday
  have hroom : base.date.dayNumber + 155 ≤ lastDay := by omega
  obtain ⟨later, hafter, hbound, hoccurrence⟩ :=
    exists_isListedOccurrence hweekday hlisted hnumber hroom
  have hwanted : (later.weekday.isListed details.days &&
      Period.month.isListed details.listedOccurrences later) = true :=
    isListed_eq_true_iff.2 hoccurrence
  have hsearch : ∃ found, firstWanted (fun date => date.weekday.isListed details.days &&
      Period.month.isListed details.listedOccurrences date) .noOccurrence base.date 730 =
        .ok found :=
    exists_firstWanted_eq_ok hafter (by omega) hwanted
  obtain ⟨found, hfound⟩ := hsearch
  refine ⟨base.onDate found, ?_⟩
  have hsame : details.nextWeekday base = details.nextOccurrence base .month :=
    nextWeekday_eq_nextOccurrence hpattern hdays base
  rw [hsame, nextOccurrence_eq_search (List.ne_nil_of_mem hlisted), hfound]
  rfl

/-- A flea market on the fifth Sunday of the month. The list has other names and numbers on it that
name nothing, and the older spelling of the numbers. -/
def fleaMarket : FrequencyDetails :=
  { FrequencyDetails.unset with
    days := ["caturday", " SUNDAY"], weekPattern := some .weekOfMonth, weekNumbers := [0, 6, 5] }

theorem fleaMarket_comes_again :
    Weekday.sunday.isListed fleaMarket.days = true ∧ (5 : Int32) ∈ fleaMarket.listedOccurrences ∧
      (timeOf "9997-12-31T06:30:00Z").wall.date.dayNumber + 730 = lastDay ∧
      ∃ next, fleaMarket.nextWeekday (timeOf "9997-12-31T06:30:00Z").wall = .ok next := by
  have hsunday : Weekday.sunday.isListed fleaMarket.days = true := by decide +kernel
  have hend : (timeOf "9997-12-31T06:30:00Z").wall.date.dayNumber + 730 = lastDay := by
    decide +kernel
  exact ⟨hsunday, by decide, hend, exists_nextWeekday_of_month rfl ⟨.sunday, hsunday⟩
    ⟨5, by decide, by decide⟩ (Int.le_of_eq hend)⟩

end ChoreRota
