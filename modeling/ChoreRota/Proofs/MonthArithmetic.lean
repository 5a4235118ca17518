import ChoreRota.Proofs.CalendarEnds
import ChoreRota.Proofs.Strides

/-!
# Months added to a moment

The target month is counted off first, and the day of the month is then counted on from the first of
it. The last month of the calendar has 31 days, so that counting on never leaves the calendar: it is
the target month alone that may lie outside (`addMonths_eq_ok_iff`).
-/

namespace ChoreRota

def Month.IsOnCalendar (month : Month) : Prop :=
  -9999 ≤ month.year ∧ month.year ≤ 9999

theorem Date.isOnCalendar_month (date : Date) : date.month.IsOnCalendar := by
  have hfirst : (Month.ofYear (-9999) 1).start = firstDay := by decide
  have hbeyond : (Month.ofYear 10000 1).start = lastDay + 1 := by decide
  obtain ⟨hstart, hend⟩ := month_eq_iff.1 (rfl : date.month = date.month)
  rw [← Month.start_succ] at hend
  have hlow := date.firstDay_le
  have hhigh := date.le_lastDay
  constructor
  · by_contra hyear
    have hbefore : (date.month.later 1).start ≤ (Month.ofYear (-9999) 1).start := by
      apply Month.start_later_le_start
      simp only [Month.ofYear, Month.year] at *
      omega
    omega
  · by_contra hyear
    have hafter : (Month.ofYear 10000 1).start ≤ date.month.start := by
      apply Month.start_le_start
      simp only [Month.ofYear, Month.year] at *
      omega
    omega

namespace Month

variable {month : Month}

theorem isOnCalendar_iff : month.IsOnCalendar ↔ firstDay ≤ month.start ∧ month.start ≤ lastDay := by
  have hlength := month.length_bounds
  constructor
  · rintro ⟨hlow, hhigh⟩
    have hfirst : (ofYear (-9999) 1).start = firstDay := by decide
    have hbeyond : (ofYear 10000 1).start = lastDay + 1 := by decide
    have hafter : (ofYear (-9999) 1).start ≤ month.start := by
      apply start_le_start
      simp only [ofYear, year] at *
      omega
    have hbefore : (month.later 1).start ≤ (ofYear 10000 1).start := by
      apply start_later_le_start
      simp only [ofYear, year] at *
      omega
    rw [start_succ] at hbefore
    omega
  · rintro ⟨hlow, hhigh⟩
    let first : Date := ⟨month.start, hlow, hhigh⟩
    have hday : first.dayNumber = month.start := rfl
    have hmonth : first.month = month := Date.month_eq_iff.2 (by omega)
    rw [← hmonth]
    exact first.isOnCalendar_month

theorem IsOnCalendar.add_le_lastDay (hmonth : month.IsOnCalendar) :
    month.start + 30 ≤ lastDay := by
  have hlast : (ofYear 9999 12).start + 30 = lastDay := by decide
  have hbefore : month.start ≤ (ofYear 9999 12).start := by
    apply start_le_start
    have hyear := hmonth.2
    simp only [ofYear, year] at *
    omega
  omega

theorem IsOnCalendar.isCountableYear (hmonth : month.IsOnCalendar) :
    isCountableYear month.year = true := by
  obtain ⟨hlow, hhigh⟩ := hmonth
  simp only [ChoreRota.isCountableYear, Bool.and_eq_true, decide_eq_true_eq]
  omega

end Month

namespace Moment

variable {moment earlier later result : Moment} {count : Int}

theorem isOnCalendar_of_addMonths (hadd : moment.addMonths count = .ok result) :
    (moment.month.later count).IsOnCalendar := by
  have hreports := moment.reports_addMonths count
  rw [hadd] at hreports
  have hinside : ¬IsOutsideDay (moment.month.later count).start :=
    fun houtside => hreports.not_overflows (.inl houtside)
  unfold IsOutsideDay at hinside
  exact Month.isOnCalendar_iff.2 (by omega)

/-- Months can be added as long as the calendar has the target month, and what is found lies as many
days after the first of it as the moment does after the first of its own. -/
theorem addMonths_eq_ok_iff :
    moment.addMonths count = .ok result ↔
      (moment.month.later count).IsOnCalendar ∧
        result.date.dayNumber = (moment.month.later count).start + (moment.date.day - 1) ∧
        result.time = moment.time := by
  constructor
  · intro hadd
    exact ⟨isOnCalendar_of_addMonths hadd, addMonths_eq_ok hadd⟩
  · rintro ⟨htarget, hday, htime⟩
    obtain ⟨hlow, hhigh⟩ := Month.isOnCalendar_iff.1 htarget
    have hlength := (moment.month.later count).length_bounds
    have hfirst : Date.ofMonthDay? (moment.month.later count) 1 =
        some ⟨(moment.month.later count).start, hlow, hhigh⟩ := by
      rw [Date.ofMonthDay?, if_pos (by omega), Int.sub_self, Int.add_zero,
        Date.ofDayNumber?_eq_some_iff]
    have hdate : Date.addDays? ⟨(moment.month.later count).start, hlow, hhigh⟩
        (moment.date.day - 1) = some result.date :=
      Date.ofDayNumber?_eq_some_iff.2 hday
    simp only [addMonths, htarget.isCountableYear, if_true, hfirst, hdate, onDate, ← htime]

theorem exists_addMonths_iff :
    (∃ result, moment.addMonths count = .ok result) ↔
      (moment.month.later count).IsOnCalendar := by
  constructor
  · rintro ⟨result, hadd⟩
    exact isOnCalendar_of_addMonths hadd
  · intro htarget
    have hlow := (Month.isOnCalendar_iff.1 htarget).1
    have hhigh := htarget.add_le_lastDay
    have hday := moment.date.day_bounds
    have hlength := moment.date.month.length_bounds
    let date : Date :=
      ⟨(moment.month.later count).start + (moment.date.day - 1), by omega, by omega⟩
    exact ⟨moment.onDate date, addMonths_eq_ok_iff.2 ⟨htarget, rfl, rfl⟩⟩

theorem addMonths_lt_addMonths {more : Int} (hcount : count < more)
    (hearlier : moment.addMonths count = .ok earlier)
    (hlater : moment.addMonths more = .ok later) : earlier.nanos < later.nanos := by
  obtain ⟨hearlierDay, hearlierTime⟩ := addMonths_eq_ok hearlier
  obtain ⟨hlaterDay, hlaterTime⟩ := addMonths_eq_ok hlater
  have hlength := (moment.month.later count).length_bounds
  have hstart : (moment.month.later count).start + (moment.month.later count).length ≤
      (moment.month.later more).start := by
    rw [← Month.start_succ]
    apply Month.start_later_le_start
    simp only [Month.index_later]
    omega
  unfold nanos
  rw [hearlierTime, hlaterTime]
  omega

theorem addMonths_addMonths {more : Int} (hday : moment.date.day ≤ 28)
    (hadd : moment.addMonths count = .ok earlier) :
    earlier.addMonths more = moment.addMonths (count + more) := by
  obtain ⟨hmonth, hsameDay, htime⟩ := reaches_of_addMonths hday hadd
  have htarget : earlier.month.later more = moment.month.later (count + more) := by
    rw [hmonth, Month.later_later]
    simp
  have honDate : earlier.onDate = moment.onDate := by
    funext date
    rw [onDate, onDate, htime]
  simp only [addMonths, htarget, hsameDay, honDate]

end Moment

/-- The day that is counted on to from the first of a month lies in that month, or, where it is too
short, among the first three days of the next one. -/
theorem Date.of_dayNumber_eq {date : Date} {month : Month} {day : Int}
    (hdate : date.dayNumber = month.start + (day - 1)) (hone : 1 ≤ day) (hlast : day ≤ 31) :
    (day ≤ month.length → date.month = month ∧ date.day = day) ∧
      (month.length < day → date.month = month.later 1 ∧ date.day = day - month.length ∧
        1 ≤ day - month.length ∧ day - month.length ≤ 3) := by
  have hlength := month.length_bounds
  have hnextLength := (month.later 1).length_bounds
  have hnextStart := month.start_succ
  have hnumber : date.day = date.dayNumber - date.month.start + 1 := rfl
  constructor
  · intro hinside
    have hmonth : date.month = month := month_eq_iff.2 (by omega)
    rw [hmonth] at hnumber
    exact ⟨hmonth, by omega⟩
  · intro hrolls
    have hmonth : date.month = month.later 1 := month_eq_iff.2 (by omega)
    rw [hmonth] at hnumber
    exact ⟨hmonth, by omega, by omega, by omega⟩

/-- **Months are added to the month and days counted on from it.** The target is the calendar month
so many months away. The sum falls on the same day of it at the same time, or, if it is too short,
as many days into the month after it as it is short of; only a target outside the years of the
calendar is a fault. More months lead to a later moment, and on the first 28 days of a month sums
add up. -/
theorem addMonths_counts_months (moment : Moment) (count : Int) :
    let target := moment.month.later count
    let day := moment.date.day
    (12 * target.year + target.number = 12 * moment.year + moment.month.number + count ∧
        1 ≤ target.number ∧ target.number ≤ 12) ∧
      (∀ result, moment.addMonths count = .ok result → result.time = moment.time ∧
        (day ≤ target.length → result.month = target ∧ result.date.day = day) ∧
        (target.length < day → result.month = target.later 1 ∧
          result.date.day = day - target.length ∧
          1 ≤ day - target.length ∧ day - target.length ≤ 3)) ∧
      ((∃ result, moment.addMonths count = .ok result) ↔
        -9999 ≤ target.year ∧ target.year ≤ 9999) ∧
      (∀ more earlier later, count < more → moment.addMonths count = .ok earlier →
        moment.addMonths more = .ok later → earlier.nanos < later.nanos) ∧
      (day ≤ 28 → ∀ between more, moment.addMonths count = .ok between →
        between.addMonths more = moment.addMonths (count + more)) := by
  intro target day
  have hday := moment.date.day_bounds
  have hlength := moment.date.month.length_bounds
  refine ⟨?_, fun result hadd => ?_, Moment.exists_addMonths_iff,
    fun more earlier later hcount hearlier hlater =>
      Moment.addMonths_lt_addMonths hcount hearlier hlater,
    fun hearly between more hadd => Moment.addMonths_addMonths hearly hadd⟩
  · have hindex : target.index = moment.date.month.index + count := rfl
    simp only [Moment.year, Moment.month, Date.year, Month.year, Month.number]
    omega
  · obtain ⟨hnumber, htime⟩ := Moment.addMonths_eq_ok hadd
    obtain ⟨hinside, hrolls⟩ := Date.of_dayNumber_eq hnumber hday.1 (by omega)
    exact ⟨htime, hinside, hrolls⟩

/-- From the last of January it is thirteen months to the second of March in a leap year, and the
last of December is the last day that the calendar can be counted on to. -/
theorem addMonths_from_last_of_january :
    (timeOf "2023-01-31T09:00:00Z").wall.addMonths 13 =
        .ok (timeOf "2024-03-02T09:00:00Z").wall ∧
      (timeOf "2024-03-02T09:00:00Z").wall.month =
        ((timeOf "2023-01-31T09:00:00Z").wall.month.later 13).later 1 ∧
      (∃ result, (timeOf "2023-01-31T09:00:00Z").wall.addMonths 95723 = .ok result) ∧
      ¬∃ result, (timeOf "2023-01-31T09:00:00Z").wall.addMonths 95724 = .ok result := by
  obtain ⟨-, hsum, -⟩ := addMonths_counts_months (timeOf "2023-01-31T09:00:00Z").wall 13
  obtain ⟨-, -, hlast, -⟩ := addMonths_counts_months (timeOf "2023-01-31T09:00:00Z").wall 95723
  obtain ⟨-, -, hbeyond, -⟩ := addMonths_counts_months (timeOf "2023-01-31T09:00:00Z").wall 95724
  have hadd : (timeOf "2023-01-31T09:00:00Z").wall.addMonths 13 =
      .ok (timeOf "2024-03-02T09:00:00Z").wall := by decide +kernel
  have hshort : ((timeOf "2023-01-31T09:00:00Z").wall.month.later 13).length <
      (timeOf "2023-01-31T09:00:00Z").wall.date.day := by decide +kernel
  refine ⟨hadd, ((hsum _ hadd).2.2 hshort).1, hlast.2 (by decide +kernel), ?_⟩
  rw [hbeyond]
  decide +kernel

end ChoreRota
