import ChoreRota.Calendar.Moment

/-!
# Months tile the days

Months begin one after the other without gaps, so that a day lies in exactly one of them: the month
of a day is the one that it lies in (`monthOfDay_eq_iff`), and a date is given by its month and its
day in it (`ofMonthDay?_eq_some_iff`).
-/

namespace ChoreRota

namespace Month

theorem eq_of_index {left right : Month} (hindex : left.index = right.index) : left = right := by
  cases left; cases right; simp_all

theorem length_bounds (month : Month) : 28 ≤ month.length ∧ month.length ≤ 31 := by
  unfold length
  split
  · split <;> omega
  · split <;> omega

@[simp]
theorem index_later (month : Month) (count : Int) :
    (month.later count).index = month.index + count := rfl

theorem later_later (month : Month) (first second : Int) :
    (month.later first).later second = month.later (first + second) := by
  apply eq_of_index
  simp only [index_later]
  omega

theorem start_later_le_start {earlier later : Month} (hindex : earlier.index < later.index) :
    (earlier.later 1).start ≤ later.start := by
  obtain ⟨steps, hsteps⟩ : ∃ steps : Nat, later.index = earlier.index + 1 + steps :=
    ⟨(later.index - (earlier.index + 1)).toNat, by omega⟩
  clear hindex
  induction steps generalizing later with
  | zero =>
    have hlater : later = earlier.later 1 := eq_of_index (by simpa using hsteps)
    exact Int.le_of_eq (by rw [hlater])
  | succ steps ih =>
    have hbefore := @ih (later.later (-1)) (by simp only [index_later]; omega)
    have hnext := start_succ (later.later (-1))
    have hlength := length_bounds (later.later (-1))
    rw [later_later, show (-1 : Int) + 1 = 0 by decide] at hnext
    have hsame : later.later 0 = later := eq_of_index (by simp)
    rw [hsame] at hnext
    omega

theorem start_le_start {earlier later : Month} (hindex : earlier.index ≤ later.index) :
    earlier.start ≤ later.start := by
  rcases Int.lt_or_eq_of_le hindex with hlt | heq
  · have hnext := start_later_le_start hlt
    have hlength := earlier.length_bounds
    rw [start_succ] at hnext
    omega
  · exact Int.le_of_eq (by rw [eq_of_index heq])

end Month

theorem index_monthOfDay_le {earlier later : Int} (hle : earlier ≤ later) :
    (monthOfDay earlier).index ≤ (monthOfDay later).index := by
  refine Int.not_lt.1 fun hlater => ?_
  have hnext := Month.start_later_le_start hlater
  have hstart := start_monthOfDay_le earlier
  have hend := lt_start_monthOfDay_succ later
  omega

theorem monthOfDay_eq_iff {month : Month} {day : Int} :
    monthOfDay day = month ↔ month.start ≤ day ∧ day < month.start + month.length := by
  have hlow := start_monthOfDay_le day
  have hhigh := lt_start_monthOfDay_succ day
  constructor
  · rintro rfl
    rw [Month.start_succ] at hhigh
    exact ⟨hlow, hhigh⟩
  · rintro ⟨hstart, hend⟩
    rw [← Month.start_succ] at hend
    apply Month.eq_of_index
    rcases Int.lt_trichotomy (monthOfDay day).index month.index with hlt | heq | hgt
    · have := Month.start_later_le_start hlt
      omega
    · exact heq
    · have := Month.start_later_le_start hgt
      omega

namespace Date

theorem month_eq_iff {date : Date} {month : Month} :
    date.month = month ↔
      month.start ≤ date.dayNumber ∧ date.dayNumber < month.start + month.length :=
  monthOfDay_eq_iff

theorem day_bounds (date : Date) : 1 ≤ date.day ∧ date.day ≤ date.month.length := by
  obtain ⟨hstart, hend⟩ := month_eq_iff.1 (rfl : date.month = date.month)
  unfold day
  omega

theorem ofMonthDay?_eq_some_iff {month : Month} {day : Int} {date : Date} :
    ofMonthDay? month day = some date ↔ date.month = month ∧ date.day = day := by
  unfold ofMonthDay?
  constructor
  · intro hdate
    split at hdate
    · rename_i hday
      have hnumber := ofDayNumber?_eq_some_iff.1 hdate
      have hmonth : date.month = month := month_eq_iff.2 (by omega)
      refine ⟨hmonth, ?_⟩
      rw [Date.day, hmonth]
      omega
    · cases hdate
  · rintro ⟨rfl, rfl⟩
    rw [if_pos (day_bounds date), ofDayNumber?_eq_some_iff, day]
    omega

theorem month_of_succ {date next : Date} (hnext : next.dayNumber = date.dayNumber + 1) :
    next.month = date.month ∨ next.month = date.month.later 1 := by
  obtain ⟨hstart, hend⟩ := month_eq_iff.1 (rfl : date.month = date.month)
  by_cases hsame : next.dayNumber < date.month.start + date.month.length
  · exact .inl (month_eq_iff.2 (by omega))
  · have hlength := Month.length_bounds (date.month.later 1)
    refine .inr (month_eq_iff.2 ?_)
    rw [Month.start_succ]
    omega

end Date

end ChoreRota
