import ChoreRota.Calendar.Month

/-!
# Dates

A date is a day number in the years -9999 to 9999. Its year and month are found from the day
number alone; `start_monthOfDay_le` and `lt_start_monthOfDay_succ` say that they are the right ones.
-/

namespace ChoreRota

/-- The year that holds a day, counted from 1 January 1970. -/
def yearOfDay (day : Int) : Int :=
  let guess := 400 * (day + 719162) / 146097 + 1
  if day < yearStart guess then guess - 1
  else if yearStart (guess + 1) ≤ day then guess + 1
  else guess

def monthOfDay (day : Int) : Month :=
  let year := yearOfDay day
  let elapsed := day - yearStart year
  let leapDay := if isLeapYear year then 1 else 0
  let missing := if elapsed < 59 + leapDay then 0 else 2 - leapDay
  Month.ofYear year ((12 * (elapsed + missing) + 373) / 367)

inductive Weekday where
  | monday | tuesday | wednesday | thursday | friday | saturday | sunday
  deriving DecidableEq, Repr

def Weekday.name : Weekday → String
  | .monday => "Monday"
  | .tuesday => "Tuesday"
  | .wednesday => "Wednesday"
  | .thursday => "Thursday"
  | .friday => "Friday"
  | .saturday => "Saturday"
  | .sunday => "Sunday"

/-- The weekday of a day, counted from 1 January 1970, a Thursday. -/
def weekdayOfDay (day : Int) : Weekday :=
  match (day % 7).toNat with
  | 0 => .thursday
  | 1 => .friday
  | 2 => .saturday
  | 3 => .sunday
  | 4 => .monday
  | 5 => .tuesday
  | _ => .wednesday

/-- 1 January -9999. -/
def firstDay : Int := -4371587

/-- 31 December 9999. -/
def lastDay : Int := 2932896

theorem firstDay_eq : firstDay = yearStart (-9999) := by decide

theorem lastDay_eq : lastDay = yearStart 10000 - 1 := by decide

/-- A date, as its number of days since 1 January 1970. -/
structure Date where
  dayNumber : Int
  firstDay_le : firstDay ≤ dayNumber
  le_lastDay : dayNumber ≤ lastDay
  deriving DecidableEq, Repr

namespace Date

@[ext]
theorem eq_of_dayNumber {left right : Date} (hday : left.dayNumber = right.dayNumber) :
    left = right := by
  cases left; cases right; simp_all

def ofDayNumber? (day : Int) : Option Date :=
  if hrange : firstDay ≤ day ∧ day ≤ lastDay then some ⟨day, hrange.1, hrange.2⟩ else none

theorem ofDayNumber?_eq_some_iff {day : Int} {date : Date} :
    ofDayNumber? day = some date ↔ date.dayNumber = day := by
  unfold ofDayNumber?
  constructor
  · intro h
    split at h
    · cases h; rfl
    · cases h
  · rintro rfl
    rw [dif_pos ⟨date.firstDay_le, date.le_lastDay⟩]

theorem ofDayNumber?_eq_none_iff {day : Int} :
    ofDayNumber? day = none ↔ day < firstDay ∨ lastDay < day := by
  unfold ofDayNumber?
  split <;> simp <;> omega

def addDays? (date : Date) (days : Int) : Option Date :=
  ofDayNumber? (date.dayNumber + days)

def month (date : Date) : Month :=
  monthOfDay date.dayNumber

def year (date : Date) : Int :=
  date.month.year

def day (date : Date) : Int :=
  date.dayNumber - date.month.start + 1

def weekday (date : Date) : Weekday :=
  weekdayOfDay date.dayNumber

/-- The day of a month by its number, from 1 to the month's length. -/
def ofMonthDay? (month : Month) (day : Int) : Option Date :=
  if 1 ≤ day ∧ day ≤ month.length then ofDayNumber? (month.start + (day - 1)) else none

end Date

theorem yearStart_yearOfDay_le (day : Int) : yearStart (yearOfDay day) ≤ day := by
  unfold yearOfDay
  simp only
  split
  · rename_i hbefore
    unfold yearStart at *
    omega
  · split <;> omega

theorem lt_yearStart_succ_yearOfDay (day : Int) : day < yearStart (yearOfDay day + 1) := by
  unfold yearOfDay
  simp only
  split
  · rw [Int.sub_add_cancel]; assumption
  · split
    · rename_i hbefore hafter
      unfold yearStart at *
      omega
    · omega

/-- What the month of a day comes from: its number lies in the year, and the days elapsed in the
year lie in the stretch of that number. -/
theorem monthOfDay_bounds (day : Int) :
    let year := yearOfDay day
    let leapDay := if isLeapYear year then 1 else 0
    ∃ number : Int, monthOfDay day = Month.ofYear year number ∧ 1 ≤ number ∧ number ≤ 12 ∧
      yearStart year + ((367 * number - 362) / 12 - if number ≤ 2 then 0 else 2 - leapDay) ≤ day ∧
      day < yearStart year + (365 + leapDay) ∧
      (number ≤ 11 → day < yearStart year +
        ((367 * (number + 1) - 362) / 12 - if number ≤ 1 then 0 else 2 - leapDay)) := by
  have hlow := yearStart_yearOfDay_le day
  have hhigh := lt_yearStart_succ_yearOfDay day
  rw [yearStart_succ] at hhigh
  simp only [monthOfDay]
  generalize yearOfDay day = year at *
  generalize isLeapYear year = leap at *
  refine ⟨_, rfl, ?_⟩
  cases leap <;> simp only [if_true, Bool.false_eq_true, if_false] at hhigh ⊢
  all_goals
    split
    all_goals
      generalize hnumber : (12 * (day - yearStart year + _) + 373) / 367 = number
      have hcases : number = 1 ∨ number = 2 ∨ number = 3 ∨ number = 4 ∨ number = 5 ∨ number = 6 ∨
        number = 7 ∨ number = 8 ∨ number = 9 ∨ number = 10 ∨ number = 11 ∨ number = 12 := by omega
      rcases hcases with h | h | h | h | h | h | h | h | h | h | h | h <;> subst h <;>
        simp <;> omega

theorem monthOfDay_year (day : Int) : (monthOfDay day).year = yearOfDay day := by
  obtain ⟨number, hmonth, hone, htwelve, -⟩ := monthOfDay_bounds day
  rw [hmonth]
  simp only [Month.ofYear, Month.year]
  omega

theorem start_monthOfDay_le (day : Int) : (monthOfDay day).start ≤ day := by
  have hyear := monthOfDay_year day
  obtain ⟨number, hmonth, hone, htwelve, hlow, -⟩ := monthOfDay_bounds day
  have hnumber : (monthOfDay day).number = number := by
    rw [hmonth]; simp only [Month.ofYear, Month.number]; omega
  rw [Month.start, hyear, hnumber]
  by_cases hsmall : number ≤ 2
  · simp only [hsmall, if_true] at hlow ⊢
    omega
  · cases hleap : isLeapYear (yearOfDay day) <;> simp [hleap, hsmall] at hlow ⊢ <;> omega

theorem lt_start_monthOfDay_succ (day : Int) : day < ((monthOfDay day).later 1).start := by
  have hyear := monthOfDay_year day
  obtain ⟨number, hmonth, hone, htwelve, hlow, hyearEnd, hhigh⟩ := monthOfDay_bounds day
  have hsucc := yearStart_succ (yearOfDay day)
  have hindex : (monthOfDay day).index = yearOfDay day * 12 + (number - 1) := by
    rw [hmonth]; rfl
  by_cases hlast : number = 12
  · have hnext : ((monthOfDay day).later 1).year = yearOfDay day + 1 ∧
        ((monthOfDay day).later 1).number = 1 := by
      simp only [Month.later, Month.year, Month.number]; omega
    rw [Month.start, hnext.1, hnext.2, hsucc]
    simp
    cases hleap : isLeapYear (yearOfDay day) <;> simp [hleap] at hyearEnd ⊢ <;> omega
  · have hnext : ((monthOfDay day).later 1).year = yearOfDay day ∧
        ((monthOfDay day).later 1).number = number + 1 := by
      simp only [Month.later, Month.year, Month.number]; omega
    rw [Month.start, hnext.1, hnext.2]
    have hbound := hhigh (by omega)
    by_cases hsmall : number ≤ 1
    · have hnextSmall : number + 1 ≤ 2 := by omega
      simp only [hsmall, hnextSmall, if_true] at hbound ⊢
      omega
    · have hnextLarge : ¬number + 1 ≤ 2 := by omega
      cases hleap : isLeapYear (yearOfDay day) <;>
        simp [hleap, hsmall, hnextLarge] at hbound ⊢ <;> omega

end ChoreRota
