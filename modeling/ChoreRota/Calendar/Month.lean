/-!
# Calendar months

The proleptic Gregorian calendar, counted in months and in days from 1 January 1970. Each month
begins on the day after the one before it ends (`start_succ`), so the months tile the days.
-/

namespace ChoreRota

def isLeapYear (year : Int) : Bool :=
  year % 4 == 0 && (year % 100 != 0 || year % 400 == 0)

/-- Days from 1 January 1970 to 1 January of `year`. -/
def yearStart (year : Int) : Int :=
  365 * (year - 1970) + (year - 1) / 4 - (year - 1) / 100 + (year - 1) / 400 - 477

theorem isLeapYear_eq_true_iff (year : Int) :
    isLeapYear year = true ↔ year % 4 = 0 ∧ (year % 100 ≠ 0 ∨ year % 400 = 0) := by
  simp [isLeapYear]

theorem yearStart_succ (year : Int) :
    yearStart (year + 1) = yearStart year + if isLeapYear year then 366 else 365 := by
  have hleap := isLeapYear_eq_true_iff year
  have h4 : year / 4 = (year - 1) / 4 + if year % 4 = 0 then 1 else 0 := by split <;> omega
  have h100 : year / 100 = (year - 1) / 100 + if year % 100 = 0 then 1 else 0 := by
    split <;> omega
  have h400 : year / 400 = (year - 1) / 400 + if year % 400 = 0 then 1 else 0 := by
    split <;> omega
  have hfour : year % 100 = 0 → year % 4 = 0 := by omega
  have hhundred : year % 400 = 0 → year % 100 = 0 := by omega
  unfold yearStart
  rw [Int.add_sub_cancel, h4, h100, h400]
  generalize (year - 1) / 4 = quads
  generalize (year - 1) / 100 = centuries
  generalize (year - 1) / 400 = cycles
  clear h4 h100 h400
  by_cases hq : year % 4 = 0 <;> by_cases hc : year % 100 = 0 <;>
    by_cases hy : year % 400 = 0 <;> simp_all <;> omega

/-- A month of a year, counted from January of year 0. -/
structure Month where
  index : Int
  deriving DecidableEq, Repr

namespace Month

def ofYear (year number : Int) : Month :=
  ⟨year * 12 + (number - 1)⟩

def year (month : Month) : Int :=
  month.index / 12

def number (month : Month) : Int :=
  month.index % 12 + 1

def later (month : Month) (count : Int) : Month :=
  ⟨month.index + count⟩

def quarterStart (month : Month) : Month :=
  ⟨month.index / 3 * 3⟩

def length (month : Month) : Int :=
  if month.number = 2 then if isLeapYear month.year then 29 else 28
  else if month.number = 4 ∨ month.number = 6 ∨ month.number = 9 ∨ month.number = 11 then 30
  else 31

/-- Days from the first of January to the first of the month, were February 30 days long, and how
many of those days February lacks. -/
def start (month : Month) : Int :=
  yearStart month.year + (367 * month.number - 362) / 12 -
    if month.number ≤ 2 then 0 else if isLeapYear month.year then 1 else 2

def names : List String :=
  ["January", "February", "March", "April", "May", "June", "July", "August", "September",
    "October", "November", "December"]

def name (month : Month) : String :=
  names.getD (month.number - 1).toNat ""

theorem start_succ (month : Month) : (month.later 1).start = month.start + month.length := by
  have hyear := yearStart_succ month.year
  unfold start length
  have hnext : (month.later 1).year = month.year ∧ (month.later 1).number = month.number + 1 ∧
      month.number ≤ 11 ∨
      (month.later 1).year = month.year + 1 ∧ (month.later 1).number = 1 ∧ month.number = 12 := by
    simp only [later, year, number]
    omega
  have hlow : 1 ≤ month.number := by simp only [number]; omega
  rcases hnext with ⟨h1, h2, h3⟩ | ⟨h1, h2, h3⟩ <;> rw [h1, h2]
  · generalize month.number = n at *
    have hn : n = 1 ∨ n = 2 ∨ n = 3 ∨ n = 4 ∨ n = 5 ∨ n = 6 ∨ n = 7 ∨ n = 8 ∨ n = 9 ∨ n = 10 ∨
        n = 11 := by omega
    rcases hn with h | h | h | h | h | h | h | h | h | h | h <;> subst h <;> simp <;> split <;>
      omega
  · rw [hyear, h3]
    simp
    split <;> omega

end Month

end ChoreRota
