import ChoreRota.Proofs.WeeklySlots

/-!
# The search over dates

The search finds a date exactly where it is the first wanted one within the bound
(`firstWanted_eq_ok_iff`), and misses exactly where the calendar has all the dates of the bound and
none of them is wanted (`firstWanted_eq_missing_iff`).
-/

namespace ChoreRota

/-- The first wanted date after a date, at most `bound` days on. -/
structure IsEarliest (wanted : Date → Prop) (date : Date) (bound : Int) (found : Date) : Prop where
  after : date.dayNumber < found.dayNumber
  within : found.dayNumber ≤ date.dayNumber + bound
  isWanted : wanted found
  skipsNone : ∀ earlier : Date, date.dayNumber < earlier.dayNumber →
    earlier.dayNumber < found.dayNumber → ¬wanted earlier

def NoneWithin (wanted : Date → Prop) (date : Date) (bound : Int) : Prop :=
  ∀ later : Date, date.dayNumber < later.dayNumber →
    later.dayNumber ≤ date.dayNumber + bound → ¬wanted later

section Search

variable {isWanted : Date → Bool} {wanted : Date → Prop} {missing : Fault} {date found later : Date}
  {bound : Nat}

theorem firstWanted_eq_ok_iff (hwanted : ∀ date, isWanted date = true ↔ wanted date) :
    firstWanted isWanted missing date bound = .ok found ↔ IsEarliest wanted date bound found := by
  have hunwanted : ∀ date, isWanted date = false ↔ ¬wanted date := fun date => by
    rw [← hwanted, Bool.not_eq_true]
  constructor
  · intro hfound
    obtain ⟨count, hone, hbound, hday, hisWanted, hskipped⟩ := firstWanted_eq_ok hfound
    exact ⟨by omega, by omega, (hwanted found).1 hisWanted, fun earlier hlow hhigh =>
      (hunwanted earlier).1 (hskipped earlier hlow hhigh)⟩
  · intro hearliest
    exact firstWanted_eq_ok_of_first hearliest.after hearliest.within
      ((hwanted found).2 hearliest.isWanted) fun earlier hlow hhigh =>
        (hunwanted earlier).2 (hearliest.skipsNone earlier hlow hhigh)

theorem exists_firstWanted_eq_ok (hafter : date.dayNumber < later.dayNumber)
    (hbound : later.dayNumber ≤ date.dayNumber + bound) (hlater : isWanted later = true) :
    ∃ found, firstWanted isWanted missing date bound = .ok found := by
  induction bound generalizing date with
  | zero => omega
  | succ bound ih =>
    have hstart := date.firstDay_le
    have hend := later.le_lastDay
    let next : Date := ⟨date.dayNumber + 1, by omega, by omega⟩
    have hday : next.dayNumber = date.dayNumber + 1 := rfl
    have hnext : date.addDays? 1 = some next := Date.ofDayNumber?_eq_some_iff.2 hday
    simp only [firstWanted, hnext]
    cases hwanted : isWanted next with
    | true => exact ⟨next, rfl⟩
    | false =>
      have hother : next.dayNumber ≠ later.dayNumber := by
        intro hsame
        rw [Date.eq_of_dayNumber hsame, hlater] at hwanted
        cases hwanted
      exact ih (by omega) (by omega)

theorem firstWanted_eq_missing_iff (hwanted : ∀ date, isWanted date = true ↔ wanted date)
    (hmissing : missing ≠ .dueDateOutOfRange) :
    firstWanted isWanted missing date bound = .error missing ↔
      date.dayNumber + bound ≤ lastDay ∧ NoneWithin wanted date bound := by
  induction bound generalizing date with
  | zero =>
    have hend := date.le_lastDay
    exact iff_of_true rfl ⟨by omega, fun later hlow hhigh => by omega⟩
  | succ bound ih =>
    rw [firstWanted]
    split
    · rename_i hnone
      have hend := Date.ofDayNumber?_eq_none_iff.1 hnone
      have hstart := date.firstDay_le
      refine iff_of_false (fun hfault => hmissing (Except.error.inj hfault).symm) fun hscan => ?_
      have hroom := hscan.1
      omega
    · rename_i next hnext
      have hday := Date.ofDayNumber?_eq_some_iff.1 hnext
      split
      · rename_i hisWanted
        refine iff_of_false (by simp) fun hscan => ?_
        exact hscan.2 next (by omega) (by omega) ((hwanted next).1 hisWanted)
      · rename_i hunwanted
        rw [ih]
        refine and_congr (by omega) ⟨fun hrest later hlow hhigh => ?_, fun hall later hlow hhigh =>
          hall later (by omega) (by omega)⟩
        by_cases hsame : later.dayNumber = next.dayNumber
        · rw [Date.eq_of_dayNumber hsame, ← hwanted]
          exact hunwanted
        · exact hrest later (by omega) (by omega)

end Search

def Weekday.sinceThursday : Weekday → Int
  | .thursday => 0
  | .friday => 1
  | .saturday => 2
  | .sunday => 3
  | .monday => 4
  | .tuesday => 5
  | .wednesday => 6

theorem weekdayOfDay_eq_iff {day : Int} {weekday : Weekday} :
    weekdayOfDay day = weekday ↔ day % 7 = weekday.sinceThursday := by
  obtain ⟨rest, hrest⟩ : ∃ rest : Fin 7, day % 7 = rest :=
    ⟨⟨(day % 7).toNat, by omega⟩, by simp only; omega⟩
  rw [weekdayOfDay, hrest]
  clear hrest
  revert rest
  cases weekday <;> decide

theorem weekdayOfDay_eq_weekdayOfDay_iff {left right : Int} :
    weekdayOfDay left = weekdayOfDay right ↔ left % 7 = right % 7 := by
  have hright : right % 7 = (weekdayOfDay right).sinceThursday := weekdayOfDay_eq_iff.1 rfl
  rw [weekdayOfDay_eq_iff, hright]

theorem Weekday.sinceThursday_bounds (weekday : Weekday) :
    0 ≤ weekday.sinceThursday ∧ weekday.sinceThursday ≤ 6 := by
  cases weekday <;> decide

theorem exists_weekdayOfDay_eq (weekday : Weekday) (first : Int) :
    ∃ day, first ≤ day ∧ day < first + 7 ∧ weekdayOfDay day = weekday := by
  have hbounds := weekday.sinceThursday_bounds
  refine ⟨first + (weekday.sinceThursday - first) % 7, by omega, by omega, ?_⟩
  rw [weekdayOfDay_eq_iff]
  omega

/-- A stretch of days has a weekday as often as it has whole weeks, and once in its last one. -/
theorem exists_named_day {first finish name : Int} (weekday : Weekday)
    (hroom : name = -1 ∧ first + 7 ≤ finish ∨ 1 ≤ name ∧ first + 7 * name ≤ finish) :
    ∃ day, weekdayOfDay day = weekday ∧ first ≤ day ∧ day < finish ∧
      ((day - first) / 7 + 1 = name ∨ name = -1 ∧ finish ≤ day + 7) := by
  rcases hroom with ⟨rfl, hweek⟩ | ⟨hone, hweeks⟩
  · obtain ⟨day, hlow, hhigh, hweekday⟩ := exists_weekdayOfDay_eq weekday (finish - 7)
    exact ⟨day, hweekday, by omega, by omega, .inr ⟨rfl, by omega⟩⟩
  · obtain ⟨day, hlow, hhigh, hweekday⟩ := exists_weekdayOfDay_eq weekday (first + 7 * (name - 1))
    exact ⟨day, hweekday, by omega, by omega, .inl (by omega)⟩

theorem exists_nextListedDate_eq_ok {names : List String} {date : Date}
    (hlisted : ∃ weekday : Weekday, weekday.isListed names = true)
    (hroom : date.dayNumber + 7 ≤ lastDay) : ∃ found, nextListedDate names date = .ok found := by
  obtain ⟨weekday, hlisted⟩ := hlisted
  obtain ⟨day, hlow, hhigh, hweekday⟩ := exists_weekdayOfDay_eq weekday (date.dayNumber + 1)
  have hstart := date.firstDay_le
  let later : Date := ⟨day, by omega, by omega⟩
  have hday : later.dayNumber = day := rfl
  have hlaterListed : later.weekday.isListed names = true := by
    rw [Date.weekday, hday, hweekday, hlisted]
  have hafter : date.dayNumber < later.dayNumber := by omega
  exact exists_firstWanted_eq_ok hafter (by omega) hlaterListed

end ChoreRota
