import ChoreRota.Calendar.Zone.Table
import ChoreRota.Proofs.MonthArithmetic
import ChoreRota.Proofs.Progress

/-!
# The months of a rolling schedule

A rolling chore on a day of listed months searches from after its due date, so that leaving out the
month of the due date is no more than beginning after it (`firstListedMonth_searchMonth_eq_ok_iff`),
and twelve months in a row have every month that a list can name.
-/

namespace ChoreRota

/-! ### The search over twelve months -/

theorem Month.isListed_of_number {month other : Month} (hnumber : month.number = other.number)
    (names : List String) : month.isListed names = other.isListed names := by
  simp only [isListed, name, hnumber]

structure IsFirstListed (names : List String) (month : Month) (leftOut : Option Month)
    (found : Month) : Prop where
  listed : found.isListed names = true
  le : month.index ≤ found.index
  notLeftOut : leftOut ≠ some found
  first : ∀ other : Month, other.isListed names = true → month.index ≤ other.index →
    leftOut ≠ some other → found.index ≤ other.index

theorem IsFirstListed.eq {names : List String} {month found other : Month}
    {leftOut : Option Month} (hfound : IsFirstListed names month leftOut found)
    (hother : IsFirstListed names month leftOut other) : found = other := by
  have hle := hfound.first other hother.listed hother.le hother.notLeftOut
  have hge := hother.first found hfound.listed hfound.le hfound.notLeftOut
  exact Month.eq_of_index (by omega)

section Search

variable {names : List String} {month found : Month} {count : Nat} {fault : Fault}

theorem lt_of_firstListedMonth (hfound : firstListedMonth names month count = .ok found) :
    found.index < month.index + count := by
  induction count generalizing month with
  | zero => cases hfound
  | succ count ih =>
    rw [firstListedMonth] at hfound
    split at hfound
    · obtain rfl := Except.ok.inj hfound
      omega
    · have hrest := ih hfound
      rw [Month.index_later] at hrest
      omega

theorem firstListedMonth_eq_error
    (hnone : firstListedMonth names month count = .error fault) :
    fault = .noMonth ∧ ∀ other : Month, month.index ≤ other.index →
      other.index < month.index + count → other.isListed names = false := by
  induction count generalizing month with
  | zero => exact ⟨(Except.error.inj hnone).symm, fun other hlow hhigh => by omega⟩
  | succ count ih =>
    rw [firstListedMonth] at hnone
    split at hnone
    · cases hnone
    · rename_i hunlisted
      obtain ⟨hfault, hrest⟩ := ih hnone
      refine ⟨hfault, fun other hlow hhigh => ?_⟩
      by_cases hsame : other.index = month.index
      · rw [Month.eq_of_index hsame]
        exact Bool.eq_false_iff.2 hunlisted
      · exact hrest other (by rw [Month.index_later]; omega) (by rw [Month.index_later]; omega)

/-- A search of twelve months misses where the list names no month at all. -/
theorem firstListedMonth_twelve_eq_error_iff :
    firstListedMonth names month 12 = .error fault ↔
      fault = .noMonth ∧ ∀ other : Month, other.isListed names = false := by
  constructor
  · intro hnone
    obtain ⟨hfault, hunlisted⟩ := firstListedMonth_eq_error hnone
    refine ⟨hfault, fun other => ?_⟩
    let twin : Month := ⟨month.index + (other.index - month.index) % 12⟩
    have hindex : twin.index = month.index + (other.index - month.index) % 12 := rfl
    have hnumber : other.number = twin.number := by
      unfold Month.number
      omega
    rw [Month.isListed_of_number hnumber]
    exact hunlisted twin (by omega) (by omega)
  · rintro ⟨rfl, hunlisted⟩
    cases hsearch : firstListedMonth names month 12 with
    | error other => rw [(firstListedMonth_eq_error hsearch).1]
    | ok found =>
      have hlisted := (firstListedMonth_eq_ok hsearch).2.1
      rw [hunlisted found] at hlisted
      cases hlisted

theorem isFirstListed_of_search {priorDue : Option Moment} {start : Moment}
    (hdue : ∀ due ∈ priorDue, due.month.index ≤ start.month.index)
    (hsearch : firstListedMonth names (searchMonth priorDue start) 12 = .ok found) :
    IsFirstListed names start.month (priorDue.map Moment.month) found := by
  obtain ⟨hle, hlisted, hskipped⟩ := firstListedMonth_eq_ok hsearch
  by_cases hleftOut : priorDue.map Moment.month = some start.month
  · rw [searchMonth, if_pos hleftOut, Month.index_later] at hle hskipped
    rw [hleftOut]
    refine ⟨hlisted, by omega, ?_, fun other hother hfrom hkept => ?_⟩
    · intro hsame
      rw [Option.some.inj hsame] at hle
      omega
    · by_contra hearlier
      have hdiffers : other.index ≠ start.month.index :=
        fun hsame => hkept (by rw [Month.eq_of_index hsame])
      have hunlisted := hskipped other.index (by omega) (by omega)
      exact Bool.false_ne_true (hunlisted.symm.trans hother)
  · rw [searchMonth, if_neg hleftOut] at hle hskipped
    refine ⟨hlisted, hle, ?_, fun other hother hfrom _ => ?_⟩
    · intro hsame
      obtain ⟨due, hpriorDue, rfl⟩ := Option.map_eq_some_iff.1 hsame
      have hbefore := hdue due hpriorDue
      have hstart : due.month = start.month := Month.eq_of_index (by omega)
      exact hleftOut (by rw [hsame, hstart])
    · by_contra hearlier
      have hunlisted := hskipped other.index hfrom (by omega)
      exact Bool.false_ne_true (hunlisted.symm.trans hother)

theorem firstListedMonth_searchMonth_eq_ok_iff {priorDue : Option Moment} {start : Moment}
    (hdue : ∀ due ∈ priorDue, due.month.index ≤ start.month.index) :
    firstListedMonth names (searchMonth priorDue start) 12 = .ok found ↔
      IsFirstListed names start.month (priorDue.map Moment.month) found := by
  constructor
  · exact isFirstListed_of_search hdue
  · intro hfound
    cases hsearch : firstListedMonth names (searchMonth priorDue start) 12 with
    | ok other => rw [hfound.eq (isFirstListed_of_search hdue hsearch)]
    | error fault =>
      have hunlisted := (firstListedMonth_twelve_eq_error_iff.1 hsearch).2 found
      exact absurd (hunlisted.symm.trans hfound.listed) Bool.false_ne_true

end Search

theorem exists_clampedDate {month : Month} {day : Int} (hmonth : month.IsOnCalendar)
    (hday : 1 ≤ day) : ∃ date, month.clampedDate day = .ok date := by
  have hlow := (Month.isOnCalendar_iff.1 hmonth).1
  have hhigh := hmonth.add_le_lastDay
  have hlength := month.length_bounds
  let date : Date := ⟨month.start + (min day month.length - 1), by omega, by omega⟩
  have hnumber : date.dayNumber = month.start + (min day month.length - 1) := rfl
  have hsame : date.month = month := Date.month_eq_iff.2 (by omega)
  refine ⟨date, clampedDate_eq_ok_iff.2 ⟨hsame, ?_⟩⟩
  rw [Date.day, hsame]
  omega

/-! ### Where the search begins -/

structure IsFirstSlot (time : TimeOfDay) (completed slot : Moment) : Prop where
  sameTime : slot.time = time
  le : completed.nanos ≤ slot.nanos
  first : ∀ other : Moment, other.time = time → completed.nanos ≤ other.nanos →
    slot.nanos ≤ other.nanos

/-- Where a rolling chore is searched from: a second after it was due if the completion comes before
that, and otherwise the first slot from the completion on. -/
def IsSearchStart (time : TimeOfDay) (priorDue : Option Moment) (completed start : Moment) : Prop :=
  (∃ due ∈ priorDue, completed.nanos < due.nanos + seconds 1 ∧
      start.nanos = due.nanos + seconds 1) ∨
    (∀ due ∈ priorDue, due.nanos + seconds 1 ≤ completed.nanos) ∧ IsFirstSlot time completed start

theorem IsSearchStart.lt {time : TimeOfDay} {priorDue : Option Moment}
    {completed start due : Moment} (hstart : IsSearchStart time priorDue completed start)
    (hdue : due ∈ priorDue) : due.nanos < start.nanos := by
  unfold IsSearchStart seconds at hstart
  rcases hstart with ⟨other, hother, -, hafter⟩ | ⟨hlate, hslot⟩
  · obtain rfl := Option.some.inj (hother.symm.trans hdue)
    omega
  · have hpast := hlate due hdue
    have hle := hslot.le
    omega

namespace Chore

variable {chore : Chore} {priorDue : Option Moment} {completed base start : Moment}
  {time : TimeOfDay}

theorem isFirstSlot_of_notBefore {slot : Moment}
    (hslot : notBefore (completed.atTime time) completed = .ok slot) :
    IsFirstSlot time completed slot := by
  have hsameDay : (completed.atTime time).nanos =
      completed.date.dayNumber * 86400000000000 + time.nanos := rfl
  have htime := time.nanos_lt
  have hcompletedTime := completed.time.nanos_lt
  have hnanos : ∀ other : Moment, other.time = time →
      other.nanos = other.date.dayNumber * 86400000000000 + time.nanos := by
    rintro other rfl
    rfl
  unfold notBefore at hslot
  split at hslot
  · rename_i hover
    have hday := Moment.later_eq_ok_iff.1 hslot
    have hslotTime : slot.time = time := (Moment.nanos_eq_add_days_iff.1 hday).2
    unfold days at hday
    refine ⟨hslotTime, ?_, fun other hother hle => ?_⟩
    · unfold Moment.nanos at hcompletedTime hday hsameDay ⊢
      omega
    · have hotherNanos := hnanos other hother
      unfold Moment.nanos at *
      omega
  · rename_i hahead
    obtain rfl := Except.ok.inj hslot
    refine ⟨rfl, by omega, fun other hother hle => ?_⟩
    have hotherNanos := hnanos other hother
    unfold Moment.nanos at *
    omega

theorem baseDate_eq_notBefore (huses : chore.kind.usesTimeOfDay = true)
    (hanchor : chore.anchor priorDue completed = completed)
    (htime : chore.details.configuredTime = .ok time) :
    chore.baseDate priorDue completed = notBefore (completed.atTime time) completed := by
  rw [baseDate, if_pos huses, htime, hanchor]
  rfl

theorem exists_firstSlot (huses : chore.kind.usesTimeOfDay = true)
    (hanchored : chore.isRolling = true ∨ priorDue = none)
    (htime : chore.details.configuredTime = .ok time)
    (hcompleted : completed.date.dayNumber < lastDay) :
    ∃ slot, chore.baseDate priorDue completed = .ok slot ∧ IsFirstSlot time completed slot := by
  have hslotDay : (completed.atTime time).date.dayNumber < lastDay := hcompleted
  obtain ⟨slot, hslot⟩ := exists_notBefore hslotDay completed
  have hanchor : chore.anchor priorDue completed = completed := anchor_eq_completed hanchored
  have hbase := baseDate_eq_notBefore huses hanchor htime
  exact ⟨slot, hbase.trans hslot, isFirstSlot_of_notBefore hslot⟩

theorem monthSearchBase_eq_ok (hstart : chore.monthSearchBase base priorDue completed = .ok start) :
    (chore.isRolling = true ∧ ∃ due ∈ priorDue, completed.nanos < due.nanos + seconds 1 ∧
        start.nanos = due.nanos + seconds 1) ∨
      (chore.isRolling = true → ∀ due ∈ priorDue, due.nanos + seconds 1 ≤ completed.nanos) ∧
        start = base := by
  unfold monthSearchBase at hstart
  cases priorDue with
  | none =>
    refine .inr ⟨fun _ due hdue => ?_, (Except.ok.inj hstart).symm⟩
    cases hdue
  | some due =>
    cases hrolling : chore.isRolling with
    | false =>
      simp only [hrolling, Bool.false_eq_true, if_false] at hstart
      refine .inr ⟨fun htrue => ?_, (Except.ok.inj hstart).symm⟩
      cases htrue
    | true =>
      simp only [hrolling, if_true] at hstart
      obtain ⟨justAfter, hjustAfter, hstart⟩ := bind_eq_ok_iff.1 hstart
      have hnanos := Moment.later_eq_ok_iff.1 hjustAfter
      split at hstart
      · rename_i hearly
        obtain rfl := Except.ok.inj hstart
        rw [hnanos] at hearly
        exact .inl ⟨rfl, due, rfl, hearly, hnanos⟩
      · rename_i hlate
        obtain rfl := Except.ok.inj hstart
        refine .inr ⟨fun _ other hother => ?_, rfl⟩
        obtain rfl := Option.some.inj hother
        omega

theorem exists_monthSearchBase (hdue : ∀ due ∈ priorDue, due.date.dayNumber < lastDay)
    (chore : Chore) (base completed : Moment) :
    ∃ start, chore.monthSearchBase base priorDue completed = .ok start := by
  unfold monthSearchBase
  cases priorDue with
  | none => exact ⟨base, rfl⟩
  | some due =>
    simp only
    split
    · have hroom := hdue due rfl
      have hfirst := due.date.firstDay_le
      have htime := due.time.nanos_lt
      have hsecond : Moment.ofNanos? (due.nanos + seconds 1) ≠ none := by
        rw [ne_eq, Moment.ofNanos?_eq_none_iff]
        unfold Moment.nanos seconds days
        omega
      obtain ⟨justAfter, hjustAfter⟩ := Option.ne_none_iff_exists'.1 hsecond
      have hlater : due.later (seconds 1) = .ok justAfter :=
        Moment.later_eq_ok_iff.2 (Moment.ofNanos?_eq_some_iff.1 hjustAfter)
      exact ⟨_, bind_eq_ok_iff.2 ⟨justAfter, hlater, rfl⟩⟩
    · exact ⟨base, rfl⟩

theorem exists_isSearchStart (huses : chore.kind.usesTimeOfDay = true)
    (hrolling : chore.isRolling = true) (htime : chore.details.configuredTime = .ok time)
    (hcompleted : completed.date.dayNumber < lastDay)
    (hdue : ∀ due ∈ priorDue, due.date.dayNumber < lastDay) :
    ∃ base start, chore.baseDate priorDue completed = .ok base ∧
      chore.monthSearchBase base priorDue completed = .ok start ∧
      IsSearchStart time priorDue completed start := by
  obtain ⟨base, hbase, hslot⟩ := exists_firstSlot huses (.inl hrolling) htime hcompleted
  obtain ⟨start, hstart⟩ := exists_monthSearchBase hdue chore base completed
  refine ⟨base, start, hbase, hstart, ?_⟩
  rcases monthSearchBase_eq_ok hstart with ⟨-, hearly⟩ | ⟨hlate, rfl⟩
  · exact .inl hearly
  · exact .inr ⟨hlate hrolling, hslot⟩

theorem nextMonthDay_eq_search (hone : 1 ≤ chore.frequency.toInt)
    (hlast : chore.frequency.toInt ≤ 31) (hmonths : chore.details.months ≠ [])
    (hstart : chore.monthSearchBase base priorDue completed = .ok start) :
    chore.nextMonthDay base priorDue completed = (do
      let month ← firstListedMonth chore.details.months (searchMonth priorDue start) 12
      let date ← month.clampedDate chore.frequency.toInt
      return ⟨date, start.time.toMinute⟩) := by
  have hday : chore.targetDay = .ok chore.frequency.toInt :=
    targetDay_eq_ok_iff.2 ⟨rfl, hone, hlast⟩
  have hsome : chore.details.months.isEmpty = false := by simpa using hmonths
  unfold nextMonthDay searchMonth
  simp only [hday, hsome, hstart, bind, Except.bind]
  rfl

theorem nextDue_eq_nextMonthDay [ZoneTable] {completedAt : Timestamp}
    (hkind : chore.kind = .dayOfTheMonth) (hcompleted : completedAt.toUtc? = some completed)
    (hpriorDue : utcDue chore.dueDate = .ok priorDue)
    (hbase : chore.baseDate priorDue completed = .ok base) :
    chore.nextDue completedAt = (chore.nextMonthDay base priorDue completed).map some := by
  rw [nextDue_eq_advance (by rw [hkind]; decide) (by rw [hkind]; rfl) hcompleted hpriorDue, hbase]
  change (do return some (← chore.advance priorDue completed base)) = _
  rw [advance, hkind]
  cases chore.nextMonthDay base priorDue completed <;> rfl

end Chore

namespace TimeOfDay

theorem eq_toMinute_iff {time other : TimeOfDay} :
    time = other.toMinute ↔ time.hour = other.hour ∧ time.minute = other.minute ∧
      time.second = 0 ∧ time.nanosecond = 0 := by
  have htime := time.nanos_lt
  have hother := other.nanos_lt
  constructor
  · rintro rfl
    simp only [toMinute, hour, minute, second, nanosecond]
    omega
  · rintro ⟨hhour, hminute, hsecond, hnanosecond⟩
    apply eq_of_nanos
    simp only [toMinute, hour, minute, second, nanosecond] at *
    omega

end TimeOfDay

/-- The chore's day, or the last one, of the first listed month from the start of the search on that
is not the month of the due date; at the hour and the minute of the start, with no second begun. -/
structure Chore.IsFirstDay (chore : Chore) (priorDue : Option Moment) (start next : Moment) :
    Prop where
  month : IsFirstListed chore.details.months start.month (priorDue.map Moment.month) next.month
  day : next.date.day = min chore.frequency.toInt next.month.length
  hour : next.time.hour = start.time.hour
  minute : next.time.minute = start.time.minute
  second : next.time.second = 0
  nanosecond : next.time.nanosecond = 0

theorem searchMonth_bounds (priorDue : Option Moment) (start : Moment) :
    start.month.index ≤ (searchMonth priorDue start).index ∧
      (searchMonth priorDue start).index ≤ start.month.index + 1 := by
  unfold searchMonth
  split
  · rw [Month.index_later]
    omega
  · omega

namespace Chore

variable {chore : Chore} {priorDue : Option Moment} {completed base start next due : Moment}

/-- What is not the month of the due date, and not before it, comes after it. -/
theorem IsFirstDay.month_lt (hnext : chore.IsFirstDay priorDue start next) (hdue : due ∈ priorDue)
    (hstart : due.month.index ≤ start.month.index) : due.month.index < next.month.index := by
  have hle := hnext.month.le
  have hother : due.month.index ≠ next.month.index := by
    intro hsame
    apply hnext.month.notLeftOut
    rw [Option.mem_def.1 hdue, Option.map_some, Month.eq_of_index hsame]
  omega

section Found

variable (hone : 1 ≤ chore.frequency.toInt) (hlast : chore.frequency.toInt ≤ 31)
  (hmonths : chore.details.months ≠ [])
  (hstart : chore.monthSearchBase base priorDue completed = .ok start)

include hone hlast hmonths hstart

theorem nextMonthDay_eq_ok_iff (hdue : ∀ due ∈ priorDue, due.month.index ≤ start.month.index) :
    chore.nextMonthDay base priorDue completed = .ok next ↔
      chore.IsFirstDay priorDue start next := by
  rw [nextMonthDay_eq_search hone hlast hmonths hstart, bind_eq_ok_iff]
  constructor
  · rintro ⟨month, hmonth, hrest⟩
    obtain ⟨date, hdate, hnext⟩ := bind_eq_ok_iff.1 hrest
    obtain rfl := Except.ok.inj hnext
    obtain ⟨rfl, hday⟩ := clampedDate_eq_ok_iff.1 hdate
    obtain ⟨hhour, hminute, hsecond, hnanosecond⟩ :=
      TimeOfDay.eq_toMinute_iff.1 (rfl : start.time.toMinute = start.time.toMinute)
    exact ⟨(firstListedMonth_searchMonth_eq_ok_iff hdue).1 hmonth, hday, hhour, hminute, hsecond,
      hnanosecond⟩
  · intro hnext
    have hmonth := (firstListedMonth_searchMonth_eq_ok_iff hdue).2 hnext.month
    have hdate : next.month.clampedDate chore.frequency.toInt = .ok next.date :=
      clampedDate_eq_ok_iff.2 ⟨rfl, hnext.day⟩
    have htime : next.time = start.time.toMinute :=
      TimeOfDay.eq_toMinute_iff.2 ⟨hnext.hour, hnext.minute, hnext.second, hnext.nanosecond⟩
    refine ⟨next.month, hmonth, bind_eq_ok_iff.2 ⟨next.date, hdate, ?_⟩⟩
    rw [← htime]
    rfl

theorem nextMonthDay_eq_noMonth_iff :
    chore.nextMonthDay base priorDue completed = .error .noMonth ↔
      ∀ month : Month, month.isListed chore.details.months = false := by
  rw [nextMonthDay_eq_search hone hlast hmonths hstart, bind_eq_error_iff]
  constructor
  · rintro (hnone | ⟨month, -, hrest⟩)
    · exact (firstListedMonth_twelve_eq_error_iff.1 hnone).2
    · -- A month without such a day in the calendar is another fault.
      rcases bind_eq_error_iff.1 hrest with hdate | ⟨_, -, hpure⟩
      · unfold Month.clampedDate at hdate
        split at hdate <;> cases hdate
      · cases hpure
  · intro hunlisted
    exact .inl (firstListedMonth_twelve_eq_error_iff.2 ⟨rfl, hunlisted⟩)

theorem exists_nextMonthDay (hyear : start.year < 9999) {month : Month}
    (hlisted : month.isListed chore.details.months = true) :
    ∃ next, chore.nextMonthDay base priorDue completed = .ok next := by
  rw [nextMonthDay_eq_search hone hlast hmonths hstart]
  cases hsearch : firstListedMonth chore.details.months (searchMonth priorDue start) 12 with
  | error fault =>
    have hunlisted := (firstListedMonth_twelve_eq_error_iff.1 hsearch).2 month
    exact absurd (hunlisted.symm.trans hlisted) Bool.false_ne_true
  | ok found =>
    have hle := (firstListedMonth_eq_ok hsearch).1
    have hlt := lt_of_firstListedMonth hsearch
    have hbounds := searchMonth_bounds priorDue start
    have hfirst := start.date.isOnCalendar_month.1
    have hfound : found.IsOnCalendar := by
      simp only [Month.IsOnCalendar, Moment.year, Moment.month, Date.year, Month.year] at *
      omega
    obtain ⟨date, hdate⟩ := exists_clampedDate hfound hone
    exact ⟨⟨date, start.time.toMinute⟩,
      bind_eq_ok_iff.2 ⟨found, rfl, bind_eq_ok_iff.2 ⟨date, hdate, rfl⟩⟩⟩

end Found

end Chore

/-- **Where a rolling chore lands.** The search begins a second after the due date if the completion
comes before that, and otherwise at the first slot from the completion on. The chore becomes due in
the first listed month from there that is not the month of its due date, on its day or the last one,
at the hour and minute of the start; there is no such month only where the list names none. So it
never becomes due in the month of its due date or before. -/
theorem nextDue_of_rolling_month [ZoneTable] {chore : Chore} {completedAt : Timestamp}
    {completed : Moment}
    {priorDue : Option Moment} {time : TimeOfDay} (hkind : chore.kind = .dayOfTheMonth)
    (hrolling : chore.isRolling = true)
    (hday : 1 ≤ chore.frequency.toInt ∧ chore.frequency.toInt ≤ 31)
    (htime : chore.details.configuredTime = .ok time) (hmonths : chore.details.months ≠ [])
    (hcompleted : completedAt.toUtc? = some completed)
    (hpriorDue : Chore.utcDue chore.dueDate = .ok priorDue)
    (hend : completed.date.dayNumber < lastDay ∧
      ∀ due ∈ priorDue, due.date.dayNumber < lastDay) :
    ∃ start, IsSearchStart time priorDue completed start ∧
      (∀ nextDueDate, chore.nextDue completedAt = .ok nextDueDate ↔
        ∃ next, nextDueDate = some next ∧ chore.IsFirstDay priorDue start next) ∧
      (chore.nextDue completedAt = .error .noMonth ↔
        ∀ month : Month, month.isListed chore.details.months = false) ∧
      Fault.message .noMonth = "no matching month found" ∧
      (start.year < 9999 → (∃ month : Month, month.isListed chore.details.months = true) →
        ∃ next, chore.nextDue completedAt = .ok (some next)) ∧
      ∀ due ∈ priorDue, ∀ next, chore.nextDue completedAt = .ok (some next) →
        due.month.index < next.month.index := by
  have huses : chore.kind.usesTimeOfDay = true := by rw [hkind]; rfl
  obtain ⟨base, start, hbase, hsearch, hstart⟩ :=
    Chore.exists_isSearchStart huses hrolling htime hend.1 hend.2
  have hdue : ∀ due ∈ priorDue, due.month.index ≤ start.month.index := fun due hmem =>
    Moment.month_le_of_le (Int.le_of_lt (hstart.lt hmem))
  have hnextDue : ∀ nextDueDate, chore.nextDue completedAt = .ok nextDueDate ↔
      ∃ next, nextDueDate = some next ∧ chore.IsFirstDay priorDue start next := by
    intro nextDueDate
    rw [Chore.nextDue_eq_nextMonthDay hkind hcompleted hpriorDue hbase, map_eq_ok_iff]
    simp only [Chore.nextMonthDay_eq_ok_iff hday.1 hday.2 hmonths hsearch hdue]
    exact exists_congr fun next => by rw [and_comm, eq_comm]
  refine ⟨start, hstart, hnextDue, ?_, rfl, ?_, ?_⟩
  · rw [Chore.nextDue_eq_nextMonthDay hkind hcompleted hpriorDue hbase, map_eq_error_iff]
    exact Chore.nextMonthDay_eq_noMonth_iff hday.1 hday.2 hmonths hsearch
  · rintro hyear ⟨month, hlisted⟩
    obtain ⟨next, hnext⟩ :=
      Chore.exists_nextMonthDay hday.1 hday.2 hmonths hsearch hyear hlisted
    refine ⟨next, ?_⟩
    rw [Chore.nextDue_eq_nextMonthDay hkind hcompleted hpriorDue hbase, hnext]
    rfl
  · intro due hmem next hnext
    obtain ⟨found, hsome, hfirst⟩ := (hnextDue _).1 hnext
    obtain rfl := Option.some.inj hsome
    exact hfirst.month_lt hmem (hdue due hmem)

def books : Chore where
  id := 30
  name := "balance the books"
  kind := .dayOfTheMonth
  frequency := 31
  details :=
    { FrequencyDetails.unset with
      months := ["January", " february", "smarch"], time := some "23:59:59Z" }
  dueDate := some (timeOf "2025-01-31T23:59:59Z")
  isRolling := true
  strategy := .keepLastAssigned
  assignedTo := some 1
  assignees := [1]
  createdBy := 1
  isActive := true
  completionWindow := none

/-- Balanced early, the books are searched from the first second of February. -/
theorem books_due_again_in_february :
    books.details.configuredTime = .ok (timeOf "2025-01-31T23:59:59Z").wall.time ∧
      books.nextDue (timeOf "2025-01-20T09:00:00+01:00") =
        .ok (some (timeOf "2025-02-28T00:00:00Z").wall) ∧
      ∃ start, IsSearchStart (timeOf "2025-01-31T23:59:59Z").wall.time
          (some (timeOf "2025-01-31T23:59:59Z").wall) (timeOf "2025-01-20T08:00:00Z").wall start ∧
        books.IsFirstDay (some (timeOf "2025-01-31T23:59:59Z").wall) start
          (timeOf "2025-02-28T00:00:00Z").wall := by
  have htime : books.details.configuredTime =
      .ok (timeOf "2025-01-31T23:59:59Z").wall.time := rfl
  have hcompleted : (timeOf "2025-01-20T09:00:00+01:00").toUtc? =
      some (timeOf "2025-01-20T08:00:00Z").wall := by decide +kernel
  have hpriorDue : Chore.utcDue books.dueDate =
      .ok (some (timeOf "2025-01-31T23:59:59Z").wall) := by decide +kernel
  have hnext : books.nextDue (timeOf "2025-01-20T09:00:00+01:00") =
      .ok (some (timeOf "2025-02-28T00:00:00Z").wall) := by decide +kernel
  have hend : ∀ due ∈ some (timeOf "2025-01-31T23:59:59Z").wall, due.date.dayNumber < lastDay := by
    rintro _ ⟨⟩
    decide +kernel
  obtain ⟨start, hstart, hdue, -⟩ := nextDue_of_rolling_month rfl rfl (by decide) htime
    (List.cons_ne_nil _ _) hcompleted hpriorDue ⟨by decide +kernel, hend⟩
  obtain ⟨next, hsome, hfirst⟩ := (hdue _).1 hnext
  obtain rfl := Option.some.inj hsome
  exact ⟨htime, hnext, start, hstart, hfirst⟩

end ChoreRota
