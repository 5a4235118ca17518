import ChoreRota.Calendar.Zone.Table
import ChoreRota.Proofs.Months
import ChoreRota.Proofs.Runs
import ChoreRota.Proofs.Schedule

/-!
# Schedules of equal strides

A plain chore moves on by a fixed number of days or calendar months, whenever its events happen. A
stride of months that begins on one of the first 28 days of a month ends on the same day of its
target month, so that strides add up.
-/

namespace ChoreRota

inductive Stride where
  | days (count : Int)
  | months (count : Int)
  deriving DecidableEq, Repr

def FrequencyKind.stride? : FrequencyKind → Option Stride
  | .daily => some (.days 1)
  | .weekly => some (.days 7)
  | .monthly => some (.months 1)
  | .yearly => some (.months 12)
  | _ => none

namespace Stride

/-- The strides from one moment to another: so many days, or so many calendar months to the same
day of the month and the same time of day. -/
def Reaches (stride : Stride) (first : Moment) (times : Nat) (last : Moment) : Prop :=
  match stride with
  | .days count => last.nanos = first.nanos + ChoreRota.days (times * count)
  | .months count =>
    last.month = first.month.later (times * count) ∧ last.date.day = first.date.day ∧
      last.time = first.time

/-- A month can only be kept to on a day that every month has. -/
def Suits (stride : Stride) (moment : Moment) : Prop :=
  ∀ count, stride = .months count → moment.date.day ≤ 28

variable {stride : Stride} {first last next : Moment} {times : Nat}

theorem Reaches.succ (hlast : stride.Reaches first times last)
    (hnext : stride.Reaches last 1 next) : stride.Reaches first (times + 1) next := by
  have hadd : ∀ count : Int,
      ((times + 1 : Nat) : Int) * count = times * count + (1 : Nat) * count := by
    intro count
    rw [Int.natCast_add, Int.add_mul]
  cases stride with
  | days count =>
    simp only [Reaches, ChoreRota.days] at hlast hnext ⊢
    rw [hnext, hlast, hadd, Int.add_mul, Int.add_assoc]
  | months count =>
    obtain ⟨hlastMonth, hlastDay, hlastTime⟩ := hlast
    obtain ⟨hmonth, hday, htime⟩ := hnext
    refine ⟨?_, hday.trans hlastDay, htime.trans hlastTime⟩
    rw [hmonth, hlastMonth, Month.later_later, hadd]

theorem Suits.of_reaches (hsuits : stride.Suits first) (hlast : stride.Reaches first times last) :
    stride.Suits last := by
  intro count hmonths
  subst hmonths
  obtain ⟨-, hday, -⟩ := hlast
  rw [hday]
  exact hsuits count rfl

end Stride

theorem Moment.addMonths_eq_ok {moment result : Moment} {count : Int}
    (hadd : moment.addMonths count = .ok result) :
    result.date.dayNumber = (moment.month.later count).start + (moment.date.day - 1) ∧
      result.time = moment.time := by
  unfold Moment.addMonths at hadd
  simp only at hadd
  split at hadd
  · split at hadd
    · cases hadd
    · rename_i first hfirst
      obtain ⟨hmonth, hday⟩ := Date.ofMonthDay?_eq_some_iff.1 hfirst
      split at hadd
      · cases hadd
      · rename_i date hdate
        obtain rfl := Except.ok.inj hadd
        have hnumber := Date.ofDayNumber?_eq_some_iff.1 hdate
        rw [Date.day, hmonth] at hday
        refine ⟨?_, rfl⟩
        rw [Moment.onDate, hnumber]
        omega
  · cases hadd

theorem Moment.reaches_of_addMonths {moment result : Moment} {count : Int}
    (hday : moment.date.day ≤ 28) (hadd : moment.addMonths count = .ok result) :
    (Stride.months count).Reaches moment 1 result := by
  obtain ⟨hnumber, htime⟩ := addMonths_eq_ok hadd
  have hfirst := moment.date.day_bounds
  have hlength := (moment.month.later count).length_bounds
  have hmonth : result.month = moment.month.later count :=
    Date.month_eq_iff.2 ⟨by omega, by omega⟩
  refine ⟨?_, ?_, htime⟩
  · simpa using hmonth
  · have hsame : result.date.month = moment.month.later count := hmonth
    rw [Date.day, hsame]
    omega

theorem Chore.reaches_of_advance [ZoneTable] {chore : Chore} {priorDue : Option Moment}
    {completed base next : Moment} {stride : Stride} (hstride : chore.kind.stride? = some stride)
    (hsuits : stride.Suits base) (hnext : chore.advance priorDue completed base = .ok next) :
    stride.Reaches base 1 next := by
  rw [advance] at hnext
  cases hkind : chore.kind with
  | daily | weekly =>
    rw [hkind] at hstride hnext
    obtain rfl := Option.some.inj hstride
    simpa [Stride.Reaches] using Moment.later_eq_ok_iff.1 hnext
  | monthly | yearly =>
    rw [hkind] at hstride hnext
    obtain rfl := Option.some.inj hstride
    exact Moment.reaches_of_addMonths (hsuits _ rfl) hnext
  | once | adaptive | interval | daysOfTheWeek | dayOfTheMonth | trigger | noRepeat =>
    rw [hkind] at hstride
    cases hstride

theorem FrequencyKind.plain_of_stride {kind : FrequencyKind} {stride : Stride}
    (hstride : kind.stride? = some stride) :
    kind ≠ .adaptive ∧ kind.isOneShot = false ∧ kind.usesTimeOfDay = false := by
  cases kind with
  | daily | weekly | monthly | yearly => exact ⟨by decide, rfl, rfl⟩
  | once | adaptive | interval | daysOfTheWeek | dayOfTheMonth | trigger | noRepeat =>
    cases hstride

theorem Chore.reaches_of_nextDue [ZoneTable] {chore : Chore} {completedAt dueDate : Timestamp}
    {stride : Stride} {nextDueDate : Option Moment} (hstride : chore.kind.stride? = some stride)
    (hfixed : chore.isRolling = false) (hdueDate : chore.dueDate = some dueDate)
    (hsuits : ∀ due, dueDate.toUtc? = some due → stride.Suits due)
    (hnext : chore.nextDue completedAt = .ok nextDueDate) :
    ∃ due next, dueDate.toUtc? = some due ∧ nextDueDate = some next ∧
      stride.Reaches due 1 next := by
  obtain ⟨hkind, hrepeats, htime⟩ := FrequencyKind.plain_of_stride hstride
  obtain ⟨completed, due, hcompleted, hdue⟩ := exists_toUtc?_of_nextDue hdueDate hnext
  have hisDue : chore.IsDue due := ⟨dueDate, hdueDate, hdue⟩
  obtain ⟨base, next, hbase, hadvance, hsome⟩ :=
    (hisDue.nextDue_eq_ok_iff hkind hrepeats hcompleted).1 hnext
  -- Whatever the completion, the base is the due date itself.
  rw [baseDate_eq_due htime hfixed] at hbase
  obtain rfl := Except.ok.inj hbase
  exact ⟨due, next, hdue, hsome, reaches_of_advance hstride (hsuits due hdue) hadvance⟩

def IsStridesAfter (stride : Stride) (firstDue : Timestamp) (times : Nat) (dueDate : Timestamp) :
    Prop :=
  times = 0 ∧ dueDate = firstDue ∨ ∃ first last, firstDue.toUtc? = some first ∧
    dueDate = Timestamp.ofUtc last ∧ stride.Reaches first times last

theorem isStridesAfter_succ [ZoneTable] {chore : Chore} {completedAt firstDue dueDate : Timestamp}
    {stride : Stride} {times : Nat} {nextDueDate : Option Moment}
    (hstride : chore.kind.stride? = some stride) (hfixed : chore.isRolling = false)
    (hsuits : ∀ first, firstDue.toUtc? = some first → stride.Suits first)
    (hdueDate : chore.dueDate = some dueDate) (hdue : IsStridesAfter stride firstDue times dueDate)
    (hnext : chore.nextDue completedAt = .ok nextDueDate) :
    ∃ next, nextDueDate = some next ∧
      IsStridesAfter stride firstDue (times + 1) (Timestamp.ofUtc next) := by
  rcases hdue with ⟨rfl, rfl⟩ | ⟨first, last, hfirst, rfl, hlast⟩
  · obtain ⟨due, next, hdue, hsome, hreaches⟩ :=
      Chore.reaches_of_nextDue hstride hfixed hdueDate hsuits hnext
    exact ⟨next, hsome, .inr ⟨due, next, hdue, rfl, hreaches⟩⟩
  · have hlastSuits : ∀ due, (Timestamp.ofUtc last).toUtc? = some due → stride.Suits due := by
      intro due hdue
      obtain rfl : last = due := by simpa [Timestamp.toUtc?_ofUtc] using hdue
      exact (hsuits first hfirst).of_reaches hlast
    obtain ⟨due, next, hdue, hsome, hreaches⟩ :=
      Chore.reaches_of_nextDue hstride hfixed hdueDate hlastSuits hnext
    obtain rfl : last = due := by simpa [Timestamp.toUtc?_ofUtc] using hdue
    exact ⟨next, hsome, .inr ⟨first, next, hfirst, rfl, hlast.succ hreaches⟩⟩

/-- **Strides add up.** After any run a fixed chore with a stride is due as many strides after its
first due date as the run has decisions. A stride of months wants a first due date on one of the
first 28 days of its month. -/
theorem dueDate_after_eq_strides [ZoneTable] {window : Nat} {state : State} {firstDue : Timestamp}
    {stride : Stride} {events : List Event}
    (hstride : state.snapshot.chore.kind.stride? = some stride)
    (hfixed : state.snapshot.chore.isRolling = false)
    (hdueDate : state.snapshot.chore.dueDate = some firstDue)
    (hsuits : ∀ first, firstDue.toUtc? = some first → stride.Suits first) :
    ∃ dueDate, (state.after window events).snapshot.chore.dueDate = some dueDate ∧
      IsStridesAfter stride firstDue (state.decisions window events).length dueDate := by
  refine State.after_induction (motive := fun past current =>
    ∃ dueDate, current.snapshot.chore.dueDate = some dueDate ∧
      IsStridesAfter stride firstDue past.length dueDate)
    ⟨firstDue, hdueDate, .inl ⟨rfl, rfl⟩⟩ ?_ ?_ events
  · intro past current event decision next hpast htask hstep
    obtain ⟨dueDate, hcurrentDue, hstrides⟩ := hpast
    have hcurrentStride : current.snapshot.chore.kind.stride? = some stride :=
      (Chore.eq_of_task (FrequencyKind.stride? ∘ Chore.kind) (fun _ => rfl) htask).trans hstride
    have hcurrentFixed : current.snapshot.chore.isRolling = false :=
      (Chore.eq_of_task Chore.isRolling (fun _ => rfl) htask).trans hfixed
    obtain ⟨reference, hnext⟩ :=
      State.nextDue_of_step (FrequencyKind.plain_of_stride hcurrentStride).1 hstep
    obtain ⟨due, hsome, hsucc⟩ := isStridesAfter_succ hcurrentStride hcurrentFixed hsuits
      hcurrentDue hstrides hnext
    refine ⟨Timestamp.ofUtc due, ?_, ?_⟩
    · rw [State.dueDate_of_step hstep, hsome]
      rfl
    · rw [List.length_append, List.length_singleton]
      exact hsucc
  · intro past current assignees assignedTo next hpast hsnapshot
    rw [hsnapshot]
    exact hpast

def filter : State where
  snapshot :=
    { chore :=
        { id := 4, name := "change the filter", kind := .monthly, frequency := 0
          details := FrequencyDetails.unset
          dueDate := some (timeOf "2024-11-27T23:30:00-01:00"), isRolling := false
          strategy := .roundRobin, assignedTo := some 1, assignees := [1, 2], createdBy := 1
          isActive := true, completionWindow := some 48 }
      history := [] }
  source := Chance.Source.start (.script [])

/-- Changed far too late, refused as too early, skipped, left by one of two people, changed. -/
def filterEvents : List Event :=
  [.complete 2 (timeOf "2026-05-01T12:00:00Z") none,
    .complete 1 (timeOf "2024-12-01T12:00:00Z") none,
    .skip 2 (timeOf "2024-12-01T12:00:00Z") true none,
    .remove 2,
    .complete 1 (timeOf "2025-01-27T08:00:00Z") none]

theorem filter_due_after_three_months :
    (∀ first, (timeOf "2024-11-27T23:30:00-01:00").toUtc? = some first →
        (Stride.months 1).Suits first) ∧
      (filter.decisions 5 filterEvents).length = 3 ∧
      (filter.after 5 filterEvents).snapshot.chore.dueDate =
        some (timeOf "2025-02-28T00:30:00Z") ∧
      IsStridesAfter (.months 1) (timeOf "2024-11-27T23:30:00-01:00") 3
        (timeOf "2025-02-28T00:30:00Z") := by
  have hsuits : ∀ first, (timeOf "2024-11-27T23:30:00-01:00").toUtc? = some first →
      (Stride.months 1).Suits first := by
    intro first hfirst count _
    have hmoment : (timeOf "2024-11-27T23:30:00-01:00").toUtc? =
        some (timeOf "2024-11-28T00:30:00Z").wall := by decide +kernel
    obtain rfl := Option.some.inj (hmoment.symm.trans hfirst)
    decide +kernel
  have hlength : (filter.decisions 5 filterEvents).length = 3 := by decide +kernel
  have hdue : (filter.after 5 filterEvents).snapshot.chore.dueDate =
      some (timeOf "2025-02-28T00:30:00Z") := by decide +kernel
  refine ⟨hsuits, hlength, hdue, ?_⟩
  obtain ⟨dueDate, hdueDate, hstrides⟩ :=
    @dueDate_after_eq_strides _ 5 filter _ (.months 1) filterEvents rfl rfl rfl hsuits
  obtain rfl := Option.some.inj (hdue.symm.trans hdueDate)
  rwa [hlength] at hstrides

end ChoreRota
