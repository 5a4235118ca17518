import ChoreRota.Calendar.Zone.Table
import ChoreRota.Proofs.Months
import ChoreRota.Proofs.Runs
import ChoreRota.Proofs.Schedule

/-!
# The months of a fixed schedule

The base of the search for a month is at most a day after the due date, so that whichever month the
base lies in, the search begins in the month after the due date (`isNextListed_nextMonthDay`). Over
a run the due dates therefore count the listed months.
-/

namespace ChoreRota

/-- How many listed months there are after `first`, up to `last`. -/
def listedCount (names : List String) (first last : Month) : Nat :=
  (List.range (last.index - first.index).toNat).countP fun gap : Nat =>
    (first.later (gap + 1)).isListed names

structure IsNextListed (names : List String) (month found : Month) : Prop where
  listed : found.isListed names = true
  after : month.index < found.index
  skipsNone : ∀ index, month.index < index → index < found.index →
    (Month.mk index).isListed names = false

structure IsListedAt (names : List String) (month : Month) (position : Nat) (found : Month) :
    Prop where
  listed : found.isListed names = true
  after : month.index < found.index
  count : listedCount names month found = position

section Counting

variable {names : List String} {first last found : Month}

theorem listedCount_self : listedCount names first first = 0 := by
  simp [listedCount]

theorem listedCount_next (hle : first.index ≤ last.index)
    (hnext : IsNextListed names last found) :
    listedCount names first found = listedCount names first last + 1 := by
  have hafter := hnext.after
  have hlater : ∀ gap : Nat, first.later (gap + 1) = ⟨first.index + gap + 1⟩ := fun gap => by
    rw [Month.later, Int.add_assoc]
  obtain ⟨past, hpast⟩ : ∃ past : Nat, last.index = first.index + past :=
    ⟨(last.index - first.index).toNat, by omega⟩
  obtain ⟨skipped, hskipped⟩ : ∃ skipped : Nat, found.index = last.index + skipped + 1 :=
    ⟨(found.index - last.index - 1).toNat, by omega⟩
  have hfound : found = ⟨first.index + (past + skipped : Nat) + 1⟩ :=
    Month.eq_of_index (by simp only; omega)
  have hnone : ((List.range skipped).map (past + ·)).countP
      (fun gap : Nat => (first.later (gap + 1)).isListed names) = 0 := by
    rw [List.countP_eq_zero]
    intro gap hgap
    obtain ⟨rest, hrest, rfl⟩ := List.mem_map.1 hgap
    have hshort := List.mem_range.1 hrest
    rw [hlater, hnext.skipsNone _ (by omega) (by omega)]
    exact Bool.false_ne_true
  unfold listedCount
  rw [show (found.index - first.index).toNat = past + skipped + 1 by omega,
    show (last.index - first.index).toNat = past by omega, List.range_succ, List.range_add,
    List.countP_append, List.countP_append, hnone, List.countP_singleton, hlater, ← hfound,
    if_pos hnext.listed]

theorem IsNextListed.isListedAt_one (hnext : IsNextListed names first found) :
    IsListedAt names first 1 found where
  listed := hnext.listed
  after := hnext.after
  count := by rw [listedCount_next (by omega) hnext, listedCount_self]

theorem IsListedAt.succ {position : Nat} (hlast : IsListedAt names first position last)
    (hnext : IsNextListed names last found) : IsListedAt names first (position + 1) found where
  listed := hnext.listed
  after := by
    have hbefore := hlast.after
    have hafter := hnext.after
    omega
  count := by
    have hbefore := hlast.after
    rw [listedCount_next (by omega) hnext, hlast.count]

end Counting

theorem firstListedMonth_eq_ok {names : List String} {month found : Month} {count : Nat}
    (hfound : firstListedMonth names month count = .ok found) :
    month.index ≤ found.index ∧ found.isListed names = true ∧
      ∀ index, month.index ≤ index → index < found.index →
        (Month.mk index).isListed names = false := by
  induction count generalizing month with
  | zero => cases hfound
  | succ count ih =>
    rw [firstListedMonth] at hfound
    split at hfound
    · rename_i hlisted
      obtain rfl := Except.ok.inj hfound
      exact ⟨by omega, hlisted, fun index hlow hhigh => by omega⟩
    · rename_i hlisted
      obtain ⟨hle, hfoundListed, hskipped⟩ := ih hfound
      rw [Month.index_later] at hle
      refine ⟨by omega, hfoundListed, fun index hlow hhigh => ?_⟩
      by_cases hmonth : index = month.index
      · rw [hmonth]
        exact Bool.eq_false_iff.2 hlisted
      · exact hskipped index (by rw [Month.index_later]; omega) hhigh

theorem clampedDate_eq_ok_iff {month : Month} {day : Int} {date : Date} :
    month.clampedDate day = .ok date ↔ date.month = month ∧ date.day = min day month.length := by
  rw [← Date.ofMonthDay?_eq_some_iff, Month.clampedDate]
  cases Date.ofMonthDay? month (min day month.length) <;> simp

/-- The month that the search begins in: that of its base, unless the chore was due in it. -/
def searchMonth (priorDue : Option Moment) (base : Moment) : Month :=
  if priorDue.map Moment.month = some base.month then base.month.later 1 else base.month

theorem searchMonth_eq {due base : Moment}
    (hbase : base.month = due.month ∨ base.month = due.month.later 1) :
    searchMonth (some due) base = due.month.later 1 := by
  unfold searchMonth
  rcases hbase with hsame | hafter
  · rw [hsame]
    simp
  · rw [hafter, if_neg]
    intro hsame
    have hindex := congrArg Month.index (Option.some.inj hsame)
    rw [Month.index_later] at hindex
    omega

namespace Chore

variable {chore : Chore} {next : Moment}

theorem targetDay_eq_ok_iff {day : Int} :
    chore.targetDay = .ok day ↔ day = chore.frequency.toInt ∧ 1 ≤ day ∧ day ≤ 31 := by
  unfold targetDay
  split
  · simp only [Except.ok.injEq]
    omega
  · simp only [reduceCtorEq, false_iff]
    omega

theorem nextMonthDay_eq_ok {base completed : Moment} {priorDue : Option Moment}
    (hnext : chore.nextMonthDay base priorDue completed = .ok next) :
    ∃ searchBase, chore.monthSearchBase base priorDue completed = .ok searchBase ∧
      1 ≤ chore.frequency.toInt ∧ chore.frequency.toInt ≤ 31 ∧
      firstListedMonth chore.details.months (searchMonth priorDue searchBase) 12 =
        .ok next.month ∧
      next.date.day = min chore.frequency.toInt next.month.length ∧
      next.time = searchBase.time.toMinute := by
  obtain ⟨day, hday, hnext⟩ := bind_eq_ok_iff.1 hnext
  obtain ⟨rfl, hone, hlast⟩ := targetDay_eq_ok_iff.1 hday
  split at hnext
  · cases hnext
  · obtain ⟨-, -, hnext⟩ := bind_eq_ok_iff.1 hnext
    obtain ⟨searchBase, hsearchBase, hnext⟩ := bind_eq_ok_iff.1 hnext
    obtain ⟨month, hmonth, hnext⟩ := bind_eq_ok_iff.1 hnext
    obtain ⟨date, hdate, hnext⟩ := bind_eq_ok_iff.1 hnext
    obtain rfl := Except.ok.inj hnext
    obtain ⟨rfl, hdateDay⟩ := clampedDate_eq_ok_iff.1 hdate
    exact ⟨searchBase, hsearchBase, hone, hlast, hmonth, hdateDay, rfl⟩

theorem isNextListed_nextMonthDay {base completed due : Moment} (hfixed : chore.isRolling = false)
    (hbase : base.month = due.month ∨ base.month = due.month.later 1)
    (hnext : chore.nextMonthDay base (some due) completed = .ok next) :
    IsNextListed chore.details.months due.month next.month ∧
      next.date.day = min chore.frequency.toInt next.month.length := by
  obtain ⟨searchBase, hsearchBase, -, -, hmonth, hday, -⟩ := nextMonthDay_eq_ok hnext
  obtain rfl : base = searchBase := by
    simpa [monthSearchBase, hfixed] using hsearchBase
  rw [searchMonth_eq hbase] at hmonth
  obtain ⟨hle, hlisted, hskipped⟩ := firstListedMonth_eq_ok hmonth
  rw [Month.index_later] at hle hskipped
  exact ⟨⟨hlisted, by omega, fun index hlow hhigh => hskipped index (by omega) hhigh⟩, hday⟩

theorem isNextListed_nextDue [ZoneTable] {completedAt : Timestamp} {dueDate : Timestamp}
    {nextDueDate : Option Moment} (hkind : chore.kind = .dayOfTheMonth)
    (hfixed : chore.isRolling = false) (hdueDate : chore.dueDate = some dueDate)
    (hnext : chore.nextDue completedAt = .ok nextDueDate) :
    ∃ due next, dueDate.toUtc? = some due ∧ nextDueDate = some next ∧
      IsNextListed chore.details.months due.month next.month ∧
      next.date.day = min chore.frequency.toInt next.month.length := by
  obtain ⟨completed, priorDue, -, hpriorDue, ⟨hone, -⟩ | ⟨-, base, next, hbase, hadvance, rfl⟩⟩ :=
    nextDue_eq_ok (by rw [hkind]; decide) hnext
  · rw [hkind] at hone
    cases hone
  · rw [hdueDate] at hpriorDue
    obtain ⟨due, hdue, rfl⟩ := map_eq_ok_iff.1 hpriorDue
    have huses : chore.kind.usesTimeOfDay = true := by rw [hkind]; rfl
    have hmonth : base.month = due.month ∨ base.month = due.month.later 1 := by
      obtain ⟨-, ⟨hsame, -⟩ | ⟨hafter, -⟩⟩ := baseDate_eq_ok huses hfixed hbase
      · exact .inl (congrArg Date.month hsame)
      · exact Date.month_of_succ hafter
    rw [advance, hkind] at hadvance
    exact ⟨due, next, onCalendar_eq_ok_iff.1 hdue, rfl,
      isNextListed_nextMonthDay hfixed hmonth hadvance⟩

end Chore

/-- A due date in the listed month at a position after that of the first due date, on the day of the
month that the chore asks for or the last one of a shorter month. -/
def IsDueAt (chore : Chore) (firstDue : Timestamp) (position : Nat) (dueDate : Option Timestamp) :
    Prop :=
  ∃ first due, firstDue.toUtc? = some first ∧ dueDate = some (Timestamp.ofUtc due) ∧
    IsListedAt chore.details.months first.month position due.month ∧
    due.date.day = min chore.frequency.toInt due.month.length

theorem isDueAt_step [ZoneTable] {window position : Nat} {current next : State} {event : Event}
    {decision : Decision} {firstDue : Timestamp} {chore : Chore}
    (htask : current.snapshot.chore.task = chore.task) (hkind : chore.kind = .dayOfTheMonth)
    (hfixed : chore.isRolling = false)
    (hdue : position = 0 ∧ current.snapshot.chore.dueDate = some firstDue ∨
      IsDueAt chore firstDue position current.snapshot.chore.dueDate)
    (hstep : current.step window event = (.ok (.decided decision), next)) :
    IsDueAt chore firstDue (position + 1) next.snapshot.chore.dueDate := by
  have hcurrentKind : current.snapshot.chore.kind = .dayOfTheMonth :=
    (Chore.eq_of_task Chore.kind (fun _ => rfl) htask).trans hkind
  have hcurrentFixed : current.snapshot.chore.isRolling = false :=
    (Chore.eq_of_task Chore.isRolling (fun _ => rfl) htask).trans hfixed
  have hdetails : current.snapshot.chore.details = chore.details :=
    Chore.eq_of_task Chore.details (fun _ => rfl) htask
  have hfrequency : current.snapshot.chore.frequency = chore.frequency :=
    Chore.eq_of_task Chore.frequency (fun _ => rfl) htask
  obtain ⟨reference, hnext⟩ :=
    State.nextDue_of_step (by rw [hcurrentKind]; decide) hstep
  -- The first decision moves on from the due date given, a later one from the one found last.
  rcases hdue with ⟨rfl, hdueDate⟩ | ⟨first, last, hfirst, hdueDate, hlast, -⟩
  · obtain ⟨due, nextDue, hdue, hdecision, hlisted, hday⟩ :=
      Chore.isNextListed_nextDue hcurrentKind hcurrentFixed hdueDate hnext
    rw [hdetails] at hlisted
    rw [hfrequency] at hday
    exact ⟨due, nextDue, hdue, by rw [State.dueDate_of_step hstep, hdecision]; rfl,
      hlisted.isListedAt_one, hday⟩
  · obtain ⟨due, nextDue, hdue, hdecision, hlisted, hday⟩ :=
      Chore.isNextListed_nextDue hcurrentKind hcurrentFixed hdueDate hnext
    obtain rfl : last = due := by simpa [Timestamp.toUtc?_ofUtc] using hdue
    rw [hdetails] at hlisted
    rw [hfrequency] at hday
    exact ⟨first, nextDue, hfirst, by rw [State.dueDate_of_step hstep, hdecision]; rfl,
      hlast.succ hlisted, hday⟩

/-- **The due dates count the listed months.** After a run that decides something, a fixed chore on
a day of listed months is due in the listed month whose position after the month of the first due
date is the number of decisions, on the configured day or the last one of a shorter month. -/
theorem dueDate_after_eq_listed_month [ZoneTable] {window : Nat} {state : State}
    {dueDate : Timestamp} {events : List Event} (hkind : state.snapshot.chore.kind = .dayOfTheMonth)
    (hfixed : state.snapshot.chore.isRolling = false)
    (hdueDate : state.snapshot.chore.dueDate = some dueDate)
    (hdecided : state.decisions window events ≠ []) :
    IsDueAt state.snapshot.chore dueDate (state.decisions window events).length
      (state.after window events).snapshot.chore.dueDate := by
  refine (State.after_induction (motive := fun past current =>
    past = [] ∧ current.snapshot.chore.dueDate = some dueDate ∨
      IsDueAt state.snapshot.chore dueDate past.length current.snapshot.chore.dueDate)
    (.inl ⟨rfl, hdueDate⟩) ?_ ?_ events).resolve_left fun hnone => hdecided hnone.1
  · intro past current event decision next hpast htask hstep
    rw [List.length_append, List.length_singleton]
    refine .inr (isDueAt_step htask hkind hfixed ?_ hstep)
    exact hpast.imp (fun hnone => ⟨by rw [hnone.1]; rfl, hnone.2⟩) id
  · intro past current assignees assignedTo next hpast hsnapshot
    rw [hsnapshot]
    exact hpast

/-- Due on the last day of February and April, and late in January. -/
def rent : State where
  snapshot :=
    { chore :=
        { id := 2, name := "rent", kind := .dayOfTheMonth, frequency := 31
          details :=
            { FrequencyDetails.unset with
              months := [" february", "APRIL", "smarch"], time := some "09:00Z" }
          dueDate := some (timeOf "2025-01-31T09:00:00Z"), isRolling := false
          strategy := .roundRobin, assignedTo := some 1, assignees := [1, 2], createdBy := 1
          isActive := true, completionWindow := none }
      history := [] }
  source := Chance.Source.start (.script [])

def rentEvents : List Event :=
  [.complete 1 (timeOf "2025-05-07T20:00:00+02:00") none,
    .skip 2 (timeOf "2025-05-08T20:00:00Z") true none,
    .complete 1 (timeOf "9999-12-31T23:30:00-01:00") none,
    .remove 2,
    .complete 1 (timeOf "2026-01-02T08:00:00Z") none]

theorem rent_due_after_three_decisions :
    (rent.after 5 rentEvents).snapshot.chore.dueDate = some (timeOf "2026-02-28T09:00:00Z") ∧
      rent.decisions 5 rentEvents ≠ [] ∧
      IsDueAt rent.snapshot.chore (timeOf "2025-01-31T09:00:00Z") 3
        (some (timeOf "2026-02-28T09:00:00Z")) := by
  have hdue : (rent.after 5 rentEvents).snapshot.chore.dueDate =
      some (timeOf "2026-02-28T09:00:00Z") := by decide +kernel
  have hlength : (rent.decisions 5 rentEvents).length = 3 := by decide +kernel
  have hdecided : rent.decisions 5 rentEvents ≠ [] := by decide +kernel
  refine ⟨hdue, hdecided, ?_⟩
  have hposition := @dueDate_after_eq_listed_month _ 5 rent _ rentEvents rfl rfl rfl hdecided
  rwa [hdue, hlength] at hposition

end ChoreRota
