import ChoreRota.Calendar.Zone.Table
import ChoreRota.Proofs.Progress
import ChoreRota.Proofs.Runs

/-!
# What a skip stands for

A skip of a chore with a due date stands for a completion at that very moment, whenever it happens
(`occurrence_skip_eq_occurrence_complete`). The skip of a chore that adapts goes as far beyond the
event as the event lies beyond the due date, which may lead backwards.
-/

namespace ChoreRota

open Chance (Source)

namespace Chore

variable {chore : Chore} {due base searchBase next : Moment} {dueDate : Timestamp}

theorem month_monthSearchBase_at_due (huses : chore.kind.usesTimeOfDay = true)
    (hbase : chore.baseDate (some due) due = .ok base)
    (hsearch : chore.monthSearchBase base (some due) due = .ok searchBase) :
    searchBase.month = due.month ∨ searchBase.month = due.month.later 1 := by
  have hday : searchBase.date.dayNumber = due.date.dayNumber ∨
      searchBase.date.dayNumber = due.date.dayNumber + 1 := by
    cases hrolling : chore.isRolling with
    | true =>
      simp only [monthSearchBase, hrolling, if_true] at hsearch
      obtain ⟨justAfter, hjustAfter, hsearch⟩ := bind_eq_ok_iff.1 hsearch
      have hnanos := Moment.later_eq_ok_iff.1 hjustAfter
      have htime := justAfter.time.nanos_lt
      have hdueTime := due.time.nanos_lt
      unfold seconds at hnanos
      rw [if_pos (by omega)] at hsearch
      obtain rfl := Except.ok.inj hsearch
      unfold Moment.nanos at hnanos
      omega
    | false =>
      simp only [monthSearchBase, hrolling, Bool.false_eq_true, if_false] at hsearch
      obtain rfl := Except.ok.inj hsearch
      obtain ⟨-, ⟨hsame, -⟩ | ⟨hafter, -⟩⟩ := baseDate_eq_ok huses hrolling hbase
      · exact .inl (congrArg Date.dayNumber hsame)
      · exact .inr hafter
  rcases hday with hsame | hafter
  · exact .inl (congrArg Date.month (Date.eq_of_dayNumber hsame))
  · exact Date.month_of_succ hafter

theorem lt_nextMonthDay_at_due (huses : chore.kind.usesTimeOfDay = true)
    (hbase : chore.baseDate (some due) due = .ok base)
    (hnext : chore.nextMonthDay base (some due) due = .ok next) : due.nanos < next.nanos := by
  obtain ⟨searchBase, hsearch, -, -, hmonth, -⟩ := nextMonthDay_eq_ok hnext
  rw [searchMonth_eq (month_monthSearchBase_at_due huses hbase hsearch)] at hmonth
  obtain ⟨hle, -⟩ := firstListedMonth_eq_ok hmonth
  rw [Month.index_later] at hle
  apply Moment.lt_of_month_lt
  omega

theorem lt_nextDue_at_due [ZoneTable] {nextDueDate : Option Moment} (hutc : chore.RecursInUtc)
    (hdueDate : chore.dueDate = some dueDate) (hnext : chore.nextDue dueDate = .ok nextDueDate) :
    ∃ next, nextDueDate = some next ∧ dueDate.instant < next.nanos := by
  obtain ⟨hadapts, hrepeats⟩ := hutc.repeats
  obtain ⟨due, -, hdue, -⟩ := exists_toUtc?_of_nextDue hdueDate hnext
  have hisDue : chore.IsDue due := ⟨dueDate, hdueDate, hdue⟩
  obtain ⟨base, next, hbase, hadvance, rfl⟩ :=
    (hisDue.nextDue_eq_ok_iff hadapts hrepeats hdue).1 hnext
  have hinstant := Moment.ofNanos?_eq_some_iff.1 hdue
  refine ⟨next, rfl, ?_⟩
  rw [← hinstant]
  by_cases hmonth : chore.kind = .dayOfTheMonth
  · rw [advance, hmonth] at hadvance
    exact lt_nextMonthDay_at_due (by rw [hmonth]; rfl) hbase hadvance
  · -- Whatever the schedule is anchored on, it is the due date.
    have hanchor : chore.anchor (some due) due = due := by simp [anchor]
    exact Int.lt_of_le_of_lt (le_baseDate hanchor hbase) (lt_advance hutc hmonth hadvance)

theorem nextDue_of_adaptive [ZoneTable] {performedAt : Timestamp} (hkind : chore.kind = .adaptive)
    (hdueDate : chore.dueDate = some dueDate)
    (hnext : chore.nextDue performedAt = .ok (some next)) :
    next.nanos - performedAt.instant = performedAt.instant - dueDate.instant := by
  obtain ⟨performed, hperformed, hrest⟩ := bind_eq_ok_iff.1 hnext
  obtain ⟨priorDue, hpriorDue, hrest⟩ := bind_eq_ok_iff.1 hrest
  rw [hdueDate] at hpriorDue
  obtain ⟨due, hdue, rfl⟩ := map_eq_ok_iff.1 hpriorDue
  have hperformedAt := Moment.ofNanos?_eq_some_iff.1 (onCalendar_eq_ok_iff.1 hperformed)
  have hdueAt := Moment.ofNanos?_eq_some_iff.1 (onCalendar_eq_ok_iff.1 hdue)
  rw [nextDueAfter, hkind] at hrest
  have hgap : performed.shift? (performed.nanos - due.nanos) = some next := by
    simpa [Cadence.nextAfter, Cadence.gaps, Cadence.gapsFrom, Cadence.repeatGap,
      Timestamp.toUtc?_ofUtc] using hrest
  rw [Moment.shift?_eq_some_iff] at hgap
  omega

end Chore

section Skip

variable {snapshot : Snapshot} {performer : UserId} {performedAt dueDate : Timestamp}
  {rotates : Bool} {source after : Source} {decision : Decision}

theorem skipReference_eq_dueDate {chore : Chore} (hkind : chore.kind ≠ .adaptive)
    (hdueDate : chore.dueDate = some dueDate) (performedAt : Timestamp) :
    chore.skipReference performedAt = dueDate := by
  simp [Chore.skipReference, hdueDate, hkind]

/-- **A skip moves on from the date that is skipped.** A chore that counts days or months of UTC is
due after it, whenever it is skipped. A chore that adapts is due after it exactly when it is skipped
after it, too. -/
theorem lt_nextDueDate_of_skip_iff [ZoneTable]
    (hkind : snapshot.chore.RecursInUtc ∨ snapshot.chore.kind = .adaptive)
    (hdueDate : snapshot.chore.dueDate = some dueDate)
    (hskip : snapshot.skip performer performedAt rotates source = (.ok decision, after))
    (hdormant : decision.becomesDormant = false) :
    ∃ next, decision.nextDueDate = some next ∧
      (dueDate.instant < next.nanos ↔
        (snapshot.chore.kind = .adaptive → dueDate.instant < performedAt.instant)) := by
  have hdecided := skip_eq_ok hskip
  have hdue := hdecided.due
  rcases hkind with hutc | hadaptive
  · have hadapts := hutc.repeats.1
    rw [skipReference_eq_dueDate hadapts hdueDate] at hdue
    obtain ⟨next, hnext, hlt⟩ := Chore.lt_nextDue_at_due hutc hdueDate hdue
    exact ⟨next, hnext, fun _ hadaptive => absurd hadaptive hadapts, fun _ => hlt⟩
  · have hreference : snapshot.chore.skipReference performedAt = performedAt := by
      simp [Chore.skipReference, hdueDate, hadaptive]
    rw [hreference] at hdue
    cases hnext : decision.nextDueDate with
    | none =>
      rw [hdecided.dormant, hnext] at hdormant
      cases hdormant
    | some next =>
      rw [hnext] at hdue
      have hgap := Chore.nextDue_of_adaptive hadaptive hdueDate hdue
      refine ⟨next, rfl, ?_⟩
      simp only [hadaptive, true_imp_iff]
      omega

def compost : Snapshot where
  chore :=
    { id := 9, name := "turn the compost", kind := .adaptive, frequency := 0
      details := FrequencyDetails.unset
      dueDate := some (timeOf "2025-05-10T12:00:00+02:00"), isRolling := false
      strategy := .leastCompleted, assignedTo := some 1, assignees := [1, 2], createdBy := 1
      isActive := true, completionWindow := none }
  history := []

def compostSkipped (next : Timestamp) : Decision :=
  ⟨some next.wall, some 1, false, .skipped⟩

theorem compost_moves_on_when_late :
    compost.skip 2 (timeOf "2025-05-11T22:00:00Z") true (Source.start (.script [])) =
        (.ok (compostSkipped (timeOf "2025-05-13T10:00:00Z")), Source.start (.script [])) ∧
      (timeOf "2025-05-10T12:00:00+02:00").instant <
        (timeOf "2025-05-13T10:00:00Z").wall.nanos := by
  have hskip : compost.skip 2 (timeOf "2025-05-11T22:00:00Z") true (Source.start (.script [])) =
      (.ok (compostSkipped (timeOf "2025-05-13T10:00:00Z")), Source.start (.script [])) := rfl
  obtain ⟨next, hnext, hiff⟩ := lt_nextDueDate_of_skip_iff (.inr rfl) rfl hskip rfl
  obtain rfl := Option.some.inj hnext
  exact ⟨hskip, hiff.2 fun _ => by decide +kernel⟩

/-- Skipped two days ahead of time, the compost is due two days before that. -/
theorem compost_moves_back_when_early :
    compost.skip 2 (timeOf "2025-05-08T10:00:00Z") true (Source.start (.script [])) =
        (.ok (compostSkipped (timeOf "2025-05-06T10:00:00Z")), Source.start (.script [])) ∧
      (timeOf "2025-05-06T10:00:00Z").wall.nanos <
        (timeOf "2025-05-10T12:00:00+02:00").instant :=
  ⟨rfl, by decide +kernel⟩

/-- What is decided about the occurrence, apart from who does it. -/
def Decision.occurrence (decision : Decision) : Option Moment × Bool :=
  (decision.nextDueDate, decision.becomesDormant)

theorem nextDue_congr_instant [ZoneTable] {chore : Chore} {first second : Timestamp}
    (hinstant : first.instant = second.instant) : chore.nextDue first = chore.nextDue second := by
  unfold Chore.nextDue Timestamp.toUtc?
  rw [hinstant]

theorem map_occurrence_assigned {assigned : Except Fault (Option UserId)}
    (hassigned : ∃ assignee, assigned = .ok assignee) (next : Moment) (status : Status) :
    (assigned.map fun assignee => (⟨some next, assignee, false, status⟩ : Decision)).map
      Decision.occurrence = .ok (some next, false) := by
  obtain ⟨assignee, rfl⟩ := hassigned
  rfl

/-- **A skip stands for the due date.** Two skips of a chore that does not adapt differ in nothing
when they differ in their time alone. Each decides the occurrence that a completion at the very due
date decides, on whatever clock it is noted down and if the window and the assignment let it pass;
where the schedule fails, both fail with the same fault. -/
theorem occurrence_skip_eq_occurrence_complete [ZoneTable] (hkind : snapshot.chore.kind ≠ .adaptive)
    (hdueDate : snapshot.chore.dueDate = some dueDate) (performer : UserId) (source : Source) :
    (∀ first second rotates, snapshot.skip performer first rotates source =
        snapshot.skip performer second rotates source) ∧
      ∀ window completedAt, completedAt.instant = dueDate.instant →
        snapshot.chore.checkWindow completedAt = .ok () →
        (snapshot.chore.kind.isOneShot = false → ∃ assignee,
          (snapshot.chore.nextAssignee snapshot.history performer source).1 = .ok assignee) →
        ∀ performedAt rotates,
          (snapshot.skip performer performedAt rotates source).1.map Decision.occurrence =
            (snapshot.complete window performer completedAt source).1.map Decision.occurrence := by
  have hreference := skipReference_eq_dueDate hkind hdueDate
  refine ⟨fun first second rotates => ?_, ?_⟩
  · simp only [Snapshot.skip, hreference]
  intro window completedAt hinstant hwindow hassigned performedAt rotates
  have hdue : snapshot.chore.dueAfterCompletion snapshot.history window completedAt =
      snapshot.chore.nextDue dueDate := by
    rw [Chore.dueAfterCompletion, if_neg hkind, nextDue_congr_instant hinstant]
  unfold Snapshot.skip Snapshot.complete
  simp only [hreference, hwindow, hdue, bind, Except.bind]
  cases hnext : snapshot.chore.nextDue dueDate with
  | error fault => rfl
  | ok nextDueDate =>
    cases nextDueDate with
    | none => rfl
    | some next =>
      -- A chore with a next due date is not for one shot only, so that somebody is assigned.
      have hrepeats := Chore.isNone_nextDue hkind hnext
      have hassignee := hassigned hrepeats.symm
      have hcomplete := map_occurrence_assigned hassignee next
        (snapshot.chore.completionStatus completedAt)
      cases rotates with
      | true => exact (map_occurrence_assigned hassignee next .skipped).trans hcomplete.symm
      | false => exact hcomplete.symm

end Skip

/-- Paid on the last day of each month, or a day early at most. -/
def phoneBill : Snapshot where
  chore :=
    { id := 10, name := "pay for the phone", kind := .dayOfTheMonth, frequency := 31
      details :=
        { FrequencyDetails.unset with months := Month.names, time := some "21:00Z" }
      dueDate := some (timeOf "2025-01-31T23:00:00+02:00"), isRolling := true
      strategy := .roundRobin, assignedTo := some 2, assignees := [1, 2, 3], createdBy := 1
      isActive := true, completionWindow := some 24 }
  history := []

theorem phoneBill_skipped_weeks_before :
    phoneBill.chore.checkWindow (timeOf "2025-01-31T21:00:00Z") = .ok () ∧
      (phoneBill.chore.nextAssignee [] 1 (Source.start (.script []))).1 = .ok (some 3) ∧
      (phoneBill.skip 1 (timeOf "2025-01-02T08:00:00Z") false
          (Source.start (.script []))).1.map Decision.occurrence =
        .ok (some (timeOf "2025-02-28T21:00:00Z").wall, false) ∧
      (phoneBill.skip 1 (timeOf "2025-01-02T08:00:00Z") false
          (Source.start (.script []))).1.map Decision.occurrence =
        (phoneBill.complete 5 1 (timeOf "2025-01-31T21:00:00Z")
          (Source.start (.script []))).1.map Decision.occurrence := by
  have hwindow : phoneBill.chore.checkWindow (timeOf "2025-01-31T21:00:00Z") = .ok () := rfl
  have hassigned : (phoneBill.chore.nextAssignee [] 1 (Source.start (.script []))).1 =
      .ok (some 3) := rfl
  have hkind : phoneBill.chore.kind ≠ .adaptive := by decide
  obtain ⟨-, hsame⟩ := occurrence_skip_eq_occurrence_complete hkind rfl 1 (Source.start (.script []))
  exact ⟨hwindow, hassigned, rfl,
    hsame 5 _ (by decide +kernel) hwindow (fun _ => ⟨_, hassigned⟩) _ _⟩

end ChoreRota
