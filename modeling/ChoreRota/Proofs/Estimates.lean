import ChoreRota.Calendar.Zone.Table
import ChoreRota.Proofs.Assignment
import ChoreRota.Proofs.Gaps
import ChoreRota.Proofs.Skips

/-!
# Two estimates of a cadence

What an adaptive chore learns from is a pair of neighbours among the time of the completion and
those of the rows before it, both of them known. With such a pair the gaps decide, and without one
the distance from the prior due date is repeated.
-/

namespace ChoreRota

open Chance (Source)

namespace Cadence

section Neighbours

variable {α β : Type} {items : List (Option α)} {position : Nat} {pair : α × α}

/-- Two neighbours in a list that are both known. -/
def neighboursAt (items : List (Option α)) (position : Nat) : Option (α × α) :=
  match items[position]?, items[position + 1]? with
  | some (some newer), some (some older) => some (newer, older)
  | _, _ => none

theorem neighboursAt_map (image : α → β) (items : List (Option α)) (position : Nat) :
    neighboursAt (items.map (Option.map image)) position =
      (neighboursAt items position).map (Prod.map image image) := by
  unfold neighboursAt
  rw [List.getElem?_map, List.getElem?_map]
  rcases items[position]? with _ | _ | newer <;> rcases items[position + 1]? with _ | _ | older <;>
    rfl

theorem lt_length_of_neighboursAt (hpair : neighboursAt items position = some pair) :
    position < items.length := by
  by_contra hbeyond
  rw [neighboursAt, List.getElem?_eq_none (not_lt.1 hbeyond)] at hpair
  cases hpair

theorem mem_of_neighboursAt (hpair : neighboursAt items position = some pair) :
    some pair.1 ∈ items ∧ some pair.2 ∈ items := by
  unfold neighboursAt at hpair
  split at hpair
  · rename_i newer older hnewer holder
    obtain rfl := Option.some.inj hpair
    exact ⟨List.mem_of_getElem? hnewer, List.mem_of_getElem? holder⟩
  · cases hpair

theorem neighboursAt_zero_eq_none {first : Option α} {rest : List (Option α)}
    (hnone : ∀ newer older later, first = some newer → rest = some older :: later → False) :
    neighboursAt (first :: rest) 0 = none := by
  cases hpair : neighboursAt (first :: rest) 0 with
  | none => rfl
  | some pair =>
    rcases first with _ | newer
    · cases hpair
    rcases rest with _ | ⟨_ | older, later⟩
    · cases hpair
    · cases hpair
    · exact (hnone newer older later rfl rfl).elim

theorem gapsFrom_eq_filterMap (position : Nat) (moments : List (Option Int)) :
    gapsFrom position moments = (List.range moments.length).filterMap fun index =>
      (neighboursAt moments index).map fun pair => (position + index, pair.1 - pair.2) := by
  fun_induction gapsFrom position moments with
  | case1 position newer older rest ih =>
    rw [List.length_cons, List.range_succ_eq_map, List.filterMap_cons, List.filterMap_map, ih]
    simp only [Function.comp_def, Nat.succ_eq_add_one, Nat.add_assoc, Nat.add_comm 1]
    rfl
  | case2 position moment rest hnone ih =>
    rw [List.length_cons, List.range_succ_eq_map, List.filterMap_cons, List.filterMap_map, ih,
      neighboursAt_zero_eq_none hnone]
    simp only [Function.comp_def, Nat.succ_eq_add_one, Nat.add_assoc, Nat.add_comm 1]
    rfl
  | case3 => rfl

end Neighbours

section Estimates

variable {completedAt : Timestamp} {completed : Moment} {history : List HistoryRow}

def timesOf (completedAt : Timestamp) (history : List HistoryRow) : List (Option Timestamp) :=
  some completedAt :: history.map HistoryRow.performedAt

def HasGap (completedAt : Timestamp) (history : List HistoryRow) : Prop :=
  ∃ position, neighboursAt (timesOf completedAt history) position ≠ none

theorem gaps_eq_gapsFrom (hcompleted : completedAt.toUtc? = some completed)
    (history : List HistoryRow) :
    gaps completed history =
      gapsFrom 0 ((timesOf completedAt history).map (Option.map Timestamp.instant)) := by
  unfold gaps timesOf
  rw [List.map_cons, List.map_map, Moment.ofNanos?_eq_some_iff.1 hcompleted]
  rfl

theorem exists_neighbours_of_mem_gaps (hcompleted : completedAt.toUtc? = some completed)
    {gap : Nat × Int} (hgap : gap ∈ gaps completed history) :
    ∃ pair, neighboursAt (timesOf completedAt history) gap.1 = some pair ∧
      gap.2 = pair.1.instant - pair.2.instant := by
  rw [gaps_eq_gapsFrom hcompleted, gapsFrom_eq_filterMap, List.mem_filterMap] at hgap
  obtain ⟨position, -, hgap⟩ := hgap
  rw [neighboursAt_map, Option.map_map, Option.map_eq_some_iff] at hgap
  obtain ⟨pair, hpair, rfl⟩ := hgap
  exact ⟨pair, by rwa [← Nat.zero_add position] at hpair, rfl⟩

theorem gaps_eq_nil_iff (hcompleted : completedAt.toUtc? = some completed) :
    gaps completed history = [] ↔ ¬HasGap completedAt history := by
  rw [gaps_eq_gapsFrom hcompleted, gapsFrom_eq_filterMap, List.filterMap_eq_nil_iff]
  unfold HasGap
  simp only [neighboursAt_map, Option.map_eq_none_iff, List.mem_range, List.length_map, not_exists,
    not_not]
  constructor
  · intro hnone position
    cases hpair : neighboursAt (timesOf completedAt history) position with
    | none => rfl
    | some pair => exact hpair ▸ hnone position (lt_length_of_neighboursAt hpair)
  · exact fun hnone position _ => hnone position

theorem not_hasGap_iff :
    ¬HasGap completedAt history ↔ (∀ row ∈ history.head?, row.performedAt = none) ∧
      ∀ position, neighboursAt (history.map HistoryRow.performedAt) position = none := by
  have hfirst : neighboursAt (timesOf completedAt history) 0 = none ↔
      ∀ row ∈ history.head?, row.performedAt = none := by
    unfold neighboursAt timesOf
    cases history with
    | nil => simp
    | cons row rest => cases hperformed : row.performedAt <;> simp [hperformed]
  unfold HasGap
  rw [not_exists, ← hfirst]
  simp only [not_not]
  constructor
  · exact fun hnone => ⟨hnone 0, fun position => hnone (position + 1)⟩
  · rintro ⟨hlatest, hrows⟩ position
    cases position with
    | zero => exact hlatest
    | succ position => exact hrows position

theorem nextDue_of_hasGap (hcompleted : completedAt.toUtc? = some completed)
    (hgap : HasGap completedAt history) (priorDue : Option Timestamp) :
    nextDue priorDue completedAt history =
      .ok (completed.shift? (seconds (averageSeconds (gaps completed history)))) := by
  simp only [nextDue, hcompleted, nextAfter]
  split
  · rename_i hnone
    exact absurd hgap ((gaps_eq_nil_iff hcompleted).1 hnone)
  · rfl

theorem nextDue_of_not_hasGap (hcompleted : completedAt.toUtc? = some completed)
    (hgap : ¬HasGap completedAt history) (priorDue : Option Timestamp) :
    nextDue priorDue completedAt history = repeatGap priorDue completed := by
  simp only [nextDue, hcompleted, nextAfter, (gaps_eq_nil_iff hcompleted).2 hgap]

end Estimates

end Cadence

section Completions

/-- Whether somebody can be picked does not depend on the history. -/
theorem Chore.nextAssignee_map_const {α : Type} (chore : Chore) (first second : List HistoryRow)
    (performer : UserId) (source : Source) (value : α) :
    (chore.nextAssignee first performer source).1.map (fun _ => value) =
      (chore.nextAssignee second performer source).1.map (fun _ => value) := by
  have hcounted : ∀ keys others : List UserId,
      ((Rotation.leastCounted chore.assignees keys).map some).map (fun _ => value) =
        ((Rotation.leastCounted chore.assignees others).map some).map (fun _ => value) := by
    intro keys others
    by_cases hnone : chore.assignees = []
    · have hfails : ∀ keys, Rotation.leastCounted chore.assignees keys = .error .noAssignees :=
        fun _ => Rotation.leastCounted_eq_error_iff.2 ⟨hnone, rfl⟩
      rw [hfails, hfails]
    · obtain ⟨user, huser⟩ := Rotation.exists_leastCounted hnone keys
      obtain ⟨other, hother⟩ := Rotation.exists_leastCounted hnone others
      rw [huser, hother]
      rfl
  unfold nextAssignee
  split
  · exact hcounted _ _
  · exact hcounted _ _
  all_goals rfl

def Decision.outlook (decision : Decision) : (Option Moment × Bool) × Status :=
  (decision.occurrence, decision.status)

theorem map_outlook_assigned (assigned : Except Fault (Option UserId)) (next : Moment)
    (status : Status) :
    (assigned.map fun assignee => (⟨some next, assignee, false, status⟩ : Decision)).map
      Decision.outlook = assigned.map fun _ => ((some next, false), status) := by
  cases assigned <;> rfl

/-- Beyond the due date a completion asks the history for the next assignee alone. -/
theorem Snapshot.complete_congr [ZoneTable] {chore : Chore} {first second : List HistoryRow}
    {window : Nat}
    {performedAt : Timestamp} (hdue : chore.dueAfterCompletion first window performedAt =
      chore.dueAfterCompletion second window performedAt) (performer : UserId) (source : Source) :
    ((⟨chore, first⟩ : Snapshot).complete window performer performedAt source).1.map
        Decision.outlook =
      ((⟨chore, second⟩ : Snapshot).complete window performer performedAt source).1.map
        Decision.outlook := by
  unfold complete
  simp only [hdue]
  split
  · rfl
  · rfl
  · rw [map_outlook_assigned, map_outlook_assigned]
    exact Chore.nextAssignee_map_const chore first second performer source _

theorem Chore.dueAfterCompletion_congr [ZoneTable] {chore : Chore} (hkind : chore.kind = .adaptive)
    {first second : List HistoryRow} {window : Nat}
    (hrows : (first.take window).map (fun row => row.performedAt.map Timestamp.instant) =
      (second.take window).map fun row => row.performedAt.map Timestamp.instant)
    (performedAt : Timestamp) :
    chore.dueAfterCompletion first window performedAt =
      chore.dueAfterCompletion second window performedAt := by
  simp only [dueAfterCompletion, hkind, if_true, Cadence.nextDue, Cadence.nextAfter, Cadence.gaps,
    hrows]

end Completions

namespace Cadence

/-- **Neighbours decide which estimate applies.** With two known times in a row, the chore is due
the average of the gaps after the completion, whatever the prior due date. Without, it is due as
long after the completion as that was after the prior due date, whatever the history, and never
without a prior due date. Either way there is nothing due when the calendar ends before that; but a
completion that is off the calendar in UTC is not estimated from at all, and neither is such a prior
due date once it is asked for. So an adaptive chore decides the same about two histories whose rows
in the window have the same times. -/
theorem nextDue_by_neighbours [ZoneTable] (completedAt : Timestamp) (history : List HistoryRow) :
    (∀ completed, completedAt.toUtc? = some completed →
      (HasGap completedAt history → ∀ priorDue, nextDue priorDue completedAt history =
        .ok (completed.shift? (seconds (averageSeconds (gaps completed history))))) ∧
      (¬HasGap completedAt history →
        nextDue none completedAt history = .ok none ∧
        (∀ due prior, due.toUtc? = some prior → nextDue (some due) completedAt history =
          .ok (completed.shift? (completed.nanos - prior.nanos))) ∧
        ∀ due, due.toUtc? = none →
          nextDue (some due) completedAt history = .error .offCalendar)) ∧
      (completedAt.toUtc? = none →
        ∀ priorDue, nextDue priorDue completedAt history = .error .offCalendar) ∧
      (¬HasGap completedAt history ↔ (∀ row ∈ history.head?, row.performedAt = none) ∧
        ∀ position, neighboursAt (history.map HistoryRow.performedAt) position = none) ∧
      ∀ chore other window, chore.kind = .adaptive →
        (history.take window).map (fun row => row.performedAt.map Timestamp.instant) =
          (other.take window).map (fun row => row.performedAt.map Timestamp.instant) →
        ∀ performer source,
          ((⟨chore, history⟩ : Snapshot).complete window performer completedAt source).1.map
              Decision.outlook =
            ((⟨chore, other⟩ : Snapshot).complete window performer completedAt source).1.map
              Decision.outlook := by
  refine ⟨?_, ?_, not_hasGap_iff, ?_⟩
  · intro completed hcompleted
    refine ⟨nextDue_of_hasGap hcompleted, fun hgap => ⟨?_, ?_, ?_⟩⟩
    · exact nextDue_of_not_hasGap hcompleted hgap none
    · intro due prior hprior
      rw [nextDue_of_not_hasGap hcompleted hgap]
      simp only [repeatGap, hprior]
    · intro due hoff
      rw [nextDue_of_not_hasGap hcompleted hgap]
      simp only [repeatGap, hoff]
  · intro hoff priorDue
    simp only [nextDue, hoff]
  · intro chore other window hkind hrows performer source
    exact Snapshot.complete_congr (Chore.dueAfterCompletion_congr hkind hrows completedAt)
      performer source

end Cadence

def chimney (performedAt : List (Option String)) : Snapshot where
  chore :=
    { id := 38, name := "sweep the chimney", kind := .adaptive, frequency := 0
      details := FrequencyDetails.unset, dueDate := some (timeOf "2025-05-30T10:00:00Z")
      isRolling := false, strategy := .leastCompleted, assignedTo := some 1, assignees := [1, 2]
      createdBy := 1, isActive := true, completionWindow := none }
  history := performedAt.map fun time =>
    ⟨38, time.map timeOf, none, some 1, some 1, none, .completed⟩

/-- A row of the year before is no gap behind a row without a time. With a window of two rows it
makes no difference that the next row would be one. -/
theorem chimney_repeats_distance :
    ¬Cadence.HasGap (timeOf "2025-06-01T10:00:00Z")
        (chimney [none, some "2024-05-20T10:00:00Z"]).history ∧
      Cadence.nextDue (some (timeOf "2025-05-30T10:00:00Z")) (timeOf "2025-06-01T10:00:00Z")
          (chimney [none, some "2024-05-20T10:00:00Z"]).history =
        .ok (some (timeOf "2025-06-03T10:00:00Z").wall) ∧
      ((chimney [none, some "2024-05-20T10:00:00Z"]).complete 2 2 (timeOf "2025-06-01T10:00:00Z")
          (Source.start (.script []))).1.map Decision.outlook =
        ((chimney [none, some "2024-05-20T10:00:00Z", some "2024-05-10T10:00:00Z"]).complete 2 2
          (timeOf "2025-06-01T10:00:00Z") (Source.start (.script []))).1.map Decision.outlook := by
  have hcompleted : (timeOf "2025-06-01T10:00:00Z").toUtc? =
      some (timeOf "2025-06-01T10:00:00Z").wall := rfl
  have hgap : ¬Cadence.HasGap (timeOf "2025-06-01T10:00:00Z")
      (chimney [none, some "2024-05-20T10:00:00Z"]).history :=
    (Cadence.gaps_eq_nil_iff hcompleted).1 rfl
  obtain ⟨hestimates, -, -, hwindow⟩ := Cadence.nextDue_by_neighbours
    (timeOf "2025-06-01T10:00:00Z") (chimney [none, some "2024-05-20T10:00:00Z"]).history
  obtain ⟨-, hrepeats⟩ := hestimates _ hcompleted
  obtain ⟨-, hdue, -⟩ := hrepeats hgap
  have hprior : (timeOf "2025-05-30T10:00:00Z").toUtc? =
      some (timeOf "2025-05-30T10:00:00Z").wall := rfl
  have hshift : (timeOf "2025-06-01T10:00:00Z").wall.shift?
      ((timeOf "2025-06-01T10:00:00Z").wall.nanos - (timeOf "2025-05-30T10:00:00Z").wall.nanos) =
    some (timeOf "2025-06-03T10:00:00Z").wall := rfl
  refine ⟨hgap, (hdue _ _ hprior).trans (congrArg Except.ok hshift), ?_⟩
  exact hwindow (chimney []).chore _ 2 rfl rfl 2 (Source.start (.script []))

/-- On a clock behind UTC the last hour of the calendar is off the calendar in UTC. A prior due date
there is not estimated from, although the next one would be a time that the calendar has. -/
theorem chimney_has_no_estimate_at_calendars_end :
    ¬Cadence.HasGap (timeOf "9999-12-31T20:00:00Z") [] ∧
      Moment.ofNanos? ((timeOf "9999-12-31T20:00:00Z").instant +
          ((timeOf "9999-12-31T20:00:00Z").instant -
            (timeOf "9999-12-31T23:30:00-01:00").instant)) =
        some (timeOf "9999-12-31T15:30:00Z").wall ∧
      Cadence.nextDue (some (timeOf "9999-12-31T23:30:00-01:00")) (timeOf "9999-12-31T20:00:00Z")
          [] = .error .offCalendar := by
  refine ⟨?_, rfl, rfl⟩
  rw [Cadence.not_hasGap_iff]
  exact ⟨by simp, fun _ => rfl⟩

end ChoreRota
