import ChoreRota.Calendar.Zone.Table
import ChoreRota.Proofs.AllowedRuns

/-!
# Chores for one shot

The first decided event of a chore for one shot ends it for good. Every further completion and skip
at a time that can be put on the clock of UTC is decided, and nothing of it hangs on the strategy,
the assignees or the source of choices.
-/

namespace ChoreRota

open Chance (Source)

/-- The chore is for one shot, and the shot has been taken. -/
structure Chore.IsOver (chore : Chore) : Prop where
  isOneShot : chore.kind.isOneShot = true
  dueDate : chore.dueDate = none
  isActive : chore.isActive = false

theorem FrequencyKind.ne_adaptive_of_isOneShot {kind : FrequencyKind}
    (hone : kind.isOneShot = true) : kind ≠ .adaptive := by
  rintro rfl
  cases hone

theorem Chore.IsOver.nextDue_eq [ZoneTable] {chore : Chore} {completedAt : Timestamp}
    {completed : Moment} (hover : chore.IsOver) (hcompleted : completedAt.toUtc? = some completed) :
    chore.nextDue completedAt = .ok none := by
  rw [Chore.nextDue, hcompleted, hover.dueDate]
  change chore.nextDueAfter none completed = .ok none
  have hone := hover.isOneShot
  unfold nextDueAfter
  cases hkind : chore.kind with
  | once | noRepeat | trigger => rfl
  | daily | weekly | monthly | yearly | adaptive | interval | daysOfTheWeek | dayOfTheMonth =>
    rw [hkind] at hone
    cases hone

def Decision.ended (assignee : Option UserId) (status : Status) : Decision :=
  ⟨none, assignee, true, status⟩

namespace Snapshot

variable {snapshot : Snapshot} {performedAt : Timestamp} {performed : Moment}

theorem complete_of_isOver [ZoneTable] (hover : snapshot.chore.IsOver)
    (hperformed : performedAt.toUtc? = some performed) (window : Nat) (performer : UserId)
    (source : Source) :
    snapshot.complete window performer performedAt source =
      (.ok (.ended (some performer) .completed), source) := by
  have hwindow : snapshot.chore.checkWindow performedAt = .ok () := by
    rw [Chore.checkWindow, hover.dueDate]
    cases snapshot.chore.completionWindow <;> rfl
  have hdue : snapshot.chore.dueAfterCompletion snapshot.history window performedAt =
      .ok none := by
    rw [Chore.dueAfterCompletion,
      if_neg (FrequencyKind.ne_adaptive_of_isOneShot hover.isOneShot), hover.nextDue_eq hperformed]
  have hstatus : snapshot.chore.completionStatus performedAt = .completed := by
    rw [Chore.completionStatus, hover.dueDate]
  simp only [complete, hwindow, hstatus, bind, Except.bind, hdue, Decision.ended]

theorem skip_of_isOver [ZoneTable] (hover : snapshot.chore.IsOver)
    (hperformed : performedAt.toUtc? = some performed) (performer : UserId) (rotates : Bool)
    (source : Source) :
    snapshot.skip performer performedAt rotates source =
      (.ok (.ended snapshot.chore.assignedTo .skipped), source) := by
  have hreference : snapshot.chore.skipReference performedAt = performedAt := by
    rw [Chore.skipReference, hover.dueDate]
  simp only [skip, hreference, hover.nextDue_eq hperformed, Decision.ended]

end Snapshot

namespace State

variable {window : Nat} {state next : State} {event : Event} {front : List Event}
  {decision : Decision}

theorem isOver_of_decided [ZoneTable] (hone : state.snapshot.chore.kind.isOneShot = true)
    (hstep : state.step window event = (.ok (.decided decision), next)) :
    next.snapshot.chore.IsOver := by
  have hadapts := FrequencyKind.ne_adaptive_of_isOneShot hone
  obtain ⟨reference, hnext⟩ := nextDue_of_step hadapts hstep
  have hnone : decision.nextDueDate.isNone = true := by
    rw [Chore.isNone_nextDue hadapts hnext, hone]
  refine ⟨?_, ?_, ?_⟩
  · rw [Chore.eq_of_task Chore.kind (fun _ => rfl) (task_of_step hstep), hone]
  · rw [dueDate_of_step hstep, Option.isNone_iff_eq_none.1 hnone, Option.map_none]
  · rw [isActive_of_step hstep, becomesDormant_of_step hstep, hnone, Bool.not_true, Bool.and_false]

theorem isOver_step [ZoneTable] (hover : state.snapshot.chore.IsOver) (event : Event) :
    (state.step window event).2.snapshot.chore.IsOver := by
  rcases hstep : state.step window event with ⟨report, next⟩
  cases hreport : decisionOf report with
  | some decision =>
    rw [decisionOf_eq_some_iff] at hreport
    subst hreport
    exact isOver_of_decided hover.isOneShot hstep
  | none =>
    obtain ⟨assignees, assignedTo, hsnapshot⟩ := step_eq_undecided hstep hreport
    rw [hsnapshot]
    exact ⟨hover.isOneShot, hover.dueDate, hover.isActive⟩

theorem isOver_after [ZoneTable] (hover : state.snapshot.chore.IsOver) (events : List Event) :
    (state.after window events).snapshot.chore.IsOver := by
  induction events generalizing state with
  | nil => exact hover
  | cons event rest ih => exact ih (isOver_step hover event)

theorem isOver_after_of_decided [ZoneTable] (hone : state.snapshot.chore.kind.isOneShot = true)
    (hdecided : state.decisions window front ≠ []) :
    (state.after window front).snapshot.chore.IsOver := by
  induction front generalizing state with
  | nil => exact absurd rfl hdecided
  | cons event rest ih =>
    rw [after_cons]
    rcases hstep : state.step window event with ⟨report, next⟩
    cases hreport : decisionOf report with
    | some decision =>
      rw [decisionOf_eq_some_iff] at hreport
      subst hreport
      exact isOver_after (isOver_of_decided hone hstep) rest
    | none =>
      rw [decisions_cons, hstep, hreport] at hdecided
      refine ih ?_ hdecided
      rw [Chore.eq_of_task Chore.kind (fun _ => rfl) (task_of_step hstep), hone]

/-- **One shot is final.** Once an event of a chore for one shot has been decided, the chore is
never due and never active again, whatever follows. From then on each completion and each skip at a
time on the clock of UTC is decided without a choice and without regard to the strategy: the
performer of a completion is the assignee, and a skip keeps the one that there is. -/
theorem one_shot_is_final [ZoneTable] (hone : state.snapshot.chore.kind.isOneShot = true)
    (hdecided : state.decisions window front ≠ []) (back : List Event) :
    let ended := state.after window (front ++ back)
    ended.snapshot.chore.dueDate = none ∧ ended.snapshot.chore.isActive = false ∧
      ∀ performer performedAt note, performedAt.toUtc? ≠ none →
        ended.step window (.complete performer performedAt note) =
            (.ok (.decided (.ended (some performer) .completed)),
              ⟨ended.snapshot.apply (.ended (some performer) .completed) performer performedAt note,
                ended.source⟩) ∧
          ∀ rotates, ended.step window (.skip performer performedAt rotates note) =
            (.ok (.decided (.ended ended.snapshot.chore.assignedTo .skipped)),
              ⟨ended.snapshot.apply (.ended ended.snapshot.chore.assignedTo .skipped) performer
                performedAt note, ended.source⟩) := by
  intro ended
  have hover : ended.snapshot.chore.IsOver := by
    have hback : ((state.after window front).after window back).snapshot.chore.IsOver :=
      isOver_after (isOver_after_of_decided hone hdecided) back
    rwa [after, after, ← List.foldl_append] at hback
  refine ⟨hover.dueDate, hover.isActive, fun performer performedAt note hperformed => ?_⟩
  obtain ⟨performed, hperformed⟩ := Option.ne_none_iff_exists'.1 hperformed
  refine ⟨?_, fun rotates => ?_⟩
  · rw [step, Snapshot.complete_of_isOver hover hperformed]
    rfl
  · rw [step, Snapshot.skip_of_isOver hover hperformed]
    rfl

end State

/-- To be handed in once, not more than a day early. Its time of day is none, nobody is left to draw
the next assignee from, and the strategy would have one drawn. -/
def taxReturn : State where
  snapshot :=
    { chore :=
        { id := 25, name := "hand in the tax return", kind := .once, frequency := 0
          details := { FrequencyDetails.unset with time := some "noon" }
          dueDate := some (timeOf "2025-07-31T12:00:00Z"), isRolling := true
          strategy := .random, assignedTo := some 7, assignees := [], createdBy := 1
          isActive := true, completionWindow := some 24 }
      history := [] }
  source := Source.start (.script [5])

def handedInLate : List Event :=
  [.complete 7 (timeOf "2025-07-24T12:00:00Z") none,
    .complete 7 (timeOf "2025-08-01T09:30:00+02:00") none]

theorem taxReturn_is_final :
    taxReturn.decisions 5 handedInLate = [⟨none, some 7, true, .completedLate⟩] ∧
      (taxReturn.after 5 (handedInLate ++ [.remove 7])).snapshot.chore.dueDate = none ∧
      (timeOf "2025-08-02T08:00:00Z").toUtc? ≠ none ∧
      ((taxReturn.after 5 (handedInLate ++ [.remove 7])).step 5
          (.skip 9 (timeOf "2025-08-02T08:00:00Z") true none)).1 =
        .ok (.decided ⟨none, some 1, true, .skipped⟩) := by
  have hdecisions : taxReturn.decisions 5 handedInLate =
      [⟨none, some 7, true, .completedLate⟩] := by decide +kernel
  have htime : (timeOf "2025-08-02T08:00:00Z").toUtc? ≠ none := by decide +kernel
  have hsome : taxReturn.decisions 5 handedInLate ≠ [] := by
    rw [hdecisions]
    exact List.cons_ne_nil _ _
  obtain ⟨hdue, -, hlater⟩ := State.one_shot_is_final rfl hsome [.remove 7]
  refine ⟨hdecisions, hdue, htime, ?_⟩
  rw [(hlater 9 _ none htime).2 true]
  rfl

end ChoreRota
