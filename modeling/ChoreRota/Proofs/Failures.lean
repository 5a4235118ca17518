import ChoreRota.Calendar.Zone.Table
import ChoreRota.Proofs.AllowedRuns
import ChoreRota.Proofs.Assignment

/-!
# Failed events

An event that fails leaves the chore, its history and the source of choices as they were: nothing is
drawn before it is clear that there is somebody to choose. So the events of a run that fail can be
left out, and the others report the same and reach the same states.
-/

namespace ChoreRota

open Chance (Source)

section Events

variable {snapshot : Snapshot} {window : Nat} {performer : UserId} {performedAt : Timestamp}
  {rotates : Bool} {source after : Source} {fault : Fault}

theorem eq_error_of_map {α β : Type} {result : Except Fault α × Source} {f : α → β}
    (hmap : (result.1.map f, result.2) = (.error fault, after)) :
    result = (.error fault, after) := by
  rcases result with ⟨cause | value, source⟩
  · obtain ⟨hcause, rfl⟩ := Prod.mk.inj hmap
    rw [Except.error.inj hcause]
  · cases hmap

theorem complete_eq_error [ZoneTable]
    (hcomplete : snapshot.complete window performer performedAt source = (.error fault, after)) :
    after = source := by
  simp only [Snapshot.complete] at hcomplete
  split at hcomplete
  · exact (Prod.mk.inj hcomplete).2.symm
  · cases hcomplete
  · exact Chore.nextAssignee_eq_error (eq_error_of_map hcomplete)

theorem skip_eq_error [ZoneTable]
    (hskip : snapshot.skip performer performedAt rotates source = (.error fault, after)) :
    after = source := by
  simp only [Snapshot.skip] at hskip
  split at hskip
  · exact (Prod.mk.inj hskip).2.symm
  · cases hskip
  · split at hskip
    · exact Chore.nextAssignee_eq_error (eq_error_of_map hskip)
    · cases hskip

end Events

namespace State

variable {window : Nat} {state next : State} {event : Event} {fault : Fault}

theorem settle_eq_error {result : Except Fault Decision × Source} {performer : UserId}
    {performedAt : Timestamp} {note : Option String}
    (hsettle : state.settle result performer performedAt note = (.error fault, next)) :
    result = (.error fault, next.source) ∧ next.snapshot = state.snapshot := by
  obtain ⟨cause | decided, source⟩ := result
  · obtain ⟨hcause, rfl⟩ := Prod.mk.inj hsettle
    obtain rfl := Except.error.inj hcause
    exact ⟨rfl, rfl⟩
  · cases hsettle

theorem step_eq_error [ZoneTable] (hstep : state.step window event = (.error fault, next)) :
    next = state := by
  cases event with
  | complete performer performedAt note =>
    obtain ⟨hcomplete, hsnapshot⟩ := settle_eq_error hstep
    rw [State.mk.injEq]
    exact ⟨hsnapshot, complete_eq_error hcomplete⟩
  | skip performer performedAt rotates note =>
    obtain ⟨hskip, hsnapshot⟩ := settle_eq_error hstep
    rw [State.mk.injEq]
    exact ⟨hsnapshot, skip_eq_error hskip⟩
  | remove user => cases hstep

theorem step_eq_error_or_decided [ZoneTable] {performer : UserId}
    (hperformer : event.performer? = some performer) (window : Nat) (state : State) :
    (∃ fault, state.step window event = (.error fault, state)) ∨
      ∃ decision next, state.step window event = (.ok (.decided decision), next) := by
  have hsettle : ∀ result performer performedAt note,
      (∃ fault, (state.settle result performer performedAt note).1 = .error fault) ∨
        ∃ decision, (state.settle result performer performedAt note).1 =
          .ok (.decided decision) := by
    rintro ⟨fault | decision, source⟩ performer performedAt note
    · exact .inl ⟨fault, rfl⟩
    · exact .inr ⟨decision, rfl⟩
  have hreport : (∃ fault, (state.step window event).1 = .error fault) ∨
      ∃ decision, (state.step window event).1 = .ok (.decided decision) := by
    cases event with
    | complete performer performedAt note => exact hsettle _ _ _ _
    | skip performer performedAt rotates note => exact hsettle _ _ _ _
    | remove user => cases hperformer
  rcases hreport with ⟨fault, hfault⟩ | ⟨decision, hdecision⟩
  · have hstep : state.step window event = (.error fault, (state.step window event).2) :=
      Prod.ext hfault rfl
    rw [step_eq_error hstep] at hstep
    exact .inl ⟨fault, hstep⟩
  · exact .inr ⟨decision, _, Prod.ext hdecision rfl⟩

def succeeding [ZoneTable] (window : Nat) (state : State) (events : List Event) : List Event :=
  ((state.trace window events).filter fun entry => entry.2.1.isOk).map Prod.fst

theorem succeeding_cons_of_ok [ZoneTable] {report : Report}
    (hstep : state.step window event = (.ok report, next)) (rest : List Event) :
    state.succeeding window (event :: rest) = event :: next.succeeding window rest := by
  simp [succeeding, hstep, Except.isOk, Except.toBool]

theorem succeeding_cons_of_error [ZoneTable]
    (hstep : state.step window event = (.error fault, next)) (rest : List Event) :
    state.succeeding window (event :: rest) = next.succeeding window rest := by
  simp [succeeding, hstep, Except.isOk, Except.toBool]

/-- **Failed events are invisible.** An event that fails leaves the whole state as it was, the
position of the source of choices included. The events of a run that succeed report the same and
reach the same states, one after the other, when those that fail are left out. -/
theorem run_succeeding [ZoneTable] (window : Nat) (state : State) (events : List Event) :
    (∀ event fault next, state.step window event = (.error fault, next) → next = state) ∧
      state.run window (state.succeeding window events) =
        (state.run window events).filter (fun entry => entry.1.isOk) ∧
      state.after window (state.succeeding window events) = state.after window events := by
  refine ⟨fun _ _ _ hstep => step_eq_error hstep, ?_⟩
  induction events generalizing state with
  | nil => exact ⟨rfl, rfl⟩
  | cons event rest ih =>
    rcases hstep : state.step window event with ⟨fault | report, next⟩
    · obtain rfl := step_eq_error hstep
      obtain ⟨hrun, hafter⟩ := ih next
      rw [succeeding_cons_of_error hstep, run_cons, after_cons, hstep]
      exact ⟨hrun, hafter⟩
    · obtain ⟨hrun, hafter⟩ := ih next
      rw [succeeding_cons_of_ok hstep, run_cons, run_cons, after_cons, after_cons, hstep]
      exact ⟨congrArg (_ :: ·) hrun, hafter⟩

end State

/-- Shared by two people who take it in a random order, but never twice in a row, and not done more
than two hours early. -/
def kitchen : State where
  snapshot :=
    { chore :=
        { id := 6, name := "clean the kitchen", kind := .daily, frequency := 0
          details := FrequencyDetails.unset, dueDate := some (timeOf "2025-03-01T18:00:00Z")
          isRolling := false, strategy := .randomExceptLastAssigned, assignedTo := some 1
          assignees := [1, 2], createdBy := 1, isActive := true, completionWindow := some 2 }
      history := [] }
  source := Chance.Source.start (.script [7, 4000000000])

def cleanKitchen : Event :=
  .complete 1 (timeOf "2025-03-01T17:00:00Z") none

def skipKitchen (rotates : Bool) : Event :=
  .skip 2 (timeOf "2025-03-02T12:00:00Z") rotates none

/-- Cleaned far too early, cleaned in time, left by one of the two, skipped to somebody else though
nobody else is there, skipped. -/
def kitchenEvents : List Event :=
  [.complete 1 (timeOf "2025-03-01T09:00:00Z") none, cleanKitchen, .remove 2, skipKitchen true,
    skipKitchen false]

theorem kitchen_forgets_failed_events :
    kitchen.succeeding 5 kitchenEvents = [cleanKitchen, .remove 2, skipKitchen false] ∧
      kitchen.run 5 [cleanKitchen, .remove 2, skipKitchen false] =
        (kitchen.run 5 kitchenEvents).filter (fun entry => entry.1.isOk) ∧
      kitchen.after 5 [cleanKitchen, .remove 2, skipKitchen false] =
        kitchen.after 5 kitchenEvents := by
  have hsucceeding : kitchen.succeeding 5 kitchenEvents =
      [cleanKitchen, .remove 2, skipKitchen false] := by decide +kernel
  obtain ⟨-, hrun, hafter⟩ := State.run_succeeding 5 kitchen kitchenEvents
  rw [hsucceeding] at hrun hafter
  exact ⟨hsucceeding, hrun, hafter⟩

end ChoreRota
