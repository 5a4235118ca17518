import ChoreRota.Calendar.Zone.Table
import ChoreRota.Proofs.Runs
import ChoreRota.Proofs.Schedule

/-!
# Dormancy

A chore has two ways of saying that it is dormant: it has no due date, and it is not active. An
event that finds no further occurrence says both. One that finds a due date does not make a chore
active again, and only a chore that adapts can wake up at all.
-/

namespace ChoreRota

/-- The two ways of saying that a chore is dormant agree. -/
def Chore.IsCoherent (chore : Chore) : Prop :=
  chore.isActive = true ↔ chore.dueDate.isSome = true

namespace State

variable {window : Nat} {state : State}

theorem isActive_after [ZoneTable] (window : Nat) (state : State) (events : List Event) :
    (state.after window events).snapshot.chore.isActive = true ↔
      state.snapshot.chore.isActive = true ∧
        ∀ decision ∈ state.decisions window events, decision.becomesDormant = false := by
  refine after_induction (motive := fun past current => current.snapshot.chore.isActive = true ↔
    state.snapshot.chore.isActive = true ∧ ∀ decision ∈ past, decision.becomesDormant = false)
    (by simp) ?_ ?_ events
  · intro past current event decision next hpast _ hstep
    rw [isActive_of_step hstep, Bool.and_eq_true, hpast]
    simp only [List.mem_append, List.mem_singleton, Bool.not_eq_true', and_assoc, or_imp,
      forall_and, forall_eq]
  · intro past current assignees assignedTo next hpast hsnapshot
    rw [hsnapshot]
    exact hpast

theorem dueDate_after [ZoneTable] (window : Nat) (state : State) (events : List Event) :
    ∀ last ∈ (state.decisions window events).getLast?,
      (state.after window events).snapshot.chore.dueDate =
          last.nextDueDate.map Timestamp.ofUtc ∧
        last.becomesDormant = last.nextDueDate.isNone := by
  refine after_induction (motive := fun past current => ∀ last ∈ past.getLast?,
    current.snapshot.chore.dueDate = last.nextDueDate.map Timestamp.ofUtc ∧
      last.becomesDormant = last.nextDueDate.isNone) (by simp) ?_ ?_ events
  · intro past current event decision next _ _ hstep last hlast
    obtain rfl : decision = last := by simpa using hlast
    exact ⟨dueDate_of_step hstep, becomesDormant_of_step hstep⟩
  · intro past current assignees assignedTo next hpast hsnapshot
    rw [hsnapshot]
    exact hpast

theorem becomesDormant_of_mem_decisions [ZoneTable] {events : List Event}
    (hkind : state.snapshot.chore.kind ≠ .adaptive) :
    ∀ decision ∈ state.decisions window events,
      decision.becomesDormant = state.snapshot.chore.kind.isOneShot := by
  refine after_induction (motive := fun past _ => ∀ decision ∈ past,
    decision.becomesDormant = state.snapshot.chore.kind.isOneShot) (by simp) ?_ ?_ events
  · intro past current event decision next hpast htask hstep
    have hsame := Chore.eq_of_task Chore.kind (fun _ => rfl) htask
    rw [← hsame] at hkind
    obtain ⟨reference, hdue⟩ := nextDue_of_step hkind hstep
    have hdormant : decision.becomesDormant = state.snapshot.chore.kind.isOneShot := by
      rw [becomesDormant_of_step hstep, Chore.isNone_nextDue hkind hdue, hsame]
    simpa only [List.mem_append, List.mem_singleton, or_imp, forall_and, forall_eq] using
      ⟨hpast, hdormant⟩
  · intro past current assignees assignedTo next hpast _
    exact hpast

/-- **When the flag follows the due date.** After a run that decides something, a chore is active
exactly when it is due if and only if its last decision was dormant, or it was active from the start
and no decision was dormant. A chore that does not adapt has to be for one shot or active from the
start. -/
theorem isCoherent_after_iff [ZoneTable] {events : List Event} {last : Decision}
    (hlast : last ∈ (state.decisions window events).getLast?) :
    ((state.after window events).snapshot.chore.IsCoherent ↔
      last.becomesDormant = true ∨ state.snapshot.chore.isActive = true ∧
        ∀ decision ∈ state.decisions window events, decision.becomesDormant = false) ∧
    (state.snapshot.chore.kind ≠ .adaptive →
      ((state.after window events).snapshot.chore.IsCoherent ↔
        state.snapshot.chore.kind.isOneShot = true ∨ state.snapshot.chore.isActive = true)) := by
  have hmem : last ∈ state.decisions window events := List.mem_of_getLast? hlast
  have hactive := isActive_after window state events
  obtain ⟨hdue, hdormant⟩ := dueDate_after window state events last hlast
  have hcoherent : (state.after window events).snapshot.chore.IsCoherent ↔
      last.becomesDormant = true ∨ state.snapshot.chore.isActive = true ∧
        ∀ decision ∈ state.decisions window events, decision.becomesDormant = false := by
    rw [Chore.IsCoherent, hactive, hdue, Option.isSome_map, hdormant]
    cases hnext : last.nextDueDate with
    | none =>
      rw [hnext] at hdormant
      simp only [Option.isSome_none, Bool.false_eq_true, iff_false, Option.isNone_none, true_or,
        iff_true]
      rintro ⟨-, hnever⟩
      simp [hnever last hmem] at hdormant
    | some due => simp
  refine ⟨hcoherent, fun hkind => ?_⟩
  have hkinds := @becomesDormant_of_mem_decisions window state _ events hkind
  rw [hcoherent, hkinds last hmem]
  cases hone : state.snapshot.chore.kind.isOneShot with
  | true => simp
  | false =>
    rw [hone] at hkinds
    simp only [Bool.false_eq_true, false_or, and_iff_left_iff_imp]
    exact fun _ => hkinds

end State

def plants : State where
  snapshot :=
    { chore :=
        { id := 1, name := "water the plants", kind := .adaptive, frequency := 0
          details := FrequencyDetails.unset, dueDate := none, isRolling := false
          strategy := .keepLastAssigned, assignedTo := some 1, assignees := [1], createdBy := 1
          isActive := true, completionWindow := none }
      history := [] }
  source := Chance.Source.start (.script [])

/-- Two completions two days apart: only the second one shows a gap. -/
def wateredTwice : List Event :=
  [.complete 1 (timeOf "2025-01-01T12:00:00Z") none,
    .complete 1 (timeOf "2025-01-03T12:00:00Z") none]

theorem isCoherent_after_first_watering :
    (plants.decisions 5 (wateredTwice.take 1)).getLast? =
        some ⟨none, some 1, true, .completed⟩ ∧
      (plants.after 5 (wateredTwice.take 1)).snapshot.chore.IsCoherent := by
  have hlast : (plants.decisions 5 (wateredTwice.take 1)).getLast? =
      some ⟨none, some 1, true, .completed⟩ := by decide +kernel
  exact ⟨hlast, (State.isCoherent_after_iff hlast).1.2 (.inl rfl)⟩

/-- The second completion gives the plants a due date again, but they stay inactive. -/
theorem not_isCoherent_after_second_watering :
    plants.decisions 5 wateredTwice =
        [⟨none, some 1, true, .completed⟩,
          ⟨some (timeOf "2025-01-05T12:00:00Z").wall, some 1, false, .completed⟩] ∧
      (plants.after 5 wateredTwice).snapshot.chore.dueDate =
        some (timeOf "2025-01-05T12:00:00Z") ∧
      (plants.after 5 wateredTwice).snapshot.chore.isActive = false ∧
      ¬(plants.after 5 wateredTwice).snapshot.chore.IsCoherent := by
  have hdue : (plants.after 5 wateredTwice).snapshot.chore.dueDate =
      some (timeOf "2025-01-05T12:00:00Z") := by decide +kernel
  have hactive : (plants.after 5 wateredTwice).snapshot.chore.isActive = false := by
    decide +kernel
  refine ⟨by decide +kernel, hdue, hactive, ?_⟩
  rw [Chore.IsCoherent, hdue, hactive]
  decide

end ChoreRota
