import Mathlib.Data.List.Rotate
import ChoreRota.Calendar.Zone.Table
import ChoreRota.Proofs.AllowedRuns
import ChoreRota.Proofs.Assignment

/-!
# Taking turns

A chore that goes round its assignees looks the current one up in the list every time. Nobody is
listed twice, so the picks of a run follow the list, and begin again with the first user after the
last one. Only events that rotate pick anybody: a skip that does not rotate takes nobody's turn.
-/

namespace ChoreRota

open Rotation (turn turn_lt turn_of_getElem? following_eq_ok_iff)

namespace State

variable {window : Nat} {state next : State} {event : Event} {events : List Event}
  {decision : Decision}

def picks [ZoneTable] (window : Nat) (state : State) (events : List Event) : List (Option UserId) :=
  (state.trace window events).filterMap fun entry =>
    if entry.1.rotates then (decisionOf entry.2.1).map Decision.nextAssignee else none

theorem picks_cons_of_rotates [ZoneTable]
    (hstep : state.step window event = (.ok (.decided decision), next))
    (hrotates : event.rotates = true) (rest : List Event) :
    state.picks window (event :: rest) = decision.nextAssignee :: next.picks window rest := by
  simp [picks, hstep, hrotates, decisionOf]

theorem picks_cons_of_not_rotates [ZoneTable] (hrotates : event.rotates = false)
    (rest : List Event) :
    state.picks window (event :: rest) = (state.step window event).2.picks window rest := by
  simp [picks, hrotates]

theorem turn_of_step [ZoneTable] (hstrategy : state.snapshot.chore.strategy = .roundRobin)
    (hnodup : state.snapshot.chore.assignees.Nodup)
    (hstep : state.step window event = (.ok (.decided decision), next))
    (hrotates : event.rotates = true) (hdormant : decision.becomesDormant = false) :
    decision.nextAssignee =
        state.snapshot.chore.assignees[turn state.snapshot.chore.assignees
          state.snapshot.chore.assignedTo]? ∧
      turn state.snapshot.chore.assignees decision.nextAssignee =
        (turn state.snapshot.chore.assignees state.snapshot.chore.assignedTo + 1) %
          state.snapshot.chore.assignees.length := by
  obtain ⟨performer, -, hnext⟩ := nextAssignee_of_step hstep hrotates hdormant
  rw [Chore.nextAssignee, hstrategy] at hnext
  obtain ⟨user, hfollowing, huser⟩ := map_eq_ok_iff.1 (Prod.mk.inj hnext).1
  have hlisted := following_eq_ok_iff.1 hfollowing
  rw [← huser]
  exact ⟨hlisted.symm, turn_of_getElem? hnodup hlisted⟩

theorem getElem?_picks [ZoneTable] {users : List UserId}
    (hstrategy : state.snapshot.chore.strategy = .roundRobin)
    (husers : state.snapshot.chore.assignees = users) (hnodup : users.Nodup) (hsome : users ≠ [])
    (hrun : state.Along window (Schedules window) events) {index : Nat}
    (hindex : index < (state.picks window events).length) :
    (state.picks window events)[index]? =
      some users[(turn users state.snapshot.chore.assignedTo + index) % users.length]? := by
  induction events generalizing state index with
  | nil => cases hindex
  | cons event rest ih =>
    obtain ⟨hschedules, hrest⟩ := hrun
    obtain ⟨decision, next, hstep, hdormant⟩ := schedules_iff.1 hschedules
    rw [hstep] at hrest
    have hnextStrategy : next.snapshot.chore.strategy = .roundRobin :=
      (Chore.eq_of_task Chore.strategy (fun _ => rfl) (task_of_step hstep)).trans hstrategy
    have hnextUsers := (assignees_of_step hstep).trans husers
    cases hrotates : event.rotates with
    | false =>
      -- Nobody is picked, and it stays the same user's turn.
      have hsame := assignedTo_of_step hstep
      rw [nextAssignee_of_step_of_not_rotates hstep hrotates] at hsame
      rw [picks_cons_of_not_rotates hrotates, hstep] at hindex ⊢
      rw [← hsame]
      exact ih hnextStrategy hnextUsers hrest hindex
    | true =>
      subst husers
      obtain ⟨hpick, hturn⟩ := turn_of_step hstrategy hnodup hstep hrotates hdormant
      rw [picks_cons_of_rotates hstep hrotates] at hindex ⊢
      cases index with
      | zero =>
        rw [List.getElem?_cons_zero, Nat.add_zero, Nat.mod_eq_of_lt (turn_lt hsome _), hpick]
      | succ index =>
        rw [List.length_cons] at hindex
        rw [List.getElem?_cons_succ, ih hnextStrategy hnextUsers hrest (by omega),
          assignedTo_of_step hstep, hturn, Nat.mod_add_mod, Nat.add_right_comm, Nat.add_assoc]

/-- **Everybody in turn.** In a run of events that all find a further occurrence, a chore that goes
round its users keeps its assignee when a skip does not rotate. As many picks in a row as there are
users are the list of them, begun at the one whose turn it is by then, and the pick after them is
the first of them again. -/
theorem picks_go_round [ZoneTable] {users : List UserId}
    (hstrategy : state.snapshot.chore.strategy = .roundRobin)
    (husers : state.snapshot.chore.assignees = users) (hnodup : users.Nodup) (hsome : users ≠ [])
    (hrun : state.Along window (Schedules window) events) :
    (∀ past event, past ++ [event] <+: events → event.rotates = false →
      (state.after window (past ++ [event])).snapshot.chore.assignedTo =
        (state.after window past).snapshot.chore.assignedTo) ∧
    (∀ first, first + users.length ≤ (state.picks window events).length →
      ((state.picks window events).drop first).take users.length =
        (users.rotate (turn users state.snapshot.chore.assignedTo + first)).map some) ∧
    ∀ index, index + users.length < (state.picks window events).length →
      (state.picks window events)[index + users.length]? =
        (state.picks window events)[index]? := by
  have hpicks : ∀ index, index < (state.picks window events).length →
      (state.picks window events)[index]? =
        some users[(turn users state.snapshot.chore.assignedTo + index) % users.length]? :=
    fun index hindex => getElem?_picks hstrategy husers hnodup hsome hrun hindex
  have hlength := List.length_pos_iff.2 hsome
  refine ⟨?_, ?_, ?_⟩
  · intro past event hpast hrotates
    obtain ⟨decision, next, hstep, -⟩ := schedules_iff.1 (hrun.at_event hpast)
    rw [after_concat, hstep, assignedTo_of_step hstep,
      nextAssignee_of_step_of_not_rotates hstep hrotates]
  · intro first hfirst
    apply List.ext_getElem?
    intro index
    rw [List.getElem?_take, List.getElem?_map, List.getElem?_drop]
    by_cases hindex : index < users.length
    · have hturn : index + (turn users state.snapshot.chore.assignedTo + first) =
          turn users state.snapshot.chore.assignedTo + (first + index) := by omega
      rw [if_pos hindex, hpicks _ (by omega), List.getElem?_rotate hindex, hturn,
        List.getElem?_eq_getElem (Nat.mod_lt _ hlength), Option.map_some]
    · rw [if_neg hindex, List.getElem?_eq_none (by simpa using hindex)]
      rfl
  · intro index hindex
    rw [hpicks _ hindex, hpicks _ (by omega), ← Nat.add_assoc, Nat.add_mod_right]

end State

def rubbish : State where
  snapshot :=
    { chore :=
        { id := 9, name := "rubbish", kind := .daily, frequency := 0
          details := FrequencyDetails.unset, dueDate := some (timeOf "2025-02-27T20:00:00Z")
          isRolling := false, strategy := .roundRobin, assignedTo := some 99
          assignees := [4, 8, 15], createdBy := 4, isActive := true, completionWindow := none }
      history := [] }
  source := Chance.Source.start (.script [])

def takeOutRubbish : Event :=
  .complete 8 (timeOf "2025-03-01T19:00:00Z") none

def skipRubbish (rotates : Bool) : Event :=
  .skip 15 (timeOf "2025-03-02T07:00:00Z") rotates none

def rubbishEvents : List Event :=
  [takeOutRubbish, skipRubbish false, skipRubbish true, takeOutRubbish, skipRubbish false,
    takeOutRubbish]

theorem rubbish_goes_round :
    rubbish.Along 5 (State.Schedules 5) rubbishEvents ∧
      rubbish.picks 5 rubbishEvents = [some 4, some 8, some 15, some 4] ∧
      (([some 4, some 8, some 15, some 4] : List (Option UserId)).drop 1).take 3 =
        (([4, 8, 15] : List UserId).rotate (turn [4, 8, 15] (some 99) + 1)).map some := by
  have hrun : rubbish.Along 5 (State.Schedules 5) rubbishEvents := by decide +kernel
  have hpicks : rubbish.picks 5 rubbishEvents = [some 4, some 8, some 15, some 4] := by
    decide +kernel
  obtain ⟨-, hround, -⟩ := State.picks_go_round rfl rfl (by decide) (by decide) hrun
  rw [hpicks] at hround
  exact ⟨hrun, hpicks, hround 1 (by decide)⟩

end ChoreRota
