import ChoreRota.Calendar.Zone.Table
import ChoreRota.Proofs.AllowedRuns
import ChoreRota.Proofs.Assignment

/-!
# Fairness of counting

A strategy that counts picks before the event that asks is recorded. So the invariant is that nobody
has more than two rows more than anybody else, and the current assignee no more than one.
-/

namespace ChoreRota

def rowsNaming (field : HistoryRow → Option UserId) (history : List HistoryRow) (user : UserId) :
    Nat :=
  history.countP fun row => field row == some user

theorem rowsNaming_cons {field : HistoryRow → Option UserId} {row : HistoryRow} {named : UserId}
    (hrow : field row = some named) (history : List HistoryRow) (user : UserId) :
    rowsNaming field (row :: history) user =
      rowsNaming field history user + if named = user then 1 else 0 := by
  simp [rowsNaming, List.countP_cons, hrow]

def IsFair (users : List UserId) (rows : UserId → Nat) : Prop :=
  ∀ left ∈ users, ∀ right ∈ users, rows left ≤ rows right + 2

/-- The numbers of rows are fair, and still so after one more row for the current assignee. -/
structure IsBalanced (users : List UserId) (rows : UserId → Nat) (current : UserId) : Prop where
  fair : IsFair users rows
  listed : current ∈ users
  current_le : ∀ other ∈ users, rows current ≤ rows other + 1

theorem IsBalanced.add_row {users : List UserId} {rows after : UserId → Nat}
    {current next : UserId} (hbalanced : IsBalanced users rows current)
    (hafter : ∀ user, after user = rows user + if current = user then 1 else 0)
    (hlisted : next ∈ users) (hleast : ∀ other ∈ users, rows next ≤ rows other) :
    IsBalanced users after next := by
  refine ⟨?_, hlisted, ?_⟩
  · intro left hleft right hright
    have hfair := hbalanced.fair left hleft right hright
    have hcurrent := hbalanced.current_le right hright
    rw [hafter, hafter]
    by_cases hsame : current = left
    · subst hsame
      rw [if_pos rfl]
      omega
    · rw [if_neg hsame]
      omega
  · intro other hother
    have hnext := hleast other hother
    rw [hafter, hafter]
    split <;> omega

def AssignStrategy.countedField? : AssignStrategy → Option (HistoryRow → Option UserId)
  | .leastAssigned => some HistoryRow.assignedTo
  | .leastCompleted => some HistoryRow.completedBy
  | _ => none

theorem AssignStrategy.eq_of_countedField? {strategy : AssignStrategy}
    {field : HistoryRow → Option UserId} (hfield : strategy.countedField? = some field) :
    strategy = .leastAssigned ∧ field = HistoryRow.assignedTo ∨
      strategy = .leastCompleted ∧ field = HistoryRow.completedBy := by
  cases strategy with
  | leastAssigned => exact .inl ⟨rfl, (Option.some.inj hfield).symm⟩
  | leastCompleted => exact .inr ⟨rfl, (Option.some.inj hfield).symm⟩
  | random | keepLastAssigned | randomExceptLastAssigned | roundRobin | noAssignee => cases hfield

open Rotation in
/-- A counting strategy picks an assignee whom no more rows name than anybody else. Without rows
that is anyone, also if the performer is counted in their place. -/
theorem Chore.least_of_nextAssignee {chore : Chore} {history : List HistoryRow}
    {performer : UserId} {source after : Chance.Source} {assignee : Option UserId}
    {field : HistoryRow → Option UserId} (hfield : chore.strategy.countedField? = some field)
    (hnodup : chore.assignees.Nodup)
    (hnext : chore.nextAssignee history performer source = (.ok assignee, after)) :
    ∃ user ∈ chore.assignees, assignee = some user ∧ ∀ other ∈ chore.assignees,
      rowsNaming field history user ≤ rowsNaming field history other := by
  -- The keys need not match an empty history, where `assignedKeys` puts the performer in.
  have hcounted : ∀ keys : List UserId,
      (history ≠ [] → ∀ user, keys.count user = rowsNaming field history user) →
      (leastCounted chore.assignees keys).map some = .ok assignee →
        ∃ user ∈ chore.assignees, assignee = some user ∧ ∀ other ∈ chore.assignees,
          rowsNaming field history user ≤ rowsNaming field history other := by
    intro keys hkeys hmap
    obtain ⟨user, hleast, huser⟩ := map_eq_ok_iff.1 hmap
    obtain ⟨hmem, hle⟩ := least_of_leastCounted hnodup hleast
    refine ⟨user, hmem, huser.symm, ?_⟩
    intro other hother
    by_cases hnone : history = []
    · simp [hnone, rowsNaming]
    · rw [← hkeys hnone, ← hkeys hnone]
      exact hle other hother
  rcases AssignStrategy.eq_of_countedField? hfield with ⟨hstrategy, rfl⟩ | ⟨hstrategy, rfl⟩
  · rw [nextAssignee, hstrategy] at hnext
    refine hcounted _ ?_ (Prod.mk.inj hnext).1
    intro hsome user
    rw [assignedKeys, if_neg (by simpa using hsome), List.count_filterMap]
    rfl
  · rw [nextAssignee, hstrategy] at hnext
    exact hcounted _ (fun _ user => List.count_filterMap) (Prod.mk.inj hnext).1

namespace State

variable {window : Nat} {state : State} {events : List Event}

/-- The event rotates and finds a further occurrence, and where completions count it is the
assignee's own. -/
def AsksInTurn [ZoneTable] (window : Nat) (state : State) (event : Event) : Prop :=
  event.rotates = true ∧ state.Schedules window event ∧
    (state.snapshot.chore.strategy = .leastCompleted →
      event.performer? = state.snapshot.chore.assignedTo)

instance [ZoneTable] (window : Nat) (state : State) (event : Event) :
    Decidable (state.AsksInTurn window event) :=
  inferInstanceAs (Decidable (_ ∧ _ ∧ _))

theorem field_of_record [ZoneTable] {field : HistoryRow → Option UserId} {event : Event}
    {performer : UserId} (hfield : state.snapshot.chore.strategy.countedField? = some field)
    (hasks : state.AsksInTurn window event) (hperformer : event.performer? = some performer)
    (decision : Decision) (performedAt : Timestamp) (note : Option String) :
    field (state.snapshot.record decision performer performedAt note) =
      state.snapshot.chore.assignedTo := by
  rcases AssignStrategy.eq_of_countedField? hfield with ⟨-, rfl⟩ | ⟨hstrategy, rfl⟩
  · rfl
  · exact hperformer.symm.trans (hasks.2.2 hstrategy)

structure CountsFor (users : List UserId) (field : HistoryRow → Option UserId) (state : State) :
    Prop where
  counts : state.snapshot.chore.strategy.countedField? = some field
  assignees : state.snapshot.chore.assignees = users
  balanced : ∃ current, state.snapshot.chore.assignedTo = some current ∧
    IsBalanced users (rowsNaming field state.snapshot.history) current

theorem CountsFor.step [ZoneTable] {users : List UserId} {field : HistoryRow → Option UserId}
    {event : Event} (hcounts : state.CountsFor users field) (hnodup : users.Nodup)
    (hasks : state.AsksInTurn window event) :
    (state.step window event).2.CountsFor users field := by
  obtain ⟨hfield, rfl, current, hcurrent, hbalanced⟩ := hcounts
  obtain ⟨decision, next, hstep, hdormant⟩ := schedules_iff.1 hasks.2.1
  obtain ⟨performer, performedAt, note, hperformer, hsnapshot⟩ := snapshot_of_step hstep
  obtain ⟨asking, -, hnext⟩ := nextAssignee_of_step hstep hasks.1 hdormant
  obtain ⟨user, huser, hpick, hleast⟩ := Chore.least_of_nextAssignee hfield hnodup hnext
  -- The new row names the assignee in force, not the one that was just picked.
  have hrow := field_of_record hfield hasks hperformer decision performedAt note
  rw [hcurrent] at hrow
  rw [hstep]
  refine ⟨?_, assignees_of_step hstep, user, (assignedTo_of_step hstep).trans hpick, ?_⟩
  · rw [Chore.eq_of_task Chore.strategy (fun _ => rfl) (task_of_step hstep)]
    exact hfield
  · rw [hsnapshot]
    exact hbalanced.add_row (rowsNaming_cons hrow state.snapshot.history) huser hleast

/-- **Counting is fair.** From an empty history and a listed assignee on, at every point of a run of
rotating events that all find a further occurrence, the numbers of rows that a counting strategy
goes by differ by at most two between any two assignees. Where completions count, the events have to
be performed by the assignee in force. -/
theorem isFair_after [ZoneTable] {field : HistoryRow → Option UserId} {users : List UserId}
    (hfield : state.snapshot.chore.strategy.countedField? = some field)
    (husers : state.snapshot.chore.assignees = users) (hnodup : users.Nodup)
    (hhistory : state.snapshot.history = [])
    (hassigned : ∃ user ∈ users, state.snapshot.chore.assignedTo = some user)
    (hrun : state.Along window (AsksInTurn window) events) :
    ∀ past, past <+: events →
      IsFair users (rowsNaming field (state.after window past).snapshot.history) := by
  obtain ⟨first, hfirst, hassignedTo⟩ := hassigned
  have hstart : state.CountsFor users field := by
    refine ⟨hfield, husers, first, hassignedTo, ?_⟩
    rw [hhistory]
    exact ⟨fun _ _ _ _ => Nat.zero_le _, hfirst, fun _ _ => Nat.zero_le _⟩
  intro past hpast
  have hcounts : (state.after window past).CountsFor users field := by
    refine (hrun.of_prefix hpast).induction (motive := fun _ current =>
      current.CountsFor users field) hstart ?_
    intro past current event hcurrent hasks
    exact hcurrent.step hnodup hasks
  obtain ⟨current, -, hbalanced⟩ := hcounts.balanced
  exact hbalanced.fair

end State

def shopping (strategy : AssignStrategy) : State where
  snapshot :=
    { chore :=
        { id := 12, name := "shopping", kind := .weekly, frequency := 0
          details := FrequencyDetails.unset, dueDate := some (timeOf "2025-01-04T10:00:00Z")
          isRolling := false, strategy, assignedTo := some 1, assignees := [1, 2], createdBy := 1
          isActive := true, completionWindow := none }
      history := [] }
  source := Chance.Source.start (.script [])

/-- Done once, then skipped to somebody else, by the same performer. -/
def shoppingEvents (performer : UserId) : List Event :=
  [.complete performer (timeOf "2025-01-04T12:00:00Z") none,
    .skip performer (timeOf "2025-01-10T12:00:00Z") true none]

/-- By then the first has two rows and the second none, whichever rows count. -/
theorem shopping_is_fair :
    (shopping .leastAssigned).Along 5 (State.AsksInTurn 5) (shoppingEvents 2) ∧
      (shopping .leastCompleted).Along 5 (State.AsksInTurn 5) (shoppingEvents 1) ∧
      [1, 2].map (rowsNaming HistoryRow.assignedTo
        ((shopping .leastAssigned).after 5 (shoppingEvents 2)).snapshot.history) = [2, 0] ∧
      IsFair [1, 2] (rowsNaming HistoryRow.assignedTo
        ((shopping .leastAssigned).after 5 (shoppingEvents 2)).snapshot.history) ∧
      [1, 2].map (rowsNaming HistoryRow.completedBy
        ((shopping .leastCompleted).after 5 (shoppingEvents 1)).snapshot.history) = [2, 0] ∧
      IsFair [1, 2] (rowsNaming HistoryRow.completedBy
        ((shopping .leastCompleted).after 5 (shoppingEvents 1)).snapshot.history) := by
  have hassigned : (shopping .leastAssigned).Along 5 (State.AsksInTurn 5) (shoppingEvents 2) := by
    decide +kernel
  have hcompleted : (shopping .leastCompleted).Along 5 (State.AsksInTurn 5) (shoppingEvents 1) := by
    decide +kernel
  refine ⟨hassigned, hcompleted, by decide +kernel, ?_, by decide +kernel, ?_⟩
  · exact State.isFair_after rfl rfl (by decide) rfl ⟨1, by decide, rfl⟩ hassigned _
      (List.prefix_refl _)
  · exact State.isFair_after rfl rfl (by decide) rfl ⟨1, by decide, rfl⟩ hcompleted _
      (List.prefix_refl _)

end ChoreRota
