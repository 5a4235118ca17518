import ChoreRota.Proofs.Membership

/-!
# The history is a log

When a chore is due and whose it is between two events follows from what the events before have
reported, and so does the row that an event leaves. A run puts these rows in front of the history
and brings the chore up to date (`snapshot_after_eq_updated`).
-/

namespace ChoreRota

/-- What is in force between two events: when the chore is due and whose it is. -/
structure Standing where
  dueDate : Option Timestamp
  assignedTo : Option UserId
  deriving DecidableEq, Repr

namespace Standing

def ofChore (chore : Chore) : Standing :=
  ⟨chore.dueDate, chore.assignedTo⟩

/-- A decision sets both, a removal sets the assignee, and a failed event sets nothing. -/
def after (standing : Standing) : Except Fault Report → Standing
  | .ok (.decided decision) => ⟨decision.nextDueDate.map Timestamp.ofUtc, decision.nextAssignee⟩
  | .ok (.reassigned assignedTo) => ⟨standing.dueDate, assignedTo⟩
  | .error _ => standing

end Standing

def Event.row? (event : Event) (choreId : ChoreId) (standing : Standing) (decision : Decision) :
    Option HistoryRow :=
  match event with
  | .complete performer performedAt note | .skip performer performedAt _ note =>
    some
      { choreId, performedAt := some performedAt, dueDate := standing.dueDate
        completedBy := some performer, assignedTo := standing.assignedTo, note
        status := decision.status }
  | .remove _ => none

def rowsFrom (choreId : ChoreId) (standing : Standing) :
    List (Event × Except Fault Report) → List HistoryRow
  | [] => []
  | (event, report) :: rest =>
    rowsFrom choreId (standing.after report) rest ++
      ((decisionOf report).bind (event.row? choreId standing)).toList

namespace Snapshot

variable {snapshot : Snapshot} {event : Event} {report : Except Fault Report}

/-- A snapshot after events, going by their reports alone. -/
def updated (snapshot : Snapshot) (reports : List (Event × Except Fault Report)) : Snapshot :=
  let standing := Standing.ofChore snapshot.chore
  let latest := reports.foldl (fun standing entry => standing.after entry.2) standing
  { chore :=
      { snapshot.chore with
        dueDate := latest.dueDate
        assignedTo := latest.assignedTo
        assignees := snapshot.chore.assignees.filter (· ∉ removedUsers (reports.map Prod.fst))
        isActive := snapshot.chore.isActive &&
          reports.all fun entry => (decisionOf entry.2).all fun decision =>
            !decision.becomesDormant }
    history := rowsFrom snapshot.chore.id standing reports ++ snapshot.history }

theorem updated_nil (snapshot : Snapshot) : snapshot.updated [] = snapshot := by
  simp [updated, rowsFrom, removedUsers, Standing.ofChore]

theorem updated_cons (snapshot : Snapshot) (entry : Event × Except Fault Report)
    (rest : List (Event × Except Fault Report)) :
    snapshot.updated (entry :: rest) = (snapshot.updated [entry]).updated rest := by
  have hremoved : removedUsers (entry.1 :: rest.map Prod.fst) =
      removedUsers [entry.1] ++ removedUsers (rest.map Prod.fst) := by
    rw [removedUsers, removedUsers, removedUsers, ← List.filterMap_append]
    rfl
  simp [updated, rowsFrom, hremoved, Standing.ofChore, List.filter_filter, Bool.and_assoc,
    Bool.and_comm]

theorem updated_of_error {performer : UserId} (hperformer : event.performer? = some performer)
    (fault : Fault) : snapshot.updated [(event, .error fault)] = snapshot := by
  have hremoved : removedUsers [event] = [] := removedUsers_concat_of_performer hperformer []
  simp [updated, rowsFrom, decisionOf, hremoved, Standing.after, Standing.ofChore]

theorem updated_of_row {decision : Decision} {performer : UserId} {performedAt : Timestamp}
    {note : Option String} (hperformer : event.performer? = some performer)
    (hrow : event.row? snapshot.chore.id (Standing.ofChore snapshot.chore) decision =
      some (snapshot.record decision performer performedAt note)) :
    snapshot.updated [(event, .ok (.decided decision))] =
      snapshot.apply decision performer performedAt note := by
  have hremoved : removedUsers [event] = [] := removedUsers_concat_of_performer hperformer []
  simp [updated, rowsFrom, decisionOf, hremoved, hrow, apply, Standing.after]

theorem updated_of_remove (user : UserId) (source : Chance.Source) :
    let removed := (snapshot.chore.removeAssignee user source).1
    snapshot.updated [(.remove user, .ok (.reassigned removed.assignedTo))] =
      ⟨removed, snapshot.history⟩ := by
  have hremoved : removedUsers [.remove user] = [user] := rfl
  simp [updated, rowsFrom, decisionOf, hremoved, Chore.removeAssignee, Standing.after,
    Standing.ofChore, bne]
  rfl

end Snapshot

namespace State

variable {window : Nat} {state : State}

def reports [ZoneTable] (window : Nat) (state : State) (events : List Event) :
    List (Event × Except Fault Report) :=
  (state.trace window events).map fun entry => (entry.1, entry.2.1)

theorem reports_cons [ZoneTable] (event : Event) (rest : List Event) :
    state.reports window (event :: rest) =
      (event, (state.step window event).1) :: (state.step window event).2.reports window rest := by
  simp [reports]

theorem snapshot_step_eq_updated [ZoneTable] (window : Nat) (state : State) (event : Event) :
    (state.step window event).2.snapshot =
      state.snapshot.updated [(event, (state.step window event).1)] := by
  cases hperformer : event.performer? with
  | some performer =>
    obtain ⟨fault, hstep⟩ | ⟨decision, next, hstep⟩ :=
      step_eq_error_or_decided hperformer window state
    · rw [hstep, Snapshot.updated_of_error hperformer]
    · obtain ⟨performer, performedAt, note, hsnapshot, ⟨rfl, -⟩ | ⟨rotates, rfl, -⟩⟩ :=
        step_eq_decided hstep
      · rw [hstep, hsnapshot, Snapshot.updated_of_row rfl rfl]
      · rw [hstep, hsnapshot, Snapshot.updated_of_row rfl rfl]
  | none =>
    cases event with
    | complete | skip => cases hperformer
    | remove user => exact (Snapshot.updated_of_remove user state.source).symm

theorem length_rowsFrom [ZoneTable] (window : Nat) (state : State) (events : List Event)
    (choreId : ChoreId) (standing : Standing) :
    (rowsFrom choreId standing (state.reports window events)).length =
      (state.decisions window events).length := by
  induction events generalizing state standing with
  | nil => rfl
  | cons event rest ih =>
    rw [reports_cons, decisions_cons, rowsFrom, List.length_append, List.length_append, ih,
      Nat.add_comm]
    congr 1
    cases hreport : decisionOf (state.step window event).1 with
    | none => rfl
    | some decision =>
      have hstep : state.step window event =
          (.ok (.decided decision), (state.step window event).2) :=
        Prod.ext (decisionOf_eq_some_iff.1 hreport) rfl
      obtain ⟨performer, performedAt, note, -, ⟨rfl, -⟩ | ⟨rotates, rfl, -⟩⟩ :=
        step_eq_decided hstep
      · rfl
      · rfl

theorem fst_reports [ZoneTable] (window : Nat) (state : State) (events : List Event) :
    (state.reports window events).map Prod.fst = events := by
  induction events generalizing state with
  | nil => rfl
  | cons event rest ih => rw [reports_cons, List.map_cons, ih]

theorem snapshot_after_eq_updated [ZoneTable] (window : Nat) (state : State) (events : List Event) :
    (state.after window events).snapshot =
      state.snapshot.updated (state.reports window events) := by
  induction events generalizing state with
  | nil => exact (Snapshot.updated_nil state.snapshot).symm
  | cons event rest ih =>
    rw [after_cons, ih, reports_cons, Snapshot.updated_cons, snapshot_step_eq_updated]

end State

end ChoreRota
