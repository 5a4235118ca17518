import ChoreRota.Recurrence.NextDue
import ChoreRota.Rotation

/-!
# Events

Completing a chore, skipping an occurrence, and removing an assignee: what each of them decides, and
what becomes of the snapshot. An event that fails leaves everything as it was.
-/

namespace ChoreRota

open Chance (Source)

structure Decision where
  nextDueDate : Option Moment
  nextAssignee : Option UserId
  becomesDormant : Bool
  status : Status
  deriving DecidableEq, Repr

/-- How many rows of history an adaptive chore looks at unless told otherwise. -/
def defaultWindow : Nat := 5

namespace Chore

/-- A chore with a completion window may not be completed more than so many hours before it is
due. -/
def checkWindow (chore : Chore) (performedAt : Timestamp) : Except Fault Unit :=
  match chore.completionWindow, chore.dueDate with
  | some hours, some due =>
    let window := hours.toInt * 3600
    if -9223372036854775808 ≤ window ∧ window ≤ 9223372036854775807 then
      match due.shift? (seconds (-window)) with
      | none => .error .windowOutOfRange
      | some opensAt =>
        if performedAt.instant < opensAt.instant then .error .outsideWindow else .ok ()
    else .error .windowOutOfRange
  | _, _ => .ok ()

/-- The due date after a completion; an adaptive chore learns from its latest rows. -/
def dueAfterCompletion [ZoneTable] (chore : Chore) (history : List HistoryRow) (window : Nat)
    (performedAt : Timestamp) : Except Fault (Option Moment) :=
  if chore.kind = .adaptive then Cadence.nextDue chore.dueDate performedAt (history.take window)
  else chore.nextDue performedAt

def completionStatus (chore : Chore) (performedAt : Timestamp) : Status :=
  match chore.dueDate with
  | some due => if due.instant < performedAt.instant then .completedLate else .completed
  | none => .completed

/-- When a skip counts as happening. A skip stands for the due date itself, but an adaptive chore
would then get that date again. -/
def skipReference (chore : Chore) (performedAt : Timestamp) : Timestamp :=
  match chore.dueDate with
  | some due => if chore.kind = .adaptive then performedAt else due
  | none => performedAt

end Chore

namespace Snapshot

/-- What a completion decides. A chore without a further occurrence stays with the performer. -/
def complete [ZoneTable] (snapshot : Snapshot) (window : Nat) (performer : UserId)
    (performedAt : Timestamp) (source : Source) : Except Fault Decision × Source :=
  let chore := snapshot.chore
  let due := do
    chore.checkWindow performedAt
    chore.dueAfterCompletion snapshot.history window performedAt
  let status := chore.completionStatus performedAt
  match due with
  | .error fault => (.error fault, source)
  | .ok none => (.ok ⟨none, some performer, true, status⟩, source)
  | .ok (some next) =>
    let (assignee, source) := chore.nextAssignee snapshot.history performer source
    (assignee.map fun assignee => ⟨some next, assignee, false, status⟩, source)

/-- What a skip decides. The assignee is kept unless the skip rotates. -/
def skip [ZoneTable] (snapshot : Snapshot) (performer : UserId) (performedAt : Timestamp)
    (rotates : Bool) (source : Source) : Except Fault Decision × Source :=
  let chore := snapshot.chore
  match chore.nextDue (chore.skipReference performedAt) with
  | .error fault => (.error fault, source)
  | .ok none => (.ok ⟨none, chore.assignedTo, true, .skipped⟩, source)
  | .ok (some next) =>
    if rotates then
      let (assignee, source) := chore.nextAssignee snapshot.history performer source
      (assignee.map fun assignee => ⟨some next, assignee, false, .skipped⟩, source)
    else (.ok ⟨some next, chore.assignedTo, false, .skipped⟩, source)

/-- The row that records an event, with the due date and the assignee in force before it. -/
def record (snapshot : Snapshot) (decision : Decision) (performer : UserId)
    (performedAt : Timestamp) (note : Option String) : HistoryRow where
  choreId := snapshot.chore.id
  performedAt := some performedAt
  dueDate := snapshot.chore.dueDate
  completedBy := some performer
  assignedTo := snapshot.chore.assignedTo
  note := note
  status := decision.status

/-- Records an event and sets what it decided. A chore that becomes dormant is no longer active. -/
def apply (snapshot : Snapshot) (decision : Decision) (performer : UserId)
    (performedAt : Timestamp) (note : Option String) : Snapshot where
  chore :=
    { snapshot.chore with
      dueDate := decision.nextDueDate.map Timestamp.ofUtc
      assignedTo := decision.nextAssignee
      isActive := snapshot.chore.isActive && !decision.becomesDormant }
  history := snapshot.record decision performer performedAt note :: snapshot.history

end Snapshot

inductive Event where
  | complete (performer : UserId) (performedAt : Timestamp) (note : Option String)
  | skip (performer : UserId) (performedAt : Timestamp) (rotates : Bool) (note : Option String)
  | remove (user : UserId)
  deriving DecidableEq, Repr

inductive Report where
  | decided (decision : Decision)
  | reassigned (assignedTo : Option UserId)
  deriving DecidableEq, Repr

structure State where
  snapshot : Snapshot
  source : Source
  deriving DecidableEq, Repr

namespace State

def settle (state : State) (result : Except Fault Decision × Source) (performer : UserId)
    (performedAt : Timestamp) (note : Option String) : Except Fault Report × State :=
  match result with
  | (.error fault, source) => (.error fault, ⟨state.snapshot, source⟩)
  | (.ok decision, source) =>
    (.ok (.decided decision), ⟨state.snapshot.apply decision performer performedAt note, source⟩)

/-- Handles one event; `window` is the number of rows that an adaptive chore looks at. -/
def step [ZoneTable] (window : Nat) (state : State) (event : Event) : Except Fault Report × State :=
  match event with
  | .complete performer performedAt note =>
    state.settle (state.snapshot.complete window performer performedAt state.source) performer
      performedAt note
  | .skip performer performedAt rotates note =>
    state.settle (state.snapshot.skip performer performedAt rotates state.source) performer
      performedAt note
  | .remove user =>
    let (chore, source) := state.snapshot.chore.removeAssignee user state.source
    (.ok (.reassigned chore.assignedTo), ⟨⟨chore, state.snapshot.history⟩, source⟩)

/-- The reports of some events one after the other, each with the state after it. -/
def run [ZoneTable] (window : Nat) (state : State) :
    List Event → List (Except Fault Report × State)
  | [] => []
  | event :: rest =>
    let (report, state) := state.step window event
    (report, state) :: run window state rest

def after [ZoneTable] (window : Nat) (state : State) (events : List Event) : State :=
  events.foldl (fun state event => (state.step window event).2) state

end State

end ChoreRota
