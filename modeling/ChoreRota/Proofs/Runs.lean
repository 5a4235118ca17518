import Mathlib.Data.List.Induction
import ChoreRota.Event
import ChoreRota.Proofs.Schedule

/-!
# What events do

`step_eq_decided` and `step_eq_undecided` say what becomes of the snapshot, so that nothing further
on has to open `State.step`. `after_induction` is the one induction over runs: what holds at the
start, and is kept by every decided event and by every other one, holds after every run.
-/

namespace ChoreRota

open Chance (Source)

structure CompletionDecided [ZoneTable] (snapshot : Snapshot) (window : Nat) (performer : UserId)
    (performedAt : Timestamp) (source : Source) (decision : Decision) (after : Source) : Prop where
  inWindow : snapshot.chore.checkWindow performedAt = .ok ()
  due : snapshot.chore.dueAfterCompletion snapshot.history window performedAt =
    .ok decision.nextDueDate
  dormant : decision.becomesDormant = decision.nextDueDate.isNone
  status : decision.status = snapshot.chore.completionStatus performedAt
  performerStays : decision.nextDueDate = none →
    decision.nextAssignee = some performer ∧ after = source
  assignee : decision.nextDueDate ≠ none →
    snapshot.chore.nextAssignee snapshot.history performer source =
      (.ok decision.nextAssignee, after)

structure SkipDecided [ZoneTable] (snapshot : Snapshot) (performer : UserId)
    (performedAt : Timestamp)
    (rotates : Bool) (source : Source) (decision : Decision) (after : Source) : Prop where
  due : snapshot.chore.nextDue (snapshot.chore.skipReference performedAt) =
    .ok decision.nextDueDate
  dormant : decision.becomesDormant = decision.nextDueDate.isNone
  status : decision.status = .skipped
  assigneeStays : decision.nextDueDate = none ∨ rotates = false →
    decision.nextAssignee = snapshot.chore.assignedTo ∧ after = source
  assignee : decision.nextDueDate ≠ none → rotates = true →
    snapshot.chore.nextAssignee snapshot.history performer source =
      (.ok decision.nextAssignee, after)

section Events

variable {snapshot : Snapshot} {window : Nat} {performer : UserId} {performedAt : Timestamp}
  {rotates : Bool} {source after : Source} {decision : Decision}

theorem complete_eq_ok [ZoneTable]
    (hcomplete : snapshot.complete window performer performedAt source = (.ok decision, after)) :
    CompletionDecided snapshot window performer performedAt source decision after := by
  simp only [Snapshot.complete] at hcomplete
  split at hcomplete
  · simp at hcomplete
  · rename_i hdue
    obtain ⟨⟨⟩, hwindow, hdue⟩ := bind_eq_ok_iff.1 hdue
    obtain ⟨hdecision, rfl⟩ := Prod.mk.inj hcomplete
    obtain rfl := Except.ok.inj hdecision
    exact ⟨hwindow, hdue, rfl, rfl, fun _ => ⟨rfl, rfl⟩, fun hsome => absurd rfl hsome⟩
  · rename_i next hdue
    obtain ⟨⟨⟩, hwindow, hdue⟩ := bind_eq_ok_iff.1 hdue
    obtain ⟨hdecision, rfl⟩ := Prod.mk.inj hcomplete
    obtain ⟨assignee, hassignee, rfl⟩ := map_eq_ok_iff.1 hdecision
    exact ⟨hwindow, hdue, rfl, rfl, fun hnone => absurd hnone (Option.some_ne_none next),
      fun _ => Prod.ext hassignee rfl⟩

theorem skip_eq_ok [ZoneTable]
    (hskip : snapshot.skip performer performedAt rotates source = (.ok decision, after)) :
    SkipDecided snapshot performer performedAt rotates source decision after := by
  simp only [Snapshot.skip] at hskip
  split at hskip
  · simp at hskip
  · rename_i hdue
    obtain ⟨hdecision, rfl⟩ := Prod.mk.inj hskip
    obtain rfl := Except.ok.inj hdecision
    exact ⟨hdue, rfl, rfl, fun _ => ⟨rfl, rfl⟩, fun hsome => absurd rfl hsome⟩
  · rename_i next hdue
    cases rotates with
    | true =>
      obtain ⟨hdecision, rfl⟩ := Prod.mk.inj hskip
      obtain ⟨assignee, hassignee, rfl⟩ := map_eq_ok_iff.1 hdecision
      exact ⟨hdue, rfl, rfl, fun hkept => by simp at hkept, fun _ _ => Prod.ext hassignee rfl⟩
    | false =>
      obtain ⟨hdecision, rfl⟩ := Prod.mk.inj hskip
      obtain rfl := Except.ok.inj hdecision
      exact ⟨hdue, rfl, rfl, fun _ => ⟨rfl, rfl⟩, fun _ hrotates => by simp at hrotates⟩

end Events

/-- The chore without what events change: when it is due, whose it is and whether it is active. -/
def Chore.task (chore : Chore) : Chore :=
  { chore with dueDate := none, assignedTo := none, assignees := [], isActive := true }

theorem Chore.eq_of_task {α : Type} {left right : Chore} (field : Chore → α)
    (hfield : ∀ chore : Chore, field chore.task = field chore) (htask : left.task = right.task) :
    field left = field right := by
  rw [← hfield left, htask, hfield right]

def decisionOf : Except Fault Report → Option Decision
  | .ok (.decided decision) => some decision
  | _ => none

theorem decisionOf_eq_some_iff {report : Except Fault Report} {decision : Decision} :
    decisionOf report = some decision ↔ report = .ok (.decided decision) := by
  rcases report with fault | decided | assignedTo <;> simp [decisionOf]

namespace Event

/-- A completion asks for another assignee, and a skip that rotates does. -/
def rotates : Event → Bool
  | .complete .. => true
  | .skip _ _ rotates _ => rotates
  | .remove _ => false

def performer? : Event → Option UserId
  | .complete performer .. => some performer
  | .skip performer .. => some performer
  | .remove _ => none

end Event

namespace State

variable {window : Nat} {state next : State} {event : Event} {decision : Decision}

theorem settle_eq_decided {result : Except Fault Decision × Source} {performer : UserId}
    {performedAt : Timestamp} {note : Option String}
    (hsettle : state.settle result performer performedAt note = (.ok (.decided decision), next)) :
    result = (.ok decision, next.source) ∧
      next.snapshot = state.snapshot.apply decision performer performedAt note := by
  obtain ⟨fault | decided, source⟩ := result
  · simp [settle] at hsettle
  · obtain ⟨hreport, rfl⟩ := Prod.mk.inj hsettle
    obtain rfl : decided = decision := by simpa using hreport
    exact ⟨rfl, rfl⟩

theorem step_eq_decided [ZoneTable]
    (hstep : state.step window event = (.ok (.decided decision), next)) :
    ∃ performer performedAt note,
      next.snapshot = state.snapshot.apply decision performer performedAt note ∧
        (event = .complete performer performedAt note ∧
            CompletionDecided state.snapshot window performer performedAt state.source decision
              next.source ∨
          ∃ rotates, event = .skip performer performedAt rotates note ∧
            SkipDecided state.snapshot performer performedAt rotates state.source decision
              next.source) := by
  cases event with
  | complete performer performedAt note =>
    obtain ⟨hcomplete, hsnapshot⟩ := settle_eq_decided hstep
    exact ⟨performer, performedAt, note, hsnapshot, .inl ⟨rfl, complete_eq_ok hcomplete⟩⟩
  | skip performer performedAt rotates note =>
    obtain ⟨hskip, hsnapshot⟩ := settle_eq_decided hstep
    exact ⟨performer, performedAt, note, hsnapshot, .inr ⟨rotates, rfl, skip_eq_ok hskip⟩⟩
  | remove user => simp [step] at hstep

theorem step_eq_undecided [ZoneTable] {report : Except Fault Report}
    (hstep : state.step window event = (report, next)) (hnone : decisionOf report = none) :
    ∃ assignees assignedTo, next.snapshot =
      { state.snapshot with chore := { state.snapshot.chore with assignees, assignedTo } } := by
  have hfailed : ∀ {result : Except Fault Decision × Source} {performer performedAt note},
      state.settle result performer performedAt note = (report, next) →
        next.snapshot = state.snapshot := by
    rintro ⟨fault | decided, source⟩ performer performedAt note hsettle
    · obtain ⟨-, rfl⟩ := Prod.mk.inj hsettle
      rfl
    · obtain ⟨rfl, -⟩ := Prod.mk.inj hsettle
      simp [decisionOf] at hnone
  cases event with
  | complete performer performedAt note => exact ⟨_, _, hfailed hstep⟩
  | skip performer performedAt rotates note => exact ⟨_, _, hfailed hstep⟩
  | remove user =>
    obtain ⟨-, rfl⟩ := Prod.mk.inj hstep
    exact ⟨_, _, rfl⟩

theorem task_step [ZoneTable] (window : Nat) (state : State) (event : Event) :
    (state.step window event).2.snapshot.chore.task = state.snapshot.chore.task := by
  rcases hstep : state.step window event with ⟨report, next⟩
  cases hreport : decisionOf report with
  | none =>
    obtain ⟨assignees, assignedTo, hsnapshot⟩ := step_eq_undecided hstep hreport
    rw [hsnapshot]
    rfl
  | some decision =>
    rw [decisionOf_eq_some_iff] at hreport
    subst hreport
    obtain ⟨performer, performedAt, note, hsnapshot, -⟩ := step_eq_decided hstep
    rw [hsnapshot]
    rfl

theorem task_of_step [ZoneTable] {report : Except Fault Report}
    (hstep : state.step window event = (report, next)) :
    next.snapshot.chore.task = state.snapshot.chore.task := by
  have htask := task_step window state event
  rwa [hstep] at htask

theorem becomesDormant_of_step [ZoneTable]
    (hstep : state.step window event = (.ok (.decided decision), next)) :
    decision.becomesDormant = decision.nextDueDate.isNone := by
  obtain ⟨performer, performedAt, note, -, ⟨-, hdecided⟩ | ⟨rotates, -, hdecided⟩⟩ :=
    step_eq_decided hstep
  · exact hdecided.dormant
  · exact hdecided.dormant

theorem isActive_of_step [ZoneTable]
    (hstep : state.step window event = (.ok (.decided decision), next)) :
    next.snapshot.chore.isActive =
      (state.snapshot.chore.isActive && !decision.becomesDormant) := by
  obtain ⟨performer, performedAt, note, hsnapshot, -⟩ := step_eq_decided hstep
  rw [hsnapshot]
  rfl

theorem dueDate_of_step [ZoneTable]
    (hstep : state.step window event = (.ok (.decided decision), next)) :
    next.snapshot.chore.dueDate = decision.nextDueDate.map Timestamp.ofUtc := by
  obtain ⟨performer, performedAt, note, hsnapshot, -⟩ := step_eq_decided hstep
  rw [hsnapshot]
  rfl

theorem snapshot_of_step [ZoneTable]
    (hstep : state.step window event = (.ok (.decided decision), next)) :
    ∃ performer performedAt note, event.performer? = some performer ∧
      next.snapshot = state.snapshot.apply decision performer performedAt note := by
  obtain ⟨performer, performedAt, note, hsnapshot, ⟨rfl, -⟩ | ⟨rotates, rfl, -⟩⟩ :=
    step_eq_decided hstep
  · exact ⟨performer, performedAt, note, rfl, hsnapshot⟩
  · exact ⟨performer, performedAt, note, rfl, hsnapshot⟩

theorem assignees_of_step [ZoneTable]
    (hstep : state.step window event = (.ok (.decided decision), next)) :
    next.snapshot.chore.assignees = state.snapshot.chore.assignees := by
  obtain ⟨performer, performedAt, note, hsnapshot, -⟩ := step_eq_decided hstep
  rw [hsnapshot]
  rfl

theorem assignedTo_of_step [ZoneTable]
    (hstep : state.step window event = (.ok (.decided decision), next)) :
    next.snapshot.chore.assignedTo = decision.nextAssignee := by
  obtain ⟨performer, performedAt, note, hsnapshot, -⟩ := step_eq_decided hstep
  rw [hsnapshot]
  rfl

theorem nextAssignee_of_step [ZoneTable]
    (hstep : state.step window event = (.ok (.decided decision), next))
    (hrotates : event.rotates = true) (hdormant : decision.becomesDormant = false) :
    ∃ performer, event.performer? = some performer ∧
      state.snapshot.chore.nextAssignee state.snapshot.history performer state.source =
        (.ok decision.nextAssignee, next.source) := by
  have hdue : decision.nextDueDate ≠ none := by
    intro hnone
    rw [becomesDormant_of_step hstep, hnone] at hdormant
    cases hdormant
  obtain ⟨performer, performedAt, note, -, ⟨rfl, hdecided⟩ | ⟨rotates, rfl, hdecided⟩⟩ :=
    step_eq_decided hstep
  · exact ⟨performer, rfl, hdecided.assignee hdue⟩
  · exact ⟨performer, rfl, hdecided.assignee hdue hrotates⟩

theorem nextAssignee_of_step_of_not_rotates [ZoneTable]
    (hstep : state.step window event = (.ok (.decided decision), next))
    (hrotates : event.rotates = false) :
    decision.nextAssignee = state.snapshot.chore.assignedTo := by
  obtain ⟨performer, performedAt, note, -, ⟨rfl, -⟩ | ⟨rotates, rfl, hdecided⟩⟩ :=
    step_eq_decided hstep
  · cases hrotates
  · exact (hdecided.assigneeStays (.inr hrotates)).1

/-- Without adaptation the schedule is asked about a reference, which comes after the due date
exactly when the decision records a late completion: a skip refers to the due date itself. -/
theorem nextDue_at_reference [ZoneTable] (hkind : state.snapshot.chore.kind ≠ .adaptive)
    (hstep : state.step window event = (.ok (.decided decision), next)) :
    ∃ reference, state.snapshot.chore.nextDue reference = .ok decision.nextDueDate ∧
      (decision.status = .completedLate ↔
        ∃ dueDate ∈ state.snapshot.chore.dueDate, dueDate.instant < reference.instant) := by
  obtain ⟨performer, performedAt, note, -, ⟨-, hdecided⟩ | ⟨rotates, -, hdecided⟩⟩ :=
    step_eq_decided hstep
  · have hdue := hdecided.due
    rw [Chore.dueAfterCompletion, if_neg hkind] at hdue
    refine ⟨performedAt, hdue, ?_⟩
    rw [hdecided.status, Chore.completionStatus]
    cases hdueDate : state.snapshot.chore.dueDate with
    | none => simp
    | some dueDate =>
      by_cases hlate : dueDate.instant < performedAt.instant <;> simp [hlate]
  · refine ⟨_, hdecided.due, ?_⟩
    rw [hdecided.status, Chore.skipReference]
    cases hdueDate : state.snapshot.chore.dueDate with
    | none => simp
    | some dueDate => simp [hkind]

theorem nextDue_of_step [ZoneTable] (hkind : state.snapshot.chore.kind ≠ .adaptive)
    (hstep : state.step window event = (.ok (.decided decision), next)) :
    ∃ reference, state.snapshot.chore.nextDue reference = .ok decision.nextDueDate := by
  obtain ⟨reference, hdue, -⟩ := nextDue_at_reference hkind hstep
  exact ⟨reference, hdue⟩

theorem isDue_of_step [ZoneTable] {due : Moment}
    (hstep : state.step window event = (.ok (.decided decision), next))
    (hdue : decision.nextDueDate = some due) : next.snapshot.chore.IsDue due := by
  refine ⟨Timestamp.ofUtc due, ?_, Timestamp.toUtc?_ofUtc due⟩
  rw [dueDate_of_step hstep, hdue]
  rfl

theorem nextDue_of_step_of_isDue [ZoneTable] {due : Moment}
    (hkind : state.snapshot.chore.kind ≠ .adaptive) (hdue : state.snapshot.chore.IsDue due)
    (hstep : state.step window event = (.ok (.decided decision), next)) :
    ∃ reference completed, reference.toUtc? = some completed ∧
      state.snapshot.chore.nextDue reference = .ok decision.nextDueDate ∧
      (decision.status = .completedLate ↔ due.nanos < completed.nanos) := by
  obtain ⟨dueDate, hdueDate, hdueUtc⟩ := hdue
  obtain ⟨reference, hnext, hstatus⟩ := nextDue_at_reference hkind hstep
  obtain ⟨completed, _, hcompleted, -⟩ := Chore.exists_toUtc?_of_nextDue hdueDate hnext
  refine ⟨reference, completed, hcompleted, hnext, ?_⟩
  rw [hstatus, hdueDate, Moment.ofNanos?_eq_some_iff.1 hdueUtc,
    Moment.ofNanos?_eq_some_iff.1 hcompleted]
  simp

def decisions [ZoneTable] (window : Nat) (state : State) (events : List Event) : List Decision :=
  (state.run window events).filterMap fun entry => decisionOf entry.1

@[simp]
theorem after_nil [ZoneTable] : state.after window [] = state := rfl

theorem after_concat [ZoneTable] (events : List Event) :
    state.after window (events ++ [event]) = ((state.after window events).step window event).2 := by
  simp [after]

theorem decisions_cons [ZoneTable] (state : State) (event : Event) (rest : List Event) :
    state.decisions window (event :: rest) =
      (decisionOf (state.step window event).1).toList ++
        (state.step window event).2.decisions window rest := by
  unfold decisions
  cases hreport : decisionOf (state.step window event).1 <;> simp [run, hreport]

theorem decisions_concat [ZoneTable] (state : State) (events : List Event) :
    state.decisions window (events ++ [event]) =
      state.decisions window events ++
        (decisionOf ((state.after window events).step window event).1).toList := by
  unfold decisions
  induction events generalizing state with
  | nil => cases hreport : decisionOf (state.step window event).1 <;> simp [run, hreport]
  | cons first rest ih =>
    have hrest := ih (state.step window first).2
    cases hreport : decisionOf (state.step window first).1 <;>
      simp only [run, List.cons_append, List.filterMap_cons, hreport, hrest, after,
        List.foldl_cons]

theorem task_after [ZoneTable] (window : Nat) (state : State) (events : List Event) :
    (state.after window events).snapshot.chore.task = state.snapshot.chore.task := by
  induction events generalizing state with
  | nil => rfl
  | cons event rest ih => exact (ih _).trans (task_step window state event)

/-- What holds at the start, and is kept by every event, holds after every run. An event meets the
task that the run began with. -/
theorem after_induction [ZoneTable] {motive : List Decision → State → Prop}
    (hstart : motive [] state)
    (hdecided : ∀ past current event decision next, motive past current →
      current.snapshot.chore.task = state.snapshot.chore.task →
        current.step window event = (.ok (.decided decision), next) →
          motive (past ++ [decision]) next)
    (hundecided : ∀ past current assignees assignedTo next, motive past current →
      next.snapshot = { current.snapshot with
        chore := { current.snapshot.chore with assignees, assignedTo } } → motive past next)
    (events : List Event) : motive (state.decisions window events) (state.after window events) := by
  induction events using List.reverseRecOn with
  | nil => exact hstart
  | append_singleton events event ih =>
    rw [decisions_concat, after_concat]
    have htask := task_after window state events
    rcases hstep : (state.after window events).step window event with ⟨report, next⟩
    cases hreport : decisionOf report with
    | none =>
      obtain ⟨assignees, assignedTo, hsnapshot⟩ := step_eq_undecided hstep hreport
      simpa [hreport] using hundecided _ _ _ _ _ ih hsnapshot
    | some decision =>
      rw [decisionOf_eq_some_iff] at hreport
      subst hreport
      simpa [decisionOf] using hdecided _ _ _ _ _ ih htask hstep

theorem exists_isDue_after [ZoneTable] {first : Moment}
    (hkind : state.snapshot.chore.kind ≠ .adaptive)
    (hrepeats : state.snapshot.chore.kind.isOneShot = false)
    (hfirst : state.snapshot.chore.IsDue first) (events : List Event) :
    ∃ due, (state.after window events).snapshot.chore.IsDue due := by
  refine after_induction (motive := fun _ current => ∃ due, current.snapshot.chore.IsDue due)
    ⟨first, hfirst⟩ ?_ ?_ events
  · intro past current event decision next _ htask hstep
    have hsame := Chore.eq_of_task Chore.kind (fun _ => rfl) htask
    rw [← hsame] at hkind hrepeats
    obtain ⟨reference, hnext⟩ := nextDue_of_step hkind hstep
    have hsome := Chore.isNone_nextDue hkind hnext
    rw [hrepeats, Option.isNone_eq_false_iff, Option.isSome_iff_exists] at hsome
    obtain ⟨due, hdue⟩ := hsome
    exact ⟨due, isDue_of_step hstep hdue⟩
  · intro past current assignees assignedTo next hpast hsnapshot
    rw [hsnapshot]
    exact hpast

end State

end ChoreRota
