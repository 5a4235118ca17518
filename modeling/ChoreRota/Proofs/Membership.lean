import ChoreRota.Calendar.Zone.Table
import ChoreRota.Proofs.AllowedRuns
import ChoreRota.Proofs.Assignment
import ChoreRota.Proofs.Failures
import ChoreRota.Storage.SnapshotText

/-!
# Members only

The list of assignees only loses the users that are removed, and the chore is assigned to somebody
on the list or to nobody. Two kinds of events are left out: a completion after which the chore never
recurs assigns it to its performer, and the removal of the last assignee to its creator.
-/

namespace ChoreRota

theorem firstRepeated_eq_none {seen users : List UserId} (hnone : firstRepeated seen users = none) :
    users.Nodup ∧ ∀ user ∈ users, user ∉ seen := by
  induction users generalizing seen with
  | nil => exact ⟨List.nodup_nil, by simp⟩
  | cons first rest ih =>
    rw [firstRepeated] at hnone
    split at hnone
    · cases hnone
    · rename_i hnew
      obtain ⟨hnodup, hrest⟩ := ih hnone
      refine ⟨List.nodup_cons.2 ⟨?_, hnodup⟩, List.forall_mem_cons.2 ⟨by simpa using hnew, ?_⟩⟩
      · exact fun hfirst => hrest first hfirst List.mem_cons_self
      · exact fun user huser hseen => hrest user huser (List.mem_cons_of_mem _ hseen)

theorem Snapshot.nodup_assignees_of_load {text : String} {snapshot : Snapshot}
    (hload : Snapshot.load text = .ok snapshot) : snapshot.chore.assignees.Nodup := by
  unfold Snapshot.load at hload
  split at hload
  · cases hload
  · split at hload
    · cases hload
    · split at hload
      · cases hload
      · rename_i hnone
        obtain rfl := Except.ok.inj hload
        exact (firstRepeated_eq_none hnone).1

/-- The assignees are the first ones without those removed, nobody is listed twice, and the chore is
assigned to one of them or to nobody. -/
structure Chore.IsStaffed (chore : Chore) (first removed : List UserId) : Prop where
  nodup : chore.assignees.Nodup
  assignees_eq : chore.assignees = first.filter (· ∉ removed)
  listed : ∀ user, chore.assignedTo = some user → user ∈ chore.assignees

def removedUsers (events : List Event) : List UserId :=
  events.filterMap fun event =>
    match event with
    | .remove user => some user
    | .complete .. | .skip .. => none

theorem removedUsers_concat_of_performer {event : Event} {performer : UserId}
    (hperformer : event.performer? = some performer) (events : List Event) :
    removedUsers (events ++ [event]) = removedUsers events := by
  cases event with
  | complete | skip => simp [removedUsers]
  | remove user => cases hperformer

namespace Chore.IsStaffed

variable {chore after : Chore} {first removed : List UserId}

theorem of_assignees_eq (hstaffed : chore.IsStaffed first removed)
    (hassignees : after.assignees = chore.assignees)
    (hlisted : ∀ user, after.assignedTo = some user →
      user ∈ chore.assignees ∨ chore.assignedTo = some user) : after.IsStaffed first removed := by
  refine ⟨?_, ?_, ?_⟩
  · rw [hassignees]
    exact hstaffed.nodup
  · rw [hassignees]
    exact hstaffed.assignees_eq
  · intro user huser
    rw [hassignees]
    exact (hlisted user huser).elim (fun hmem => hmem) (hstaffed.listed user)

theorem removeAssignee (hstaffed : chore.IsStaffed first removed) {user : UserId}
    (hleft : chore.assignees.filter (· != user) ≠ []) (source : Chance.Source) :
    (chore.removeAssignee user source).1.IsStaffed first (removed ++ [user]) := by
  refine ⟨hstaffed.nodup.filter _, ?_, fun _ => mem_of_removeAssignee hleft⟩
  rw [assignees_removeAssignee, hstaffed.assignees_eq, List.filter_filter]
  refine List.filter_congr fun other _ => ?_
  by_cases hsame : other = user <;> simp [hsame]

end Chore.IsStaffed

namespace State

variable {window : Nat} {state next : State} {event : Event} {events : List Event}
  {decision : Decision}

/-- The event leaves the chore with those listed: no completion becomes dormant, and no removal
leaves nobody. -/
def KeepsStaff [ZoneTable] (window : Nat) (state : State) (event : Event) : Prop :=
  match event with
  | .complete .. =>
    ∀ decision ∈ decisionOf (state.step window event).1, decision.becomesDormant = false
  | .skip .. => True
  | .remove user => state.snapshot.chore.assignees.filter (· != user) ≠ []

instance [ZoneTable] (window : Nat) (state : State) (event : Event) :
    Decidable (state.KeepsStaff window event) :=
  match event with
  | .complete .. => inferInstanceAs (Decidable (∀ decision ∈ decisionOf _, _))
  | .skip .. => .isTrue trivial
  | .remove _ => inferInstanceAs (Decidable (_ ≠ _))

theorem mem_of_step [ZoneTable] (hstep : state.step window event = (.ok (.decided decision), next))
    (hnodup : state.snapshot.chore.assignees.Nodup) (hkeeps : state.KeepsStaff window event)
    {user : UserId} (huser : next.snapshot.chore.assignedTo = some user) :
    user ∈ state.snapshot.chore.assignees ∨ state.snapshot.chore.assignedTo = some user := by
  rw [assignedTo_of_step hstep] at huser
  obtain ⟨performer, performedAt, note, -, ⟨rfl, hdecided⟩ | ⟨rotates, rfl, hdecided⟩⟩ :=
    step_eq_decided hstep
  · have hdue : decision.nextDueDate ≠ none := by
      intro hnone
      have hdormant := hdecided.dormant
      rw [hnone, hkeeps decision (by rw [hstep]; rfl)] at hdormant
      cases hdormant
    exact Chore.mem_of_nextAssignee hnodup (hdecided.assignee hdue) huser
  · -- A skip after which the chore never recurs keeps the assignee, so it needs no exception.
    by_cases hstays : decision.nextDueDate = none ∨ rotates = false
    · rw [(hdecided.assigneeStays hstays).1] at huser
      exact .inr huser
    · obtain ⟨hdue, hrotates⟩ := not_or.1 hstays
      have hnext := hdecided.assignee hdue (by simpa using hrotates)
      exact Chore.mem_of_nextAssignee hnodup hnext huser

theorem isStaffed_step [ZoneTable] {first : List UserId} {past : List Event}
    (hstaffed : state.snapshot.chore.IsStaffed first (removedUsers past))
    (hkeeps : state.KeepsStaff window event) :
    (state.step window event).2.snapshot.chore.IsStaffed first
      (removedUsers (past ++ [event])) := by
  cases hperformer : event.performer? with
  | some performer =>
    rw [removedUsers_concat_of_performer hperformer]
    obtain ⟨fault, hstep⟩ | ⟨decision, next, hstep⟩ :=
      step_eq_error_or_decided hperformer window state
    · rw [hstep]
      exact hstaffed
    · rw [hstep]
      exact hstaffed.of_assignees_eq (assignees_of_step hstep)
        fun user huser => mem_of_step hstep hstaffed.nodup hkeeps huser
  | none =>
    cases event with
    | complete | skip => cases hperformer
    | remove user =>
      have hremoved : removedUsers (past ++ [.remove user]) = removedUsers past ++ [user] := by
        simp [removedUsers]
      rw [hremoved]
      exact hstaffed.removeAssignee hkeeps state.source

/-- **Members only.** After every step of a run in which no completion becomes dormant and no
removal leaves nobody, the assignees of a loaded snapshot are those of the beginning without the
users removed, in the same order and nobody twice, and the chore is assigned to one of them or to
nobody. So it is never again assigned to a user who has been removed. -/
theorem isStaffed_after [ZoneTable] {text : String} {snapshot : Snapshot} {source : Chance.Source}
    (hload : Snapshot.load text = .ok snapshot)
    (hlisted : ∀ user, snapshot.chore.assignedTo = some user → user ∈ snapshot.chore.assignees)
    (hrun : State.Along window (KeepsStaff window) ⟨snapshot, source⟩ events) :
    ∀ past, past <+: events →
      (State.after window ⟨snapshot, source⟩ past).snapshot.chore.IsStaffed
          snapshot.chore.assignees (removedUsers past) ∧
        ∀ user ∈ removedUsers past,
          (State.after window ⟨snapshot, source⟩ past).snapshot.chore.assignedTo ≠ some user := by
  intro past hpast
  have hstart : snapshot.chore.IsStaffed snapshot.chore.assignees (removedUsers []) :=
    ⟨Snapshot.nodup_assignees_of_load hload, by simp [removedUsers], hlisted⟩
  have hstaffed : (State.after window ⟨snapshot, source⟩ past).snapshot.chore.IsStaffed
      snapshot.chore.assignees (removedUsers past) :=
    (hrun.of_prefix hpast).induction (motive := fun past current =>
      current.snapshot.chore.IsStaffed snapshot.chore.assignees (removedUsers past)) hstart
      fun _ _ _ hcurrent hkeeps => isStaffed_step hcurrent hkeeps
  refine ⟨hstaffed, ?_⟩
  intro user hremoved huser
  have hmem := hstaffed.listed user huser
  rw [hstaffed.assignees_eq, List.mem_filter, decide_eq_true_iff] at hmem
  exact hmem.2 hremoved

end State

def gardenText : String :=
  "\x7b\"schema_version\":1,\"chore\":\x7b\"id\":7,\"frequency_type\":\"daily\"," ++
    "\"assign_strategy\":\"least_completed\",\"assigned_to\":1,\"assignees\":[3,1,2]\x7d\x7d"

def garden : Snapshot where
  chore :=
    { id := 7, name := "", kind := .daily, frequency := 0, details := FrequencyDetails.unset
      dueDate := none, isRolling := false, strategy := .leastCompleted, assignedTo := some 1
      assignees := [3, 1, 2], createdBy := 0, isActive := true, completionWindow := none }
  history := []

/-- Somebody leaves and then waters it all the same; the last event is off the calendar. -/
def gardenEvents : List Event :=
  [.remove 2, .complete 2 (timeOf "2025-06-01T05:30:00Z") none,
    .skip 1 (timeOf "2025-06-02T05:30:00Z") true none,
    .complete 3 (timeOf "9999-12-31T23:30:00-01:00") none]

theorem garden_keeps_to_members :
    Snapshot.load gardenText = .ok garden ∧
      State.Along 5 (State.KeepsStaff 5) ⟨garden, Chance.Source.start (.script [])⟩ gardenEvents ∧
      (State.after 5 ⟨garden, Chance.Source.start (.script [])⟩
        gardenEvents).snapshot.chore.assignees = [3, 1] ∧
      (State.after 5 ⟨garden, Chance.Source.start (.script [])⟩
        gardenEvents).snapshot.chore.IsStaffed [3, 1, 2] [2] ∧
      (State.after 5 ⟨garden, Chance.Source.start (.script [])⟩
        gardenEvents).snapshot.chore.assignedTo ≠ some 2 := by
  have hload : Snapshot.load gardenText = .ok garden := by
    have hloaded : (Snapshot.load gardenText).toOption = some garden := by decide +kernel
    cases hresult : Snapshot.load gardenText with
    | error fault =>
      rw [hresult] at hloaded
      cases hloaded
    | ok snapshot =>
      rw [hresult] at hloaded
      exact congrArg Except.ok (Option.some.inj hloaded)
  have hrun : State.Along 5 (State.KeepsStaff 5) ⟨garden, Chance.Source.start (.script [])⟩
      gardenEvents := by decide +kernel
  have hlisted : ∀ user, garden.chore.assignedTo = some user →
      user ∈ garden.chore.assignees := by
    intro user huser
    obtain rfl : 1 = user := Option.some.inj huser
    decide
  obtain ⟨hstaffed, hnever⟩ :=
    State.isStaffed_after hload hlisted hrun gardenEvents (List.prefix_refl _)
  exact ⟨hload, hrun, by decide +kernel, hstaffed, hnever 2 (by decide)⟩

end ChoreRota
