import Mathlib.Data.List.Forall2
import ChoreRota.Calendar.Zone.Table
import ChoreRota.Proofs.AllowedRuns

/-!
# The same instants on other clocks

Two snapshots whose times are the same instants on different clocks decide the same about every
event, and go on being such snapshots. The one place that reckons on the clock a time was given by
is the completion window, so that its opening has to be a date on both clocks.
-/

namespace ChoreRota

open Chance (Source)

def SameInstant (left right : Option Timestamp) : Prop :=
  left.map Timestamp.instant = right.map Timestamp.instant

/-- A configured time of day is the same text, or another timestamp of the same instant. -/
def SameTime (left right : Option String) : Prop :=
  left = right ∨ ∃ leftText rightText leftTime rightTime,
    left = some leftText ∧ right = some rightText ∧
      Rfc3339.read (Text.trim leftText) = .ok leftTime ∧
      Rfc3339.read (Text.trim rightText) = .ok rightTime ∧ leftTime.instant = rightTime.instant

/-- A chore that differs from another one at most in the clocks that its times are given by. -/
structure Chore.SameInstants (left right : Chore) : Prop where
  dueDate : SameInstant left.dueDate right.dueDate
  time : SameTime left.details.time right.details.time
  others : right =
    { left with
      dueDate := right.dueDate
      details := { left.details with time := right.details.time } }

structure HistoryRow.SameInstants (left right : HistoryRow) : Prop where
  performedAt : SameInstant left.performedAt right.performedAt
  dueDate : SameInstant left.dueDate right.dueDate
  others : right = { left with performedAt := right.performedAt, dueDate := right.dueDate }

structure Snapshot.SameInstants (left right : Snapshot) : Prop where
  chore : left.chore.SameInstants right.chore
  history : List.Forall₂ HistoryRow.SameInstants left.history right.history

section Clocks

variable {first second : Timestamp} {left right : Option Timestamp}

theorem toUtc?_congr (hinstant : first.instant = second.instant) :
    first.toUtc? = second.toUtc? := by
  rw [Timestamp.toUtc?, Timestamp.toUtc?, hinstant]

theorem SameInstant.utcDue (hsame : SameInstant left right) :
    Chore.utcDue left = Chore.utcDue right := by
  unfold SameInstant at hsame
  cases left <;> cases right <;> simp_all [Chore.utcDue, Timestamp.toUtc?]

theorem SameInstant.repeatGap (hsame : SameInstant left right) (completedAt : Moment) :
    Cadence.repeatGap left completedAt = Cadence.repeatGap right completedAt := by
  unfold SameInstant at hsame
  cases left <;> cases right <;> simp_all [Cadence.repeatGap, Timestamp.toUtc?]

def IsInner (instant : Int) : Prop :=
  ∃ moment, Moment.ofNanos? instant = some moment ∧ -9998 ≤ moment.year ∧ moment.year ≤ 9998

theorem IsInner.bounds {instant : Int} (hinner : IsInner instant) :
    days (firstDay + 365) ≤ instant ∧ instant < days (lastDay - 364) := by
  obtain ⟨moment, hmoment, hfirst, hlast⟩ := hinner
  rw [Moment.ofNanos?_eq_some_iff] at hmoment
  have hyear : moment.year = yearOfDay moment.date.dayNumber := monthOfDay_year _
  have hstart := yearStart_yearOfDay_le moment.date.dayNumber
  have hend := lt_yearStart_succ_yearOfDay moment.date.dayNumber
  have htime := moment.time.nanos_lt
  rw [← hyear] at hstart hend
  rw [firstDay_eq, lastDay_eq]
  unfold yearStart at *
  unfold Moment.nanos at hmoment
  unfold days
  omega

theorem IsInner.ne_none {instant offset : Int} (hinner : IsInner instant)
    (hoffset : IsClockOffset offset) : Moment.ofNanos? (instant + seconds offset) ≠ none := by
  obtain ⟨hfirst, hlast⟩ := hinner.bounds
  obtain ⟨hbehind, hahead⟩ := hoffset
  rw [ne_eq, Moment.ofNanos?_eq_none_iff]
  unfold days seconds at *
  omega

theorem isEmpty_of_read {text : String} {timestamp : Timestamp}
    (hread : Rfc3339.read text = .ok timestamp) : text.isEmpty = false := by
  rw [← Bool.not_eq_true, String.isEmpty_iff]
  rintro rfl
  cases hread

theorem SameTime.configuredTime {details : FrequencyDetails} {time : Option String}
    (hsame : SameTime details.time time) :
    FrequencyDetails.configuredTime { details with time } = details.configuredTime := by
  obtain rfl | ⟨leftText, rightText, leftTime, rightTime, hleft, rfl, hleftRead, hrightRead,
    hinstant⟩ := hsame
  · rfl
  · simp [FrequencyDetails.configuredTime, hleft, TimeOfDay.read, hleftRead, hrightRead,
      isEmpty_of_read hleftRead, isEmpty_of_read hrightRead, toUtc?_congr hinstant]

end Clocks

theorem map_congr_of_sameInstants {α : Type} {left right : List HistoryRow}
    {field : HistoryRow → α} (hsame : List.Forall₂ HistoryRow.SameInstants left right)
    (hfield : ∀ row other, row.SameInstants other → field row = field other) :
    left.map field = right.map field := by
  induction hsame with
  | nil => rfl
  | cons hrow _ ih => rw [List.map_cons, List.map_cons, hfield _ _ hrow, ih]

theorem Cadence.nextDue_congr {priorDue otherDue : Option Timestamp} {first second : Timestamp}
    {left right : List HistoryRow} (hdue : SameInstant priorDue otherDue)
    (hinstant : first.instant = second.instant)
    (hhistory : List.Forall₂ HistoryRow.SameInstants left right) :
    nextDue priorDue first left = nextDue otherDue second right := by
  have hgaps : ∀ completedAt, gaps completedAt left = gaps completedAt right := by
    intro completedAt
    rw [gaps, gaps, map_congr_of_sameInstants hhistory fun _ _ hrow => hrow.performedAt]
  simp only [nextDue, toUtc?_congr hinstant, nextAfter, hgaps, hdue.repeatGap]

namespace Chore

variable {left right : Chore} {first second : Timestamp}

theorem SameInstants.nextDueAfter [ZoneTable] (hsame : left.SameInstants right)
    (priorDue : Option Moment) (completedAt : Moment) :
    left.nextDueAfter priorDue completedAt = right.nextDueAfter priorDue completedAt := by
  obtain ⟨-, htime, hothers⟩ := hsame
  generalize right.dueDate = dueDate at hothers
  generalize right.details.time = time at hothers htime
  subst hothers
  have hbase :
      baseDate { left with dueDate, details := { left.details with time } } priorDue completedAt =
        left.baseDate priorDue completedAt := by
    simp only [baseDate, htime.configuredTime]
    rfl
  simp only [Chore.nextDueAfter, hbase]
  rfl

theorem SameInstants.nextDue [ZoneTable] (hsame : left.SameInstants right)
    (hinstant : first.instant = second.instant) : left.nextDue first = right.nextDue second := by
  simp only [Chore.nextDue, toUtc?_congr hinstant, hsame.dueDate.utcDue, hsame.nextDueAfter]

theorem SameInstants.kind (hsame : left.SameInstants right) : left.kind = right.kind := by
  rw [hsame.others]

theorem SameInstants.assignedTo (hsame : left.SameInstants right) :
    left.assignedTo = right.assignedTo := by
  rw [hsame.others]

theorem SameInstants.dueAfterCompletion [ZoneTable] {history other : List HistoryRow}
    (hsame : left.SameInstants right)
    (hhistory : List.Forall₂ HistoryRow.SameInstants history other) (window : Nat)
    (hinstant : first.instant = second.instant) :
    left.dueAfterCompletion history window first =
      right.dueAfterCompletion other window second := by
  rw [Chore.dueAfterCompletion, Chore.dueAfterCompletion, hsame.kind, hsame.nextDue hinstant,
    Cadence.nextDue_congr hsame.dueDate hinstant (List.forall₂_take window hhistory)]

theorem SameInstants.completionStatus (hsame : left.SameInstants right)
    (hinstant : first.instant = second.instant) :
    left.completionStatus first = right.completionStatus second := by
  have hdue := hsame.dueDate
  unfold SameInstant at hdue
  unfold Chore.completionStatus
  cases hleft : left.dueDate <;> cases hright : right.dueDate <;> simp_all

theorem SameInstants.skipReference (hsame : left.SameInstants right)
    (hinstant : first.instant = second.instant) :
    (left.skipReference first).instant = (right.skipReference second).instant := by
  have hdue := hsame.dueDate
  unfold SameInstant at hdue
  unfold Chore.skipReference
  rw [hsame.kind]
  cases hleft : left.dueDate <;> cases hright : right.dueDate <;> simp_all
  split <;> simp_all

theorem SameInstants.nextAssignee {history other : List HistoryRow}
    (hsame : left.SameInstants right)
    (hhistory : List.Forall₂ HistoryRow.SameInstants history other) (performer : UserId)
    (source : Source) :
    left.nextAssignee history performer source = right.nextAssignee other performer source := by
  have hkeys : ∀ field : HistoryRow → Option UserId,
      (∀ row other, row.SameInstants other → field row = field other) →
        history.filterMap field = other.filterMap field := by
    intro field hfield
    have hfields := map_congr_of_sameInstants hhistory hfield
    simpa [List.filterMap_map] using congrArg (List.filterMap fun user? => user?) hfields
  have hassigned := hkeys HistoryRow.assignedTo fun _ _ hrow => by rw [hrow.others]
  have hcompleted := hkeys HistoryRow.completedBy fun _ _ hrow => by rw [hrow.others]
  have hempty : history.isEmpty = other.isEmpty := by cases hhistory <;> rfl
  simp only [Chore.nextAssignee, Rotation.assignedKeys, Rotation.completedKeys, hassigned,
    hcompleted, hempty]
  rw [hsame.others]

theorem SameInstants.removeAssignee (hsame : left.SameInstants right) (user : UserId)
    (source : Source) :
    (left.removeAssignee user source).1.SameInstants (right.removeAssignee user source).1 ∧
      (left.removeAssignee user source).1.assignedTo =
        (right.removeAssignee user source).1.assignedTo ∧
      (left.removeAssignee user source).2 = (right.removeAssignee user source).2 := by
  obtain ⟨hdue, htime, hothers⟩ := hsame
  refine ⟨⟨hdue, htime, ?_⟩, ?_, ?_⟩
  · rw [hothers]
    rfl
  · rw [hothers]
    rfl
  · rw [hothers]
    rfl

/-- The window of the chore opens at an inner instant, and its due date is given by a clock. -/
structure HasInnerWindow (chore : Chore) : Prop where
  offset : ∀ due ∈ chore.dueDate, IsClockOffset due.offset
  opensAt : ∀ hours ∈ chore.completionWindow, ∀ due ∈ chore.dueDate,
    IsInner (due.instant - seconds (hours.toInt * 3600))

theorem exists_opensAt {chore : Chore} {hours : Int64} {due : Timestamp}
    (hinner : chore.HasInnerWindow) (hhours : chore.completionWindow = some hours)
    (hdue : chore.dueDate = some due) :
    ∃ opensAt, due.shift? (seconds (-(hours.toInt * 3600))) = some opensAt ∧
      opensAt.instant = due.instant - seconds (hours.toInt * 3600) := by
  have hne := (hinner.opensAt hours hhours due hdue).ne_none (hinner.offset due hdue)
  obtain ⟨wall, hwall⟩ := Option.ne_none_iff_exists'.1 hne
  have hnanos := Moment.ofNanos?_eq_some_iff.1 hwall
  refine ⟨⟨wall, due.offset⟩, ?_, ?_⟩
  · rw [Timestamp.shift?, Option.map_eq_some_iff]
    refine ⟨wall, Moment.shift?_eq_some_iff.2 ?_, rfl⟩
    unfold Timestamp.instant seconds at *
    omega
  · simp only [Timestamp.instant]
    unfold Timestamp.instant seconds at hnanos
    unfold seconds
    omega

theorem SameInstants.checkWindow (hsame : left.SameInstants right) (hleft : left.HasInnerWindow)
    (hright : right.HasInnerWindow) (hinstant : first.instant = second.instant) :
    left.checkWindow first = right.checkWindow second := by
  have hwindow : left.completionWindow = right.completionWindow := by rw [hsame.others]
  have hdue := hsame.dueDate
  unfold SameInstant at hdue
  unfold Chore.checkWindow
  cases hhours : left.completionWindow with
  | none => simp [← hwindow, hhours]
  | some hours =>
    rw [← hwindow, hhours]
    cases hleftDue : left.dueDate with
    | none => cases hrightDue : right.dueDate <;> simp_all
    | some leftDue =>
      cases hrightDue : right.dueDate with
      | none => simp_all
      | some rightDue =>
        have hdues : leftDue.instant = rightDue.instant := by simpa [hleftDue, hrightDue] using hdue
        obtain ⟨leftOpens, hleftShift, hleftInstant⟩ := exists_opensAt hleft hhours hleftDue
        obtain ⟨rightOpens, hrightShift, hrightInstant⟩ :=
          exists_opensAt hright (hwindow ▸ hhours) hrightDue
        simp only [hleftShift, hrightShift, hleftInstant, hrightInstant, hdues, hinstant]

end Chore

/-- Two events that differ at most in the clock that their time is given by. -/
inductive Event.SameInstants : Event → Event → Prop where
  | complete (performer : UserId) {first second : Timestamp} (note : Option String) :
    first.instant = second.instant →
      SameInstants (.complete performer first note) (.complete performer second note)
  | skip (performer : UserId) {first second : Timestamp} (rotates : Bool) (note : Option String) :
    first.instant = second.instant →
      SameInstants (.skip performer first rotates note) (.skip performer second rotates note)
  | remove (user : UserId) : SameInstants (.remove user) (.remove user)

namespace Snapshot

variable {left right : Snapshot} {first second : Timestamp}

theorem SameInstants.complete [ZoneTable] (hsame : left.SameInstants right)
    (hwindow : left.chore.checkWindow first = right.chore.checkWindow second)
    (hinstant : first.instant = second.instant) (window : Nat) (performer : UserId)
    (source : Source) :
    left.complete window performer first source =
      right.complete window performer second source := by
  simp only [Snapshot.complete, hwindow, hsame.chore.completionStatus hinstant,
    hsame.chore.dueAfterCompletion hsame.history window hinstant,
    hsame.chore.nextAssignee hsame.history]

theorem SameInstants.skip [ZoneTable] (hsame : left.SameInstants right)
    (hinstant : first.instant = second.instant) (performer : UserId) (rotates : Bool)
    (source : Source) :
    left.skip performer first rotates source = right.skip performer second rotates source := by
  simp only [Snapshot.skip, hsame.chore.nextDue (hsame.chore.skipReference hinstant),
    hsame.chore.assignedTo, hsame.chore.nextAssignee hsame.history]

theorem SameInstants.apply (hsame : left.SameInstants right)
    (hinstant : first.instant = second.instant) (decision : Decision) (performer : UserId)
    (note : Option String) :
    (left.apply decision performer first note).SameInstants
      (right.apply decision performer second note) := by
  obtain ⟨hchore, hhistory⟩ := hsame
  refine ⟨⟨rfl, hchore.time, ?_⟩, .cons ⟨?_, hchore.dueDate, ?_⟩ hhistory⟩
  · simp only [Snapshot.apply]
    rw [hchore.others]
  · exact congrArg some hinstant
  · simp only [Snapshot.record]
    rw [hchore.others]

end Snapshot

namespace State

/-- Snapshots with the same instants, whose windows let the same events pass, and the same source of
choices. -/
structure Agree (left right : State) : Prop where
  snapshot : left.snapshot.SameInstants right.snapshot
  window : ∀ first second, first.instant = second.instant →
    left.snapshot.chore.checkWindow first = right.snapshot.chore.checkWindow second
  source : left.source = right.source

variable {left right : State} {event other : Event}

theorem Agree.settle (hagree : left.Agree right) {first second : Timestamp}
    (hinstant : first.instant = second.instant) (result : Except Fault Decision × Source)
    (performer : UserId) (note : Option String) :
    (left.settle result performer first note).1 = (right.settle result performer second note).1 ∧
      (left.settle result performer first note).2.Agree
        (right.settle result performer second note).2 := by
  obtain ⟨fault | decision, source⟩ := result
  · exact ⟨rfl, hagree.snapshot, hagree.window, rfl⟩
  · refine ⟨rfl, hagree.snapshot.apply hinstant decision performer note, ?_, rfl⟩
    -- From here on both due dates are given in UTC.
    intro earlier later hsame
    have hwindow :
        left.snapshot.chore.completionWindow = right.snapshot.chore.completionWindow := by
      rw [hagree.snapshot.chore.others]
    simp only [State.settle, Snapshot.apply, Chore.checkWindow, hwindow, hsame]

theorem Agree.step [ZoneTable] (hagree : left.Agree right) (hsame : event.SameInstants other)
    (window : Nat) :
    (left.step window event).1 = (right.step window other).1 ∧
      (left.step window event).2.Agree (right.step window other).2 := by
  cases hsame with
  | complete performer note hinstant =>
    have hwindow := hagree.window _ _ hinstant
    simp only [State.step, hagree.source, hagree.snapshot.complete hwindow hinstant]
    exact hagree.settle hinstant _ _ _
  | skip performer rotates note hinstant =>
    simp only [State.step, hagree.source, hagree.snapshot.skip hinstant]
    exact hagree.settle hinstant _ _ _
  | remove user =>
    obtain ⟨hchore, hassigned, hsource⟩ :=
      hagree.snapshot.chore.removeAssignee user left.source
    rw [State.step, State.step, ← hagree.source]
    exact ⟨congrArg (fun assignedTo => Except.ok (Report.reassigned assignedTo)) hassigned,
      ⟨hchore, hagree.snapshot.history⟩, hagree.window, hsource⟩

theorem Agree.run [ZoneTable] {events others : List Event} (hagree : left.Agree right)
    (hsame : List.Forall₂ Event.SameInstants events others) (window : Nat) :
    (left.run window events).map Prod.fst = (right.run window others).map Prod.fst ∧
      (left.after window events).Agree (right.after window others) := by
  induction hsame generalizing left right with
  | nil => exact ⟨rfl, hagree⟩
  | cons hevent _ ih =>
    obtain ⟨hreport, hnext⟩ := hagree.step hevent window
    obtain ⟨hreports, hafter⟩ := ih hnext
    rw [run_cons, run_cons, after_cons, after_cons, List.map_cons, List.map_cons, hreport, hreports]
    exact ⟨rfl, hafter⟩

end State

theorem reports_eq_of_sameInstants [ZoneTable] {left right : Snapshot} {events others : List Event}
    (hsame : left.SameInstants right) (hleft : left.chore.HasInnerWindow)
    (hright : right.chore.HasInnerWindow) (hevents : List.Forall₂ Event.SameInstants events others)
    (window : Nat) (source : Source) :
    (State.run window ⟨left, source⟩ events).map Prod.fst =
      (State.run window ⟨right, source⟩ others).map Prod.fst := by
  have hagree : State.Agree ⟨left, source⟩ ⟨right, source⟩ :=
    ⟨hsame, fun _ _ hinstant => hsame.chore.checkWindow hleft hright hinstant, rfl⟩
  exact (hagree.run hevents window).1

/-- **Only instants matter.** Where the times of two snapshots and of two events are the same
instants, on whatever clocks they are given, a completion decides the same, a skip decides the same,
and the next due date is the same: with the same fault if it fails, and with the same choices drawn.
Only for the window of a completion do the clocks have to be real ones, and it has to open in the
years -9998 to 9998. The due date that is set is given in UTC. -/
theorem only_instants_matter [ZoneTable] {left right : Snapshot} {first second : Timestamp}
    (hsame : left.SameInstants right) (hinstant : first.instant = second.instant)
    (performer : UserId) (source : Source) :
    (left.chore.HasInnerWindow → right.chore.HasInnerWindow → ∀ window,
        left.complete window performer first source =
          right.complete window performer second source) ∧
      (∀ rotates, left.skip performer first rotates source =
        right.skip performer second rotates source) ∧
      left.chore.nextDue first = right.chore.nextDue second ∧
      ∀ decision note, ∀ due ∈ (left.apply decision performer first note).chore.dueDate,
        due.offset = 0 := by
  refine ⟨fun hleft hright window => ?_, fun rotates => ?_, hsame.chore.nextDue hinstant, ?_⟩
  · have hwindow := hsame.chore.checkWindow hleft hright hinstant
    exact hsame.complete hwindow hinstant window performer source
  · exact hsame.skip hinstant performer rotates source
  · intro decision note due hdue
    obtain ⟨next, -, rfl⟩ := Option.map_eq_some_iff.1 hdue
    rfl

/-- Read on the last day of January and of February, two days early at most. -/
def meter (due readBefore : String) : Snapshot where
  chore :=
    { id := 14, name := "read the meter", kind := .dayOfTheMonth, frequency := 31
      details :=
        { FrequencyDetails.unset with months := ["january", "february"], time := some due }
      dueDate := some (timeOf due), isRolling := true, strategy := .leastCompleted
      assignedTo := some 1, assignees := [1, 2], createdBy := 1, isActive := true
      completionWindow := some 48 }
  history := [⟨14, some (timeOf readBefore), none, some 1, some 1, none, .completed⟩]

/-- On the clock of Dhaka January is over when the meter is read. -/
theorem meter_read_on_another_clock :
    (meter "2025-01-31T23:30:00Z" "2024-12-31T20:00:00Z").SameInstants
        (meter "2025-02-01T05:30:00+06:00" "2025-01-01T02:00:00+06:00") ∧
      ((meter "2025-01-31T23:30:00Z" "2024-12-31T20:00:00Z").complete 5 1
          (timeOf "2025-01-31T20:00:00Z") (Source.start (.script []))).1 =
        .ok ⟨some (timeOf "2025-02-28T23:30:00Z").wall, some 2, false, .completed⟩ ∧
      (meter "2025-02-01T05:30:00+06:00" "2025-01-01T02:00:00+06:00").complete 5 1
          (timeOf "2025-02-01T02:00:00+06:00") (Source.start (.script [])) =
        (meter "2025-01-31T23:30:00Z" "2024-12-31T20:00:00Z").complete 5 1
          (timeOf "2025-01-31T20:00:00Z") (Source.start (.script [])) := by
  have htime : SameTime (some "2025-01-31T23:30:00Z") (some "2025-02-01T05:30:00+06:00") :=
    .inr ⟨_, _, timeOf "2025-01-31T23:30:00Z", timeOf "2025-02-01T05:30:00+06:00", rfl, rfl, rfl,
      rfl, by decide +kernel⟩
  have hsame : (meter "2025-01-31T23:30:00Z" "2024-12-31T20:00:00Z").SameInstants
      (meter "2025-02-01T05:30:00+06:00" "2025-01-01T02:00:00+06:00") := by
    refine ⟨⟨?_, htime, rfl⟩, .cons ⟨?_, rfl, rfl⟩ .nil⟩
    · exact congrArg some (by decide +kernel)
    · exact congrArg some (by decide +kernel)
  have hinner : ∀ due readBefore, IsClockOffset (timeOf due).offset →
      (timeOf due).instant - seconds (48 * 3600) = (timeOf "2025-01-29T23:30:00Z").wall.nanos →
        (meter due readBefore).chore.HasInnerWindow := by
    intro due readBefore hoffset hopens
    refine ⟨?_, ?_⟩
    · rintro _ ⟨⟩
      exact hoffset
    · rintro _ ⟨⟩ _ ⟨⟩
      exact ⟨_, Moment.ofNanos?_eq_some_iff.2 hopens.symm, by decide +kernel, by decide +kernel⟩
  have hleft := hinner "2025-01-31T23:30:00Z" "2024-12-31T20:00:00Z"
    ⟨by decide +kernel, by decide +kernel⟩ (by decide +kernel)
  have hright := hinner "2025-02-01T05:30:00+06:00" "2025-01-01T02:00:00+06:00"
    ⟨by decide +kernel, by decide +kernel⟩ (by decide +kernel)
  have hinstant : (timeOf "2025-01-31T20:00:00Z").instant =
      (timeOf "2025-02-01T02:00:00+06:00").instant := by decide +kernel
  obtain ⟨hcomplete, -⟩ := only_instants_matter hsame hinstant 1 (Source.start (.script []))
  exact ⟨hsame, by decide +kernel, (hcomplete hleft hright 5).symm⟩

end ChoreRota
