import ChoreRota.Calendar.Zone.Table
import ChoreRota.Proofs.ListedWeekdays
import ChoreRota.Proofs.Runs

/-!
# The slots of a weekly chore

After a completion that is not late the next slot is the first one after the due date. A late
completion moves the base on by a day, and the search leaves out the day of its base, so that a slot
on the very next day is passed over (`Chore.IsDueOnSlot.nextDue_eq_ok_iff`).
-/

namespace ChoreRota

theorem firstWanted_eq_ok_of_first {isWanted : Date → Bool} {missing : Fault} {date found : Date}
    {bound : Nat} (hafter : date.dayNumber < found.dayNumber)
    (hbound : found.dayNumber ≤ date.dayNumber + bound) (hwanted : isWanted found = true)
    (hskipped : ∀ earlier : Date, date.dayNumber < earlier.dayNumber →
      earlier.dayNumber < found.dayNumber → isWanted earlier = false) :
    firstWanted isWanted missing date bound = .ok found := by
  induction bound generalizing date with
  | zero => omega
  | succ bound ih =>
    have hstart := date.firstDay_le
    have hend := found.le_lastDay
    let next : Date := ⟨date.dayNumber + 1, by omega, by omega⟩
    have hday : next.dayNumber = date.dayNumber + 1 := rfl
    have hnext : date.addDays? 1 = some next := Date.ofDayNumber?_eq_some_iff.2 hday
    rw [firstWanted, hnext]
    by_cases hfound : next.dayNumber = found.dayNumber
    · have hsame : next = found := Date.eq_of_dayNumber hfound
      simp only [hsame, hwanted, if_true]
    · have hunwanted := hskipped next (by omega) (by omega)
      simp only [hunwanted, Bool.false_eq_true, if_false]
      exact ih (by omega) (by omega) fun earlier hlow hhigh =>
        hskipped earlier (by omega) hhigh

theorem Date.weekday_of_week_later {date later : Date}
    (hweek : later.dayNumber = date.dayNumber + 7) : later.weekday = date.weekday := by
  have hrest : later.dayNumber % 7 = date.dayNumber % 7 := by omega
  rw [Date.weekday, Date.weekday, weekdayOfDay, weekdayOfDay, hrest]

structure IsNextSlot (names : List String) (time : TimeOfDay) (day : Int) (slot : Moment) :
    Prop where
  sameTime : slot.time = time
  after : day < slot.date.dayNumber
  listed : slot.date.weekday.isListed names = true
  skipsNone : ∀ date : Date, day < date.dayNumber → date.dayNumber < slot.date.dayNumber →
    date.weekday.isListed names = false

theorem IsNextSlot.le_week_later {names : List String} {time : TimeOfDay} {day : Int}
    {slot : Moment} {date : Date} (hslot : IsNextSlot names time day slot)
    (hlisted : date.weekday.isListed names = true) (hday : day < date.dayNumber + 7) :
    slot.date.dayNumber ≤ date.dayNumber + 7 := by
  by_contra hfar
  have hstart := date.firstDay_le
  have hend := slot.date.le_lastDay
  let weekLater : Date := ⟨date.dayNumber + 7, by omega, by omega⟩
  have hnumber : weekLater.dayNumber = date.dayNumber + 7 := rfl
  have hskipped := hslot.skipsNone weekLater (by omega) (by omega)
  rw [Date.weekday_of_week_later hnumber, hlisted] at hskipped
  cases hskipped

/-- A fixed chore on listed weekdays of every week, on the clock of a zone or of UTC. -/
structure Chore.IsWeekly [ZoneTable] (chore : Chore) (clock : Option Zone) : Prop where
  kind : chore.kind = .daysOfTheWeek
  pattern : chore.details.weekPattern.getD .everyWeek = .everyWeek
  zone : chore.details.zone = .ok clock
  fixed : chore.isRolling = false

theorem Chore.IsWeekly.of_task [ZoneTable] {left right : Chore} {clock : Option Zone}
    (hweekly : left.IsWeekly clock) (htask : right.task = left.task) : right.IsWeekly clock := by
  have hdetails : right.details = left.details :=
    Chore.eq_of_task Chore.details (fun _ => rfl) htask
  refine ⟨?_, ?_, ?_, ?_⟩
  · exact (Chore.eq_of_task Chore.kind (fun _ => rfl) htask).trans hweekly.kind
  · rw [hdetails]
    exact hweekly.pattern
  · rw [hdetails]
    exact hweekly.zone
  · exact (Chore.eq_of_task Chore.isRolling (fun _ => rfl) htask).trans hweekly.fixed

theorem Chore.IsWeekly.repeats [ZoneTable] {chore : Chore} {clock : Option Zone}
    (hweekly : chore.IsWeekly clock) :
    chore.kind ≠ .adaptive ∧ chore.kind.isOneShot = false ∧ chore.kind.usesTimeOfDay = true := by
  rw [hweekly.kind]
  decide

theorem nextWeekday_eq_search [ZoneTable] {details : FrequencyDetails} (base : Moment)
    (hpattern : details.weekPattern.getD .everyWeek = .everyWeek)
    (hzone : details.zone = .ok none) (hdays : details.days ≠ []) :
    details.nextWeekday base = (do
      let date ← nextListedDate details.days base.date
      return base.onDate date) := by
  rw [FrequencyDetails.nextWeekday, if_neg (by simpa using hdays), hpattern]
  change details.everyWeek base = _
  rw [FrequencyDetails.everyWeek, hzone]
  rfl

theorem nextWeekday_eq_ok_iff [ZoneTable] {details : FrequencyDetails} {base next : Moment}
    (hpattern : details.weekPattern.getD .everyWeek = .everyWeek)
    (hzone : details.zone = .ok none) (hdays : details.days ≠ []) :
    details.nextWeekday base = .ok next ↔
      IsNextSlot details.days base.time base.date.dayNumber next ∧
        next.date.dayNumber ≤ base.date.dayNumber + 7 := by
  rw [nextWeekday_eq_search base hpattern hzone hdays, bind_eq_ok_iff]
  constructor
  · rintro ⟨date, hdate, hnext⟩
    obtain rfl := Except.ok.inj hnext
    obtain ⟨count, hone, hseven, hday, hlisted, hskipped⟩ := firstWanted_eq_ok hdate
    have hnumber : (base.onDate date).date.dayNumber = base.date.dayNumber + count := hday
    exact ⟨⟨rfl, by omega, hlisted, hskipped⟩, by omega⟩
  · rintro ⟨hslot, hweek⟩
    refine ⟨next.date, firstWanted_eq_ok_of_first hslot.after hweek hslot.listed
      hslot.skipsNone, ?_⟩
    rw [Moment.onDate, ← hslot.sameTime]
    rfl

structure Chore.IsDueOnSlot [ZoneTable] (chore : Chore) (due : Moment) : Prop where
  weekly : chore.IsWeekly none
  isDue : chore.IsDue due
  configured : chore.details.configuredTime = .ok due.time
  listed : due.date.weekday.isListed chore.details.days = true

namespace Chore.IsDueOnSlot

variable {chore : Chore} {due : Moment}

theorem baseDate_eq_ok [ZoneTable] {completed base : Moment} (hdue : chore.IsDueOnSlot due)
    (hbase : chore.baseDate (some due) completed = .ok base) :
    base.time = due.time ∧ base.date.dayNumber =
      due.date.dayNumber + if due.nanos < completed.nanos then 1 else 0 := by
  obtain ⟨-, -, huses⟩ := hdue.weekly.repeats
  obtain ⟨hconfigured, hdate⟩ := Chore.baseDate_eq_ok huses hdue.weekly.fixed hbase
  have htime : base.time = due.time := Except.ok.inj (hconfigured.symm.trans hdue.configured)
  have hslot : due.atTime base.time = due := by rw [htime]; rfl
  refine ⟨htime, ?_⟩
  obtain ⟨hsame, hearly⟩ | ⟨hnext, hlate⟩ := hdate
  · have hdueNanos : base.nanos = due.nanos := by rw [Moment.nanos, Moment.nanos, hsame, htime]
    rw [if_neg (by omega), hsame, Int.add_zero]
  · rw [hslot] at hlate
    rw [if_pos hlate, hnext]

/-- **Where a weekly chore goes.** It is due next on the first slot after its due date, or, if it is
completed late, on the first one after the day after it. There is a due date as long as the calendar
has such a slot. -/
theorem nextDue_eq_ok_iff [ZoneTable] {completedAt : Timestamp} {completed : Moment}
    {nextDueDate : Option Moment} (hdue : chore.IsDueOnSlot due)
    (hcompleted : completedAt.toUtc? = some completed) :
    chore.nextDue completedAt = .ok nextDueDate ↔ ∃ slot, nextDueDate = some slot ∧
      IsNextSlot chore.details.days due.time
        (due.date.dayNumber + if due.nanos < completed.nanos then 1 else 0) slot := by
  obtain ⟨hadapts, hrepeats, -⟩ := hdue.weekly.repeats
  have hdays : chore.details.days ≠ [] := by
    intro hempty
    have hlisted := hdue.listed
    rw [hempty] at hlisted
    cases hlisted
  have hadvance : ∀ {base next : Moment}, chore.advance (some due) completed base = .ok next ↔
      IsNextSlot chore.details.days base.time base.date.dayNumber next ∧
        next.date.dayNumber ≤ base.date.dayNumber + 7 := by
    intro base next
    rw [advance, hdue.weekly.kind]
    exact nextWeekday_eq_ok_iff hdue.weekly.pattern hdue.weekly.zone hdays
  rw [hdue.isDue.nextDue_eq_ok_iff hadapts hrepeats hcompleted]
  constructor
  · rintro ⟨base, next, hbase, hfound, rfl⟩
    obtain ⟨htime, hday⟩ := hdue.baseDate_eq_ok hbase
    refine ⟨next, rfl, ?_⟩
    rw [← htime, ← hday]
    exact (hadvance.1 hfound).1
  · rintro ⟨slot, rfl, hslot⟩
    -- The calendar goes on after the due date, since the slot is still to come.
    have hroom : due.date.dayNumber < lastDay := by
      have hafter := hslot.after
      have hend := slot.date.le_lastDay
      split at hafter <;> omega
    obtain ⟨base, hbase⟩ :=
      exists_baseDate hdue.weekly.fixed hdue.configured hroom completed
    obtain ⟨htime, hday⟩ := hdue.baseDate_eq_ok hbase
    have hweek := hslot.le_week_later hdue.listed (by split <;> omega)
    have hfound : chore.advance (some due) completed base = .ok slot := by
      refine hadvance.2 ⟨?_, ?_⟩
      · rw [htime, hday]
        exact hslot
      · split at hday <;> omega
    exact ⟨base, slot, hbase, hfound, rfl⟩

end Chore.IsDueOnSlot

/-- Each decision is the next slot after the due date before it, or after the day after that for a
late completion. -/
def FollowsSlots (names : List String) : Moment → List Decision → Prop
  | _, [] => True
  | due, decision :: rest => ∃ slot, decision.nextDueDate = some slot ∧
      IsNextSlot names due.time
        (due.date.dayNumber + if decision.status = .completedLate then 1 else 0) slot ∧
      FollowsSlots names slot rest

def IsDueOn (date : Date) (decisions : List Decision) : Prop :=
  ∃ decision ∈ decisions, ∃ slot, decision.nextDueDate = some slot ∧ slot.date = date

def PassedOver (date : Date) : Moment → List Decision → Prop
  | _, [] => False
  | due, decision :: rest =>
    decision.status = .completedLate ∧ date.dayNumber = due.date.dayNumber + 1 ∨
      ∃ slot, decision.nextDueDate = some slot ∧ PassedOver date slot rest

theorem not_passedOver {date : Date} {due : Moment} {decisions : List Decision}
    (hpunctual : ∀ decision ∈ decisions, decision.status ≠ .completedLate) :
    ¬PassedOver date due decisions := by
  induction decisions generalizing due with
  | nil => exact id
  | cons decision rest ih =>
    rintro (⟨hlate, -⟩ | ⟨slot, -, hrest⟩)
    · exact hpunctual decision List.mem_cons_self hlate
    · exact ih (fun other hother => hpunctual other (List.mem_cons_of_mem _ hother)) hrest

theorem FollowsSlots.isDueOn_or_passedOver {names : List String} {due : Moment}
    {decisions : List Decision} {date last : Date} (hfollows : FollowsSlots names due decisions)
    (hafter : due.date.dayNumber < date.dayNumber)
    (hlisted : date.weekday.isListed names = true)
    (hlast : IsDueOn last decisions) (hbefore : date.dayNumber ≤ last.dayNumber) :
    IsDueOn date decisions ∨ PassedOver date due decisions := by
  induction decisions generalizing due with
  | nil =>
    obtain ⟨decision, hmem, -⟩ := hlast
    cases hmem
  | cons decision rest ih =>
    obtain ⟨slot, hdecision, hslot, hrest⟩ := hfollows
    rcases Int.lt_trichotomy date.dayNumber slot.date.dayNumber with hlt | heq | hgt
    · -- Only the day that a late completion leaves out can be listed between the two due dates.
      refine .inr (.inl ?_)
      by_contra hnever
      have hday : due.date.dayNumber + (if decision.status = .completedLate then 1 else 0) <
          date.dayNumber := by
        by_cases hlate : decision.status = .completedLate
        · have hother : date.dayNumber ≠ due.date.dayNumber + 1 := fun hnext =>
            hnever ⟨hlate, hnext⟩
          rw [if_pos hlate]
          omega
        · rw [if_neg hlate]
          omega
      have hskipped := hslot.skipsNone date hday hlt
      rw [hlisted] at hskipped
      cases hskipped
    · exact .inl ⟨decision, List.mem_cons_self, slot, hdecision, (Date.eq_of_dayNumber heq).symm⟩
    · have hrestLast : IsDueOn last rest := by
        obtain ⟨found, hmem, other, hother, hdate⟩ := hlast
        rcases List.mem_cons.1 hmem with rfl | hmem
        · obtain rfl := Option.some.inj (hdecision.symm.trans hother)
          rw [← hdate] at hbefore
          omega
        · exact ⟨found, hmem, other, hother, hdate⟩
      rcases ih hrest hgt hrestLast with hdue | hpassed
      · obtain ⟨found, hmem, hfound⟩ := hdue
        exact .inl ⟨found, List.mem_cons_of_mem _ hmem, hfound⟩
      · exact .inr (.inr ⟨slot, hdecision, hpassed⟩)

namespace Chore.IsDueOnSlot

variable {window : Nat} {current next : State} {event : Event} {due : Moment}

theorem of_task [ZoneTable] {left right : Chore} (hdue : left.IsDueOnSlot due)
    (htask : right.task = left.task) (hdueDate : right.dueDate = left.dueDate) :
    right.IsDueOnSlot due := by
  have hdetails : right.details = left.details :=
    Chore.eq_of_task Chore.details (fun _ => rfl) htask
  refine ⟨hdue.weekly.of_task htask, ?_, ?_, ?_⟩
  · rw [Chore.IsDue, hdueDate]
    exact hdue.isDue
  · rw [hdetails]
    exact hdue.configured
  · rw [hdetails]
    exact hdue.listed

theorem step [ZoneTable] {decision : Decision} (hdue : current.snapshot.chore.IsDueOnSlot due)
    (hstep : current.step window event = (.ok (.decided decision), next)) :
    ∃ slot, decision.nextDueDate = some slot ∧
      IsNextSlot current.snapshot.chore.details.days due.time
        (due.date.dayNumber + if decision.status = .completedLate then 1 else 0) slot ∧
      next.snapshot.chore.IsDueOnSlot slot := by
  obtain ⟨hadapts, -⟩ := hdue.weekly.repeats
  obtain ⟨reference, completed, hcompleted, hnext, hlate⟩ :=
    State.nextDue_of_step_of_isDue hadapts hdue.isDue hstep
  obtain ⟨slot, hslot, hfollows⟩ := (hdue.nextDue_eq_ok_iff hcompleted).1 hnext
  simp only [← hlate] at hfollows
  have htask := State.task_of_step hstep
  have hdetails : next.snapshot.chore.details = current.snapshot.chore.details :=
    Chore.eq_of_task Chore.details (fun _ => rfl) htask
  refine ⟨slot, hslot, hfollows, hdue.weekly.of_task htask, State.isDue_of_step hstep hslot,
    ?_, ?_⟩
  · rw [hdetails, hdue.configured, hfollows.sameTime]
  · rw [hdetails]
    exact hfollows.listed

theorem followsSlots [ZoneTable] (hdue : current.snapshot.chore.IsDueOnSlot due)
    (events : List Event) :
    FollowsSlots current.snapshot.chore.details.days due (current.decisions window events) := by
  induction events generalizing current due with
  | nil => exact trivial
  | cons event rest ih =>
    rw [State.decisions_cons]
    rcases hstep : current.step window event with ⟨report, next⟩
    have htask := State.task_of_step hstep
    have hdetails : next.snapshot.chore.details = current.snapshot.chore.details :=
      Chore.eq_of_task Chore.details (fun _ => rfl) htask
    cases hreport : decisionOf report with
    | none =>
      obtain ⟨assignees, assignedTo, hsnapshot⟩ := State.step_eq_undecided hstep hreport
      have hsame : next.snapshot.chore.dueDate = current.snapshot.chore.dueDate := by
        rw [hsnapshot]
      have hrest := ih (hdue.of_task htask hsame)
      rw [hdetails] at hrest
      exact hrest
    | some decision =>
      obtain rfl := decisionOf_eq_some_iff.1 hreport
      obtain ⟨slot, hslot, hfollows, hnext⟩ := hdue.step hstep
      have hrest := ih hnext
      rw [hdetails] at hrest
      exact ⟨slot, hslot, hfollows, hrest⟩

end Chore.IsDueOnSlot

/-- **Slot by slot.** A weekly chore that is due on a slot goes to the first slot after it, unless
it is completed late; then the day after the due date is left out. Over a run no other listed day is
left out, and none at all if nothing is completed late. -/
theorem weekly_chore_goes_slot_by_slot [ZoneTable] {chore : Chore} {due : Moment}
    (hdue : chore.IsDueOnSlot due) :
    (∀ completedAt completed nextDueDate, completedAt.toUtc? = some completed →
      (chore.nextDue completedAt = .ok nextDueDate ↔ ∃ slot, nextDueDate = some slot ∧
        IsNextSlot chore.details.days due.time
          (due.date.dayNumber + if due.nanos < completed.nanos then 1 else 0) slot)) ∧
    ∀ window history source events decisions,
      State.decisions window ⟨⟨chore, history⟩, source⟩ events = decisions →
        FollowsSlots chore.details.days due decisions ∧
          ∀ date last, due.date.dayNumber < date.dayNumber →
            date.weekday.isListed chore.details.days = true → IsDueOn last decisions →
            date.dayNumber ≤ last.dayNumber →
              (IsDueOn date decisions ∨ PassedOver date due decisions) ∧
              ((∀ decision ∈ decisions, decision.status ≠ .completedLate) →
                IsDueOn date decisions) := by
  refine ⟨fun completedAt completed nextDueDate hcompleted => hdue.nextDue_eq_ok_iff hcompleted, ?_⟩
  rintro window history source events _ rfl
  let state : State := ⟨⟨chore, history⟩, source⟩
  have hstate : state.snapshot.chore.IsDueOnSlot due := hdue
  have hfollows : FollowsSlots chore.details.days due (state.decisions window events) :=
    hstate.followsSlots events
  refine ⟨hfollows, ?_⟩
  intro date last hafter hlisted hlast hbefore
  have hleft := hfollows.isDueOn_or_passedOver hafter hlisted hlast hbefore
  exact ⟨hleft, fun hpunctual => hleft.resolve_right (not_passedOver hpunctual)⟩

theorem isNextSlot_of_next_day {names : List String} {time : TimeOfDay} {slot : Moment} {day : Int}
    (htime : slot.time = time) (hday : slot.date.dayNumber = day + 1)
    (hlisted : slot.date.weekday.isListed names = true) : IsNextSlot names time day slot :=
  ⟨htime, by omega, hlisted, fun date hlow hhigh => by omega⟩

def bins (dueDate : Timestamp) : Chore :=
  let mondays := weekly "Monday" "07:30Z" " " dueDate
  { mondays with details := { mondays.details with days := ["Monday", " tuesday"] } }

theorem bins_isDueOnSlot : (bins (timeOf "2025-05-05T07:30:00Z")).IsDueOnSlot
    (timeOf "2025-05-05T07:30:00Z").wall where
  weekly := ⟨rfl, rfl, rfl, rfl⟩
  isDue := ⟨_, rfl, by decide +kernel⟩
  configured := rfl
  listed := by decide +kernel

def binsEvents : List Event :=
  [.complete 1 (timeOf "2025-05-04T20:00:00Z") none,
    .complete 1 (timeOf "2025-05-06T07:30:00Z") none]

theorem bins_go_slot_by_slot :
    (bins (timeOf "2025-05-05T07:30:00Z")).IsDueOnSlot (timeOf "2025-05-05T07:30:00Z").wall ∧
      (bins (timeOf "2025-05-05T07:30:00Z")).nextDue (timeOf "2025-05-04T20:00:00Z") =
        .ok (some (timeOf "2025-05-06T07:30:00Z").wall) ∧
      FollowsSlots ["Monday", " tuesday"] (timeOf "2025-05-05T07:30:00Z").wall
        [⟨some (timeOf "2025-05-06T07:30:00Z").wall, some 1, false, .completed⟩,
          ⟨some (timeOf "2025-05-12T07:30:00Z").wall, some 1, false, .completed⟩] := by
  obtain ⟨hnext, hrun⟩ := weekly_chore_goes_slot_by_slot bins_isDueOnSlot
  refine ⟨bins_isDueOnSlot, ?_, ?_⟩
  · refine (hnext _ (timeOf "2025-05-04T20:00:00Z").wall _ (by decide +kernel)).2 ⟨_, rfl, ?_⟩
    exact isNextSlot_of_next_day (by decide +kernel) (by decide +kernel) (by decide +kernel)
  · exact (hrun 5 [] (Chance.Source.start (.script [])) binsEvents _ (by decide +kernel)).1

/-- Put out half an hour late on Monday, the bins are due again a week later, though Tuesday is
listed and still ahead. -/
theorem bins_pass_over_tuesday :
    (bins (timeOf "2025-05-05T07:30:00Z")).IsDueOnSlot (timeOf "2025-05-05T07:30:00Z").wall ∧
      IsNextSlot ["Monday", " tuesday"] (timeOf "2025-05-05T07:30:00Z").wall.time
        (timeOf "2025-05-05T07:30:00Z").wall.date.dayNumber
        (timeOf "2025-05-06T07:30:00Z").wall ∧
      (bins (timeOf "2025-05-05T07:30:00Z")).nextDue (timeOf "2025-05-05T08:00:00Z") =
        .ok (some (timeOf "2025-05-12T07:30:00Z").wall) ∧
      ¬IsNextSlot ["Monday", " tuesday"] (timeOf "2025-05-05T07:30:00Z").wall.time
        (timeOf "2025-05-05T07:30:00Z").wall.date.dayNumber
        (timeOf "2025-05-12T07:30:00Z").wall := by
  have hnext : (bins (timeOf "2025-05-05T07:30:00Z")).nextDue (timeOf "2025-05-05T08:00:00Z") =
      .ok (some (timeOf "2025-05-12T07:30:00Z").wall) := by decide +kernel
  refine ⟨bins_isDueOnSlot, ?_, hnext, ?_⟩
  · exact isNextSlot_of_next_day (by decide +kernel) (by decide +kernel) (by decide +kernel)
  · intro hslot
    have hskipped := hslot.skipsNone (timeOf "2025-05-06T07:30:00Z").wall.date (by decide +kernel)
      (by decide +kernel)
    revert hskipped
    decide +kernel

end ChoreRota
