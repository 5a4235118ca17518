import ChoreRota.Recurrence.NextDue

/-!
# The parts of a next due date

Both times that a schedule is given are put on the UTC clock, a base is found from them, and the
kind of the chore moves the base on. `nextDue_eq_ok` takes a due date apart into these steps.
-/

namespace ChoreRota

/-- The time that a text says, or the start of 1970 if it says none. -/
def timeOf (text : String) : Timestamp :=
  match Rfc3339.read text with
  | .ok timestamp => timestamp
  | .error _ => Timestamp.ofUtc ⟨⟨0, by decide, by decide⟩, 0, by decide⟩

theorem onCalendar_eq_ok_iff {α : Type} {value? : Option α} {value : α} :
    onCalendar value? = .ok value ↔ value? = some value := by
  cases value? <;> simp [onCalendar]

namespace Moment

theorem ofNanos?_eq_none_iff {nanos : Int} :
    ofNanos? nanos = none ↔ nanos < days firstDay ∨ days (lastDay + 1) ≤ nanos := by
  rw [ofNanos?, Option.map_eq_none_iff, Date.ofDayNumber?_eq_none_iff]
  unfold days
  omega

theorem later_eq_ok_iff {moment result : Moment} {nanos : Int} :
    moment.later nanos = .ok result ↔ result.nanos = moment.nanos + nanos := by
  rw [← shift?_eq_some_iff, later]
  cases moment.shift? nanos <;> simp

theorem nanos_eq_add_days_iff {moment result : Moment} {count : Int} :
    result.nanos = moment.nanos + days count ↔
      result.date.dayNumber = moment.date.dayNumber + count ∧ result.time = moment.time := by
  have htime := moment.time.nanos_lt
  have hresultTime := result.time.nanos_lt
  unfold nanos days
  constructor
  · intro hnanos
    exact ⟨by omega, TimeOfDay.eq_of_nanos (by omega)⟩
  · rintro ⟨hday, hsame⟩
    rw [hday, hsame]
    omega

end Moment

namespace Chore

variable {chore : Chore} {completedAt : Timestamp}

theorem anchor_eq_due (hfixed : chore.isRolling = false) (due completed : Moment) :
    chore.anchor (some due) completed = due := by
  simp [anchor, hfixed]

theorem baseDate_eq_due (huses : chore.kind.usesTimeOfDay = false)
    (hfixed : chore.isRolling = false) (due completed : Moment) :
    chore.baseDate (some due) completed = .ok due := by
  simp [baseDate, huses, anchor_eq_due hfixed]

theorem baseDate_eq_ok {due completed base : Moment} (huses : chore.kind.usesTimeOfDay = true)
    (hfixed : chore.isRolling = false) (hbase : chore.baseDate (some due) completed = .ok base) :
    chore.details.configuredTime = .ok base.time ∧
      (base.date = due.date ∧ completed.nanos ≤ base.nanos ∨
        base.date.dayNumber = due.date.dayNumber + 1 ∧
          (due.atTime base.time).nanos < completed.nanos) := by
  rw [baseDate, if_pos huses] at hbase
  obtain ⟨time, htime, hbase⟩ := bind_eq_ok_iff.1 hbase
  rw [show chore.anchor (some due) completed = due by simp [anchor, hfixed], notBefore] at hbase
  split at hbase
  · rename_i hlate
    rw [Moment.later_eq_ok_iff, Moment.nanos_eq_add_days_iff] at hbase
    obtain ⟨hday, hsame⟩ := hbase
    have hsame : base.time = time := hsame
    rw [hsame]
    exact ⟨htime, .inr ⟨hday, hlate⟩⟩
  · rename_i hearly
    obtain rfl := Except.ok.inj hbase
    exact ⟨htime, .inl ⟨rfl, by omega⟩⟩

theorem exists_notBefore {slot : Moment} (hlast : slot.date.dayNumber < lastDay)
    (completed : Moment) : ∃ base, notBefore slot completed = .ok base := by
  unfold notBefore
  split
  · have hfirst := slot.date.firstDay_le
    let nextDate : Date := ⟨slot.date.dayNumber + 1, by omega, by omega⟩
    refine ⟨⟨nextDate, slot.time⟩, ?_⟩
    rw [Moment.later_eq_ok_iff, Moment.nanos_eq_add_days_iff]
    exact ⟨rfl, rfl⟩
  · exact ⟨_, rfl⟩

theorem exists_baseDate {due : Moment} {time : TimeOfDay} (hfixed : chore.isRolling = false)
    (htime : chore.details.configuredTime = .ok time) (hlast : due.date.dayNumber < lastDay)
    (completed : Moment) : ∃ base, chore.baseDate (some due) completed = .ok base := by
  rw [baseDate, anchor_eq_due hfixed, htime]
  split
  · have hslot : (due.atTime time).date.dayNumber < lastDay := hlast
    exact exists_notBefore hslot completed
  · exact ⟨_, rfl⟩

def baseAt (chore : Chore) (completedAt : Timestamp) : Except Fault Moment := do
  let completedAt ← onCalendar completedAt.toUtc?
  let priorDue ← utcDue chore.dueDate
  chore.baseDate priorDue completedAt

/-- A chore that does not adapt is never due again if it is for one shot only; otherwise it is due
where its kind moves the base to. -/
theorem nextDue_eq_ok [ZoneTable] {due : Option Moment} (hkind : chore.kind ≠ .adaptive)
    (hdue : chore.nextDue completedAt = .ok due) :
    ∃ completed priorDue, completedAt.toUtc? = some completed ∧
      utcDue chore.dueDate = .ok priorDue ∧
      (chore.kind.isOneShot = true ∧ due = none ∨
        chore.kind.isOneShot = false ∧ ∃ base next, chore.baseDate priorDue completed = .ok base ∧
          chore.advance priorDue completed base = .ok next ∧ due = some next) := by
  unfold nextDue at hdue
  obtain ⟨completed, hcompleted, hdue⟩ := bind_eq_ok_iff.1 hdue
  obtain ⟨priorDue, hpriorDue, hdue⟩ := bind_eq_ok_iff.1 hdue
  refine ⟨completed, priorDue, onCalendar_eq_ok_iff.1 hcompleted, hpriorDue, ?_⟩
  unfold nextDueAfter at hdue
  split at hdue
  · rename_i hone
    exact .inl ⟨by rw [hone]; rfl, (Except.ok.inj hdue).symm⟩
  · rename_i hone
    exact .inl ⟨by rw [hone]; rfl, (Except.ok.inj hdue).symm⟩
  · rename_i hone
    exact .inl ⟨by rw [hone]; rfl, (Except.ok.inj hdue).symm⟩
  · rename_i hadaptive
    exact absurd hadaptive hkind
  · rename_i honce hnoRepeat htrigger _
    obtain ⟨base, hbase, hdue⟩ := bind_eq_ok_iff.1 hdue
    obtain ⟨next, hnext, hdue⟩ := bind_eq_ok_iff.1 hdue
    refine .inr ⟨?_, base, next, hbase, hnext, (Except.ok.inj hdue).symm⟩
    unfold FrequencyKind.isOneShot
    split <;> simp_all

theorem nextDue_eq_advance [ZoneTable] {completed : Moment} {priorDue : Option Moment}
    (hkind : chore.kind ≠ .adaptive) (hrepeats : chore.kind.isOneShot = false)
    (hcompleted : completedAt.toUtc? = some completed)
    (hpriorDue : utcDue chore.dueDate = .ok priorDue) :
    chore.nextDue completedAt = (do
      let base ← chore.baseDate priorDue completed
      return some (← chore.advance priorDue completed base)) := by
  rw [nextDue, hcompleted, hpriorDue]
  change chore.nextDueAfter priorDue completed = _
  unfold nextDueAfter
  split
  · rename_i hone
    rw [hone] at hrepeats
    cases hrepeats
  · rename_i hone
    rw [hone] at hrepeats
    cases hrepeats
  · rename_i hone
    rw [hone] at hrepeats
    cases hrepeats
  · rename_i hadaptive
    exact absurd hadaptive hkind
  · rfl

def IsDue (chore : Chore) (due : Moment) : Prop :=
  ∃ dueDate, chore.dueDate = some dueDate ∧ dueDate.toUtc? = some due

theorem IsDue.eq {due other : Moment} (hdue : chore.IsDue due) (hother : chore.IsDue other) :
    due = other := by
  obtain ⟨dueDate, hdueDate, hdueUtc⟩ := hdue
  obtain ⟨otherDate, hotherDate, hotherUtc⟩ := hother
  obtain rfl := Option.some.inj (hdueDate.symm.trans hotherDate)
  exact Option.some.inj (hdueUtc.symm.trans hotherUtc)

theorem IsDue.nextDue_eq_advance [ZoneTable] {completed due : Moment} (hdue : chore.IsDue due)
    (hkind : chore.kind ≠ .adaptive) (hrepeats : chore.kind.isOneShot = false)
    (hcompleted : completedAt.toUtc? = some completed) :
    chore.nextDue completedAt = (do
      let base ← chore.baseDate (some due) completed
      return some (← chore.advance (some due) completed base)) := by
  obtain ⟨dueDate, hdueDate, hdueUtc⟩ := hdue
  have hpriorDue : utcDue chore.dueDate = .ok (some due) := by
    rw [hdueDate, utcDue, hdueUtc]
    rfl
  exact Chore.nextDue_eq_advance hkind hrepeats hcompleted hpriorDue

theorem IsDue.nextDue_eq_ok_iff [ZoneTable] {completed due : Moment} {nextDueDate : Option Moment}
    (hdue : chore.IsDue due) (hkind : chore.kind ≠ .adaptive)
    (hrepeats : chore.kind.isOneShot = false) (hcompleted : completedAt.toUtc? = some completed) :
    chore.nextDue completedAt = .ok nextDueDate ↔
      ∃ base next, chore.baseDate (some due) completed = .ok base ∧
        chore.advance (some due) completed base = .ok next ∧ nextDueDate = some next := by
  rw [hdue.nextDue_eq_advance hkind hrepeats hcompleted, bind_eq_ok_iff]
  constructor
  · rintro ⟨base, hbase, hadvance⟩
    obtain ⟨next, hnext, hsome⟩ := bind_eq_ok_iff.1 hadvance
    exact ⟨base, next, hbase, hnext, (Except.ok.inj hsome).symm⟩
  · rintro ⟨base, next, hbase, hnext, rfl⟩
    exact ⟨base, hbase, bind_eq_ok_iff.2 ⟨next, hnext, rfl⟩⟩

theorem exists_toUtc?_of_nextDue [ZoneTable] {dueDate : Timestamp} {nextDueDate : Option Moment}
    (hdueDate : chore.dueDate = some dueDate)
    (hnext : chore.nextDue completedAt = .ok nextDueDate) :
    ∃ completed due, completedAt.toUtc? = some completed ∧ dueDate.toUtc? = some due := by
  obtain ⟨completed, hcompleted, hrest⟩ := bind_eq_ok_iff.1 hnext
  obtain ⟨priorDue, hpriorDue, -⟩ := bind_eq_ok_iff.1 hrest
  rw [hdueDate] at hpriorDue
  obtain ⟨due, hdue, -⟩ := map_eq_ok_iff.1 hpriorDue
  exact ⟨completed, due, onCalendar_eq_ok_iff.1 hcompleted, onCalendar_eq_ok_iff.1 hdue⟩

theorem isNone_nextDue [ZoneTable] {due : Option Moment} (hkind : chore.kind ≠ .adaptive)
    (hdue : chore.nextDue completedAt = .ok due) : due.isNone = chore.kind.isOneShot := by
  obtain ⟨completed, priorDue, -, -, ⟨hone, rfl⟩ | ⟨hone, base, next, -, -, rfl⟩⟩ :=
    nextDue_eq_ok hkind hdue
  · rw [hone]
    rfl
  · rw [hone]
    rfl

theorem baseAt_eq_ok {completed : Moment} {priorDue : Option Moment}
    (hcompleted : completedAt.toUtc? = some completed)
    (hpriorDue : utcDue chore.dueDate = .ok priorDue) :
    chore.baseAt completedAt = chore.baseDate priorDue completed := by
  rw [baseAt, hcompleted, hpriorDue]
  rfl

theorem exists_baseAt_of_nextDue [ZoneTable] {due : Option Moment} (hkind : chore.kind ≠ .adaptive)
    (hrepeats : chore.kind.isOneShot = false) (hdue : chore.nextDue completedAt = .ok due) :
    ∃ completed priorDue base next, due = some next ∧ completed.nanos = completedAt.instant ∧
      utcDue chore.dueDate = .ok priorDue ∧ chore.baseAt completedAt = .ok base ∧
      chore.baseDate priorDue completed = .ok base ∧
      chore.advance priorDue completed base = .ok next := by
  obtain ⟨completed, priorDue, hcompleted, hpriorDue, hsteps⟩ := nextDue_eq_ok hkind hdue
  obtain ⟨hone, -⟩ | ⟨-, base, next, hbase, hadvance, hnext⟩ := hsteps
  · rw [hrepeats] at hone
    cases hone
  · exact ⟨completed, priorDue, base, next, hnext, Moment.ofNanos?_eq_some_iff.1 hcompleted,
      hpriorDue, (baseAt_eq_ok hcompleted hpriorDue).trans hbase, hbase, hadvance⟩

end Chore

end ChoreRota
