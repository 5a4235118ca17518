import ChoreRota.Calendar.Zone.Table
import ChoreRota.Proofs.RollingMonths

/-!
# The time of day of a monthly chore

A day of a listed month is taken at the hour and the minute of what its search begins at. That is
the configured time of day, except for a rolling chore that is completed early: its search begins a
second after the due date, and in the last second of a minute one more second is another minute.
-/

namespace ChoreRota

def TimeOfDay.SameMinute (left right : TimeOfDay) : Prop :=
  left.hour = right.hour ∧ left.minute = right.minute

theorem TimeOfDay.sameMinute_congr {left right otherLeft otherRight : TimeOfDay}
    (hleft : left.SameMinute otherLeft) (hright : right.SameMinute otherRight) :
    left.SameMinute right ↔ otherLeft.SameMinute otherRight := by
  obtain ⟨hleftHour, hleftMinute⟩ := hleft
  obtain ⟨hrightHour, hrightMinute⟩ := hright
  unfold SameMinute
  rw [hleftHour, hleftMinute, hrightHour, hrightMinute]

/-- A second leads out of a minute in its last second only. -/
theorem Moment.sameMinute_of_second_later {moment later : Moment}
    (hlater : later.nanos = moment.nanos + seconds 1) :
    later.time.SameMinute moment.time ↔ moment.time.second ≠ 59 := by
  have htime := moment.time.nanos_lt
  have hlaterTime := later.time.nanos_lt
  unfold Moment.nanos seconds at hlater
  have hclock : later.time.nanos = moment.time.nanos + 1000000000 ∨
      later.time.nanos + 86400000000000 = moment.time.nanos + 1000000000 := by omega
  unfold TimeOfDay.SameMinute TimeOfDay.hour TimeOfDay.minute TimeOfDay.second
  rcases hclock with hsameDay | hnextDay
  · omega
  · omega

namespace Chore

variable {chore : Chore} {priorDue : Option Moment} {completed base due next : Moment}

theorem configuredTime_of_baseDate (huses : chore.kind.usesTimeOfDay = true)
    (hbase : chore.baseDate priorDue completed = .ok base) :
    chore.details.configuredTime = .ok base.time := by
  rw [baseDate, if_pos huses] at hbase
  obtain ⟨time, htime, hbase⟩ := bind_eq_ok_iff.1 hbase
  unfold notBefore at hbase
  split at hbase
  · rw [Moment.later_eq_ok_iff, Moment.nanos_eq_add_days_iff] at hbase
    rw [htime, hbase.2]
    rfl
  · obtain rfl := Except.ok.inj hbase
    exact htime

theorem mem_utcDue_iff (hpriorDue : utcDue chore.dueDate = .ok priorDue) :
    due ∈ priorDue ↔ chore.IsDue due := by
  unfold utcDue at hpriorDue
  unfold IsDue
  cases hdueDate : chore.dueDate with
  | none =>
    rw [hdueDate] at hpriorDue
    obtain rfl := Except.ok.inj hpriorDue
    simp
  | some dueDate =>
    rw [hdueDate] at hpriorDue
    obtain ⟨moment, hmoment, rfl⟩ := map_eq_ok_iff.1 hpriorDue
    rw [onCalendar_eq_ok_iff] at hmoment
    simp [hmoment]

def IsRolledEarly (chore : Chore) (completedAt : Timestamp) : Prop :=
  chore.isRolling = true ∧ ∃ due, chore.IsDue due ∧ completedAt.instant < due.nanos + seconds 1

/-- A day of a listed month is at the minute of the configured time, or of the second after the due
date of a chore that is rolled early. -/
theorem sameMinute_nextDue [ZoneTable] {completedAt : Timestamp} {nextDueDate : Option Moment}
    {time : TimeOfDay} (hkind : chore.kind = .dayOfTheMonth)
    (htime : chore.details.configuredTime = .ok time)
    (hnext : chore.nextDue completedAt = .ok nextDueDate) :
    ∃ next, nextDueDate = some next ∧
      (¬chore.IsRolledEarly completedAt ∧ next.time.SameMinute time ∨
        chore.IsRolledEarly completedAt ∧ ∃ due justAfter : Moment, chore.IsDue due ∧
          justAfter.nanos = due.nanos + seconds 1 ∧ next.time.SameMinute justAfter.time) := by
  obtain ⟨completed, priorDue, hcompleted, hpriorDue,
    ⟨hone, -⟩ | ⟨-, base, next, hbase, hadvance, rfl⟩⟩ :=
      nextDue_eq_ok (by rw [hkind]; decide) hnext
  · rw [hkind] at hone
    cases hone
  · have hinstant : completed.nanos = completedAt.instant :=
      Moment.ofNanos?_eq_some_iff.1 hcompleted
    have hbaseTime := configuredTime_of_baseDate (by rw [hkind]; rfl) hbase
    obtain rfl := Except.ok.inj (hbaseTime.symm.trans htime)
    rw [advance, hkind] at hadvance
    obtain ⟨start, hstart, -, -, -, -, hnextTime⟩ := nextMonthDay_eq_ok hadvance
    obtain ⟨hhour, hminute, -, -⟩ := TimeOfDay.eq_toMinute_iff.1 hnextTime
    refine ⟨next, rfl, ?_⟩
    rcases monthSearchBase_eq_ok hstart with ⟨hrolling, due, hmem, hearly, hnanos⟩ | ⟨hlate, rfl⟩
    · have hdue := (mem_utcDue_iff hpriorDue).1 hmem
      rw [hinstant] at hearly
      exact .inr ⟨⟨hrolling, due, hdue, hearly⟩, due, start, hdue, hnanos, hhour, hminute⟩
    · refine .inl ⟨?_, hhour, hminute⟩
      rintro ⟨hrolling, due, hdue, hearly⟩
      have hpast := hlate hrolling due ((mem_utcDue_iff hpriorDue).2 hdue)
      omega

end Chore

/-- **The time of day and the last second of a minute.** For a chore on a day of listed months that
has no due date, or one at the configured hour, minute and second, the next due date is at the
configured hour and minute again, unless that second is the last of its minute and the chore is a
rolling one that is completed early. -/
theorem sameMinute_nextDue_iff [ZoneTable] {chore : Chore} {completedAt : Timestamp}
    {nextDueDate : Option Moment} {time : TimeOfDay} (hkind : chore.kind = .dayOfTheMonth)
    (htime : chore.details.configuredTime = .ok time)
    (hdue : ∀ due, chore.IsDue due → due.time.hour = time.hour ∧ due.time.minute = time.minute ∧
      due.time.second = time.second)
    (hnext : chore.nextDue completedAt = .ok nextDueDate) :
    ∃ next, nextDueDate = some next ∧
      (next.time.hour = time.hour ∧ next.time.minute = time.minute ↔
        ¬(time.second = 59 ∧ chore.isRolling = true ∧
          ∃ due, chore.IsDue due ∧ completedAt.instant < due.nanos + seconds 1)) := by
  obtain ⟨next, hsome, hminute⟩ := Chore.sameMinute_nextDue hkind htime hnext
  refine ⟨next, hsome, ?_⟩
  rcases hminute with ⟨honTime, hsame⟩ | ⟨hearly, due, justAfter, hisDue, hnanos, hsame⟩
  · exact iff_of_true hsame fun hlast => honTime hlast.2
  · obtain ⟨hhour, hdueMinute, hsecond⟩ := hdue due hisDue
    have htimeDue : time.SameMinute due.time := ⟨hhour.symm, hdueMinute.symm⟩
    calc next.time.SameMinute time
      _ ↔ justAfter.time.SameMinute due.time := TimeOfDay.sameMinute_congr hsame htimeDue
      _ ↔ time.second ≠ 59 := by rw [Moment.sameMinute_of_second_later hnanos, hsecond]
      _ ↔ _ := not_congr (and_iff_left hearly).symm

theorem eq_of_books_isDue {due : Moment} (hdue : books.IsDue due) :
    due = (timeOf "2025-01-31T23:59:59Z").wall := by
  have hbooks : books.IsDue (timeOf "2025-01-31T23:59:59Z").wall :=
    ⟨_, rfl, by decide +kernel⟩
  exact hdue.eq hbooks

theorem books_keep_their_minute_when_late :
    books.details.configuredTime = .ok (timeOf "2025-01-31T23:59:59Z").wall.time ∧
      books.IsDue (timeOf "2025-01-31T23:59:59Z").wall ∧
      books.nextDue (timeOf "2025-02-03T08:00:00Z") =
        .ok (some (timeOf "2025-02-28T23:59:00Z").wall) ∧
      (timeOf "2025-02-28T23:59:00Z").wall.time.hour =
        (timeOf "2025-01-31T23:59:59Z").wall.time.hour ∧
      (timeOf "2025-02-28T23:59:00Z").wall.time.minute =
        (timeOf "2025-01-31T23:59:59Z").wall.time.minute := by
  have htime : books.details.configuredTime =
      .ok (timeOf "2025-01-31T23:59:59Z").wall.time := rfl
  have hnext : books.nextDue (timeOf "2025-02-03T08:00:00Z") =
      .ok (some (timeOf "2025-02-28T23:59:00Z").wall) := by decide +kernel
  obtain ⟨next, hsome, hminute⟩ := sameMinute_nextDue_iff rfl htime
    (fun due hdue => by rw [eq_of_books_isDue hdue]; exact ⟨rfl, rfl, rfl⟩) hnext
  obtain rfl := Option.some.inj hsome
  refine ⟨htime, ⟨_, rfl, by decide +kernel⟩, hnext, hminute.2 ?_⟩
  rintro ⟨-, -, due, hdue, hearly⟩
  rw [eq_of_books_isDue hdue] at hearly
  revert hearly
  decide +kernel

/-- Balanced early, they are due at the minute after it, which is the first one of the day. -/
theorem books_lose_their_minute_when_early :
    books.details.configuredTime = .ok (timeOf "2025-01-31T23:59:59Z").wall.time ∧
      books.IsDue (timeOf "2025-01-31T23:59:59Z").wall ∧
      books.nextDue (timeOf "2025-01-20T08:00:00Z") =
        .ok (some (timeOf "2025-02-28T00:00:00Z").wall) ∧
      (timeOf "2025-02-28T00:00:00Z").wall.time.hour ≠
        (timeOf "2025-01-31T23:59:59Z").wall.time.hour ∧
      (timeOf "2025-02-28T00:00:00Z").wall.time.minute ≠
        (timeOf "2025-01-31T23:59:59Z").wall.time.minute :=
  ⟨rfl, ⟨_, rfl, by decide +kernel⟩, by decide +kernel, by decide +kernel, by decide +kernel⟩

end ChoreRota
