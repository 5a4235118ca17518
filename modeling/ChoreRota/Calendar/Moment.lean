import ChoreRota.Calendar.Date

/-!
# Readings of a calendar and a clock

A moment is a date and a time of day, with no say about where. Lengths of time are counted in
nanoseconds, and a moment is given by its distance from the start of 1970
(`Moment.ofNanos?_eq_some_iff`).
-/

namespace ChoreRota

def seconds (count : Int) : Int := count * 1000000000

def days (count : Int) : Int := count * 86400000000000

/-- A time of day, as nanoseconds since midnight. -/
structure TimeOfDay where
  nanos : Nat
  nanos_lt : nanos < 86400000000000
  deriving DecidableEq, Repr

namespace TimeOfDay

@[ext]
theorem eq_of_nanos {left right : TimeOfDay} (hnanos : left.nanos = right.nanos) :
    left = right := by
  cases left; cases right; simp_all

def hour (time : TimeOfDay) : Nat := time.nanos / 3600000000000

def minute (time : TimeOfDay) : Nat := time.nanos / 60000000000 % 60

def second (time : TimeOfDay) : Nat := time.nanos / 1000000000 % 60

def nanosecond (time : TimeOfDay) : Nat := time.nanos % 1000000000

/-- The time of day that a clock shows, with the part of the second that has passed. -/
def ofClock? (hour minute second nanosecond : Nat) : Option TimeOfDay :=
  if hvalid : hour < 24 ∧ minute < 60 ∧ second < 60 ∧ nanosecond < 1000000000 then
    some ⟨((hour * 60 + minute) * 60 + second) * 1000000000 + nanosecond, by omega⟩
  else none

/-- The same hour and minute, with no second begun. -/
def toMinute (time : TimeOfDay) : TimeOfDay :=
  ⟨time.nanos / 60000000000 * 60000000000, by have := time.nanos_lt; omega⟩

/-- The time of day some nanoseconds later, on whatever day that is. -/
def turn (time : TimeOfDay) (nanos : Int) : TimeOfDay :=
  ⟨((time.nanos + nanos) % 86400000000000).toNat, by omega⟩

end TimeOfDay

structure Moment where
  date : Date
  time : TimeOfDay
  deriving DecidableEq, Repr

namespace Moment

/-- Nanoseconds since the start of 1970. -/
def nanos (moment : Moment) : Int :=
  moment.date.dayNumber * 86400000000000 + moment.time.nanos

def ofNanos? (nanos : Int) : Option Moment :=
  (Date.ofDayNumber? (nanos / 86400000000000)).map fun date =>
    ⟨date, (nanos % 86400000000000).toNat, by omega⟩

def shift? (moment : Moment) (nanos : Int) : Option Moment :=
  ofNanos? (moment.nanos + nanos)

theorem eq_of_nanos {left right : Moment} (hnanos : left.nanos = right.nanos) : left = right := by
  have hleft := left.time.nanos_lt
  have hright := right.time.nanos_lt
  unfold nanos at hnanos
  have hday : left.date.dayNumber = right.date.dayNumber := by omega
  have htime : left.time.nanos = right.time.nanos := by omega
  cases left; cases right
  simp only [Moment.mk.injEq]
  exact ⟨Date.eq_of_dayNumber hday, TimeOfDay.eq_of_nanos htime⟩

theorem ofNanos?_eq_some_iff {nanos : Int} {moment : Moment} :
    ofNanos? nanos = some moment ↔ moment.nanos = nanos := by
  unfold ofNanos?
  simp only [Option.map_eq_some_iff]
  constructor
  · rintro ⟨date, hdate, rfl⟩
    rw [Date.ofDayNumber?_eq_some_iff] at hdate
    simp only [Moment.nanos, hdate]
    omega
  · rintro rfl
    have htime := moment.time.nanos_lt
    have hday : moment.nanos / 86400000000000 = moment.date.dayNumber := by
      unfold Moment.nanos; omega
    refine ⟨moment.date, Date.ofDayNumber?_eq_some_iff.2 hday.symm, ?_⟩
    apply eq_of_nanos
    simp only [Moment.nanos]
    omega

theorem shift?_eq_some_iff {moment result : Moment} {nanos : Int} :
    moment.shift? nanos = some result ↔ result.nanos = moment.nanos + nanos :=
  ofNanos?_eq_some_iff

def year (moment : Moment) : Int := moment.date.year

def month (moment : Moment) : Month := moment.date.month

def weekday (moment : Moment) : Weekday := moment.date.weekday

def atTime (moment : Moment) (time : TimeOfDay) : Moment :=
  ⟨moment.date, time⟩

def onDate (moment : Moment) (date : Date) : Moment :=
  ⟨date, moment.time⟩

end Moment

/-- A moment as shown on a clock that is some seconds ahead of UTC. -/
structure Timestamp where
  wall : Moment
  offset : Int
  deriving DecidableEq, Repr

namespace Timestamp

/-- Nanoseconds since the start of 1970 in UTC. -/
def instant (timestamp : Timestamp) : Int :=
  timestamp.wall.nanos - timestamp.offset * 1000000000

def ofUtc (moment : Moment) : Timestamp :=
  ⟨moment, 0⟩

/-- The same instant on a clock with another offset, if that clock's date is in the calendar. -/
def withOffset? (timestamp : Timestamp) (offset : Int) : Option Timestamp :=
  (Moment.ofNanos? (timestamp.instant + offset * 1000000000)).map fun wall => ⟨wall, offset⟩

def toUtc? (timestamp : Timestamp) : Option Moment :=
  Moment.ofNanos? timestamp.instant

def shift? (timestamp : Timestamp) (nanos : Int) : Option Timestamp :=
  (timestamp.wall.shift? nanos).map fun wall => ⟨wall, timestamp.offset⟩

theorem instant_ofUtc (moment : Moment) : (ofUtc moment).instant = moment.nanos := by
  simp [ofUtc, instant]

theorem toUtc?_ofUtc (moment : Moment) : (ofUtc moment).toUtc? = some moment := by
  rw [toUtc?, Moment.ofNanos?_eq_some_iff, instant_ofUtc]

end Timestamp

end ChoreRota
