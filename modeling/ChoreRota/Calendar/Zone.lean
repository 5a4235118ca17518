import ChoreRota.Calendar.Moment

/-!
# Time zones

A zone is an offset for the earliest times and a list of transitions, each of which sets the offset
from one second of universal time on. Which zones there are, and by which names, is given by a
`ZoneTable`.
-/

namespace ChoreRota

/-- From `start`, in seconds since the start of 1970 in UTC, clocks are `offset` seconds ahead. -/
structure Transition where
  start : Int
  offset : Int
  deriving DecidableEq, Repr

/-- A clock is less than 26 hours ahead of UTC or behind it. -/
def IsClockOffset (offset : Int) : Prop :=
  -93600 < offset ∧ offset < 93600

instance (offset : Int) : Decidable (IsClockOffset offset) :=
  inferInstanceAs (Decidable (_ ∧ _))

structure Zone where
  initial : Int
  transitions : List Transition
  sorted : transitions.Pairwise fun earlier later => earlier.start ≤ later.start
  bounded : ∀ offset ∈ initial :: transitions.map Transition.offset, IsClockOffset offset
  deriving DecidableEq, Repr

/-- The zones that can be named. A name has to be written exactly. -/
class ZoneTable where
  named? : String → Option Zone

namespace Zone

/-- The offset in force after some transitions in order of time, the first of which are past. -/
def offsetAfter (second : Int) (offset : Int) : List Transition → Int
  | [] => offset
  | transition :: rest =>
    if transition.start ≤ second then offsetAfter second transition.offset rest else offset

def offsetAt (zone : Zone) (instant : Int) : Int :=
  offsetAfter (instant / 1000000000) zone.initial zone.transitions

def clockAt? (zone : Zone) (timestamp : Timestamp) : Option Timestamp :=
  timestamp.withOffset? (zone.offsetAt timestamp.instant)

end Zone

inductive SundayRule where
  | onOrAfter (day : Int)
  | last
  deriving DecidableEq, Repr

/-- The first Sunday on or after a day, counted from 1 January 1970, a Thursday. -/
def sundayFrom (day : Int) : Int :=
  day + (3 - day) % 7

def SundayRule.dayIn (rule : SundayRule) (month : Month) : Int :=
  match rule with
  | .onOrAfter day => sundayFrom (month.start + (day - 1))
  | .last => sundayFrom (month.start + month.length - 7)

/-- A rule that changes the offset once a year, `second` seconds after the start of a Sunday. -/
structure YearlyChange where
  month : Int
  sunday : SundayRule
  second : Int
  offset : Int
  deriving DecidableEq, Repr

def YearlyChange.inYear (change : YearlyChange) (year : Int) : Transition :=
  ⟨change.sunday.dayIn (Month.ofYear year change.month) * 86400 + change.second, change.offset⟩

def yearlyTransitions (first last : Int) (changes : List YearlyChange) : List Transition :=
  (List.range (last - first + 1).toNat).flatMap fun elapsed =>
    changes.map fun change => change.inYear (first + elapsed)

end ChoreRota
