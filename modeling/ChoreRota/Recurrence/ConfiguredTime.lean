import ChoreRota.Calendar.Rfc3339
import ChoreRota.Chore.Basic
import ChoreRota.Fault
import ChoreRota.Text.Split

/-!
# The configured time of day

A time of day is written as a whole timestamp, of which only the clock in UTC counts, or as hours
and minutes, perhaps seconds, and perhaps an offset: `18:00`, `6:30:00Z`, `18:00-05:00`.
-/

namespace ChoreRota

namespace TimeOfDay

def component? (chars : List Char) : Option Nat :=
  if chars ≠ [] ∧ chars.length ≤ 2 ∧ chars.all Text.isDigit then some (Text.digitsValue chars)
  else none

def clock? (chars : List Char) : Option TimeOfDay :=
  match Text.splitWhere (· == ':') chars with
  | [hour, minute] => do
    ofClock? (← component? hour) (← component? minute) 0 0
  | [hour, minute, second] => do
    ofClock? (← component? hour) (← component? minute) (← component? second) 0
  | _ => none

def offsetClock? (chars : List Char) : Option Int :=
  match Text.splitFirst? (· == ':') chars with
  | some (hour, minute) => do
    let hour ← component? hour
    let minute ← component? minute
    if hour ≤ 25 ∧ minute ≤ 59 then return (hour * 3600 + minute * 60 : Nat) else none
  | none => none

def isSign (c : Char) : Bool :=
  c == '+' || c == '-'

/-- Splits an offset off the end of a text; what comes before a sign may not be empty. -/
def splitOffset? (chars : List Char) : Option (List Char × Int) :=
  match chars.reverse with
  | 'Z' :: clock => some (clock.reverse, 0)
  | 'z' :: clock => some (clock.reverse, 0)
  | reversed =>
    match reversed.dropWhile (!isSign ·) with
    | [] => some (chars, 0)
    | [_] => none
    | sign :: clock =>
      (offsetClock? (reversed.takeWhile (!isSign ·)).reverse).map fun offset =>
        (clock.reverse, if sign = '-' then -offset else offset)

/-- A time of day written without a date, in UTC. -/
def bare? (chars : List Char) : Option TimeOfDay := do
  let (clock, offset) ← splitOffset? chars
  let time ← clock? clock
  return time.turn (seconds (-offset))

def read (text : String) : Except Fault TimeOfDay :=
  match Rfc3339.read (Text.trim text) with
  | .ok timestamp =>
    match timestamp.toUtc? with
    | some moment => .ok moment.time
    | none => .error .offCalendar
  | .error _ =>
    match bare? (Text.trim text).toList with
    | some time => .ok time
    | none => .error (.badTime text)

end TimeOfDay

def FrequencyDetails.configuredTime (details : FrequencyDetails) : Except Fault TimeOfDay :=
  match details.time with
  | none => .error .timeMissing
  | some text => if (Text.trim text).isEmpty then .error .timeMissing else TimeOfDay.read text

end ChoreRota
