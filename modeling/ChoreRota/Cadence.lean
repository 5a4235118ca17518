import ChoreRota.Chore.Basic
import ChoreRota.Fault
import ChoreRota.Numeric.Binary64

/-!
# The cadence of a chore

The average of the gaps between the completions so far, in which each gap weighs half as much as the
one after it, reckoned in doubles. Without any gap the distance from the prior due date to the
completion is repeated.
-/

namespace ChoreRota.Cadence

/-- Nanoseconds as seconds in a double. -/
def inSeconds (nanos : Int) : Rat :=
  Binary64.add (Binary64.round (nanos.tdiv 1000000000))
    (Binary64.div (Binary64.round (nanos.tmod 1000000000)) 1000000000)

/-- The weight of the gap at a position, the latest gap being at 0. -/
def weight (position : Nat) : Rat :=
  Binary64.round (Binary64.twoPow (-position))

/-- The gaps between neighbouring moments that are both known, each with its position. -/
def gapsFrom (position : Nat) : List (Option Int) → List (Nat × Int)
  | some newer :: some older :: rest =>
    (position, newer - older) :: gapsFrom (position + 1) (some older :: rest)
  | _ :: rest => gapsFrom (position + 1) rest
  | [] => []

def gaps (completedAt : Moment) (history : List HistoryRow) : List (Nat × Int) :=
  gapsFrom 0
    (some completedAt.nanos :: history.map fun row => row.performedAt.map Timestamp.instant)

def weightedSum (gaps : List (Nat × Int)) : Rat :=
  gaps.foldl (fun sum gap => Binary64.add sum (Binary64.mul (inSeconds gap.2) (weight gap.1))) 0

def totalWeight (gaps : List (Nat × Int)) : Rat :=
  gaps.foldl (fun sum gap => Binary64.add sum (weight gap.1)) 0

def averageSeconds (gaps : List (Nat × Int)) : Int :=
  Binary64.truncate (Binary64.div (weightedSum gaps) (totalWeight gaps))

/-- As long after the completion as that was after the prior due date. -/
def repeatGap (priorDue : Option Timestamp) (completedAt : Moment) :
    Except Fault (Option Moment) :=
  match priorDue with
  | none => .ok none
  | some due =>
    match due.toUtc? with
    | none => .error .offCalendar
    | some due => .ok (completedAt.shift? (completedAt.nanos - due.nanos))

def nextAfter (priorDue : Option Timestamp) (completedAt : Moment) (history : List HistoryRow) :
    Except Fault (Option Moment) :=
  match gaps completedAt history with
  | [] => repeatGap priorDue completedAt
  | found => .ok (completedAt.shift? (seconds (averageSeconds found)))

/-- The next due date after a completion, given the rows before it, latest first. -/
def nextDue (priorDue : Option Timestamp) (completedAt : Timestamp) (history : List HistoryRow) :
    Except Fault (Option Moment) :=
  match completedAt.toUtc? with
  | none => .error .offCalendar
  | some moment => nextAfter priorDue moment history

end ChoreRota.Cadence
