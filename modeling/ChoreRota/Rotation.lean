import ChoreRota.Chore.Basic
import ChoreRota.Fault
import ChoreRota.Chance.Source

/-!
# Who does a chore next

A strategy that counts looks at current assignees only, and gives a tie to the one listed first. The
removal of a user re-points the assignment.
-/

namespace ChoreRota

open Chance (Source choose)

namespace Rotation

/-- One more for the first entry of a user, if there is one. -/
def countKey (key : UserId) : List (UserId × Nat) → List (UserId × Nat)
  | [] => []
  | (user, count) :: rest =>
    if user = key then (user, count + 1) :: rest else (user, count) :: countKey key rest

def tallies (assignees keys : List UserId) : List (UserId × Nat) :=
  keys.foldl (fun entries key => countKey key entries) (assignees.map fun user => (user, 0))

/-- The first entry with the smallest tally, where `best` is ahead of the list. -/
def fewest (best : UserId × Nat) : List (UserId × Nat) → UserId × Nat
  | [] => best
  | entry :: rest => fewest (if entry.2 < best.2 then entry else best) rest

def leastCounted (assignees keys : List UserId) : Except Fault UserId :=
  match tallies assignees keys with
  | [] => .error .noAssignees
  | first :: rest => .ok (fewest first rest).1

/-- The user listed after the current one, or the first if nobody listed is current. -/
def following (assignees : List UserId) (current : Option UserId) : Except Fault UserId :=
  let index :=
    match current.bind fun user => assignees.findIdx? (· == user) with
    | some index => (index + 1) % assignees.length
    | none => 0
  match assignees[index]? with
  | some user => .ok user
  | none => .error .noAssignees

def chooseOr (missing : Fault) (users : List UserId) (source : Source) :
    Except Fault (Option UserId) × Source :=
  match choose users source with
  | (some user, source) => (.ok (some user), source)
  | (none, source) => (.error missing, source)

/-- The users that the rows were assigned to; without rows, the performer counts as one. -/
def assignedKeys (performer : UserId) (history : List HistoryRow) : List UserId :=
  if history.isEmpty then [performer] else history.filterMap (·.assignedTo)

def completedKeys (history : List HistoryRow) : List UserId :=
  history.filterMap (·.completedBy)

end Rotation

open Rotation

def Chore.nextAssignee (chore : Chore) (history : List HistoryRow) (performer : UserId)
    (source : Source) : Except Fault (Option UserId) × Source :=
  match chore.strategy with
  | .leastAssigned =>
    ((leastCounted chore.assignees (assignedKeys performer history)).map some, source)
  | .leastCompleted => ((leastCounted chore.assignees (completedKeys history)).map some, source)
  | .random => chooseOr .noAssignees chore.assignees source
  | .keepLastAssigned => (.ok chore.assignedTo, source)
  | .randomExceptLastAssigned =>
    chooseOr .onlyLastAssigned (chore.assignees.filter fun user => some user != chore.assignedTo)
      source
  | .roundRobin => ((following chore.assignees chore.assignedTo).map some, source)
  | .noAssignee => (.ok none, source)

/-- The chore without a user among its assignees, assigned to one of those left, or to its creator
when nobody is left. -/
def Chore.removeAssignee (chore : Chore) (user : UserId) (source : Source) : Chore × Source :=
  let assignees := chore.assignees.filter (· != user)
  let (assignedTo, source) :=
    if chore.strategy = .noAssignee then (none, source)
    else if assignees.isEmpty then (some chore.createdBy, source)
    else choose assignees source
  ({ chore with assignees, assignedTo }, source)

end ChoreRota
