import ChoreRota.CommandLine.Table
import ChoreRota.Storage.SnapshotText

/-!
# Reports

What commands print, as lines of text or as one line of JSON. A line is missing when a date in it
cannot be shown; printing then stops short, with the lines before it already out.
-/

namespace ChoreRota.CommandLine

/-- Lines to print, the first missing one of which ends the program. -/
abbrev Lines := List (Option String)

/-- The date and time on a clock that is `offset` seconds ahead, if its date is in the calendar. -/
def localText (offset : Int) : Option Timestamp → Option String
  | none => some "-"
  | some timestamp =>
    (timestamp.withOffset? offset).map fun shown =>
      let date := shown.wall.date
      let time := shown.wall.time
      String.ofList <|
        (if date.year < 0 then ['-'] else []) ++ Text.padded 4 date.year.natAbs ++
          '-' :: Text.padded 2 date.month.number.toNat ++ '-' :: Text.padded 2 date.day.toNat ++
          ' ' :: Text.padded 2 time.hour ++ ':' :: Text.padded 2 time.minute ++
          ' ' :: (if offset < 0 then '-' else '+') :: Text.padded 2 (offset.natAbs / 3600) ++
          ':' :: Text.padded 2 (offset.natAbs / 60 % 60)

def userText : Option UserId → String
  | none => "-"
  | some user => toString user.toInt

def jsonLine (json : Except EncodeFault Json) : Lines :=
  match json with
  | .ok json => [some json.sorted.compact]
  | .error _ => [none]

def labelled (label : String) (value : Option String) : Option String :=
  value.map (label ++ ·)

def choreTitle (chore : Chore) : String :=
  chore.name ++ " (" ++ toString chore.id.toInt ++ ")"

def dryRunLine : String := "Dry run, pass --apply to save"

def decisionJson (chore : Chore) (decision : Decision) (applied : Bool) :
    Except EncodeFault Json := do
  let decision ← decision.toJson
  return .object [
    ("chore_id", Json.ofInt64 chore.id),
    ("applied", .bool applied),
    ("decision", decision)]

def decisionText (offset : Int) (verb : String) (chore : Chore) (decision : Decision)
    (applied : Bool) : Lines :=
  [some (verb ++ " chore: " ++ choreTitle chore),
    some ("Status: " ++ decision.status.name),
    labelled "Next due: " (localText offset (decision.nextDueDate.map Timestamp.ofUtc)),
    some ("Next assignee: " ++ userText decision.nextAssignee)] ++
  (if decision.becomesDormant then
    [some "Chore has no further occurrence and is now inactive"] else []) ++
  (if applied then [] else [some dryRunLine])

def decisionLines (json : Bool) (offset : Int) (verb : String) (chore : Chore)
    (decision : Decision) (applied : Bool) : Lines :=
  if json then jsonLine (decisionJson chore decision applied)
  else decisionText offset verb chore decision applied

def removalJson (chore : Chore) (applied : Bool) : Json :=
  .object [
    ("chore_id", Json.ofInt64 chore.id),
    ("applied", .bool applied),
    ("assignees", .array (chore.assignees.map Json.ofInt64)),
    ("assigned_to", Json.ofOption Json.ofInt64 chore.assignedTo)]

def removalText (user : UserId) (chore : Chore) (applied : Bool) : Lines :=
  [some ("Removed user " ++ toString user.toInt ++ " from chore: " ++ choreTitle chore),
    some ("Assigned to: " ++ userText chore.assignedTo)] ++
  (if applied then [] else [some dryRunLine])

def removalLines (json : Bool) (user : UserId) (chore : Chore) (applied : Bool) : Lines :=
  if json then jsonLine (.ok (removalJson chore applied)) else removalText user chore applied

def snapshotJson (snapshot : Snapshot) : Except EncodeFault Json := do
  let chore ← snapshot.chore.toJson
  let history ← snapshot.historyJson
  return .object [("chore", chore), ("history", history)]

def scheduleText (chore : Chore) : String :=
  if chore.kind.isOneShot then "one-shot" else if chore.isRolling then "rolling" else "fixed"

def assigneesText (assignees : List UserId) : String :=
  if assignees.isEmpty then "-"
  else ", ".intercalate (assignees.map fun user => toString user.toInt)

def tableHeader : List String :=
  ["performed at", "due", "by", "assigned", "status", "note"]

def rowCells (offset : Int) (row : HistoryRow) : Option (List String) := do
  let performedAt ← localText offset row.performedAt
  let dueDate ← localText offset row.dueDate
  return [performedAt, dueDate, userText row.completedBy, userText row.assignedTo,
    row.status.name, row.note.getD ""]

def historyText (offset : Int) (history : List HistoryRow) : Option String :=
  if history.isEmpty then some "No history yet"
  else (history.mapM (rowCells offset)).map (table tableHeader)

def snapshotText (offset : Int) (snapshot : Snapshot) : Lines :=
  let chore := snapshot.chore
  [some (choreTitle chore),
    some ("Frequency: " ++ chore.kind.name ++ " (" ++ scheduleText chore ++ ")"),
    labelled "Next due: " (localText offset chore.dueDate),
    some ("Assigned to: " ++ userText chore.assignedTo),
    some ("Assignees: " ++ assigneesText chore.assignees),
    some ("Strategy: " ++ chore.strategy.name),
    some ("Active: " ++ (if chore.isActive then "yes" else "no")),
    historyText offset snapshot.history]

def snapshotLines (json : Bool) (offset : Int) (snapshot : Snapshot) : Lines :=
  if json then jsonLine (snapshotJson snapshot) else snapshotText offset snapshot

end ChoreRota.CommandLine
