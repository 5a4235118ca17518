import ChoreRota.CommandLine.Arguments
import ChoreRota.CommandLine.Report
import ChoreRota.Settings.Overrides

/-!
# Running a command

A command line as a function from the files, the clock and the settings around it to what it prints,
how it ends and the files after it. A command changes at most the snapshot that it names, and only
with `--apply`.
-/

namespace ChoreRota.CommandLine

open Chance (Source Stream)

/-- What a command line finds around it. Files are given by their paths; `entropy` is the stream to
choose from without a seed. -/
structure World where
  configPath : Except ConfigFault String
  files : List (String × String)
  localOffset : Int
  now : Timestamp
  entropy : Stream

/-- Why a command fails. A crash is not reported to anybody. -/
inductive CommandFault where
  | usage (fault : UsageFault)
  | override (fault : OverrideFault)
  | missingFile (path : String)
  | storage (fault : StorageFault)
  | badEventTime (text : String)
  | notAssignee (user : UserId)
  | engine (fault : Fault)

namespace CommandFault

def code : CommandFault → FaultCode
  | .usage _ | .override _ | .badEventTime _ | .notAssignee _ => .invalidInput
  | .missingFile _ => .ioError
  | .storage _ => .invalidData
  | .engine fault => fault.code

def message : CommandFault → String
  | .usage fault => fault.message
  | .override fault => fault.message
  | .missingFile path => path ++ ": No such file or directory (os error 2)"
  | .storage fault => fault.message
  | .badEventTime text => "invalid --at timestamp: " ++ text
  | .notAssignee user => "user " ++ toString user.toInt ++ " is not an assignee"
  | .engine fault => fault.message

def report (fault : CommandFault) : String :=
  "ERROR: " ++ fault.code.name ++ " - " ++ fault.message

end CommandFault

/-- How a run ends: well, refused with a report of the reason, or in a crash that nobody is told
the reason of. -/
inductive Ending where
  | completed
  | refused (report : String)
  | crashed
  deriving DecidableEq, Repr

structure Outcome where
  ending : Ending
  output : String
  isConfigRejected : Bool
  files : List (String × String)
  deriving DecidableEq, Repr

def replaceFile (files : List (String × String)) (path text : String) : List (String × String) :=
  files.map fun file => if file.1 = path then (path, text) else file

/-- The lines up to the first missing one, and whether one is missing. -/
def printed : Lines → String × Bool
  | [] => ("", false)
  | none :: _ => ("", true)
  | some line :: rest => (line ++ "\n" ++ (printed rest).1, (printed rest).2)

namespace Outcome

def failed (files : List (String × String)) (fault : CommandFault) : Outcome :=
  match fault with
  | .engine .offCalendar => ⟨.crashed, "", false, files⟩
  | fault => ⟨.refused fault.report, "", false, files⟩

def finished (files : List (String × String)) (lines : Lines) : Outcome :=
  let (output, isShort) := printed lines
  ⟨if isShort then .crashed else .completed, output, false, files⟩

end Outcome

/-- The configuration in force, and whether the file was there but could not be used. -/
def settings (world : World) (overrides : Overrides) : Config × Bool :=
  match world.configPath with
  | .error _ => (Config.unset.merge overrides, true)
  | .ok path =>
    let (config, fault) := Config.loadOrUnset path (world.files.lookup path)
    (config.merge overrides, fault.isSome)

def source (world : World) (config : Config) : Source :=
  match config.randomSeed with
  | some seed => .start (.seeded seed)
  | none => .start world.entropy

def eventTime (world : World) : Option String → Except CommandFault Timestamp
  | none => .ok world.now
  | some text =>
    match Rfc3339.read (Text.trim text) with
    | .ok timestamp => .ok timestamp
    | .error _ => .error (.badEventTime text)

def loadFile (world : World) (path : String) : Except CommandFault Snapshot :=
  match world.files.lookup path with
  | none => .error (.missingFile path)
  | some text => (Snapshot.load text).mapError .storage

def saveIf (apply : Bool) (world : World) (path : String) (snapshot : Snapshot) :
    Except CommandFault (List (String × String)) :=
  if apply then do
    let text ← snapshot.save.mapError .storage
    return replaceFile world.files path text
  else .ok world.files

inductive Summary where
  | decided (verb : String) (chore : Chore) (decision : Decision) (isSaved : Bool)
  | removed (user : UserId) (chore : Chore) (isSaved : Bool)
  | displayed (snapshot : Snapshot)
  deriving DecidableEq, Repr

def Summary.lines (json : Bool) (offset : Int) : Summary → Lines
  | .decided verb chore decision isSaved =>
    decisionLines json offset verb chore decision isSaved
  | .removed user chore isSaved => removalLines json user chore isSaved
  | .displayed snapshot => snapshotLines json offset snapshot

structure Effect where
  snapshot : Snapshot
  isSaved : Bool
  summary : Summary
  deriving DecidableEq, Repr

/-- What a decision comes to. Only a decision that is to be saved changes the snapshot. -/
def decisionEffect (verb : String) (snapshot : Snapshot) (decision : Decision)
    (performer : UserId) (performedAt : Timestamp) (note : Option String) (apply : Bool) : Effect :=
  let after := if apply then snapshot.apply decision performer performedAt note else snapshot
  ⟨after, apply, .decided verb after.chore decision apply⟩

def actionEffect [ZoneTable] (world : World) (config : Config) (snapshot : Snapshot) :
    Action → Except CommandFault Effect
  | .complete performer performedAt note apply => do
    let performedAt ← eventTime world performedAt
    let decision ← (snapshot.complete config.window performer performedAt
      (source world config)).1.mapError .engine
    return decisionEffect "Completed" snapshot decision performer performedAt note apply
  | .skip performer performedAt rotate apply => do
    let performedAt ← eventTime world performedAt
    let decision ← (snapshot.skip performer performedAt rotate
      (source world config)).1.mapError .engine
    return decisionEffect "Skipped" snapshot decision performer performedAt none apply
  | .unassign user apply =>
    if snapshot.chore.assignees.contains user then
      let chore := (snapshot.chore.removeAssignee user (source world config)).1
      .ok ⟨⟨chore, snapshot.history⟩, apply, .removed user chore apply⟩
    else .error (.notAssignee user)
  | .display => .ok ⟨snapshot, false, .displayed snapshot⟩

/-- Loads the snapshot, acts on it and saves it. What there is to report is printed after that. -/
def perform [ZoneTable] (world : World) (config : Config) (command : Command) :
    Except CommandFault (List (String × String) × Summary) := do
  let snapshot ← loadFile world command.file
  let effect ← actionEffect world config snapshot command.action
  let files ← saveIf effect.isSaved world command.file effect.snapshot
  return (files, effect.summary)

def runCommand [ZoneTable] (world : World) (command : Command) : Outcome :=
  match Overrides.collect command.overrides with
  | .error fault => .failed world.files (.override fault)
  | .ok overrides =>
    let (config, isRejected) := settings world overrides
    let outcome :=
      match perform world config command with
      | .error fault => Outcome.failed world.files fault
      | .ok (files, summary) =>
        .finished files (summary.lines command.json world.localOffset)
    { outcome with isConfigRejected := isRejected }

def versionLine : String := "chore_cli 0.0.1\n"

def usageLine : String := "Usage: chore_cli [OPTIONS] <COMMAND>\n"

def run [ZoneTable] (world : World) (arguments : List String) : Outcome :=
  match readArguments arguments with
  | .error (.rejected fault) => .failed world.files (.usage fault)
  | .error .help => ⟨.completed, usageLine, false, world.files⟩
  | .error .version => ⟨.completed, versionLine, false, world.files⟩
  | .ok command => runCommand world command

/-- The paths of the configuration file and of the snapshot that the arguments name. -/
def neededPaths (configPath : Except ConfigFault String) (arguments : List String) :
    List String :=
  let config := match configPath with | .ok path => [path] | .error _ => []
  let snapshot :=
    match readArguments arguments with | .ok command => [command.file] | .error _ => []
  (config ++ snapshot).eraseDups

def changedFiles (before after : List (String × String)) : List (String × String) :=
  after.filter fun file => before.lookup file.1 != some file.2

end ChoreRota.CommandLine
