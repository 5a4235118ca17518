import ChoreRota.Calendar.Zone.Table
import ChoreRota.CommandLine.Run
import Std.Time.Zoned

/-!
# The program

Reads the files that the command line names, runs it, writes what it changed and prints what it
reports.
-/

namespace ChoreRota.Program

def readFile? (path : String) : IO (Option (String × String)) := do
  try
    let text ← IO.FS.readFile path
    return some (path, text)
  catch _ => return none

def timestampOf (clock : Std.Time.Timestamp) : IO Timestamp :=
  match Moment.ofNanos? clock.toNanosecondsSinceUnixEpoch.val with
  | some moment => return .ofUtc moment
  | none => throw (IO.userError "the clock lies outside the calendar")

/-- How far the local clock is ahead of UTC, in seconds; not at all if that is unknown. -/
def localOffset (clock : Std.Time.Timestamp) : IO Int := do
  try
    let rules ← Std.Time.Database.defaultGetLocalZoneRules
    return (rules.findLocalTimeTypeForTimestamp clock).gmtOffset.second.val
  catch _ => return 0

def randomSeed : IO UInt64 := do
  let bytes ← IO.getRandomBytes 8
  return bytes.foldl (fun seed byte => seed * 256 + byte.toUInt64) 0

def run (arguments : List String) : IO UInt32 := do
  let configPath := Config.path (← IO.getEnv "CHORES_CONFIG_PATH") (← IO.getEnv "HOME")
  let files ← (CommandLine.neededPaths configPath arguments).filterMapM readFile?
  let clock ← Std.Time.Timestamp.now
  let world : CommandLine.World :=
    ⟨configPath, files, ← localOffset clock, ← timestampOf clock, .seeded (← randomSeed)⟩
  let outcome := CommandLine.run world arguments
  for (path, text) in CommandLine.changedFiles files outcome.files do
    IO.FS.writeFile path text
  if outcome.isConfigRejected then IO.eprintln "WARN could not read config, using defaults"
  IO.print outcome.output
  match outcome.ending with
  | .completed => return 0
  | .refused report =>
    IO.eprintln report
    return 1
  | .crashed => return 101

end ChoreRota.Program

def main (arguments : List String) : IO UInt32 :=
  ChoreRota.Program.run arguments
