import ChoreRota.Event
import ChoreRota.Json.Fields

/-!
# Settings

The settings that a configuration file can make, where that file is, and what counts when there is
none or a bad one.
-/

namespace ChoreRota

open Json (Reading RecordField Slot)

structure Config where
  historyWindow : Option UInt64
  randomSeed : Option UInt64
  deriving DecidableEq, Repr

inductive ConfigFault where
  | homeMissing
  | missingFile (path : String)
  | unreadable (path : String) (fault : Json.DecodeFault)
  | emptyWindow

namespace ConfigFault

def code : ConfigFault → FaultCode
  | .missingFile _ => .ioError
  | _ => .invalidData

def message : ConfigFault → String
  | .homeMissing => "HOME is not set"
  | .missingFile path => path ++ ": No such file or directory (os error 2)"
  | .unreadable path fault => "invalid JSON in " ++ path ++ ": " ++ fault.message
  | .emptyWindow => "adaptive_history_window must be at least 1"

end ConfigFault

namespace Config

def unset : Config :=
  ⟨none, none⟩

def historyWindowField : RecordField (Option UInt64) :=
  ⟨"adaptive_history_window", .optional (.uint64 "usize"), some none⟩

def randomSeedField : RecordField (Option UInt64) :=
  ⟨"random_seed", .optional (.uint64 "u64"), some none⟩

def slots : List Slot :=
  [historyWindowField.slot, randomSeedField.slot]

def reading : Reading Config := .record "Config" slots fun members => do
  return {
    historyWindow := ← historyWindowField.get members
    randomSeed := ← randomSeedField.get members }

def window (config : Config) : Nat :=
  match config.historyWindow with
  | some count => count.toNat
  | none => defaultWindow

def load (path : String) : Option String → Except ConfigFault Config
  | none => .error (.missingFile path)
  | some text =>
    match Json.decodeText reading text with
    | .error fault => .error (.unreadable path fault)
    | .ok config => if config.historyWindow = some 0 then .error .emptyWindow else .ok config

/-- The configuration to use, and the fault of a file that is there but cannot be used. -/
def loadOrUnset (path : String) (text : Option String) : Config × Option ConfigFault :=
  match text with
  | none => (unset, none)
  | some text =>
    match load path (some text) with
    | .ok config => (config, none)
    | .error fault => (unset, some fault)

def joinPath (directory name : String) : String :=
  if directory.isEmpty || directory.endsWith "/" then directory ++ name
  else directory ++ "/" ++ name

/-- Where the configuration file is: where the environment says, else below the home directory. -/
def path (configPath home : Option String) : Except ConfigFault String :=
  let belowHome : Except ConfigFault String :=
    match home with
    | none => .error .homeMissing
    | some home =>
      .ok (joinPath (joinPath (joinPath home ".config") "chores") "config.json")
  match configPath with
  | some path => if (Text.trim path).isEmpty then belowHome else .ok path
  | none => belowHome

end Config

end ChoreRota
