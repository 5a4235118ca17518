import ChoreRota.Settings.Config
import ChoreRota.Text.Split

/-!
# Overrides

Settings given one by one as `KEY=VALUE`. A key may be written in any case and with any signs
between its words; later overrides of a setting replace earlier ones.
-/

namespace ChoreRota

inductive Override where
  | historyWindow (count : UInt64)
  | randomSeed (seed : UInt64)
  deriving DecidableEq, Repr

inductive OverrideFault where
  | noSeparator
  | emptyKey
  | badWindow (key value : String)
  | badSeed (key value : String)
  | unknownKey (key : String)
  deriving DecidableEq, Repr

def OverrideFault.message : OverrideFault → String
  | .noSeparator => "override must be in KEY=VALUE format"
  | .emptyKey => "override key cannot be empty"
  | .badWindow key value => key ++ " must be a positive integer, got '" ++ value ++ "'"
  | .badSeed key value => key ++ " must be an unsigned integer, got '" ++ value ++ "'"
  | .unknownKey key => "unknown config field '" ++ key ++ "'"

/-- The name of a key as far as the key has been taken up, the last character first. -/
structure KeyName where
  reversed : List Char
  afterUnderscore : Bool
  deriving DecidableEq, Repr

namespace KeyName

def start : KeyName :=
  ⟨[], false⟩

/-- Takes up one more character of a key. Letters and digits are kept, in lower case; anything else
leaves an underscore, but none in front of the name and none behind another. -/
def takeUp (name : KeyName) (c : Char) : KeyName :=
  if c.isAlphanum then ⟨c.toLower :: name.reversed, false⟩
  else if !name.afterUnderscore && !name.reversed.isEmpty then ⟨'_' :: name.reversed, true⟩
  else name

end KeyName

namespace Override

/-- What a key comes to, without underscores at its ends; some keys have no name. -/
def canonicalKey? (key : List Char) : Option String :=
  match Text.stripped (· == '_') (key.foldl KeyName.takeUp .start).reversed.reverse with
  | [] => none
  | name => some (String.ofList name)

def ofKey (key value : String) : Except OverrideFault Override :=
  let number := (Text.readUnsigned value.toList).toOption
  if key = "adaptive_history_window" ∨ key = "adaptive_window" then
    match number with
    | some (count + 1) => .ok (.historyWindow (UInt64.ofNat (count + 1)))
    | _ => .error (.badWindow key value)
  else if key = "random_seed" ∨ key = "seed" then
    match number with
    | some seed => .ok (.randomSeed (UInt64.ofNat seed))
    | none => .error (.badSeed key value)
  else .error (.unknownKey key)

/-- Reads an override; what comes after the first equals sign is its value. -/
def read (text : String) : Except OverrideFault Override :=
  match Text.splitFirst? (· == '=') (Text.trimmed text.toList) with
  | none => .error .noSeparator
  | some (key, value) =>
    match canonicalKey? key with
    | none => .error .emptyKey
    | some key => ofKey key (String.ofList (Text.trimmed value))

end Override

structure Overrides where
  historyWindow : Option UInt64
  randomSeed : Option UInt64
  deriving DecidableEq, Repr

namespace Overrides

def none : Overrides :=
  ⟨.none, .none⟩

def put (overrides : Overrides) : Override → Overrides
  | .historyWindow count => { overrides with historyWindow := some count }
  | .randomSeed seed => { overrides with randomSeed := some seed }

def collectFrom (overrides : Overrides) : List String → Except OverrideFault Overrides
  | [] => .ok overrides
  | text :: rest =>
    match Override.read text with
    | .error fault => .error fault
    | .ok override => collectFrom (overrides.put override) rest

def collect (texts : List String) : Except OverrideFault Overrides :=
  collectFrom none texts

end Overrides

def Config.merge (config : Config) (overrides : Overrides) : Config where
  historyWindow := overrides.historyWindow.or config.historyWindow
  randomSeed := overrides.randomSeed.or config.randomSeed

end ChoreRota
