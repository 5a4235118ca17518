import ChoreRota.Chore.Kind
import ChoreRota.Text.Classes
import ChoreRota.Text.Digits

/-!
# Command line arguments

Arguments are taken from left to right; the value of an option is judged when the next known
argument comes along, so an unknown argument is reported before a bad value in front of it. `--json`
and `--config-override` may stand on both sides of the command; then the overrides behind it count.
-/

namespace ChoreRota.CommandLine

inductive CommandName where
  | complete | skip | unassign | display
  deriving DecidableEq, Repr

def CommandName.named? : String → Option CommandName
  | "complete" => some .complete
  | "skip" => some .skip
  | "unassign" => some .unassign
  | "show" => some .display
  | _ => none

inductive Parameter where
  | file | performer | performedAt | note | user | configOverride
  deriving DecidableEq, Repr

def Parameter.usage : Parameter → String
  | .file => "<FILE>"
  | .performer => "--by <USER_ID>"
  | .performedAt => "--at <AT>"
  | .note => "--note <NOTE>"
  | .user => "--user <USER_ID>"
  | .configOverride => "--config-override <KEY=VALUE>"

inductive Switch where
  | json | apply | rotate | help | version
  deriving DecidableEq, Repr

def Switch.usage : Switch → String
  | .json => "--json"
  | .apply => "--apply"
  | .rotate => "--rotate"
  | .help => "--help"
  | .version => "--version"

inductive UsageFault where
  | noArguments
  | commandMissing
  | unknownCommand (name : String)
  | unexpectedArgument (argument : String)
  | unexpectedValue (value : String) (switch : Switch)
  | valueMissing (parameter : Parameter)
  | badInteger (value : String) (parameter : Parameter) (fault : Text.IntegerFault)
  | repeated (usage : String)
  | requiredMissing
  deriving DecidableEq, Repr

namespace UsageFault

def fullMessage : UsageFault → String
  | .noArguments => "Usage: chore_cli [OPTIONS] <COMMAND>"
  | .commandMissing => "'chore_cli' requires a subcommand but one was not provided"
  | .unknownCommand name => "unrecognized subcommand '" ++ name ++ "'"
  | .unexpectedArgument argument => "unexpected argument '" ++ argument ++ "' found"
  | .unexpectedValue value switch =>
    "unexpected value '" ++ value ++ "' for '" ++ switch.usage ++
      "' found; no more were expected"
  | .valueMissing parameter =>
    "a value is required for '" ++ parameter.usage ++ "' but none was supplied"
  | .badInteger value parameter fault =>
    "invalid value '" ++ value ++ "' for '" ++ parameter.usage ++ "': " ++ fault.message
  | .repeated usage => "the argument '" ++ usage ++ "' cannot be used multiple times"
  | .requiredMissing => "the following required arguments were not provided:"

/-- A character that a message shows: anything but a control character that is no space. -/
def isShown (c : Char) : Bool :=
  (32 ≤ c.toNat && c.toNat != 127) || Text.isBlank c

def message (fault : UsageFault) : String :=
  String.ofList <| Text.trimmed <| (fault.fullMessage.toList.takeWhile (· != '\n')).filter isShown

end UsageFault

inductive Stop where
  | rejected (fault : UsageFault)
  | help
  | version
  deriving DecidableEq, Repr

/-- What arguments on one side of a command say so far. A parameter without a value waits for one;
one with a value has yet to be judged. -/
structure Collected where
  pending : Option (Parameter × Option String)
  file : Option String
  hasFile : Bool
  performer : Option Int64
  performedAt : Option String
  note : Option String
  user : Option Int64
  overrides : List String
  json : Bool
  apply : Bool
  rotate : Bool
  deriving DecidableEq, Repr

namespace Collected

def start : Collected :=
  ⟨none, none, false, none, none, none, none, [], false, false, false⟩

def readUser (value : String) (parameter : Parameter) : Except Stop Int64 :=
  match Text.readSigned value.toList with
  | .ok id => .ok (Int64.ofInt id)
  | .error fault => .error (.rejected (.badInteger value parameter fault))

def once {α : Type} (given : Option α) (usage : String) : Except Stop Unit :=
  if given.isSome then .error (.rejected (.repeated usage)) else .ok ()

def assign (collected : Collected) (parameter : Parameter) (value : String) :
    Except Stop Collected :=
  match parameter with
  | .file =>
    if value.isEmpty then .error (.rejected (.valueMissing .file))
    else .ok { collected with file := some value }
  | .performer => do
    once collected.performer parameter.usage
    return { collected with performer := some (← readUser value parameter) }
  | .performedAt => do
    once collected.performedAt parameter.usage
    return { collected with performedAt := some value }
  | .note => do
    once collected.note parameter.usage
    return { collected with note := some value }
  | .user => do
    once collected.user parameter.usage
    return { collected with user := some (← readUser value parameter) }
  | .configOverride => .ok { collected with overrides := collected.overrides ++ [value] }

def resolve (collected : Collected) : Except Stop Collected :=
  match collected.pending with
  | none => .ok collected
  | some (parameter, none) => .error (.rejected (.valueMissing parameter))
  | some (parameter, some value) => ({ collected with pending := none }).assign parameter value

def isWaiting (collected : Collected) : Bool :=
  match collected.pending with
  | some (_, none) => true
  | _ => false

def turnOn (collected : Collected) (switch : Switch) : Except Stop Collected := do
  let collected ← collected.resolve
  match switch with
  | .json =>
    if collected.json then throw (.rejected (.repeated switch.usage))
    return { collected with json := true }
  | .apply =>
    if collected.apply then throw (.rejected (.repeated switch.usage))
    return { collected with apply := true }
  | .rotate =>
    if collected.rotate then throw (.rejected (.repeated switch.usage))
    return { collected with rotate := true }
  | .help => throw .help
  | .version => throw .version

end Collected

inductive LongName where
  | parameter (parameter : Parameter)
  | switch (switch : Switch)

def longName? (command : Option CommandName) (name : String) : Option LongName :=
  match name, command with
  | "json", _ => some (.switch .json)
  | "config-override", _ => some (.parameter .configOverride)
  | "help", _ => some (.switch .help)
  | "version", none => some (.switch .version)
  | "by", some .complete => some (.parameter .performer)
  | "at", some .complete => some (.parameter .performedAt)
  | "note", some .complete => some (.parameter .note)
  | "apply", some .complete => some (.switch .apply)
  | "by", some .skip => some (.parameter .performer)
  | "at", some .skip => some (.parameter .performedAt)
  | "rotate", some .skip => some (.switch .rotate)
  | "apply", some .skip => some (.switch .apply)
  | "user", some .unassign => some (.parameter .user)
  | "apply", some .unassign => some (.switch .apply)
  | _, _ => none

/-- The name and the attached value of what follows two dashes. -/
def splitLong (chars : List Char) : String × Option String :=
  match chars.dropWhile (· != '=') with
  | [] => (String.ofList chars, none)
  | _ :: value => (String.ofList (chars.takeWhile (· != '=')), some (String.ofList value))

def takeLong (command : Option CommandName) (collected : Collected) (chars : List Char) :
    Except Stop Collected :=
  let (name, value) := splitLong chars
  match longName? command name, value with
  | none, _ => .error (.rejected (.unexpectedArgument ("--" ++ name)))
  | some (.switch switch), none => collected.turnOn switch
  | some (.switch switch), some value => .error (.rejected (.unexpectedValue value switch))
  | some (.parameter parameter), none => do
    return { (← collected.resolve) with pending := some (parameter, none) }
  | some (.parameter parameter), some value => do
    (← collected.resolve).assign parameter value

/-- Takes what follows one dash, of which only the first letter counts. -/
def takeShort (command : Option CommandName) (collected : Collected) (letter : Char) :
    Except Stop Collected :=
  if letter = 'h' then collected.turnOn .help
  else if letter = 'V' ∧ command = none then collected.turnOn .version
  else .error (.rejected (.unexpectedArgument (String.ofList ['-', letter])))

/-- Takes an argument that is no option: the file, once, or else nothing that is known. -/
def takePlain (command : Option CommandName) (collected : Collected) (argument : String) :
    Except Stop Collected :=
  match command with
  | none => .error (.rejected (.unknownCommand argument))
  | some _ =>
    if collected.hasFile then .error (.rejected (.unexpectedArgument argument))
    else do
      return { (← collected.resolve) with pending := some (.file, some argument), hasFile := true }

def takeArgument (command : Option CommandName) (collected : Collected) (argument : String) :
    Except Stop Collected :=
  match argument.toList with
  | '-' :: '-' :: rest => takeLong command collected rest
  | '-' :: letter :: _ => takeShort command collected letter
  | _ =>
    match collected.pending with
    | some (parameter, none) =>
      .ok { collected with pending := some (parameter, some argument) }
    | _ => takePlain command collected argument

/-- Takes all arguments behind a command; after a lone pair of dashes none is an option. -/
def takeAll (command : CommandName) (areLiteral : Bool) (collected : Collected) :
    List String → Except Stop Collected
  | [] => collected.resolve
  | argument :: rest =>
    if areLiteral then do
      takeAll command true (← takePlain (some command) collected argument) rest
    else if argument = "--" then takeAll command true collected rest
    else do
      takeAll command false (← takeArgument (some command) collected argument) rest

inductive Action where
  | complete (performer : Int64) (performedAt : Option String) (note : Option String)
      (apply : Bool)
  | skip (performer : Int64) (performedAt : Option String) (rotate : Bool) (apply : Bool)
  | unassign (user : Int64) (apply : Bool)
  | display
  deriving DecidableEq, Repr

structure Command where
  file : String
  action : Action
  json : Bool
  overrides : List String
  deriving DecidableEq, Repr

def actionOf? (name : CommandName) (collected : Collected) : Option Action :=
  match name with
  | .complete => collected.performer.map fun performer =>
    .complete performer collected.performedAt collected.note collected.apply
  | .skip => collected.performer.map fun performer =>
    .skip performer collected.performedAt collected.rotate collected.apply
  | .unassign => collected.user.map fun user => .unassign user collected.apply
  | .display => some .display

def finish (before : Collected) (name : CommandName) (behind : Collected) :
    Except Stop Command :=
  match behind.file, actionOf? name behind with
  | some file, some action => .ok {
      file, action
      json := before.json || behind.json
      overrides := if behind.overrides.isEmpty then before.overrides else behind.overrides }
  | _, _ => .error (.rejected .requiredMissing)

def finishWithout (before : Collected) : Except Stop Command := do
  let before ← before.resolve
  if before.json || !before.overrides.isEmpty then throw (.rejected .commandMissing)
  else throw (.rejected .noArguments)

/-- What follows a request for help has to name a command. -/
def helpOn : List String → Stop
  | [] => .help
  | name :: rest =>
    if name = "help" then helpOn rest
    else
      match CommandName.named? name, rest with
      | none, _ => .rejected (.unknownCommand name)
      | some _, [] => .help
      | some _, extra :: _ => .rejected (.unknownCommand extra)

/-- Takes the arguments up to the command and then those behind it. -/
def readFrom (areLiteral : Bool) (before : Collected) : List String → Except Stop Command
  | [] => finishWithout before
  | argument :: rest =>
    if areLiteral then .error (.rejected (.unknownCommand argument))
    else
      match if before.isWaiting then none else CommandName.named? argument with
      | some name => do
        let behind ← takeAll name false Collected.start rest
        finish (← before.resolve) name behind
      | none =>
        if argument = "--" then readFrom true before rest
        else if argument = "help" ∧ !before.isWaiting then .error (helpOn rest)
        else do
          readFrom false (← takeArgument none before argument) rest

def readArguments (arguments : List String) : Except Stop Command :=
  readFrom false Collected.start arguments

end ChoreRota.CommandLine
