import ChoreRota.CommandLine.Arguments
import ChoreRota.Fault
import Mathlib.Tactic.Common

/-!
# Switches in command lines

A switch is read off a command line without an effect on how the rest is read. So a command line
that is accepted is accepted without one of its switches, and means the same but for it; and with
`--json` in front of it, a command line that names a command is read as before but for the output.
-/

namespace ChoreRota.CommandLine

section Propagation

variable {ε α β γ δ : Type} {first : Except ε α} {rest : α → Except ε β}
  {onward : γ → Except ε δ} {change : α → γ} {image : β → δ}

theorem bind_map_eq_map_bind (hrest : ∀ value, onward (change value) = (rest value).map image) :
    (first.map change >>= onward) = (first >>= rest).map image := by
  cases first with
  | error fault => rfl
  | ok value => exact hrest value

theorem bind_eq_map_bind {onward : α → Except ε δ}
    (hrest : ∀ value, onward value = (rest value).map image) :
    (first >>= onward) = (first >>= rest).map image := by
  cases first with
  | error fault => rfl
  | ok value => exact hrest value

end Propagation

/-! ### Collecting -/

namespace Collected

variable {switch : Switch} {value : Bool} {collected resolved : Collected}

def turned (switch : Switch) (value : Bool) (collected : Collected) : Collected :=
  match switch with
  | .json => { collected with json := value }
  | .apply => { collected with apply := value }
  | .rotate => { collected with rotate := value }
  | .help | .version => collected

@[simp] theorem pending_turned : (collected.turned switch value).pending = collected.pending := by
  cases switch <;> rfl

@[simp] theorem hasFile_turned : (collected.turned switch value).hasFile = collected.hasFile := by
  cases switch <;> rfl

@[simp] theorem isWaiting_turned :
    (collected.turned switch value).isWaiting = collected.isWaiting := by
  cases switch <;> rfl

@[simp] theorem turned_turned (before : Bool) :
    (collected.turned switch before).turned switch value = collected.turned switch value := by
  cases switch <;> rfl

theorem turned_pend (pending : Option (Parameter × Option String)) :
    { collected.turned switch value with pending } =
      ({ collected with pending }).turned switch value := by
  cases switch <;> rfl

theorem assign_turned (parameter : Parameter) (text : String) :
    (collected.turned switch value).assign parameter text =
      (collected.assign parameter text).map (turned switch value) := by
  cases parameter with
  | file =>
    simp only [assign]
    by_cases hempty : text.isEmpty = true
    · rw [if_pos hempty, if_pos hempty]
      rfl
    · rw [if_neg hempty, if_neg hempty]
      cases switch <;> rfl
  | performer | user =>
    cases switch <;> exact bind_eq_map_bind fun _ => bind_eq_map_bind fun _ => rfl
  | performedAt | note => cases switch <;> exact bind_eq_map_bind fun _ => rfl
  | configOverride => cases switch <;> rfl

theorem resolve_turned :
    (collected.turned switch value).resolve = collected.resolve.map (turned switch value) := by
  unfold resolve
  rw [pending_turned]
  split
  · rfl
  · rfl
  · rw [turned_pend]
    exact assign_turned _ _

def isOn (switch : Switch) (collected : Collected) : Bool :=
  match switch with
  | .json => collected.json
  | .apply => collected.apply
  | .rotate => collected.rotate
  | .help | .version => false

theorem isOn_turned {other : Switch} (hother : other ≠ switch) :
    (collected.turned switch value).isOn other = collected.isOn other := by
  cases switch <;> cases other <;> first | rfl | exact absurd rfl hother

theorem turned_comm {other : Switch} (hother : other ≠ switch) (setting : Bool) :
    (collected.turned switch value).turned other setting =
      (collected.turned other setting).turned switch value := by
  cases switch <;> cases other <;> first | rfl | exact absurd rfl hother

theorem turnOn_eq (hsets : switch ≠ .help ∧ switch ≠ .version) :
    collected.turnOn switch = collected.resolve >>= fun resolved =>
      if resolved.isOn switch then .error (.rejected (.repeated switch.usage))
      else .ok (resolved.turned switch true) := by
  refine bind_congr fun resolved => ?_
  by_cases hon : resolved.isOn switch = true
  · rw [if_pos hon]
    cases switch with
    | json | apply | rotate => exact if_pos hon
    | help | version => cases hon
  · rw [if_neg hon]
    cases switch with
    | json | apply | rotate => exact if_neg hon
    | help => exact absurd rfl hsets.1
    | version => exact absurd rfl hsets.2

theorem turnOn_turned {other : Switch} (hother : other ≠ switch) :
    (collected.turned switch value).turnOn other =
      (collected.turnOn other).map (turned switch value) := by
  by_cases hsets : other ≠ .help ∧ other ≠ .version
  · rw [turnOn_eq hsets, turnOn_eq hsets, resolve_turned]
    refine bind_map_eq_map_bind fun resolved => ?_
    rw [isOn_turned hother, turned_comm hother]
    split <;> rfl
  · unfold turnOn
    rw [resolve_turned]
    refine bind_map_eq_map_bind fun resolved => ?_
    cases other with
    | json | apply | rotate => exact absurd ⟨by decide, by decide⟩ hsets
    | help | version => rfl

theorem eq_turned_of_turnOn {after : Collected} (hturn : collected.turnOn switch = .ok after) :
    ∃ resolved, collected.resolve = .ok resolved ∧ after = resolved.turned switch true := by
  by_cases hsets : switch ≠ .help ∧ switch ≠ .version
  · rw [turnOn_eq hsets] at hturn
    obtain ⟨resolved, hresolve, hturn⟩ := bind_eq_ok_iff.1 hturn
    split at hturn
    · cases hturn
    · exact ⟨resolved, hresolve, (Except.ok.inj hturn).symm⟩
  · obtain ⟨resolved, hresolve, hturn⟩ := bind_eq_ok_iff.1 hturn
    cases switch with
    | json | apply | rotate => exact absurd ⟨by decide, by decide⟩ hsets
    | help | version => cases hturn

/-! What is pending may as well be resolved early. -/

theorem assign_eq_ok {parameter : Parameter} {text : String} {after : Collected}
    (hassign : collected.assign parameter text = .ok after) :
    after.pending = collected.pending ∧ after.hasFile = collected.hasFile := by
  cases parameter with
  | file =>
    simp only [assign] at hassign
    split at hassign
    · cases hassign
    · cases hassign
      exact ⟨rfl, rfl⟩
  | performer | user =>
    obtain ⟨-, -, hassign⟩ := bind_eq_ok_iff.1 hassign
    obtain ⟨id, -, hassign⟩ := bind_eq_ok_iff.1 hassign
    cases hassign
    exact ⟨rfl, rfl⟩
  | performedAt | note =>
    obtain ⟨-, -, hassign⟩ := bind_eq_ok_iff.1 hassign
    cases hassign
    exact ⟨rfl, rfl⟩
  | configOverride =>
    cases hassign
    exact ⟨rfl, rfl⟩

theorem resolve_eq_ok (hresolve : collected.resolve = .ok resolved) :
    collected.isWaiting = false ∧ resolved.pending = none ∧
      resolved.hasFile = collected.hasFile := by
  unfold resolve at hresolve
  split at hresolve
  · rename_i hpending
    obtain rfl := Except.ok.inj hresolve
    exact ⟨by simp [isWaiting, hpending], hpending, rfl⟩
  · cases hresolve
  · rename_i hpending
    obtain ⟨hnone, hfile⟩ := assign_eq_ok hresolve
    exact ⟨by simp [isWaiting, hpending], hnone, hfile⟩

theorem resolve_of_resolve (hresolve : collected.resolve = .ok resolved) :
    resolved.resolve = .ok resolved := by
  obtain ⟨-, hpending, -⟩ := resolve_eq_ok hresolve
  simp only [resolve, hpending]

theorem isWaiting_of_resolve (hresolve : collected.resolve = .ok resolved) :
    resolved.isWaiting = collected.isWaiting := by
  obtain ⟨hwaits, hpending, -⟩ := resolve_eq_ok hresolve
  rw [hwaits]
  simp only [isWaiting, hpending]

theorem resolve_turned_eq_ok (hresolve : collected.resolve = .ok resolved) :
    (collected.turned switch value).resolve = .ok (resolved.turned switch value) := by
  rw [resolve_turned, hresolve]
  rfl

theorem turnOn_of_resolve (hresolve : collected.resolve = .ok resolved) :
    collected.turnOn switch = resolved.turnOn switch := by
  unfold turnOn
  rw [hresolve, resolve_of_resolve hresolve]

end Collected

/-! ### Taking arguments -/

section Taking

variable {switch : Switch} {value : Bool} {collected resolved after : Collected}
  {name? : Option CommandName} {name : CommandName} {argument : String} {chars : List Char}
  {arguments : List String}

open Collected (turned resolve_turned turned_pend)

theorem usage_of_longName? {text : String} (hname : longName? name? text = some (.switch switch)) :
    "--" ++ text = switch.usage := by
  unfold longName? at hname
  split at hname <;> first | cases hname; rfl | cases hname

theorem fst_splitLong (hvalue : (splitLong chars).2 = none) :
    (splitLong chars).1 = String.ofList chars := by
  unfold splitLong at hvalue ⊢
  split at hvalue
  · rfl
  · cases hvalue

theorem takeLong_turned (hother : "--" ++ String.ofList chars ≠ switch.usage) :
    takeLong name? (collected.turned switch value) chars =
      (takeLong name? collected chars).map (turned switch value) := by
  unfold takeLong
  dsimp only
  -- Nothing known, a switch, a switch with a value, a parameter, a parameter with a value.
  split
  · rfl
  · rename_i other hname hvalue
    refine Collected.turnOn_turned ?_
    rintro rfl
    rw [fst_splitLong hvalue] at hname
    exact hother (usage_of_longName? hname)
  · rfl
  · rw [resolve_turned]
    exact bind_map_eq_map_bind fun resolved => congrArg Except.ok (turned_pend _)
  · rw [resolve_turned]
    exact bind_map_eq_map_bind fun resolved => Collected.assign_turned _ _

theorem takeShort_turned (hother : switch ≠ .help ∧ switch ≠ .version) (letter : Char) :
    takeShort name? (collected.turned switch value) letter =
      (takeShort name? collected letter).map (turned switch value) := by
  unfold takeShort
  split
  · exact Collected.turnOn_turned hother.1.symm
  · split
    · exact Collected.turnOn_turned hother.2.symm
    · rfl

theorem takePlain_turned :
    takePlain name? (collected.turned switch value) argument =
      (takePlain name? collected argument).map (turned switch value) := by
  unfold takePlain
  rw [Collected.hasFile_turned]
  split
  · rfl
  · split
    · rfl
    · rw [resolve_turned]
      exact bind_map_eq_map_bind fun resolved => by cases switch <;> rfl

theorem takeArgument_turned (hsets : switch ≠ .help ∧ switch ≠ .version)
    (hother : argument ≠ switch.usage) :
    takeArgument name? (collected.turned switch value) argument =
      (takeArgument name? collected argument).map (turned switch value) := by
  unfold takeArgument
  split
  · rename_i rest hchars
    refine takeLong_turned fun husage => hother ?_
    rw [← husage]
    exact String.toList_injective (by simp [hchars])
  · exact takeShort_turned hsets _
  · rw [Collected.pending_turned]
    split
    · exact congrArg Except.ok (turned_pend _)
    · exact takePlain_turned

theorem eq_turned_of_takeArgument
    (htake : takeArgument name? collected switch.usage = .ok after) :
    ∃ resolved, collected.resolve = .ok resolved ∧ after = resolved.turned switch true := by
  cases switch <;> rcases name? with _ | ⟨_ | _ | _ | _⟩ <;>
    first | exact Collected.eq_turned_of_turnOn htake | cases htake

theorem takeArgument_of_resolve (hresolve : collected.resolve = .ok resolved) :
    takeArgument name? collected argument = takeArgument name? resolved argument := by
  have hagain := Collected.resolve_of_resolve hresolve
  obtain ⟨hwaits, hpending, hfile⟩ := Collected.resolve_eq_ok hresolve
  unfold takeArgument
  split
  · unfold takeLong
    dsimp only
    split
    · rfl
    · exact Collected.turnOn_of_resolve hresolve
    · rfl
    · rw [hresolve, hagain]
    · rw [hresolve, hagain]
  · unfold takeShort
    rw [Collected.turnOn_of_resolve hresolve, Collected.turnOn_of_resolve hresolve]
  · rw [hpending]
    split
    · rename_i hpending
      simp [Collected.isWaiting, hpending] at hwaits
    · unfold takePlain
      rw [hresolve, hagain, hfile]

end Taking

/-! ### Command lines without a switch -/

/-- A command line without a switch, as far as a lone pair of dashes. -/
def withoutSwitch (switch : Switch) : List String → List String
  | [] => []
  | argument :: rest =>
    if argument = "--" then argument :: rest
    else if argument = switch.usage then withoutSwitch switch rest
    else argument :: withoutSwitch switch rest

def Action.turned (switch : Switch) (value : Bool) (action : Action) : Action :=
  match switch, action with
  | .apply, .complete performer performedAt note _ => .complete performer performedAt note value
  | .apply, .skip performer performedAt rotate _ => .skip performer performedAt rotate value
  | .apply, .unassign user _ => .unassign user value
  | .rotate, .skip performer performedAt _ apply => .skip performer performedAt value apply
  | _, action => action

def Command.turned (switch : Switch) (value : Bool) (command : Command) : Command :=
  match switch with
  | .json => { command with json := value }
  | _ => { command with action := command.action.turned switch value }

section Reading

variable {switch : Switch} {value : Bool} {before resolved after : Collected}
  {command : Command} {name : CommandName} {areLiteral : Bool} {arguments : List String}

open Collected (turned resolve_turned)

theorem takeAll_of_resolve {collected : Collected} (hresolve : collected.resolve = .ok resolved) :
    takeAll name areLiteral collected arguments = takeAll name areLiteral resolved arguments := by
  have hagain := Collected.resolve_of_resolve hresolve
  obtain ⟨-, -, hfile⟩ := Collected.resolve_eq_ok hresolve
  induction arguments generalizing areLiteral with
  | nil => exact hresolve.trans hagain.symm
  | cons argument rest ih =>
    simp only [takeAll]
    split
    · simp only [takePlain, hresolve, hagain, hfile]
    · split
      · exact ih
      · rw [takeArgument_of_resolve hresolve]

theorem takeAll_literal_turned (collected : Collected) :
    takeAll name true (collected.turned switch value) arguments =
      (takeAll name true collected arguments).map (turned switch value) := by
  induction arguments generalizing collected with
  | nil => exact resolve_turned
  | cons argument rest ih =>
    simp only [takeAll, ↓reduceIte, takePlain_turned]
    exact bind_map_eq_map_bind ih

theorem takeAll_withoutSwitch (hsets : switch ≠ .help ∧ switch ≠ .version) {collected : Collected}
    (htake : takeAll name false collected arguments = .ok after) :
    takeAll name false (collected.turned switch value) (withoutSwitch switch arguments) =
      .ok (after.turned switch value) := by
  fun_induction withoutSwitch switch arguments generalizing collected with
  | case1 => exact resolve_turned.trans (congrArg (Except.map _) htake)
  | case2 rest =>
    simp only [takeAll, Bool.false_eq_true, ↓reduceIte] at htake ⊢
    rw [takeAll_literal_turned, htake]
    rfl
  | case3 rest hdashes ih =>
    -- The switch that is left out would have resolved what is pending.
    simp only [takeAll, Bool.false_eq_true, if_neg hdashes, ↓reduceIte] at htake
    obtain ⟨taken, hargument, hrest⟩ := bind_eq_ok_iff.1 htake
    obtain ⟨resolved, hresolve, rfl⟩ := eq_turned_of_takeArgument hargument
    rw [takeAll_of_resolve (Collected.resolve_turned_eq_ok hresolve),
      ← Collected.turned_turned true]
    exact ih hrest
  | case4 argument rest hdashes hother ih =>
    simp only [takeAll, Bool.false_eq_true, if_neg hdashes, ↓reduceIte] at htake ⊢
    obtain ⟨taken, hargument, hrest⟩ := bind_eq_ok_iff.1 htake
    rw [takeArgument_turned hsets hother, hargument]
    exact ih hrest

theorem named?_usage : CommandName.named? switch.usage = none := by
  cases switch <;> rfl

/-! A lone pair of dashes and a switch are taken for no command. -/

theorem readFrom_dashes :
    readFrom false before ("--" :: arguments) = readFrom true before arguments := by
  have hname : (if before.isWaiting = true then none else CommandName.named? "--") = none :=
    ite_self _
  simp only [readFrom, Bool.false_eq_true, ↓reduceIte, hname]

theorem readFrom_usage :
    readFrom false before (switch.usage :: arguments) =
      takeArgument none before switch.usage >>= fun taken => readFrom false taken arguments := by
  have hname : (if before.isWaiting = true then none else CommandName.named? switch.usage) =
      none := by
    rw [named?_usage, ite_self]
  have hdashes : switch.usage ≠ "--" := by cases switch <;> decide
  have hhelp : ¬ (switch.usage = "help" ∧ !before.isWaiting) := by
    rintro ⟨husage, -⟩
    revert husage
    cases switch <;> decide
  simp only [readFrom, Bool.false_eq_true, ↓reduceIte, hname, if_neg hdashes, if_neg hhelp]

theorem not_ok_of_finishWithout : finishWithout before ≠ .ok command := by
  intro hfinish
  obtain ⟨resolved, -, hfinish⟩ := bind_eq_ok_iff.1 hfinish
  split at hfinish <;> cases hfinish

theorem not_ok_of_literal : readFrom true before arguments ≠ .ok command := by
  cases arguments with
  | nil => exact not_ok_of_finishWithout
  | cons argument rest => exact nofun

theorem readFrom_of_resolve (hresolve : before.resolve = .ok resolved) :
    readFrom areLiteral before arguments = readFrom areLiteral resolved arguments := by
  have hagain := Collected.resolve_of_resolve hresolve
  have hwaits := Collected.isWaiting_of_resolve hresolve
  induction arguments generalizing areLiteral with
  | nil => simp only [readFrom, finishWithout, hresolve, hagain]
  | cons argument rest ih =>
    simp only [readFrom, hresolve, hagain, hwaits, ih, takeArgument_of_resolve hresolve]

theorem actionOf?_turned {behind : Collected} :
    actionOf? name (behind.turned switch value) =
      (actionOf? name behind).map (Action.turned switch value) := by
  cases name with
  | complete | skip =>
    cases hperformer : behind.performer <;> cases switch <;>
      simp [actionOf?, turned, Action.turned, hperformer]
  | unassign =>
    cases huser : behind.user <;> cases switch <;> simp [actionOf?, turned, Action.turned, huser]
  | display => cases switch <;> rfl

theorem finish_turned {behind : Collected} :
    finish (before.turned switch value) name (behind.turned switch value) =
      (finish before name behind).map (Command.turned switch value) := by
  have hfile : (behind.turned switch value).file = behind.file := by cases switch <;> rfl
  unfold finish
  rw [hfile, actionOf?_turned]
  cases behind.file with
  | none => rfl
  | some file =>
    cases actionOf? name behind with
    | none => rfl
    | some action =>
      cases switch with
      | json => simp [turned, Command.turned, Action.turned, Except.map]
      | apply | rotate | help | version => rfl

theorem readFrom_withoutSwitch (hsets : switch ≠ .help ∧ switch ≠ .version)
    (hread : readFrom false before arguments = .ok command) :
    readFrom false (before.turned switch false) (withoutSwitch switch arguments) =
      .ok (command.turned switch false) := by
  have hstart : Collected.start.turned switch false = Collected.start := by cases switch <;> rfl
  fun_induction withoutSwitch switch arguments generalizing before with
  | case1 => exact absurd hread not_ok_of_finishWithout
  | case2 rest =>
    rw [readFrom_dashes] at hread
    exact absurd hread not_ok_of_literal
  | case3 rest hdashes ih =>
    obtain ⟨taken, hargument, hrest⟩ := bind_eq_ok_iff.1 (readFrom_usage ▸ hread)
    obtain ⟨resolved, hresolve, rfl⟩ := eq_turned_of_takeArgument hargument
    rw [readFrom_of_resolve (Collected.resolve_turned_eq_ok hresolve),
      ← Collected.turned_turned true]
    exact ih hrest
  | case4 argument rest hdashes hother ih =>
    simp only [readFrom, Bool.false_eq_true, ↓reduceIte, if_neg hdashes,
      Collected.isWaiting_turned] at hread ⊢
    split at hread
    · rename_i name hname
      obtain ⟨behind, htake, hread⟩ := bind_eq_ok_iff.1 hread
      obtain ⟨resolved, hresolve, hfinish⟩ := bind_eq_ok_iff.1 hread
      have htake : takeAll name false (Collected.start.turned switch false)
          (withoutSwitch switch rest) = .ok (behind.turned switch false) :=
        takeAll_withoutSwitch hsets htake
      rw [hstart] at htake
      simp only [htake, resolve_turned, hresolve]
      exact finish_turned.trans (congrArg (Except.map _) hfinish)
    · by_cases hhelp : argument = "help" ∧ !before.isWaiting
      · rw [if_pos hhelp] at hread
        cases hread
      · rw [if_neg hhelp] at hread
        obtain ⟨taken, hargument, hrest⟩ := bind_eq_ok_iff.1 hread
        rw [if_neg hhelp, takeArgument_turned hsets hother, hargument]
        exact ih hrest

theorem withoutSwitch_withoutSwitch :
    withoutSwitch switch (withoutSwitch switch arguments) = withoutSwitch switch arguments := by
  fun_induction withoutSwitch switch arguments with
  | case1 => rfl
  | case2 rest => simp only [withoutSwitch, ↓reduceIte]
  | case3 rest hdashes ih => exact ih
  | case4 argument rest hdashes hother ih =>
    simp only [withoutSwitch, if_neg hdashes, if_neg hother, ih]

theorem readArguments_withoutSwitch (hsets : switch ≠ .help ∧ switch ≠ .version)
    (hread : readArguments arguments = .ok command) :
    readArguments (withoutSwitch switch arguments) = .ok (command.turned switch false) := by
  have hstart : Collected.start.turned switch false = Collected.start := by cases switch <;> rfl
  have hwithout := readFrom_withoutSwitch hsets hread
  rw [hstart] at hwithout
  exact hwithout

theorem turned_eq_of_withoutSwitch (hsets : switch ≠ .help ∧ switch ≠ .version)
    (hread : readArguments (withoutSwitch switch arguments) = .ok command) :
    command.turned switch false = command := by
  have hagain := readArguments_withoutSwitch hsets hread
  rw [withoutSwitch_withoutSwitch, hread] at hagain
  exact (Except.ok.inj hagain).symm

/-! ### Command lines for JSON -/

theorem finish_json {behind : Collected} :
    finish (before.turned .json true) name behind =
      (finish before name behind).map (Command.turned .json true) := by
  unfold finish
  cases behind.file with
  | none => rfl
  | some file => cases actionOf? name behind <;> rfl

theorem finishWithout_json (hnamed : finishWithout before ≠ .error (.rejected .noArguments)) :
    finishWithout (before.turned .json true) =
      (finishWithout before).map (Command.turned .json true) := by
  unfold finishWithout at hnamed ⊢
  rw [resolve_turned]
  cases hresolve : before.resolve with
  | error stop => rfl
  | ok resolved =>
    rw [hresolve] at hnamed
    by_cases hgiven : (resolved.json || !resolved.overrides.isEmpty) = true
    · change _ = Except.map _ (if (resolved.json || !resolved.overrides.isEmpty) = true then _
        else _)
      rw [if_pos hgiven]
      rfl
    · exact absurd (if_neg hgiven) hnamed

theorem readFrom_literal_json
    (hnamed : readFrom true before arguments ≠ .error (.rejected .noArguments)) :
    readFrom true (before.turned .json true) arguments =
      (readFrom true before arguments).map (Command.turned .json true) := by
  cases arguments with
  | nil => exact finishWithout_json hnamed
  | cons argument rest => rfl

theorem readFrom_json
    (hnamed : readFrom false before (withoutSwitch .json arguments) ≠
      .error (.rejected .noArguments)) :
    readFrom false (before.turned .json true) (withoutSwitch .json arguments) =
      (readFrom false before (withoutSwitch .json arguments)).map (Command.turned .json true) := by
  fun_induction withoutSwitch .json arguments generalizing before with
  | case1 => exact finishWithout_json hnamed
  | case2 rest =>
    rw [readFrom_dashes] at hnamed ⊢
    rw [readFrom_dashes]
    exact readFrom_literal_json hnamed
  | case3 rest hdashes ih => exact ih hnamed
  | case4 argument rest hdashes hother ih =>
    simp only [readFrom, Bool.false_eq_true, ↓reduceIte, if_neg hdashes,
      Collected.isWaiting_turned] at hnamed ⊢
    split
    · rw [resolve_turned]
      refine bind_eq_map_bind fun behind => ?_
      exact bind_map_eq_map_bind fun resolved => finish_json
    · rename_i hname
      simp only [hname] at hnamed
      by_cases hhelp : argument = "help" ∧ !before.isWaiting
      · rw [if_pos hhelp, if_pos hhelp]
        rfl
      · rw [if_neg hhelp] at hnamed
        rw [if_neg hhelp, if_neg hhelp, takeArgument_turned ⟨by decide, by decide⟩ hother]
        cases htake : takeArgument none before argument with
        | error stop => rfl
        | ok taken =>
          rw [htake] at hnamed
          exact ih hnamed

/-- In front of a command line that names a command, `--json` asks for the same in JSON. A command
line that is rejected is rejected for the same reason. -/
theorem readArguments_json
    (hnamed : readArguments (withoutSwitch .json arguments) ≠ .error (.rejected .noArguments)) :
    readArguments ("--json" :: withoutSwitch .json arguments) =
      (readArguments (withoutSwitch .json arguments)).map (Command.turned .json true) :=
  readFrom_json hnamed

end Reading

end ChoreRota.CommandLine
