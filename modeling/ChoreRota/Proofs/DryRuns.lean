import ChoreRota.Calendar.Zone.Table
import ChoreRota.Proofs.CommandRuns
import ChoreRota.Proofs.SwitchArguments

/-!
# Dry runs

A command line that is tried out without `--apply` shows what it does with it. Nothing else may make
a difference in between: the time is given rather than read off the clock, and what is left to
chance is chosen from a seed.
-/

namespace ChoreRota

def Chore.reassigned (chore : Chore) (user : UserId) (assignedTo : Option UserId) : Chore :=
  { chore with assignees := chore.assignees.filter (· != user), assignedTo }

theorem Chore.removeAssignee_eq_reassigned (chore : Chore) (user : UserId)
    (source : Chance.Source) :
    (chore.removeAssignee user source).1 =
      chore.reassigned user (chore.removeAssignee user source).1.assignedTo := rfl

namespace CommandLine

open Chance (Stream)

variable {world : World} {config : Config} {command : Command} {overrides : Overrides}
  {snapshot after : Snapshot} {action : Action} {effect : Effect} {foretold reported : Summary}
  {files : List (String × String)} {offset : Int} {arguments : List String}

def Action.isApplied : Action → Bool
  | .complete _ _ _ apply | .skip _ _ _ apply | .unassign _ apply => apply
  | .display => false

/-- The action does not ask for the clock. -/
def Action.isTimed : Action → Bool
  | .complete _ time? _ _ | .skip _ time? _ _ => time?.isSome
  | .unassign .. | .display => true

/-- What there is to report before and after an action, and the snapshot that it leaves: with what
is decided, or without a user and with the assignee who is chosen. -/
inductive Foretells [ZoneTable] (world : World) (config : Config) (snapshot : Snapshot) :
    Action → Summary → Summary → Snapshot → Prop
  | complete {performer : UserId} {time : String} {note : Option String} {performedAt : Timestamp}
      {decision : Decision} (htime : eventTime world (some time) = .ok performedAt)
      (hdecision : (snapshot.complete config.window performer performedAt
        (source world config)).1 = .ok decision) :
      Foretells world config snapshot (.complete performer (some time) note true)
        (.decided "Completed" snapshot.chore decision false)
        (.decided "Completed" (snapshot.apply decision performer performedAt note).chore decision
          true)
        (snapshot.apply decision performer performedAt note)
  | skip {performer : UserId} {time : String} {rotate : Bool} {performedAt : Timestamp}
      {decision : Decision} (htime : eventTime world (some time) = .ok performedAt)
      (hdecision : (snapshot.skip performer performedAt rotate
        (source world config)).1 = .ok decision) :
      Foretells world config snapshot (.skip performer (some time) rotate true)
        (.decided "Skipped" snapshot.chore decision false)
        (.decided "Skipped" (snapshot.apply decision performer performedAt none).chore decision
          true)
        (snapshot.apply decision performer performedAt none)
  | unassign {user : UserId} {assignedTo : Option UserId}
      (hmember : user ∈ snapshot.chore.assignees)
      (hchosen : (snapshot.chore.removeAssignee user (source world config)).1.assignedTo =
        assignedTo) :
      Foretells world config snapshot (.unassign user true)
        (.removed user (snapshot.chore.reassigned user assignedTo) false)
        (.removed user (snapshot.chore.reassigned user assignedTo) true)
        ⟨snapshot.chore.reassigned user assignedTo, snapshot.history⟩

/-- The output of a dry run next to that of the run itself: the same object but for one member, or
the same lines and one more. -/
def IsDryOutput (json : Bool) (dry applied : String) : Prop :=
  if json then
    ∃ before behind : List (String × Json), "applied" ∉ (before ++ behind).map Prod.fst ∧
      applied = (Json.object (before ++ ("applied", .bool true) :: behind)).sorted.compact ++ "\n" ∧
      dry = (Json.object (before ++ ("applied", .bool false) :: behind)).sorted.compact ++ "\n"
  else dry = applied ++ dryRunLine ++ "\n"

/-! ### Effects -/

theorem Succeeds.exists_foretells [ZoneTable]
    (hsucceeds : Succeeds world config snapshot action effect)
    (happlied : action.isApplied = true) (htimed : action.isTimed = true) :
    effect.isSaved = true ∧
      ∃ foretold, Foretells world config snapshot action foretold effect.summary
        effect.snapshot := by
  cases hsucceeds with
  | @complete performer time? note performedAt decision apply htime hdecision =>
    obtain rfl : apply = true := happlied
    obtain ⟨time, rfl⟩ := Option.isSome_iff_exists.1 htimed
    exact ⟨rfl, _, .complete htime hdecision⟩
  | @skip performer time? rotate performedAt decision apply htime hdecision =>
    obtain rfl : apply = true := happlied
    obtain ⟨time, rfl⟩ := Option.isSome_iff_exists.1 htimed
    exact ⟨rfl, _, .skip htime hdecision⟩
  | @unassign user chore apply hmember hchore =>
    obtain rfl : apply = true := happlied
    subst hchore
    rw [Chore.removeAssignee_eq_reassigned]
    exact ⟨rfl, _, .unassign hmember rfl⟩
  | display => cases happlied

theorem source_eq_of_seed (world : World) (hseed : config.randomSeed ≠ none) (now : Timestamp)
    (entropy : Stream) :
    source { world with now, entropy } config = source world config := by
  obtain ⟨seed, hseed⟩ := Option.ne_none_iff_exists'.1 hseed
  simp only [source, hseed]

namespace Foretells

variable [ZoneTable] (hforetells : Foretells world config snapshot action foretold reported after)

include hforetells

theorem exists_succeeds (hseed : config.randomSeed ≠ none) (now : Timestamp) (entropy : Stream) :
    ∃ effect, Succeeds { world with now, entropy } config snapshot (action.turned .apply false)
      effect ∧ effect.isSaved = false ∧ effect.summary = foretold := by
  have hsource := source_eq_of_seed world hseed now entropy
  cases hforetells with
  | complete htime hdecision =>
    rw [← hsource] at hdecision
    exact ⟨_, .complete false htime hdecision, rfl, rfl⟩
  | skip htime hdecision =>
    rw [← hsource] at hdecision
    exact ⟨_, .skip false htime hdecision, rfl, rfl⟩
  | unassign hmember hchosen =>
    rw [← hsource] at hchosen
    subst hchosen
    exact ⟨_, .unassign false hmember (Chore.removeAssignee_eq_reassigned ..), rfl, rfl⟩

theorem isStorable (hstorable : snapshot.IsStorable) : after.IsStorable := by
  cases hforetells with
  | complete htime | skip htime =>
    exact State.isStorable_apply hstorable (isMinuteOffset_of_eventTime (by simp) htime) _ _ _
  | unassign => exact ⟨hstorable.nodup.filter _, hstorable.offset⟩

theorem timestamps_eq : foretold.timestamps = reported.timestamps := by
  cases hforetells <;> rfl

theorem text_eq :
    foretold.lines false offset = reported.lines false offset ++ [some dryRunLine] := by
  cases hforetells with
  | complete | skip => simp [Summary.lines, decisionLines, decisionText, Snapshot.apply, choreTitle]
  | unassign => rfl

theorem json_eq (hprinted : none ∉ reported.lines true offset) :
    ∃ before behind : List (String × Json), "applied" ∉ (before ++ behind).map Prod.fst ∧
      reported.lines true offset =
        [some (Json.object (before ++ ("applied", .bool true) :: behind)).sorted.compact] ∧
      foretold.lines true offset =
        [some (Json.object (before ++ ("applied", .bool false) :: behind)).sorted.compact] := by
  cases hforetells with
  | @complete _ _ _ _ decision | @skip _ _ _ _ decision =>
    simp only [Summary.lines, decisionLines, ↓reduceIte, decisionJson] at hprinted ⊢
    cases hjson : decision.toJson with
    | error fault =>
      rw [hjson] at hprinted
      exact absurd (List.mem_singleton.2 rfl) hprinted
    | ok json =>
      exact ⟨[("chore_id", Json.ofInt64 snapshot.chore.id)], [("decision", json)], by simp, rfl,
        rfl⟩
  | @unassign user assignedTo =>
    let left := snapshot.chore.assignees.filter (· != user)
    exact ⟨[("chore_id", Json.ofInt64 snapshot.chore.id)],
      [("assignees", .array (left.map Json.ofInt64)),
        ("assigned_to", Json.ofOption Json.ofInt64 assignedTo)], by simp, rfl, rfl⟩

theorem isShort_eq (json : Bool) :
    (printed (foretold.lines json offset)).2 = (printed (reported.lines json offset)).2 := by
  rw [Bool.eq_iff_iff]
  cases json with
  | false => rw [Summary.isShort_text_iff, Summary.isShort_text_iff, hforetells.timestamps_eq]
  | true => rw [Summary.isShort_json_iff, Summary.isShort_json_iff, hforetells.timestamps_eq]

theorem isDryOutput {json : Bool} (hprinted : none ∉ reported.lines json offset) :
    IsDryOutput json (printed (foretold.lines json offset)).1
      (printed (reported.lines json offset)).1 := by
  cases json with
  | false =>
    rw [hforetells.text_eq, printed_append hprinted]
    simp [IsDryOutput, printed, String.append_assoc]
  | true =>
    obtain ⟨before, behind, hkeys, hreported, hforetold⟩ := hforetells.json_eq hprinted
    rw [hreported, hforetold]
    exact ⟨before, behind, hkeys, by simp [printed], by simp [printed]⟩

end Foretells

/-! ### Command lines -/

theorem isCarriedOut_of_completed [ZoneTable] (hread : readArguments arguments = .ok command)
    (hcompleted : (run world arguments).ending = .completed) :
    ∃ overrides files summary, IsCarriedOut world command overrides files summary ∧
      none ∉ summary.lines command.json world.localOffset := by
  rw [run_of_readArguments hread] at hcompleted
  obtain ⟨overrides, files, summary, hdone⟩ | ⟨outcome, hfailed, -, hsame⟩ :=
    isCarriedOut_or_fails world command
  · have hrun : runCommand world command = _ := runCommand_of_isCarriedOut hdone command.json
    refine ⟨overrides, files, summary, hdone, ?_⟩
    rw [← isShort_printed_iff]
    intro hshort
    rw [hrun, if_pos hshort] at hcompleted
    cases hcompleted
  · have hrun : runCommand world command = outcome := hsame command.json
    rw [hrun] at hcompleted
    exact absurd hcompleted hfailed

def hedgeText : String :=
  "\x7b\"schema_version\":1,\"chore\":\x7b\"id\":24,\"name\":\"cut the hedge\"," ++
    "\"frequency_type\":\"weekly\",\"next_due_date\":\"2025-06-07T09:00:00+02:00\"," ++
    "\"assign_strategy\":\"random\",\"assigned_to\":1,\"assignees\":[1,2,3]\x7d\x7d"

def hedgeWorld : World where
  configPath := .ok "config.json"
  files := [("config.json", "\x7b\"random_seed\": 4\x7d"), ("hedge.json", hedgeText)]
  localOffset := 7200
  now := timeOf "2025-06-08T10:00:00Z"
  entropy := .script []

def hedgeArguments : List String :=
  ["skip", "--apply", "--by", "1", "hedge.json", "--rotate", "--json", "--at",
    " 2025-06-06T20:15:00+02:00"]

def hedgeCommand : Command :=
  ⟨"hedge.json", .skip 1 (some " 2025-06-06T20:15:00+02:00") true true, true, []⟩

end CommandLine

end ChoreRota
