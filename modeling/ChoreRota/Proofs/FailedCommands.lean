import ChoreRota.Calendar.Zone.Table
import ChoreRota.Proofs.CommandRuns

/-!
# Failed commands

A command saves before it prints. What can be saved can always be printed as JSON, but the local
clock may be past the last date of the calendar where UTC is not. That is the one way for a command
to fail and change a file all the same.
-/

namespace ChoreRota.CommandLine

variable {world : World} {config : Config} {command : Command} {overrides : Overrides}
  {snapshot : Snapshot} {effect : Effect} {summary : Summary} {files : List (String × String)}
  {action : Action} {path : String} {arguments : List String}

/-- A decision is saved, but the local clock has no date for the due date to be printed as text. -/
def SavesUnshown [ZoneTable] (world : World) (command : Command) : Prop :=
  ∃ overrides files verb chore decision due,
    IsCarriedOut world command overrides files (.decided verb chore decision true) ∧
      command.json = false ∧ decision.nextDueDate = some due ∧
      ¬ IsShownAt world.localOffset (Timestamp.ofUtc due)

/-! ### What is saved -/

theorem saveIf_false_eq_ok (hsave : saveIf false world path snapshot = .ok files) :
    files = world.files :=
  (Except.ok.inj hsave).symm

theorem Succeeds.snapshot_ne_of_decided [ZoneTable] {verb : String} {chore : Chore}
    {decision : Decision} (hsucceeds : Succeeds world config snapshot action effect)
    (hsummary : effect.summary = .decided verb chore decision true) :
    effect.isSaved = true ∧ effect.snapshot ≠ snapshot := by
  have hlonger : ∀ {row : HistoryRow} {after : Snapshot},
      after.history = row :: snapshot.history → after ≠ snapshot := by
    intro row after hhistory heq
    rw [heq] at hhistory
    exact List.cons_ne_self _ _ hhistory.symm
  cases hsucceeds with
  | complete apply | skip apply =>
    obtain ⟨-, -, -, rfl⟩ := Summary.decided.inj hsummary
    exact ⟨rfl, hlonger rfl⟩
  | unassign => cases hsummary
  | display => cases hsummary

theorem files_ne_of_saveIf {after : Snapshot} (hload : loadFile world path = .ok snapshot)
    (hstorable : after.IsStorable) (hsave : saveIf true world path after = .ok files)
    (hchanged : after ≠ snapshot) : files ≠ world.files := by
  rintro rfl
  have hreload := loadFile_of_saveIf hload hstorable hsave
  exact hchanged (Except.ok.inj (hreload.symm.trans hload))

/-! ### What is printed -/

/-- What is saved is in years of four digits, so JSON never stops short. -/
theorem not_isShort_json_of_saved [ZoneTable]
    (hsucceeds : Succeeds world config snapshot action effect) (hsaved : effect.isSaved = true)
    (hsave : saveIf effect.isSaved world path effect.snapshot = .ok files) :
    ¬ (printed (effect.summary.lines true world.localOffset)).2 = true := by
  rw [hsaved] at hsave
  obtain ⟨text, htext, -⟩ := saveIf_true_eq_ok hsave
  have hyears := Snapshot.exists_save_iff.1 ⟨text, htext⟩
  rw [Summary.isShort_json_iff, not_not]
  intro timestamp hmem
  exact hyears timestamp (hsucceeds.mem_timestamps hsaved hmem)

theorem exists_decided_of_isShort_text [ZoneTable]
    (hsucceeds : Succeeds world config snapshot action effect) (hsaved : effect.isSaved = true)
    (hshort : (printed (effect.summary.lines false world.localOffset)).2 = true) :
    ∃ verb chore decision due, effect.summary = .decided verb chore decision true ∧
      decision.nextDueDate = some due ∧ ¬ IsShownAt world.localOffset (Timestamp.ofUtc due) := by
  rw [Summary.isShort_text_iff, not_forall] at hshort
  obtain ⟨timestamp, hshort⟩ := hshort
  obtain ⟨hmem, hunshown⟩ := Classical.not_imp.1 hshort
  cases hsucceeds with
  | complete apply | skip apply =>
    obtain rfl : apply = true := hsaved
    obtain ⟨due, hdue, rfl⟩ := Option.map_eq_some_iff.1 (Option.mem_toList.1 hmem)
    exact ⟨_, _, _, due, rfl, hdue, hunshown⟩
  | unassign => cases hmem
  | display => cases hsaved

/-! ### Commands -/

theorem savesUnshown_of_not_completed [ZoneTable]
    (hdone : IsCarriedOut world command overrides files summary)
    (hending : (runCommand world command).ending ≠ .completed)
    (hfiles : (runCommand world command).files ≠ world.files) : SavesUnshown world command := by
  have hrun : runCommand world command = _ := runCommand_of_isCarriedOut hdone command.json
  rw [hrun] at hending hfiles
  obtain ⟨snapshot, effect, -, hsucceeds, hsave, rfl⟩ := perform_eq_ok_iff.1 hdone.performed
  have hsaved : effect.isSaved = true := by
    by_contra hunsaved
    rw [Bool.of_not_eq_true hunsaved] at hsave
    exact hfiles (saveIf_false_eq_ok hsave)
  have hshort : (printed (effect.summary.lines command.json world.localOffset)).2 = true := by
    by_contra hfull
    exact hending (if_neg hfull)
  have htext : command.json = false := by
    by_contra hjson
    rw [Bool.of_not_eq_false hjson] at hshort
    exact not_isShort_json_of_saved hsucceeds hsaved hsave hshort
  rw [htext] at hshort
  obtain ⟨verb, chore, decision, due, hsummary, hdue, hunshown⟩ :=
    exists_decided_of_isShort_text hsucceeds hsaved hshort
  rw [hsummary] at hdone
  exact ⟨overrides, files, verb, chore, decision, due, hdone, htext, hdue, hunshown⟩

theorem runCommand_of_savesUnshown [ZoneTable] (hnow : IsMinuteOffset world.now.offset)
    (hunshown : SavesUnshown world command) :
    (runCommand world command).ending = .crashed ∧
      (runCommand world command).files ≠ world.files := by
  obtain ⟨overrides, files, verb, chore, decision, due, hdone, htext, hdue, hunshown⟩ := hunshown
  have hrun : runCommand world command = _ := runCommand_of_isCarriedOut hdone command.json
  have hshort : (printed ((Summary.decided verb chore decision true).lines command.json
      world.localOffset)).2 = true := by
    rw [htext, Summary.isShort_text_iff]
    intro hshown
    exact hunshown (hshown _ (by simp [Summary.timestamps, hdue]))
  rw [hrun]
  refine ⟨if_pos hshort, ?_⟩
  obtain ⟨snapshot, effect, hload, hsucceeds, hsave, hsummary⟩ :=
    perform_eq_ok_iff.1 hdone.performed
  obtain ⟨hsaved, hchanged⟩ := hsucceeds.snapshot_ne_of_decided hsummary
  obtain ⟨text, -, htext⟩ := loadFile_eq_ok hload
  have hstorable := hsucceeds.isStorable hnow (Snapshot.isStorable_of_load htext)
  rw [hsaved] at hsave
  exact files_ne_of_saveIf hload hstorable hsave hchanged

/-- **One failure is saved.** A command line that is not completed leaves every file as it was,
unless a decision is saved and then printed as text while the local clock has no date for its due
date. In that case it always changes a file and ends in a crash. The clock is read in UTC. -/
theorem failure_changes_files_iff [ZoneTable] (hnow : world.now.offset = 0) :
    ((run world arguments).ending ≠ .completed ∧ (run world arguments).files ≠ world.files ↔
      ∃ command, readArguments arguments = .ok command ∧ SavesUnshown world command) ∧
    ((run world arguments).ending ≠ .completed → (run world arguments).files ≠ world.files →
      (run world arguments).ending = .crashed) := by
  have hoffset : IsMinuteOffset world.now.offset := by
    rw [hnow]
    exact isMinuteOffset_zero
  have hunshown : (run world arguments).ending ≠ .completed →
      (run world arguments).files ≠ world.files →
      ∃ command, readArguments arguments = .ok command ∧ SavesUnshown world command := by
    intro hending hfiles
    cases hread : readArguments arguments with
    | error stop => exact absurd (run_of_stop hread) hfiles
    | ok command =>
      rw [run_of_readArguments hread] at hending hfiles
      obtain ⟨overrides, files, summary, hdone⟩ | ⟨outcome, -, hunchanged, hsame⟩ :=
        isCarriedOut_or_fails world command
      · exact ⟨command, rfl, savesUnshown_of_not_completed hdone hending hfiles⟩
      · have hrun : runCommand world command = outcome := hsame command.json
        rw [hrun] at hfiles
        exact absurd hunchanged hfiles
  refine ⟨⟨fun ⟨hending, hfiles⟩ => hunshown hending hfiles, ?_⟩, ?_⟩
  · rintro ⟨command, hread, hsaves⟩
    obtain ⟨hending, hfiles⟩ := runCommand_of_savesUnshown hoffset hsaves
    rw [run_of_readArguments hread, hending]
    exact ⟨nofun, hfiles⟩
  · intro hending hfiles
    obtain ⟨command, hread, hsaves⟩ := hunshown hending hfiles
    rw [run_of_readArguments hread]
    exact (runCommand_of_savesUnshown hoffset hsaves).1

def lampText : String :=
  "\x7b\"schema_version\":1,\"chore\":\x7b\"id\":22,\"name\":\"light the lamp\"," ++
    "\"frequency_type\":\"daily\",\"next_due_date\":\"9999-12-30T23:30:00Z\"," ++
    "\"assign_strategy\":\"keep_last_assigned\",\"assigned_to\":1,\"assignees\":[1]\x7d\x7d"

/-- The clock is an hour ahead of UTC, so the next day ends half an hour before it does there. -/
def lampWorld : World where
  configPath := .ok "config.json"
  files := [("lamp.json", lampText)]
  localOffset := 3600
  now := timeOf "2025-01-01T00:00:00Z"
  entropy := .script []

def lampArguments : List String :=
  ["complete", "lamp.json", "--by", "1", "--at", "9999-12-30T12:00:00Z", "--apply"]

theorem lamp_is_saved_unshown :
    lampWorld.now.offset = 0 ∧
      (∃ command, readArguments lampArguments = .ok command ∧ SavesUnshown lampWorld command) ∧
      ¬ ∃ command, readArguments ("--json" :: lampArguments) = .ok command ∧
        SavesUnshown lampWorld command := by
  refine ⟨by decide +kernel, (failure_changes_files_iff (by decide +kernel)).1.1 ?_, ?_⟩
  · decide +kernel
  · rw [← (failure_changes_files_iff (by decide +kernel)).1]
    decide +kernel

/-- The lamp is lit, which is saved, and then the program crashes. -/
theorem lamp_fails_after_saving :
    (run lampWorld lampArguments).ending = .crashed ∧
      (run lampWorld lampArguments).files ≠ lampWorld.files := by
  decide +kernel

end ChoreRota.CommandLine
