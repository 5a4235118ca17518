import ChoreRota.Calendar.Zone.Table
import ChoreRota.Proofs.CommandRuns
import ChoreRota.Proofs.SwitchArguments

/-!
# Output modes

A command line asks for text or for JSON. What it does and why it is refused is the same either way,
but the two do not show the same times: JSON needs years of four digits, and text a date on the
local clock. A time that cannot be shown ends the program in a crash.
-/

namespace ChoreRota.CommandLine

variable {world : World} {arguments : List String} {command : Command} {overrides : Overrides}
  {files : List (String × String)} {summary : Summary}

/-- The command line is run for text, wherever it asks for JSON. -/
def textRun [ZoneTable] (world : World) (arguments : List String) : Outcome :=
  run world (withoutSwitch .json arguments)

def jsonRun [ZoneTable] (world : World) (arguments : List String) : Outcome :=
  run world ("--json" :: withoutSwitch .json arguments)

/-- The command line is carried out, whatever the output is, and there is this to report. -/
def ComesTo [ZoneTable] (world : World) (arguments : List String) (summary : Summary) : Prop :=
  ∃ command overrides files, readArguments (withoutSwitch .json arguments) = .ok command ∧
    IsCarriedOut world command overrides files summary

theorem jsonRun_of_stop [ZoneTable] {stop : Stop}
    (hnamed : readArguments (withoutSwitch .json arguments) ≠ .error (.rejected .noArguments))
    (hread : readArguments (withoutSwitch .json arguments) = .error stop) :
    jsonRun world arguments = textRun world arguments := by
  unfold jsonRun textRun run
  rw [readArguments_json hnamed, hread]
  rfl

theorem runs_of_readArguments [ZoneTable] (world : World)
    (hread : readArguments (withoutSwitch .json arguments) = .ok command) :
    textRun world arguments = runCommand world { command with json := false } ∧
      jsonRun world arguments = runCommand world { command with json := true } := by
  have hnamed : readArguments (withoutSwitch .json arguments) ≠
      .error (.rejected .noArguments) := by
    rw [hread]
    exact nofun
  have hplain := turned_eq_of_withoutSwitch ⟨by decide, by decide⟩ hread
  constructor
  · change _ = runCommand world (command.turned .json false)
    rw [hplain]
    exact run_of_readArguments hread
  · unfold jsonRun run
    rw [readArguments_json hnamed, hread]
    rfl

theorem run_eq_textRun_or_jsonRun [ZoneTable] (hread : readArguments arguments = .ok command) :
    run world arguments =
      if command.json then jsonRun world arguments else textRun world arguments := by
  have hwithout : readArguments (withoutSwitch .json arguments) =
      .ok (command.turned .json false) := readArguments_withoutSwitch ⟨by decide, by decide⟩ hread
  obtain ⟨htext, hjson⟩ := runs_of_readArguments world hwithout
  rw [run_of_readArguments hread]
  obtain ⟨file, action, json, entries⟩ := command
  cases json with
  | true => exact hjson.symm
  | false => exact htext.symm

/-! ### What is printed -/

theorem ending_eq_iff {first second : Prop} [Decidable first] [Decidable second] :
    (if first then Ending.completed else .crashed) = (if second then .completed else .crashed) ↔
      (first ↔ second) := by
  by_cases hfirst : first <;> by_cases hsecond : second <;> simp [hfirst, hsecond]

theorem ending_of_comesTo [ZoneTable] (hcomes : ComesTo world arguments summary) :
    (textRun world arguments).ending =
        (if ∀ timestamp ∈ summary.timestamps, IsShownAt world.localOffset timestamp
          then .completed else .crashed) ∧
      (jsonRun world arguments).ending =
        if ∀ timestamp ∈ summary.timestamps, timestamp.HasFourDigitYear
          then .completed else .crashed := by
  obtain ⟨command, overrides, files, hread, hdone⟩ := hcomes
  obtain ⟨htext, hjson⟩ := runs_of_readArguments world hread
  rw [htext, hjson, runCommand_of_isCarriedOut hdone, runCommand_of_isCarriedOut hdone]
  simp only [Summary.isShort_text_iff, Summary.isShort_json_iff, ite_not]
  trivial

theorem same_of_comesTo [ZoneTable] (hcomes : ComesTo world arguments summary) :
    (textRun world arguments).files = (jsonRun world arguments).files ∧
      (textRun world arguments).isConfigRejected = (jsonRun world arguments).isConfigRejected := by
  obtain ⟨command, overrides, files, hread, hdone⟩ := hcomes
  obtain ⟨htext, hjson⟩ := runs_of_readArguments world hread
  rw [htext, hjson, runCommand_of_isCarriedOut hdone, runCommand_of_isCarriedOut hdone]
  exact ⟨rfl, rfl⟩

theorem jsonRun_eq_of_not_comesTo [ZoneTable]
    (hnamed : readArguments (withoutSwitch .json arguments) ≠ .error (.rejected .noArguments))
    (hfail : ∀ summary, ¬ ComesTo world arguments summary) :
    jsonRun world arguments = textRun world arguments := by
  cases hread : readArguments (withoutSwitch .json arguments) with
  | error stop => exact jsonRun_of_stop hnamed hread
  | ok command =>
    obtain ⟨htext, hjson⟩ := runs_of_readArguments world hread
    obtain ⟨overrides, files, summary, hdone⟩ | ⟨outcome, -, -, hsame⟩ :=
      isCarriedOut_or_fails world command
    · exact absurd ⟨command, overrides, files, hread, hdone⟩ (hfail summary)
    · rw [htext, hjson, hsame, hsame]

theorem not_refused_of_comesTo [ZoneTable] (hcomes : ComesTo world arguments summary)
    (report : String) :
    (textRun world arguments).ending ≠ .refused report ∧
      (jsonRun world arguments).ending ≠ .refused report := by
  obtain ⟨htext, hjson⟩ := ending_of_comesTo hcomes
  rw [htext, hjson]
  constructor <;> split <;> nofun

/-- **What the output mode decides.** A command line that names a command changes the same files and
is refused with the same report for text and for JSON. It also ends alike, unless it is carried out
and one of the two shows all its times and the other does not. A time that cannot be shown is not
reported but ends the program in a crash, in either of them. -/
theorem output_modes [ZoneTable] (world : World)
    (hnamed : readArguments (withoutSwitch .json arguments) ≠ .error (.rejected .noArguments)) :
    ((∀ report, (textRun world arguments).ending = .refused report ↔
        (jsonRun world arguments).ending = .refused report) ∧
      (textRun world arguments).files = (jsonRun world arguments).files ∧
      (textRun world arguments).isConfigRejected = (jsonRun world arguments).isConfigRejected) ∧
    ((textRun world arguments).ending = (jsonRun world arguments).ending ↔
      ∀ summary, ComesTo world arguments summary →
        ((∀ timestamp ∈ summary.timestamps, IsShownAt world.localOffset timestamp) ↔
          ∀ timestamp ∈ summary.timestamps, timestamp.HasFourDigitYear)) ∧
    (∀ summary, ComesTo world arguments summary →
      (textRun world arguments).ending =
          (if ∀ timestamp ∈ summary.timestamps, IsShownAt world.localOffset timestamp
            then .completed else .crashed) ∧
        (jsonRun world arguments).ending =
          if ∀ timestamp ∈ summary.timestamps, timestamp.HasFourDigitYear
            then .completed else .crashed) ∧
    ∀ command, readArguments arguments = .ok command →
      run world arguments =
        if command.json then jsonRun world arguments else textRun world arguments := by
  refine ⟨?_, ?_, fun summary => ending_of_comesTo,
    fun command hread => run_eq_textRun_or_jsonRun hread⟩
  · by_cases hdone : ∃ summary, ComesTo world arguments summary
    · obtain ⟨summary, hcomes⟩ := hdone
      refine ⟨fun report => ?_, same_of_comesTo hcomes⟩
      obtain ⟨htext, hjson⟩ := not_refused_of_comesTo hcomes report
      exact ⟨fun hrefused => absurd hrefused htext, fun hrefused => absurd hrefused hjson⟩
    · rw [jsonRun_eq_of_not_comesTo hnamed (not_exists.1 hdone)]
      exact ⟨fun _ => Iff.rfl, rfl, rfl⟩
  · constructor
    · intro hsame summary hcomes
      obtain ⟨htext, hjson⟩ := ending_of_comesTo hcomes
      rw [htext, hjson] at hsame
      exact ending_eq_iff.1 hsame
    · intro hagree
      by_cases hdone : ∃ summary, ComesTo world arguments summary
      · obtain ⟨summary, hcomes⟩ := hdone
        obtain ⟨htext, hjson⟩ := ending_of_comesTo hcomes
        rw [htext, hjson]
        exact ending_eq_iff.2 (hagree summary hcomes)
      · rw [jsonRun_eq_of_not_comesTo hnamed (not_exists.1 hdone)]

def wellText : String :=
  "\x7b\"schema_version\":1,\"chore\":\x7b\"id\":23,\"name\":\"clean the well\"," ++
    "\"frequency_type\":\"adaptive\",\"next_due_date\":\"0003-01-01T00:00:00Z\"," ++
    "\"assign_strategy\":\"keep_last_assigned\",\"assigned_to\":1,\"assignees\":[1]\x7d\x7d"

def wellWorld : World where
  configPath := .ok "config.json"
  files := [("well.json", wellText)]
  localOffset := 0
  now := timeOf "2025-01-01T00:00:00Z"
  entropy := .script []

/-- Two years early, it is next due two years before that, in the year -1. -/
def wellArguments : List String :=
  ["complete", "well.json", "--by", "1", "--at", "0001-01-01T00:00:00Z"]

theorem well_is_shown_as_text_only :
    readArguments (withoutSwitch .json wellArguments) ≠ .error (.rejected .noArguments) ∧
      ¬ (∀ summary, ComesTo wellWorld wellArguments summary →
        ((∀ timestamp ∈ summary.timestamps, IsShownAt wellWorld.localOffset timestamp) ↔
          ∀ timestamp ∈ summary.timestamps, timestamp.HasFourDigitYear)) ∧
      (textRun wellWorld wellArguments).files = (jsonRun wellWorld wellArguments).files ∧
      run wellWorld wellArguments = textRun wellWorld wellArguments := by
  have hnamed : readArguments (withoutSwitch .json wellArguments) ≠
      .error (.rejected .noArguments) := by decide +kernel
  obtain ⟨⟨-, hfiles, -⟩, hagree, -, haccepted⟩ := output_modes wellWorld hnamed
  refine ⟨hnamed, ?_, hfiles, ?_⟩
  · rw [← hagree]
    decide +kernel
  · obtain ⟨command, hread, htext⟩ : ∃ command, readArguments wellArguments = .ok command ∧
      command.json = false := ⟨_, rfl, rfl⟩
    rw [haccepted command hread, htext]
    rfl

theorem well_crashes_as_json :
    (textRun wellWorld wellArguments).ending = .completed ∧
      (jsonRun wellWorld wellArguments).ending = .crashed := by
  decide +kernel

end ChoreRota.CommandLine
