import ChoreRota.Proofs.Rendering
import ChoreRota.Proofs.SavedSnapshots

/-!
# What commands do

`actionEffect_eq_ok_iff` says what each action comes to when it succeeds,
`runCommand_of_isCarriedOut` what a command leaves behind that is carried out, and
`isCarriedOut_or_fails` what any other does. Whether the output is JSON matters to the printing
alone.
-/

namespace ChoreRota

theorem Snapshot.IsStorable.load_of_save {snapshot : Snapshot} {text : String}
    (hstorable : snapshot.IsStorable) (hsave : snapshot.save = .ok text) :
    Snapshot.load text = .ok snapshot := by
  have hyears := Snapshot.exists_save_iff.1 ⟨text, hsave⟩
  obtain ⟨saved, again, hsaved, hload, rfl, -⟩ :=
    isKeptBySaving hstorable.nodup fun timestamp hmem =>
      ⟨hyears timestamp hmem, hstorable.offset timestamp hmem⟩
  obtain rfl : text = saved := Except.ok.inj (hsave.symm.trans hsaved)
  exact hload

namespace CommandLine

variable {world : World} {config : Config} {command : Command} {overrides : Overrides}
  {snapshot : Snapshot} {action : Action} {effect : Effect} {summary : Summary}
  {files : List (String × String)} {path text : String}

/-! ### Files -/

theorem lookup_replaceFile_self {old : String} (hfile : files.lookup path = some old)
    (text : String) : (replaceFile files path text).lookup path = some text := by
  induction files with
  | nil => cases hfile
  | cons file rest ih =>
    obtain ⟨name, content⟩ := file
    by_cases hname : name = path
    · simp [replaceFile, hname]
    · have hskip : (path == name) = false := beq_false_of_ne (Ne.symm hname)
      simp only [replaceFile, List.map_cons, if_neg hname, List.lookup_cons, hskip] at hfile ⊢
      exact ih hfile

theorem lookup_replaceFile_of_ne {other : String} (hother : other ≠ path)
    (files : List (String × String)) (text : String) :
    (replaceFile files path text).lookup other = files.lookup other := by
  induction files with
  | nil => rfl
  | cons file rest ih =>
    obtain ⟨name, content⟩ := file
    simp only [replaceFile] at ih
    by_cases hname : name = path
    · subst hname
      have hskip : (other == name) = false := beq_false_of_ne hother
      simp only [replaceFile, List.map_cons, ↓reduceIte, List.lookup_cons, hskip, ih]
    · simp only [replaceFile, List.map_cons, if_neg hname, List.lookup_cons, ih]

theorem loadFile_eq_ok (hload : loadFile world path = .ok snapshot) :
    ∃ text, world.files.lookup path = some text ∧ Snapshot.load text = .ok snapshot := by
  unfold loadFile at hload
  split at hload
  · cases hload
  · rename_i text htext
    exact ⟨text, htext, mapError_eq_ok_iff.1 hload⟩

theorem saveIf_true_eq_ok (hsave : saveIf true world path snapshot = .ok files) :
    ∃ text, snapshot.save = .ok text ∧ files = replaceFile world.files path text := by
  obtain ⟨text, htext, hfiles⟩ := bind_eq_ok_iff.1 hsave
  exact ⟨text, mapError_eq_ok_iff.1 htext, (Except.ok.inj hfiles).symm⟩

/-! ### Actions -/

inductive Succeeds [ZoneTable] (world : World) (config : Config) (snapshot : Snapshot) :
    Action → Effect → Prop
  | complete {performer : UserId} {time? note : Option String} {performedAt : Timestamp}
      {decision : Decision} (apply : Bool) (htime : eventTime world time? = .ok performedAt)
      (hdecision : (snapshot.complete config.window performer performedAt
        (source world config)).1 = .ok decision) :
      Succeeds world config snapshot (.complete performer time? note apply)
        (decisionEffect "Completed" snapshot decision performer performedAt note apply)
  | skip {performer : UserId} {time? : Option String} {rotate : Bool} {performedAt : Timestamp}
      {decision : Decision} (apply : Bool) (htime : eventTime world time? = .ok performedAt)
      (hdecision : (snapshot.skip performer performedAt rotate
        (source world config)).1 = .ok decision) :
      Succeeds world config snapshot (.skip performer time? rotate apply)
        (decisionEffect "Skipped" snapshot decision performer performedAt none apply)
  | unassign {user : UserId} {chore : Chore} (apply : Bool)
      (hmember : user ∈ snapshot.chore.assignees)
      (hchore : (snapshot.chore.removeAssignee user (source world config)).1 = chore) :
      Succeeds world config snapshot (.unassign user apply)
        ⟨⟨chore, snapshot.history⟩, apply, .removed user chore apply⟩
  | display : Succeeds world config snapshot .display ⟨snapshot, false, .displayed snapshot⟩

theorem actionEffect_eq_ok_iff [ZoneTable] :
    actionEffect world config snapshot action = .ok effect ↔
      Succeeds world config snapshot action effect := by
  constructor
  · intro heffect
    cases action with
    | complete performer time? note apply =>
      obtain ⟨performedAt, htime, heffect⟩ := bind_eq_ok_iff.1 heffect
      obtain ⟨decision, hdecision, heffect⟩ := bind_eq_ok_iff.1 heffect
      obtain rfl := Except.ok.inj heffect
      exact .complete apply htime (mapError_eq_ok_iff.1 hdecision)
    | skip performer time? rotate apply =>
      obtain ⟨performedAt, htime, heffect⟩ := bind_eq_ok_iff.1 heffect
      obtain ⟨decision, hdecision, heffect⟩ := bind_eq_ok_iff.1 heffect
      obtain rfl := Except.ok.inj heffect
      exact .skip apply htime (mapError_eq_ok_iff.1 hdecision)
    | unassign user apply =>
      simp only [actionEffect] at heffect
      split at heffect
      · rename_i hmember
        obtain rfl := Except.ok.inj heffect
        exact .unassign apply (List.contains_iff_mem.1 hmember) rfl
      · cases heffect
    | display =>
      obtain rfl := Except.ok.inj heffect
      exact .display
  · intro hsucceeds
    cases hsucceeds with
    | complete apply htime hdecision =>
      exact bind_eq_ok_iff.2 ⟨_, htime, bind_eq_ok_iff.2 ⟨_, mapError_eq_ok_iff.2 hdecision, rfl⟩⟩
    | skip apply htime hdecision =>
      exact bind_eq_ok_iff.2 ⟨_, htime, bind_eq_ok_iff.2 ⟨_, mapError_eq_ok_iff.2 hdecision, rfl⟩⟩
    | unassign apply hmember hchore =>
      simp only [actionEffect, if_pos (List.contains_iff_mem.2 hmember), hchore]
    | display => rfl

/-! ### Saving -/

theorem isMinuteOffset_of_eventTime {time? : Option String} {performedAt : Timestamp}
    (hnow : time? = none → IsMinuteOffset world.now.offset)
    (htime : eventTime world time? = .ok performedAt) : IsMinuteOffset performedAt.offset := by
  cases time? with
  | none =>
    obtain rfl := Except.ok.inj htime
    exact hnow rfl
  | some text =>
    simp only [eventTime] at htime
    split at htime
    · rename_i hread
      obtain rfl := Except.ok.inj htime
      exact (Rfc3339.isWritable_of_read hread).offset
    · cases htime

namespace Succeeds

theorem isStorable [ZoneTable] (hsucceeds : Succeeds world config snapshot action effect)
    (hnow : IsMinuteOffset world.now.offset) (hstorable : snapshot.IsStorable) :
    effect.snapshot.IsStorable := by
  cases hsucceeds with
  | @complete performer time? note performedAt decision apply htime hdecision =>
    cases apply with
    | false => exact hstorable
    | true =>
      have hoffset := isMinuteOffset_of_eventTime (fun _ => hnow) htime
      exact State.isStorable_apply hstorable hoffset decision performer note
  | @skip performer time? rotate performedAt decision apply htime hdecision =>
    cases apply with
    | false => exact hstorable
    | true =>
      have hoffset := isMinuteOffset_of_eventTime (fun _ => hnow) htime
      exact State.isStorable_apply hstorable hoffset decision performer none
  | unassign apply hmember hchore =>
    subst hchore
    exact ⟨hstorable.nodup.filter _, hstorable.offset⟩
  | display => exact hstorable

theorem mem_timestamps [ZoneTable] (hsucceeds : Succeeds world config snapshot action effect)
    (hsaved : effect.isSaved = true) {timestamp : Timestamp}
    (hmem : timestamp ∈ effect.summary.timestamps) : timestamp ∈ effect.snapshot.timestamps := by
  cases hsucceeds with
  | complete apply | skip apply =>
    obtain rfl : apply = true := hsaved
    exact Snapshot.mem_timestamps.2 (.inl (Option.mem_toList.1 hmem))
  | unassign => cases hmem
  | display => cases hsaved

end Succeeds

theorem loadFile_of_saveIf {after : Snapshot} (hload : loadFile world path = .ok snapshot)
    (hstorable : after.IsStorable) (hsave : saveIf true world path after = .ok files) :
    loadFile { world with files } path = .ok after := by
  obtain ⟨old, hold, -⟩ := loadFile_eq_ok hload
  obtain ⟨text, htext, rfl⟩ := saveIf_true_eq_ok hsave
  have hloaded : Snapshot.load text = .ok after := hstorable.load_of_save htext
  simp only [loadFile, lookup_replaceFile_self hold, hloaded]
  rfl

/-! ### Commands -/

/-- The command is carried out, which leaves the files behind and the summary to print. -/
structure IsCarriedOut [ZoneTable] (world : World) (command : Command) (overrides : Overrides)
    (files : List (String × String)) (summary : Summary) : Prop where
  collected : Overrides.collect command.overrides = .ok overrides
  performed : perform world (settings world overrides).1 command = .ok (files, summary)

theorem perform_eq_ok_iff [ZoneTable] :
    perform world config command = .ok (files, summary) ↔
      ∃ snapshot effect, loadFile world command.file = .ok snapshot ∧
        Succeeds world config snapshot command.action effect ∧
        saveIf effect.isSaved world command.file effect.snapshot = .ok files ∧
        effect.summary = summary := by
  simp only [perform, bind_eq_ok_iff, actionEffect_eq_ok_iff]
  constructor
  · rintro ⟨snapshot, hload, effect, heffect, saved, hsave, hresult⟩
    obtain ⟨rfl, rfl⟩ := Prod.mk.inj (Except.ok.inj hresult)
    exact ⟨snapshot, effect, hload, heffect, hsave, rfl⟩
  · rintro ⟨snapshot, effect, hload, heffect, hsave, rfl⟩
    exact ⟨snapshot, hload, effect, heffect, files, hsave, rfl⟩

theorem failed_spec (files : List (String × String)) (fault : CommandFault) :
    (Outcome.failed files fault).ending ≠ .completed ∧
      (Outcome.failed files fault).files = files := by
  unfold Outcome.failed
  split <;> simp

theorem runCommand_of_isCarriedOut [ZoneTable]
    (hdone : IsCarriedOut world command overrides files summary) (json : Bool) :
    runCommand world { command with json } =
      ⟨if (printed (summary.lines json world.localOffset)).2 then .crashed else .completed,
        (printed (summary.lines json world.localOffset)).1,
        (settings world overrides).2, files⟩ := by
  have hperformed : perform world (settings world overrides).1 { command with json } =
      .ok (files, summary) := hdone.performed
  simp only [runCommand, hdone.collected, hperformed]
  rfl

/-- A command that is not carried out leaves the files alone, and is refused for the same reason
whatever the output is. -/
theorem isCarriedOut_or_fails [ZoneTable] (world : World) (command : Command) :
    (∃ overrides files summary, IsCarriedOut world command overrides files summary) ∨
      ∃ outcome : Outcome, outcome.ending ≠ .completed ∧ outcome.files = world.files ∧
        ∀ json, runCommand world { command with json } = outcome := by
  cases hcollect : Overrides.collect command.overrides with
  | error fault =>
    obtain ⟨hending, hfiles⟩ := failed_spec world.files (.override fault)
    refine .inr ⟨_, hending, hfiles, fun json => ?_⟩
    simp only [runCommand, hcollect]
  | ok overrides =>
    cases hperform : perform world (settings world overrides).1 command with
    | error fault =>
      obtain ⟨hending, hfiles⟩ := failed_spec world.files fault
      refine .inr ⟨{ Outcome.failed world.files fault with
        isConfigRejected := (settings world overrides).2 }, hending, hfiles, fun json => ?_⟩
      have hperformed : perform world (settings world overrides).1 { command with json } =
          .error fault := hperform
      simp only [runCommand, hcollect, hperformed]
    | ok done => exact .inl ⟨overrides, done.1, done.2, hcollect, hperform⟩

theorem run_of_readArguments [ZoneTable] {arguments : List String}
    (hread : readArguments arguments = .ok command) :
    run world arguments = runCommand world command := by
  rw [run, hread]

theorem run_of_stop [ZoneTable] {arguments : List String} {stop : Stop}
    (hread : readArguments arguments = .error stop) :
    (run world arguments).files = world.files := by
  rw [run, hread]
  cases stop <;> rfl

end CommandLine

end ChoreRota
