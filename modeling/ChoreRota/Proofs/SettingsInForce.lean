import ChoreRota.CommandLine.Run
import ChoreRota.Proofs.OverrideForms
import ChoreRota.Proofs.Schedule

/-!
# Settings in force

Lists of overrides compose: a list after another one is as good as both in one list, and of several
overrides of one setting the last counts. A list is refused for its first bad entry. Whatever the
configuration file says, an adaptive chore looks at one row of history at least.
-/

namespace ChoreRota

/-! ### Single overrides -/

namespace Override

variable {text : String} {count : UInt64}

def window? (text : String) : Option UInt64 :=
  match read text with
  | .ok (.historyWindow count) => some count
  | _ => none

def seed? (text : String) : Option UInt64 :=
  match read text with
  | .ok (.randomSeed seed) => some seed
  | _ => none

theorem window_ne_zero (hwindow : window? text = some count) : count ≠ 0 := by
  unfold window? at hwindow
  split at hwindow
  · rename_i hread
    obtain rfl := Option.some.inj hwindow
    obtain ⟨_, _, -, -, hset⟩ := read_eq_ok_iff.1 hread
    cases hset with
    | historyWindow _ _ hpositive =>
      rintro rfl
      cases hpositive
  · cases hwindow

end Override

/-! ### Lists of overrides -/

namespace Overrides

variable {start overrides : Overrides} {texts : List String} {fault : OverrideFault}

theorem exists_collectFrom_iff :
    (∃ overrides, collectFrom start texts = .ok overrides) ↔
      ∀ text ∈ texts, ∃ override, Override.read text = .ok override := by
  induction texts generalizing start with
  | nil => simp [collectFrom]
  | cons text rest ih =>
    rw [List.forall_mem_cons]
    cases hread : Override.read text with
    | error fault => simp [collectFrom, hread]
    | ok override => simpa [collectFrom, hread] using ih

theorem collectFrom_eq_error_iff :
    collectFrom start texts = .error fault ↔
      ∃ before text after, texts = before ++ text :: after ∧
        (∀ entry ∈ before, ∃ override, Override.read entry = .ok override) ∧
        Override.read text = .error fault := by
  induction texts generalizing start with
  | nil => simp [collectFrom]
  | cons text rest ih =>
    constructor
    · intro hfail
      cases hread : Override.read text with
      | error cause =>
        simp only [collectFrom, hread] at hfail
        obtain rfl := Except.error.inj hfail
        exact ⟨[], text, rest, rfl, by simp, hread⟩
      | ok override =>
        simp only [collectFrom, hread] at hfail
        obtain ⟨before, bad, after, rfl, hbefore, hbad⟩ := ih.1 hfail
        exact ⟨text :: before, bad, after, rfl,
          List.forall_mem_cons.2 ⟨⟨override, hread⟩, hbefore⟩, hbad⟩
    · rintro ⟨before, bad, after, hsplit, hbefore, hbad⟩
      cases before with
      | nil =>
        obtain ⟨rfl, rfl⟩ := List.cons.inj hsplit
        simp only [collectFrom, hbad]
      | cons first before =>
        obtain ⟨rfl, rfl⟩ := List.cons.inj hsplit
        obtain ⟨⟨override, hread⟩, hbefore⟩ := List.forall_mem_cons.1 hbefore
        simp only [collectFrom, hread]
        exact ih.2 ⟨before, bad, after, rfl, hbefore, hbad⟩

/-- Of several overrides of one setting the last is kept, and without any what was there before. -/
theorem eq_last_of_collectFrom (hcollect : collectFrom start texts = .ok overrides) :
    overrides =
      ⟨(texts.filterMap Override.window?).getLast?.or start.historyWindow,
        (texts.filterMap Override.seed?).getLast?.or start.randomSeed⟩ := by
  induction texts generalizing start with
  | nil => exact (Except.ok.inj hcollect).symm
  | cons text rest ih =>
    cases hread : Override.read text with
    | error fault => simp [collectFrom, hread] at hcollect
    | ok override =>
      simp only [collectFrom, hread] at hcollect
      rw [ih hcollect]
      cases override with
      | historyWindow count =>
        have hwindow : Override.window? text = some count := by rw [Override.window?, hread]
        have hseed : Override.seed? text = .none := by rw [Override.seed?, hread]
        rw [List.filterMap_cons_some hwindow, List.filterMap_cons_none hseed, List.getLast?_cons]
        simp [put]
      | randomSeed seed =>
        have hwindow : Override.window? text = .none := by rw [Override.window?, hread]
        have hseed : Override.seed? text = some seed := by rw [Override.seed?, hread]
        rw [List.filterMap_cons_none hwindow, List.filterMap_cons_some hseed, List.getLast?_cons]
        simp [put]

theorem eq_last_of_collect (hcollect : collect texts = .ok overrides) :
    overrides =
      ⟨(texts.filterMap Override.window?).getLast?, (texts.filterMap Override.seed?).getLast?⟩ := by
  simpa [none] using eq_last_of_collectFrom hcollect

theorem window_ne_zero_of_collect (hcollect : collect texts = .ok overrides) :
    overrides.historyWindow ≠ some 0 := by
  intro hzero
  rw [eq_last_of_collect hcollect] at hzero
  obtain ⟨text, -, hwindow⟩ := List.mem_filterMap.1 (List.mem_of_getLast? hzero)
  exact Override.window_ne_zero hwindow rfl

theorem exists_collect_append {first second : List String} {earlier later : Overrides}
    (hfirst : collect first = .ok earlier) (hsecond : collect second = .ok later) :
    ∃ all, collect (first ++ second) = .ok all := by
  refine exists_collectFrom_iff.2 fun text htext => ?_
  rcases List.mem_append.1 htext with hmem | hmem
  · exact exists_collectFrom_iff.1 ⟨earlier, hfirst⟩ text hmem
  · exact exists_collectFrom_iff.1 ⟨later, hsecond⟩ text hmem

end Overrides

/-! ### The configuration -/

namespace Config

variable {config : Config} {overrides : Overrides}

theorem one_le_window (hwindow : config.historyWindow ≠ some 0) : 1 ≤ config.window := by
  unfold window
  split
  · rename_i count hcount
    refine Nat.pos_of_ne_zero fun hzero => hwindow ?_
    rw [hcount, UInt64.toNat_inj.1 (hzero.trans UInt64.toNat_zero.symm)]
  · decide

theorem window_ne_zero_of_load {path : String} {text : Option String}
    (hload : load path text = .ok config) : config.historyWindow ≠ some 0 := by
  unfold load at hload
  split at hload
  · cases hload
  · split at hload
    · cases hload
    · split at hload
      · cases hload
      · rename_i hwindow
        obtain rfl := Except.ok.inj hload
        exact hwindow

theorem window_ne_zero_of_loadOrUnset (path : String) (text : Option String) :
    (loadOrUnset path text).1.historyWindow ≠ some 0 := by
  unfold loadOrUnset
  split
  · exact nofun
  · split
    · rename_i hload
      exact window_ne_zero_of_load hload
    · exact nofun

theorem window_ne_zero_of_merge (hbase : config.historyWindow ≠ some 0)
    (hoverrides : overrides.historyWindow ≠ some 0) :
    (config.merge overrides).historyWindow ≠ some 0 := by
  unfold merge
  cases hcount : overrides.historyWindow with
  | none => exact hbase
  | some count =>
    rw [hcount] at hoverrides
    exact hoverrides

end Config

namespace CommandLine

theorem one_le_window_settings {overrides : Overrides}
    (hoverrides : overrides.historyWindow ≠ some 0) (world : World) :
    1 ≤ (settings world overrides).1.window := by
  refine Config.one_le_window ?_
  unfold settings
  split
  · exact Config.window_ne_zero_of_merge nofun hoverrides
  · exact Config.window_ne_zero_of_merge (Config.window_ne_zero_of_loadOrUnset _ _) hoverrides

end CommandLine

open CommandLine (World settings)

/-- **Overrides in order.** Two lists that are accepted are accepted as one list, and putting that
over a configuration is putting the first over it and then the second: for each setting the last
text that names it counts, and then the configuration. A list is accepted if all its entries are,
and otherwise refused with the fault of the first bad one. With an accepted list and any
configuration file the window in force is at least 1. -/
theorem Overrides.last_named_counts (base : Config) {first second : List String}
    {earlier later : Overrides} (hfirst : collect first = .ok earlier)
    (hsecond : collect second = .ok later) :
    (∃ all, collect (first ++ second) = .ok all ∧
        base.merge all = (base.merge earlier).merge later ∧
        base.merge all =
          ⟨((first ++ second).filterMap Override.window?).getLast?.or base.historyWindow,
            ((first ++ second).filterMap Override.seed?).getLast?.or base.randomSeed⟩) ∧
      (∀ texts, (∃ overrides, collect texts = .ok overrides) ↔
        ∀ text ∈ texts, ∃ override, Override.read text = .ok override) ∧
      (∀ texts fault, collect texts = .error fault ↔
        ∃ before text after, texts = before ++ text :: after ∧
          (∀ entry ∈ before, ∃ override, Override.read entry = .ok override) ∧
          Override.read text = .error fault) ∧
      ∀ (world : World) (texts : List String) (overrides : Overrides),
        collect texts = .ok overrides → 1 ≤ (settings world overrides).1.window := by
  obtain ⟨all, hall⟩ := exists_collect_append hfirst hsecond
  refine ⟨⟨all, hall, ?_, ?_⟩, fun _ => exists_collectFrom_iff, fun _ _ => collectFrom_eq_error_iff,
    fun world _ _ hcollect =>
      CommandLine.one_le_window_settings (window_ne_zero_of_collect hcollect) world⟩
  · rw [eq_last_of_collect hall, eq_last_of_collect hfirst, eq_last_of_collect hsecond]
    simp only [Config.merge, List.filterMap_append, List.getLast?_append, Option.or_assoc]
  · rw [eq_last_of_collect hall]
    rfl

/-- A configuration file that asks for an empty window is refused, and what is given in its place
is written in many ways. -/
def pantryWorld : World where
  configPath := .ok "config.json"
  files := [("config.json", "\x7b\"random_seed\": 4, \"adaptive_history_window\": 0\x7d")]
  localOffset := 0
  now := timeOf "2025-01-01T00:00:00Z"
  entropy := .script []

theorem pantry_overrides_in_order :
    Overrides.collect ["seed = +7", "adaptive_window=3"] = .ok ⟨some 3, some 7⟩ ∧
      Overrides.collect [" Adaptive-History..WINDOW = 8 "] = .ok ⟨some 8, none⟩ ∧
      (∃ all, Overrides.collect
          ["seed = +7", "adaptive_window=3", " Adaptive-History..WINDOW = 8 "] = .ok all ∧
        Config.unset.merge all = ⟨some 8, some 7⟩) ∧
      (∀ entry ∈ ["seed = +7", "adaptive_window=3"],
        ∃ override, Override.read entry = .ok override) ∧
      (∃ fault, Overrides.collect ["seed=1", "window=2", "seed"] = .error fault ∧
        fault.message = "unknown config field 'window'") ∧
      (settings pantryWorld Overrides.none).2 = true ∧
      1 ≤ (settings pantryWorld Overrides.none).1.window := by
  have hfirst : Overrides.collect ["seed = +7", "adaptive_window=3"] = .ok ⟨some 3, some 7⟩ := rfl
  have hsecond : Overrides.collect [" Adaptive-History..WINDOW = 8 "] = .ok ⟨some 8, none⟩ := rfl
  obtain ⟨⟨all, hall, hmerge, -⟩, haccepted, hrefused, hwindow⟩ :=
    Overrides.last_named_counts Config.unset hfirst hsecond
  have hbad : Overrides.collect ["seed=1", "window=2", "seed"] = .error (.unknownKey "window") :=
    (hrefused _ _).2 ⟨["seed=1"], "window=2", ["seed"], rfl,
      (haccepted _).1 ⟨⟨none, some 1⟩, rfl⟩, rfl⟩
  exact ⟨hfirst, hsecond, ⟨all, hall, hmerge⟩, (haccepted _).1 ⟨_, hfirst⟩, ⟨_, hbad, rfl⟩,
    by decide +kernel, hwindow pantryWorld [] _ rfl⟩

end ChoreRota
