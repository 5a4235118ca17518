import Mathlib.Data.List.Perm.Basic
import ChoreRota.Calendar.Zone.Table
import ChoreRota.Event
import ChoreRota.Proofs.Assignment
import ChoreRota.Proofs.Schedule

/-!
# Rows of skips

Nothing that reads a history looks at the status of a row. So a skip ends a gap between completions
and begins another one, and it counts for whoever performed it. Whether it changes anything depends
on the average gap and on the tallies alone.
-/

namespace ChoreRota

open Chance (Source)

/-- A list consists of two others, each in its order. -/
inductive Interleaves {α : Type} : List α → List α → List α → Prop where
  | nil : Interleaves [] [] []
  | left {item : α} {first second whole : List α} :
    Interleaves first second whole → Interleaves (item :: first) second (item :: whole)
  | right {item : α} {first second whole : List α} :
    Interleaves first second whole → Interleaves first (item :: second) (item :: whole)

theorem Interleaves.perm {α : Type} {first second whole : List α}
    (hparts : Interleaves first second whole) : whole.Perm (first ++ second) := by
  induction hparts with
  | nil => exact .nil
  | left _ ih => exact ih.cons _
  | right _ ih => exact (ih.cons _).trans List.perm_middle.symm

def HistoryRow.withStatus (row : HistoryRow) (status : Status) : HistoryRow :=
  { row with status }

namespace Rotation

variable {users keys : List UserId}

theorem countKey_comm (first second : UserId) (entries : List (UserId × Nat)) :
    countKey first (countKey second entries) = countKey second (countKey first entries) := by
  induction entries with
  | nil => rfl
  | cons entry rest ih =>
    obtain ⟨user, count⟩ := entry
    by_cases hfirst : user = first
    · by_cases hsecond : user = second
      · simp only [countKey, if_pos hfirst, if_pos hsecond]
      · simp only [countKey, if_pos hfirst, if_neg hsecond]
    · by_cases hsecond : user = second
      · simp only [countKey, if_neg hfirst, if_pos hsecond]
      · simp only [countKey, if_neg hfirst, if_neg hsecond, ih]

theorem tallies_congr {others : List UserId} (hkeys : keys.Perm others) :
    tallies users keys = tallies users others :=
  hkeys.foldl_eq' (fun _ _ _ _ entries => countKey_comm _ _ entries) _

end Rotation

open Rotation

theorem Chore.nextAssignee_leastCompleted {chore : Chore}
    (hstrategy : chore.strategy = .leastCompleted) (history : List HistoryRow) (performer : UserId)
    (source : Source) :
    chore.nextAssignee history performer source =
      ((leastCounted chore.assignees (completedKeys history)).map some, source) := by
  rw [nextAssignee, hstrategy]

theorem map_some_inj {α : Type} {first second : Except Fault α} :
    first.map some = second.map some ↔ first = second := by
  cases first <;> cases second <;> simp [Except.map]

/-- Two tallies have the same pick when they have the same first user with the smallest one. -/
theorem leastCounted_congr_iff {users keys others : List UserId} :
    leastCounted users keys = leastCounted users others ↔
      ∀ user, IsFirstLeast (tallies users keys) user ↔
        IsFirstLeast (tallies users others) user := by
  simp only [← leastCounted_eq_ok_iff]
  constructor
  · intro hsame user
    rw [hsame]
  · intro hsame
    cases hkeys : leastCounted users keys with
    | ok user => exact ((hsame user).1 hkeys).symm
    | error fault =>
      cases hothers : leastCounted users others with
      | ok user => exact absurd ((hsame user).2 hothers) (by simp [hkeys])
      | error other =>
        -- Only the empty list of users has no pick, whatever the keys.
        rw [(leastCounted_eq_error_iff.1 hkeys).2, (leastCounted_eq_error_iff.1 hothers).2]

namespace Cadence

variable {completedAt : Moment} {history kept : List HistoryRow}

def learned (completedAt : Moment) (history : List HistoryRow) : Option (Option Moment) :=
  match gaps completedAt history with
  | [] => none
  | found => some (completedAt.shift? (seconds (averageSeconds found)))

theorem nextAfter_of_learned_eq_none (hlearned : learned completedAt history = none)
    (priorDue : Option Timestamp) :
    nextAfter priorDue completedAt history = repeatGap priorDue completedAt := by
  cases hgaps : gaps completedAt history with
  | nil => rw [nextAfter, hgaps]
  | cons gap rest =>
    rw [learned, hgaps] at hlearned
    cases hlearned

theorem nextAfter_of_learned_eq_some {due : Option Moment}
    (hlearned : learned completedAt history = some due) (priorDue : Option Timestamp) :
    nextAfter priorDue completedAt history = .ok due := by
  cases hgaps : gaps completedAt history with
  | nil =>
    rw [learned, hgaps] at hlearned
    cases hlearned
  | cons gap rest =>
    rw [learned, hgaps] at hlearned
    rw [nextAfter, hgaps]
    exact congrArg Except.ok (Option.some.inj hlearned)

/-- Where there is nothing to learn from, a missing prior due date shows it, and so does a
completion at the very due date. -/
theorem nextAfter_congr_iff :
    (∀ priorDue, nextAfter priorDue completedAt history = nextAfter priorDue completedAt kept) ↔
      learned completedAt history = learned completedAt kept := by
  have hdistinct : ∀ due, ∃ priorDue, repeatGap priorDue completedAt ≠ .ok due := by
    intro due
    cases due with
    | none =>
      refine ⟨some (Timestamp.ofUtc completedAt), ?_⟩
      have hsame : completedAt.shift? 0 = some completedAt :=
        Moment.shift?_eq_some_iff.2 (by omega)
      simp [repeatGap, Timestamp.toUtc?_ofUtc, hsame]
    | some due => exact ⟨none, by simp [repeatGap]⟩
  cases hhistory : learned completedAt history with
  | none =>
    cases hkept : learned completedAt kept with
    | none =>
      simp only [nextAfter_of_learned_eq_none hhistory, nextAfter_of_learned_eq_none hkept,
        implies_true]
    | some due =>
      obtain ⟨priorDue, hpriorDue⟩ := hdistinct due
      refine iff_of_false (fun hsame => hpriorDue ?_) (by simp)
      rw [← nextAfter_of_learned_eq_none hhistory, hsame, nextAfter_of_learned_eq_some hkept]
  | some found =>
    cases hkept : learned completedAt kept with
    | none =>
      obtain ⟨priorDue, hpriorDue⟩ := hdistinct found
      refine iff_of_false (fun hsame => hpriorDue ?_) (by simp)
      rw [← nextAfter_of_learned_eq_none hkept, ← hsame, nextAfter_of_learned_eq_some hhistory]
    | some due =>
      simp only [nextAfter_of_learned_eq_some hhistory, nextAfter_of_learned_eq_some hkept]
      simp

theorem gaps_withStatus (completedAt : Moment) (history : List HistoryRow)
    (status : HistoryRow → Status) :
    gaps completedAt (history.map fun row => row.withStatus (status row)) =
      gaps completedAt history := by
  unfold gaps
  rw [List.map_map]
  rfl

theorem nextDue_withStatus (priorDue : Option Timestamp) (completedAt : Timestamp)
    (history : List HistoryRow) (status : HistoryRow → Status) :
    nextDue priorDue completedAt (history.map fun row => row.withStatus (status row)) =
      nextDue priorDue completedAt history := by
  simp only [nextDue, nextAfter, gaps_withStatus]

end Cadence

theorem Chore.nextAssignee_withStatus (chore : Chore) (history : List HistoryRow)
    (performer : UserId) (source : Source) (status : HistoryRow → Status) :
    chore.nextAssignee (history.map fun row => row.withStatus (status row)) performer source =
      chore.nextAssignee history performer source := by
  simp only [nextAssignee, assignedKeys, completedKeys, List.filterMap_map, List.isEmpty_map]
  rfl

/-- **A skip counts as a completion.** Whatever status the rows are given, an adaptive chore is due
at the same time and the next assignee is the same. So to take rows out of a history, as those of
skips, leaves the due date alone only if the gaps speak for the same one with them and without; and
where completions count it leaves the assignee alone only if the performers of these rows do not
change who is the first with the smallest tally. -/
theorem skips_count_as_completions {history kept gone : List HistoryRow}
    (hparts : Interleaves kept gone history) (chore : Chore) (completedAt : Timestamp)
    (performer : UserId) (source : Source) :
    (∀ status : HistoryRow → Status,
      let recast := history.map fun row => row.withStatus (status row)
      (∀ priorDue, Cadence.nextDue priorDue completedAt recast =
          Cadence.nextDue priorDue completedAt history) ∧
        chore.nextAssignee recast performer source =
          chore.nextAssignee history performer source) ∧
      (∀ moment, completedAt.toUtc? = some moment →
        ((∀ priorDue, Cadence.nextDue priorDue completedAt history =
            Cadence.nextDue priorDue completedAt kept) ↔
          Cadence.learned moment history = Cadence.learned moment kept)) ∧
      (chore.strategy = .leastCompleted →
        (chore.nextAssignee history performer source = chore.nextAssignee kept performer source ↔
          ∀ user,
            IsFirstLeast (tallies chore.assignees (completedKeys kept ++ completedKeys gone))
                user ↔
              IsFirstLeast (tallies chore.assignees (completedKeys kept)) user)) := by
  refine ⟨fun status => ⟨fun priorDue => Cadence.nextDue_withStatus _ _ _ _,
    Chore.nextAssignee_withStatus _ _ _ _ _⟩, ?_, ?_⟩
  · intro moment hmoment
    simp only [Cadence.nextDue, hmoment]
    exact Cadence.nextAfter_congr_iff
  · intro hstrategy
    have hkeys : (completedKeys history).Perm (completedKeys kept ++ completedKeys gone) := by
      have hrows := hparts.perm.filterMap HistoryRow.completedBy
      rwa [List.filterMap_append] at hrows
    rw [Chore.nextAssignee_leastCompleted hstrategy, Chore.nextAssignee_leastCompleted hstrategy,
      ← tallies_congr hkeys, ← leastCounted_congr_iff, ← map_some_inj, Prod.mk.injEq]
    simp

def kettle : Snapshot where
  chore :=
    { id := 13, name := "descale the kettle", kind := .adaptive, frequency := 0
      details := FrequencyDetails.unset, dueDate := some (timeOf "2025-03-07T08:00:00Z")
      isRolling := false, strategy := .leastCompleted, assignedTo := some 1, assignees := [1, 2]
      createdBy := 1, isActive := true, completionWindow := none }
  history :=
    [("2025-03-01T08:00:00Z", 1), ("2025-02-19T08:00:00Z", 2)].map fun (performedAt, performer) =>
      ⟨13, some (timeOf performedAt), none, some performer, some 1, none, .completed⟩

def kettleSkipped : Decision :=
  ⟨some (timeOf "2025-03-09T08:00:00Z").wall, some 1, false, .skipped⟩

/-- Nothing changes if a guest skipped the kettle ten days before it was first descaled. -/
theorem kettle_ignores_guest :
    (∀ priorDue, Cadence.nextDue priorDue (timeOf "2025-03-11T08:00:00Z")
        (kettle.history ++ [kettle.record kettleSkipped 3 (timeOf "2025-02-09T08:00:00Z") none]) =
      Cadence.nextDue priorDue (timeOf "2025-03-11T08:00:00Z") kettle.history) ∧
      kettle.chore.nextAssignee
          (kettle.history ++ [kettle.record kettleSkipped 3 (timeOf "2025-02-09T08:00:00Z") none])
          2 (Source.start (.script [])) =
        kettle.chore.nextAssignee kettle.history 2 (Source.start (.script [])) := by
  have hparts : Interleaves kettle.history
      [kettle.record kettleSkipped 3 (timeOf "2025-02-09T08:00:00Z") none]
      (kettle.history ++ [kettle.record kettleSkipped 3 (timeOf "2025-02-09T08:00:00Z") none]) :=
    .left (.left (.right .nil))
  obtain ⟨-, hdue, hassignee⟩ := skips_count_as_completions hparts kettle.chore
    (timeOf "2025-03-11T08:00:00Z") 2 (Source.start (.script []))
  refine ⟨(hdue _ rfl).2 (by decide +kernel), (hassignee rfl).2 fun user => ?_⟩
  have htallies : tallies kettle.chore.assignees (completedKeys kettle.history ++ completedKeys
      [kettle.record kettleSkipped 3 (timeOf "2025-02-09T08:00:00Z") none]) =
    tallies kettle.chore.assignees (completedKeys kettle.history) := by decide +kernel
  rw [htallies]

/-- Skipped by one of the two, the kettle is due five days sooner, and the other one's turn. -/
theorem kettle_counts_skip :
    (kettle.skip 1 (timeOf "2025-03-08T08:00:00Z") false (Source.start (.script []))).1 =
        .ok kettleSkipped ∧
      let history :=
        kettle.record kettleSkipped 1 (timeOf "2025-03-08T08:00:00Z") none :: kettle.history
      Cadence.nextDue (some (timeOf "2025-03-09T08:00:00Z")) (timeOf "2025-03-11T08:00:00Z")
          history = .ok (some (timeOf "2025-03-16T11:25:42Z").wall) ∧
        Cadence.nextDue (some (timeOf "2025-03-09T08:00:00Z")) (timeOf "2025-03-11T08:00:00Z")
            kettle.history = .ok (some (timeOf "2025-03-21T08:00:00Z").wall) ∧
        (kettle.chore.nextAssignee history 2 (Source.start (.script []))).1 = .ok (some 2) ∧
        (kettle.chore.nextAssignee kettle.history 2 (Source.start (.script []))).1 =
          .ok (some 1) := by
  decide +kernel

end ChoreRota
