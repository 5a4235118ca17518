import ChoreRota.Proofs.Fairness
import ChoreRota.Proofs.SkippedRows

/-!
# The fewest rows

A strategy that counts goes by how many rows name each of the assignees. So neither the order of the
rows matters nor rows that name nobody or somebody else, unless there are no others: where
assignments count, the performer counts as one as long as there are no rows at all.
-/

namespace ChoreRota

open Chance (Source)

namespace Rotation

variable {users keys others : List UserId} {user first second performer : UserId}
  {before later rest : List UserId}

theorem leastCounted_congr (hnodup : users.Nodup)
    (hsame : ∀ user ∈ users, keys.count user = others.count user) :
    leastCounted users keys = leastCounted users others := by
  have hentries : (users.map fun user => (user, keys.count user)) =
      users.map fun user => (user, others.count user) := by
    refine List.map_congr_left ?_
    intro user huser
    rw [hsame user huser]
  unfold leastCounted
  rw [tallies_eq_map hnodup, tallies_eq_map hnodup, hentries]

theorem leastCounted_of_split (hnodup : (before ++ user :: later).Nodup)
    (hbefore : ∀ other ∈ before, keys.count user < keys.count other)
    (hlater : ∀ other ∈ later, keys.count user ≤ keys.count other) :
    leastCounted (before ++ user :: later) keys = .ok user := by
  rw [leastCounted_eq_ok_iff, tallies_eq_map hnodup, List.map_append, List.map_cons]
  refine ⟨_, _, _, rfl, ?_, ?_⟩
  · exact List.forall_mem_map.2 hbefore
  · exact List.forall_mem_map.2 hlater

theorem leastCounted_nil (hnodup : (first :: rest).Nodup) :
    leastCounted (first :: rest) [] = .ok first :=
  @leastCounted_of_split [] first [] rest hnodup (by simp) (by simp)

/-- With a single key the first user is picked whose key it is not, if there is one. -/
theorem leastCounted_singleton_eq_nil_iff (hnodup : users.Nodup) :
    leastCounted users [] = leastCounted users [performer] ↔
      ¬∃ second rest, users = performer :: second :: rest := by
  cases users with
  | nil => simp [leastCounted, tallies, countKey]
  | cons first rest =>
    have hnone := leastCounted_nil hnodup
    by_cases hfirst : first = performer
    · subst hfirst
      cases rest with
      | nil => exact iff_of_true (by simp [leastCounted, tallies, countKey, fewest]) (by simp)
      | cons second rest =>
        -- The performer is ahead of the second user, who has no key.
        have hne : first ≠ second := by
          rintro rfl
          simp at hnodup
        have hsecond : leastCounted (first :: second :: rest) [first] = .ok second :=
          @leastCounted_of_split [first] second [first] rest hnodup (by simp [hne]) (by
            simp [List.count_singleton, hne])
        rw [hnone, hsecond]
        simp [hne]
    · have hsome : leastCounted (first :: rest) [performer] = .ok first :=
        @leastCounted_of_split [performer] first [] rest hnodup (by simp) (by
          simp [List.count_singleton, Ne.symm hfirst])
      rw [hnone, hsome]
      simp [hfirst]

end Rotation

open Rotation

section Rows

variable {chore : Chore} {field : HistoryRow → Option UserId} {history : List HistoryRow}
  {user : UserId}

theorem count_filterMap_eq (field : HistoryRow → Option UserId) (history : List HistoryRow)
    (user : UserId) : (history.filterMap field).count user = rowsNaming field history user :=
  List.count_filterMap

theorem rowsNaming_of_perm {rows : List HistoryRow} (hrows : rows.Perm history)
    (field : HistoryRow → Option UserId) (user : UserId) :
    rowsNaming field rows user = rowsNaming field history user :=
  hrows.countP_eq _

theorem Chore.nextAssignee_of_counts (hfield : chore.strategy.countedField? = some field)
    (hrows : history ≠ [] ∨ chore.strategy ≠ .leastAssigned) (performer : UserId)
    (source : Source) :
    chore.nextAssignee history performer source =
      ((leastCounted chore.assignees (history.filterMap field)).map some, source) := by
  rcases AssignStrategy.eq_of_countedField? hfield with ⟨hstrategy, rfl⟩ | ⟨hstrategy, rfl⟩
  · have hsome : history.isEmpty = false := by simpa [hstrategy] using hrows
    rw [nextAssignee, hstrategy]
    simp only [assignedKeys, hsome]
    rfl
  · exact nextAssignee_leastCompleted hstrategy history performer source

structure IsFirstFewest (users : List UserId) (rows : UserId → Nat) (user : UserId) : Prop where
  listed : user ∈ users
  fewest : ∀ other ∈ users, rows user ≤ rows other
  first : ∀ before later, users = before ++ user :: later →
    ∀ other ∈ before, rows user < rows other

theorem isFirstFewest_of_leastCounted {users keys : List UserId} (hnodup : users.Nodup)
    (hleast : leastCounted users keys = .ok user) :
    IsFirstFewest users (fun user => keys.count user) user := by
  obtain ⟨hlisted, hfewest⟩ := least_of_leastCounted hnodup hleast
  refine ⟨hlisted, hfewest, ?_⟩
  obtain ⟨before, later, rfl, hbefore, -⟩ := leastCounted_eq_ok hnodup hleast
  intro ahead behind hsplit
  -- A user who is listed once splits the list in one way only.
  have hnew : user ∉ before := fun hmem =>
    List.disjoint_of_nodup_append hnodup hmem List.mem_cons_self
  have honce : user ∉ later := (List.nodup_cons.1 hnodup.of_append_right).1
  obtain ⟨rfl, -, -⟩ := (List.append_cons_inj_of_notMem hnew honce).1 hsplit
  exact hbefore

/-- **The first of those with the fewest rows.** A strategy that counts picks an assignee whom no
more rows name than anybody else, and fewer than all who are listed before. Whoever asks, no random
number is drawn, and the order of the rows does not matter. -/
theorem Chore.nextAssignee_isFirstFewest (hfield : chore.strategy.countedField? = some field)
    (hnodup : chore.assignees.Nodup) (hassignees : chore.assignees ≠ [])
    (hhistory : history ≠ []) :
    ∃ user, IsFirstFewest chore.assignees (rowsNaming field history) user ∧
      (∀ performer source,
        chore.nextAssignee history performer source = (.ok (some user), source)) ∧
      ∀ rows, rows.Perm history → ∀ performer source,
        chore.nextAssignee rows performer source = (.ok (some user), source) := by
  obtain ⟨user, hleast⟩ := exists_leastCounted hassignees (history.filterMap field)
  have hpick : ∀ rows, rows.Perm history → ∀ performer source,
      chore.nextAssignee rows performer source = (.ok (some user), source) := by
    intro rows hrows performer source
    have hsome : rows ≠ [] := by
      rintro rfl
      exact hhistory hrows.nil_eq.symm
    have hsame : ∀ user ∈ chore.assignees,
        (rows.filterMap field).count user = (history.filterMap field).count user := by
      intro user _
      rw [count_filterMap_eq, count_filterMap_eq, rowsNaming_of_perm hrows]
    rw [nextAssignee_of_counts hfield (.inl hsome), leastCounted_congr hnodup hsame, hleast]
    rfl
  have hfewest := isFirstFewest_of_leastCounted hnodup hleast
  simp only [count_filterMap_eq] at hfewest
  exact ⟨user, hfewest, hpick history (List.Perm.refl history), hpick⟩

end Rows

def stairs : Chore where
  id := 39
  name := "sweep the stairs"
  kind := .weekly
  frequency := 0
  details := FrequencyDetails.unset
  dueDate := none
  isRolling := false
  strategy := .leastAssigned
  assignedTo := some 5
  assignees := [5, 3, 4]
  createdBy := 5
  isActive := true
  completionWindow := none

def stairsRows (users : List (Option UserId)) : List HistoryRow :=
  users.map fun user => ⟨39, none, none, user, user, none, .completed⟩

/-- The user listed first has two rows, the others one each, and so they do in another order. -/
theorem stairs_go_to_second :
    IsFirstFewest stairs.assignees
        (rowsNaming HistoryRow.assignedTo
          (stairsRows [some 4, some 5, none, some 9, some 3, some 5])) 3 ∧
      (stairsRows [some 5, some 5, none, some 9, some 4, some 3]).Perm
        (stairsRows [some 4, some 5, none, some 9, some 3, some 5]) ∧
      stairs.nextAssignee (stairsRows [some 5, some 5, none, some 9, some 4, some 3]) 3
        (Source.start (.script [])) = (.ok (some 3), Source.start (.script [])) := by
  obtain ⟨user, hfewest, hpick, hperm⟩ := @Chore.nextAssignee_isFirstFewest stairs _
    (stairsRows [some 4, some 5, none, some 9, some 3, some 5]) rfl (by decide) (by decide)
    (by decide)
  have hthird : stairs.nextAssignee (stairsRows [some 4, some 5, none, some 9, some 3, some 5]) 3
      (Source.start (.script [])) = (.ok (some 3), Source.start (.script [])) := rfl
  obtain rfl : user = 3 := by
    have hsame := (hpick 3 _).symm.trans hthird
    simpa using hsame
  have hrows : (stairsRows [some 5, some 5, none, some 9, some 4, some 3]).Perm
      (stairsRows [some 4, some 5, none, some 9, some 3, some 5]) := by decide
  exact ⟨hfewest, hrows, hperm _ hrows _ _⟩

section Others

variable {chore : Chore} {field : HistoryRow → Option UserId}
  {history kept inserted : List HistoryRow} {user : UserId}

theorem Chore.exists_nextAssignee (hfield : chore.strategy.countedField? = some field)
    (hnodup : chore.assignees.Nodup) (hassignees : chore.assignees ≠ [])
    (history : List HistoryRow) (performer : UserId) (source : Source) :
    ∃ user ∈ chore.assignees,
      chore.nextAssignee history performer source = (.ok (some user), source) := by
  have hcounted : ∀ keys, ∃ user ∈ chore.assignees,
      ((leastCounted chore.assignees keys).map some, source) = (.ok (some user), source) := by
    intro keys
    obtain ⟨user, hleast⟩ := exists_leastCounted hassignees keys
    exact ⟨user, (least_of_leastCounted hnodup hleast).1, by rw [hleast]; rfl⟩
  unfold nextAssignee
  rcases AssignStrategy.eq_of_countedField? hfield with ⟨hstrategy, -⟩ | ⟨hstrategy, -⟩
  · rw [hstrategy]
    exact hcounted _
  · rw [hstrategy]
    exact hcounted _

/-- As long as there are no rows, the performer counts as one where assignments count. -/
theorem Chore.nextAssignee_nil (hstrategy : chore.strategy = .leastAssigned) (performer : UserId)
    (source : Source) :
    chore.nextAssignee [] performer source =
      ((leastCounted chore.assignees [performer]).map some, source) := by
  rw [nextAssignee, hstrategy]
  rfl

theorem Interleaves.eq_nil_iff (hparts : Interleaves kept inserted history) :
    history = [] ↔ kept = [] ∧ inserted = [] := by
  rw [← List.append_eq_nil_iff]
  exact ⟨fun hempty => (hempty ▸ hparts.perm).nil_eq.symm,
    fun hempty => (hempty ▸ hparts.perm).eq_nil⟩

theorem Interleaves.rowsNaming_eq (hparts : Interleaves kept inserted history)
    (hothers : ∀ row ∈ inserted, field row ≠ some user) :
    rowsNaming field history user = rowsNaming field kept user := by
  have hnone : inserted.countP (fun row => field row == some user) = 0 := by
    refine List.countP_eq_zero.2 ?_
    intro row hrow
    simpa using hothers row hrow
  rw [rowsNaming_of_perm hparts.perm, rowsNaming, List.countP_append, hnone, Nat.add_zero,
    rowsNaming]

theorem Interleaves.leastCounted_eq (hparts : Interleaves kept inserted history)
    (hnodup : chore.assignees.Nodup)
    (hothers : ∀ row ∈ inserted, ∀ named ∈ field row, named ∉ chore.assignees) :
    leastCounted chore.assignees (history.filterMap field) =
      leastCounted chore.assignees (kept.filterMap field) := by
  refine leastCounted_congr hnodup ?_
  intro user huser
  rw [count_filterMap_eq, count_filterMap_eq]
  exact hparts.rowsNaming_eq fun row hrow hnamed => hothers row hrow user hnamed huser

/-- **Rows that name no assignee do not count.** Put into a history anywhere, they leave the pick of
a strategy that counts alone, with one exception: where assignments count and there were no rows
before, the performer no longer counts as one, which matters when the performer is listed first of
several. -/
theorem Chore.nextAssignee_ignores_others_iff
    (hfield : chore.strategy.countedField? = some field) (hnodup : chore.assignees.Nodup)
    (hassignees : chore.assignees ≠ []) (hparts : Interleaves kept inserted history)
    (hothers : ∀ row ∈ inserted, ∀ named ∈ field row, named ∉ chore.assignees)
    (performer : UserId) (source : Source) :
    ∃ user ∈ chore.assignees, ∃ other ∈ chore.assignees,
      chore.nextAssignee history performer source = (.ok (some user), source) ∧
      chore.nextAssignee kept performer source = (.ok (some other), source) ∧
      (user = other ↔
        ¬(chore.strategy = .leastAssigned ∧ kept = [] ∧ inserted ≠ [] ∧
          ∃ second rest, chore.assignees = performer :: second :: rest)) := by
  obtain ⟨user, huser, hpick⟩ :=
    exists_nextAssignee hfield hnodup hassignees history performer source
  obtain ⟨other, hother, hpickKept⟩ :=
    exists_nextAssignee hfield hnodup hassignees kept performer source
  refine ⟨user, huser, other, hother, hpick, hpickKept, ?_⟩
  have hsame : user = other ↔
      chore.nextAssignee history performer source = chore.nextAssignee kept performer source := by
    rw [hpick, hpickKept]
    simp
  have hcounts := hparts.leastCounted_eq hnodup hothers
  rw [hsame]
  by_cases hempty : kept = []
  · subst hempty
    by_cases hstill : inserted = []
    · rw [hparts.eq_nil_iff.2 ⟨rfl, hstill⟩]
      simp [hstill]
    have hhistory : history ≠ [] := fun hnone => hstill (hparts.eq_nil_iff.1 hnone).2
    rw [nextAssignee_of_counts hfield (.inl hhistory), hcounts, List.filterMap_nil]
    by_cases hstrategy : chore.strategy = .leastAssigned
    · rw [nextAssignee_nil hstrategy, Prod.mk.injEq, map_some_inj,
        leastCounted_singleton_eq_nil_iff hnodup]
      simp [hstrategy, hstill]
    · rw [nextAssignee_of_counts hfield (.inr hstrategy), List.filterMap_nil]
      simp [hstrategy]
  · have hhistory : history ≠ [] := fun hnone => hempty (hparts.eq_nil_iff.1 hnone).1
    rw [nextAssignee_of_counts hfield (.inl hhistory), nextAssignee_of_counts hfield (.inl hempty),
      hcounts]
    simp [hempty]

end Others

/-- Rows of a guest and of nobody change nothing between two rows of assignees. -/
theorem stairs_ignore_guest :
    Interleaves (stairsRows [some 5, some 4]) (stairsRows [some 9, none, some 9])
        (stairsRows [some 9, some 5, none, some 9, some 4]) ∧
      stairs.nextAssignee (stairsRows [some 9, some 5, none, some 9, some 4]) 5
          (Source.start (.script [])) =
        stairs.nextAssignee (stairsRows [some 5, some 4]) 5 (Source.start (.script [])) := by
  have hparts : Interleaves (stairsRows [some 5, some 4]) (stairsRows [some 9, none, some 9])
      (stairsRows [some 9, some 5, none, some 9, some 4]) :=
    .right (.left (.right (.right (.left .nil))))
  have hothers : ∀ row ∈ stairsRows [some 9, none, some 9], ∀ named ∈ row.assignedTo,
      named ∉ stairs.assignees := by simp [stairsRows, stairs]
  obtain ⟨user, -, other, -, hpick, hpickKept, hsame⟩ := Chore.nextAssignee_ignores_others_iff
    rfl (by decide) (by decide) hparts hothers 5 (Source.start (.script []))
  obtain rfl : user = other := hsame.2 (by
    rintro ⟨-, hempty, -⟩
    cases hempty)
  exact ⟨hparts, hpick.trans hpickKept.symm⟩

/-- Without rows the performer counts as one, and the stairs go on to the next one listed. With a
single row of a guest they stay with the performer. -/
theorem stairs_notice_first_guest :
    Interleaves [] (stairsRows [some 9]) (stairsRows [some 9]) ∧
      (∀ row ∈ stairsRows [some 9], ∀ named ∈ row.assignedTo, named ∉ stairs.assignees) ∧
      stairs.nextAssignee [] 5 (Source.start (.script [])) =
        (.ok (some 3), Source.start (.script [])) ∧
      stairs.nextAssignee (stairsRows [some 9]) 5 (Source.start (.script [])) =
        (.ok (some 5), Source.start (.script [])) :=
  ⟨.right .nil, by simp [stairsRows, stairs], rfl, rfl⟩

end ChoreRota
