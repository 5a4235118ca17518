import ChoreRota.Proofs.RandomPicks

/-!
# After a removal

A user who is removed is gone from the list, and the others stay in order. Then the chore is
assigned anew in any case: to one of those left at random, to its creator when nobody is left, or to
nobody, if it never is assigned.
-/

namespace ChoreRota

namespace Chance

variable {α : Type} {items : List α}

theorem drawn_le_chooseIndex (count : Nat) (source : Source) (patience : Nat) :
    source.drawn ≤ (chooseIndex count source patience).2.drawn := by
  induction patience generalizing source with
  | zero => exact Nat.le_refl _
  | succ patience ih =>
    rw [chooseIndex_succ]
    split
    · exact Nat.le_succ _
    · exact Nat.le_trans (Nat.le_succ _) (ih (source.afterDraws 1))

/-- A choice from any items takes a word, even where there is only one item. -/
theorem drawn_lt_choose (hitems : items ≠ []) (source : Source) :
    source.drawn < (choose items source).2.drawn := by
  have hpatience : source.stream.patience ≠ 0 := by
    cases source.stream <;> simp [Stream.patience]
  obtain ⟨patience, hsucc⟩ := Nat.exists_eq_add_one_of_ne_zero hpatience
  cases items with
  | nil => exact absurd rfl hitems
  | cons first rest =>
    change source.drawn <
      (chooseIndex (rest.length + 1) source source.stream.patience).2.drawn
    rw [hsucc, chooseIndex_succ]
    split
    · exact Nat.lt_succ_self _
    · exact drawn_le_chooseIndex _ (source.afterDraws 1) patience

end Chance

open Chance (Source)

namespace Chore

open Chance

variable {chore : Chore} {user current : UserId} {source : Source}

def others (chore : Chore) (user : UserId) : List UserId :=
  chore.assignees.filter (· != user)

theorem mem_others {other : UserId} :
    other ∈ chore.others user ↔ other ∈ chore.assignees ∧ other ≠ user := by
  simp [others]

theorem others_eq_nil_iff : chore.others user = [] ↔ ∀ other ∈ chore.assignees, other = user := by
  simp [others]

theorem removeAssignee_of_noAssignee (hstrategy : chore.strategy = .noAssignee) (user : UserId)
    (source : Source) :
    chore.removeAssignee user source =
      ({ chore with assignees := chore.others user, assignedTo := none }, source) := by
  simp only [removeAssignee, hstrategy, if_true]
  rfl

theorem removeAssignee_of_others_eq_nil (hstrategy : chore.strategy ≠ .noAssignee)
    (hnobody : chore.others user = []) (source : Source) :
    chore.removeAssignee user source =
      ({ chore with assignees := [], assignedTo := some chore.createdBy }, source) := by
  unfold others at hnobody
  simp [removeAssignee, hstrategy, hnobody]

theorem removeAssignee_of_others_ne_nil (hstrategy : chore.strategy ≠ .noAssignee)
    (hleft : chore.others user ≠ []) (source : Source) :
    chore.removeAssignee user source =
      ({ chore with
          assignees := chore.others user
          assignedTo := (choose (chore.others user) source).1 },
        (choose (chore.others user) source).2) := by
  unfold others at hleft
  have hsome : (chore.assignees.filter (· != user)).isEmpty = false := by simpa using hleft
  simp only [removeAssignee, hstrategy, if_false, hsome, Bool.false_eq_true]
  rfl

/-- **Assigned anew.** When somebody else than the assignee is removed, or nobody at all, the others
stay on the list in order. But a word is drawn all the same, and the chore stays with the assignee
only if the first accepted word happens to choose that user again. -/
theorem assignedTo_removeAssignee_eq_iff (hstrategy : chore.strategy ≠ .noAssignee)
    (hcurrent : chore.assignedTo = some current) (hlisted : current ∈ chore.assignees)
    (hstays : current ≠ user) (source : Source) :
    (chore.removeAssignee user source).1.assignees = chore.others user ∧
      source.drawn < (chore.removeAssignee user source).2.drawn ∧
      ∀ draws chosen, EndsWith (chore.others user) source draws chosen →
        (chore.removeAssignee user source).2 = source.afterDraws (draws + 1) ∧
          ((chore.removeAssignee user source).1.assignedTo = chore.assignedTo ↔
            chosen = current) := by
  have hleft : chore.others user ≠ [] := List.ne_nil_of_mem (mem_others.2 ⟨hlisted, hstays⟩)
  rw [removeAssignee_of_others_ne_nil hstrategy hleft]
  refine ⟨rfl, drawn_lt_choose hleft source, ?_⟩
  intro draws chosen hends
  rw [hends.choose_eq, hcurrent]
  exact ⟨rfl, Option.some_inj⟩

end Chore

def lantern : Chore where
  id := 41
  name := "light the lantern"
  kind := .daily
  frequency := 0
  details := FrequencyDetails.unset
  dueDate := none
  isRolling := false
  strategy := .leastCompleted
  assignedTo := some 1
  assignees := [1, 2, 3]
  createdBy := 3
  isActive := true
  completionWindow := none

/-- The third person leaves, and a word that chooses the first of the two others is drawn after one
that is rejected. -/
theorem lantern_stays_by_chance :
    lantern.strategy ≠ .noAssignee ∧ lantern.assignedTo = some 1 ∧
      (1 : UserId) ∈ lantern.assignees ∧ (1 : UserId) ≠ 3 ∧
      (lantern.removeAssignee 3 (Source.start (.script [1073741824]))).1.assignedTo =
        lantern.assignedTo ∧
      (lantern.removeAssignee 3 (Source.start (.script [1073741824]))).2 =
        ⟨.script [1073741824], 2⟩ := by
  have hends : Chance.EndsWith (lantern.others 3) (Source.start (.script [1073741824])) 1 1 :=
    ⟨by decide, by decide⟩
  have hstays : (1 : UserId) ≠ 3 := by decide
  obtain ⟨-, -, hchosen⟩ := lantern.assignedTo_removeAssignee_eq_iff (by decide) rfl (by decide)
    hstays (Source.start (.script [1073741824]))
  obtain ⟨hsource, hassignee⟩ := hchosen 1 1 hends
  exact ⟨by decide, rfl, by decide, by decide, hassignee.2 rfl, hsource⟩

theorem lantern_moves_on :
    lantern.strategy ≠ .noAssignee ∧ lantern.assignedTo = some 1 ∧
      (1 : UserId) ∈ lantern.assignees ∧ (1 : UserId) ≠ 3 ∧
      (lantern.removeAssignee 3 (Source.start (.script [2147483648]))).1.assignees = [1, 2] ∧
      (lantern.removeAssignee 3 (Source.start (.script [2147483648]))).1.assignedTo = some 2 ∧
      (lantern.removeAssignee 3 (Source.start (.script [2147483648]))).2.drawn = 1 := by
  decide

namespace Chore

open Chance

variable {chore : Chore} {user : UserId}

/-- **Who is responsible after a removal.** The user is no longer on the list, and the chore is
assigned to one of those left, if there are any and it is assigned at all. It is assigned to the
removed user again in one case only: when there was nobody else and the user is its creator. -/
theorem assignedTo_removeAssignee_eq_removed_iff (chore : Chore) (user : UserId)
    (source : Source) :
    user ∉ (chore.removeAssignee user source).1.assignees ∧
      ((chore.removeAssignee user source).1.assignedTo = some user ↔
        chore.strategy ≠ .noAssignee ∧ (∀ other ∈ chore.assignees, other = user) ∧
          chore.createdBy = user) ∧
      (chore.strategy ≠ .noAssignee → (chore.removeAssignee user source).1.assignees ≠ [] →
        ∃ other ∈ (chore.removeAssignee user source).1.assignees,
          (chore.removeAssignee user source).1.assignedTo = some other) := by
  have hremoved : user ∉ chore.others user := fun hmem => (mem_others.1 hmem).2 rfl
  refine ⟨hremoved, ?_⟩
  rw [← others_eq_nil_iff]
  by_cases hstrategy : chore.strategy = .noAssignee
  · rw [removeAssignee_of_noAssignee hstrategy]
    simp [hstrategy]
  by_cases hnobody : chore.others user = []
  · rw [removeAssignee_of_others_eq_nil hstrategy hnobody]
    simp [hstrategy, hnobody]
  · rw [removeAssignee_of_others_ne_nil hstrategy hnobody]
    obtain ⟨chosen, hmem, hchosen⟩ := exists_choose_eq_some hnobody source
    have hne : chosen ≠ user := (mem_others.1 hmem).2
    refine ⟨?_, fun _ _ => ⟨chosen, hmem, hchosen⟩⟩
    simp [hchosen, hne, hnobody]

end Chore

def grandfatherClock : Chore :=
  { lantern with id := 42, name := "wind the clock", assignees := [3], assignedTo := some 3 }

/-- The creator is removed and stays responsible. -/
theorem clock_returns_to_creator :
    (3 : UserId) ∈ grandfatherClock.assignees ∧
      (grandfatherClock.removeAssignee 3 (Source.start (.script []))).1.assignees = [] ∧
      (grandfatherClock.removeAssignee 3 (Source.start (.script []))).1.assignedTo = some 3 := by
  decide

end ChoreRota
