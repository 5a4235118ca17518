import Mathlib.Data.List.Nodup
import ChoreRota.Fault
import ChoreRota.Rotation

/-!
# Who is picked

A random choice picks one of the items, counting picks the first user with the fewest keys, and
taking turns picks whoever is listed after the current user. So every strategy picks a listed user,
keeps the current one, or picks nobody; and one that fails to pick has drawn nothing.
-/

namespace ChoreRota

namespace Chance

variable {α : Type} {items : List α} {item : α} {source after : Source}

theorem indexOf_lt {count : Nat} (hcount : 0 < count) (word : UInt32) :
    indexOf count word < count := by
  have hword : word.toNat < 4294967296 := word.toNat_lt
  rw [indexOf, Nat.div_lt_iff_lt_mul (by decide), Nat.mul_comm count]
  exact Nat.mul_lt_mul_of_pos_right hword hcount

theorem chooseIndex_lt {count : Nat} (hcount : 0 < count) (source : Source) (patience : Nat) :
    (chooseIndex count source patience).1 < count := by
  induction patience generalizing source with
  | zero => exact hcount
  | succ patience ih =>
    simp only [chooseIndex]
    split
    · exact indexOf_lt hcount _
    · exact ih _

theorem exists_choose_eq_some (hitems : items ≠ []) (source : Source) :
    ∃ item ∈ items, (choose items source).1 = some item := by
  cases items with
  | nil => exact absurd rfl hitems
  | cons first rest =>
    have hindex := chooseIndex_lt (Nat.succ_pos rest.length) source source.stream.patience
    exact ⟨_, List.getElem_mem hindex, List.getElem?_eq_getElem hindex⟩

theorem mem_of_choose (hchoose : choose items source = (some item, after)) : item ∈ items := by
  have hitems : items ≠ [] := by
    rintro rfl
    cases hchoose
  obtain ⟨found, hmem, hfound⟩ := exists_choose_eq_some hitems source
  rw [hchoose] at hfound
  exact Option.some.inj hfound ▸ hmem

theorem choose_eq_none (hchoose : choose items source = (none, after)) :
    items = [] ∧ after = source := by
  by_cases hitems : items = []
  · subst hitems
    exact ⟨rfl, (Prod.mk.inj hchoose).2.symm⟩
  · obtain ⟨found, -, hfound⟩ := exists_choose_eq_some hitems source
    rw [hchoose] at hfound
    cases hfound

end Chance

namespace Rotation

open Chance (Source choose mem_of_choose choose_eq_none)

variable {users keys : List UserId} {user : UserId} {current : Option UserId}
  {source after : Source}

theorem chooseOr_eq_error {missing fault : Fault}
    (hchoose : chooseOr missing users source = (.error fault, after)) : after = source := by
  rcases hfound : choose users source with ⟨found, rest⟩
  rw [chooseOr, hfound] at hchoose
  cases found with
  | some user => cases hchoose
  | none =>
    obtain ⟨-, rfl⟩ := Prod.mk.inj hchoose
    exact (choose_eq_none hfound).2

theorem chooseOr_eq_ok {missing : Fault} {assignee : Option UserId}
    (hchoose : chooseOr missing users source = (.ok assignee, after)) :
    ∃ user ∈ users, assignee = some user := by
  rcases hfound : choose users source with ⟨found, rest⟩
  rw [chooseOr, hfound] at hchoose
  cases found with
  | some user =>
    obtain ⟨hassignee, -⟩ := Prod.mk.inj hchoose
    exact ⟨user, mem_of_choose hfound, (Except.ok.inj hassignee).symm⟩
  | none => cases hchoose

theorem map_fst_countKey (key : UserId) (entries : List (UserId × Nat)) :
    (countKey key entries).map Prod.fst = entries.map Prod.fst := by
  induction entries with
  | nil => rfl
  | cons entry rest ih =>
    rw [countKey]
    split
    · rfl
    · rw [List.map_cons, ih, List.map_cons]

theorem map_fst_tallies (users keys : List UserId) :
    (tallies users keys).map Prod.fst = users := by
  have hkept : ∀ entries : List (UserId × Nat),
      (keys.foldl (fun entries key => countKey key entries) entries).map Prod.fst =
        entries.map Prod.fst := by
    induction keys with
    | nil => exact fun _ => rfl
    | cons key rest ih => exact fun entries => (ih _).trans (map_fst_countKey key entries)
  rw [tallies, hkept, List.map_map]
  exact List.map_id users

/-- A key is found with one user at most, and it counts for that one alone. -/
theorem countKey_map (hnodup : users.Nodup) (key : UserId) (tally : UserId → Nat) :
    countKey key (users.map fun user => (user, tally user)) =
      users.map fun user => (user, tally user + if key == user then 1 else 0) := by
  induction users with
  | nil => rfl
  | cons first rest ih =>
    obtain ⟨hfirst, hrest⟩ := List.nodup_cons.1 hnodup
    rw [List.map_cons, List.map_cons, countKey]
    by_cases hkey : first = key
    · subst hkey
      have hothers : ∀ user ∈ rest, (first == user) = false := by
        intro user huser
        rw [beq_eq_false_iff_ne]
        rintro rfl
        exact hfirst huser
      rw [if_pos rfl, if_pos (beq_self_eq_true first)]
      refine congrArg _ (List.map_congr_left fun user huser => ?_)
      rw [hothers user huser]
      rfl
    · rw [if_neg hkey, ih hrest, if_neg (by simpa using Ne.symm hkey)]
      rfl

/-- **The tally counts.** One key after the other, every user comes to have as many as there are. -/
theorem foldl_countKey_map (hnodup : users.Nodup) (tally : UserId → Nat) :
    keys.foldl (fun entries key => countKey key entries)
        (users.map fun user => (user, tally user)) =
      users.map fun user => (user, tally user + keys.count user) := by
  induction keys generalizing tally with
  | nil => rfl
  | cons key rest ih =>
    rw [List.foldl_cons, countKey_map hnodup, ih]
    refine List.map_congr_left fun user _ => ?_
    rw [List.count_cons]
    simp only [Prod.mk.injEq, true_and]
    omega

theorem tallies_eq_map (hnodup : users.Nodup) :
    tallies users keys = users.map fun user => (user, keys.count user) := by
  rw [tallies, foldl_countKey_map hnodup]
  simp only [Nat.zero_add]

theorem fewest_splits (best : UserId × Nat) (rest : List (UserId × Nat)) :
    ∃ before later, best :: rest = before ++ fewest best rest :: later ∧
      (∀ entry ∈ before, (fewest best rest).2 < entry.2) ∧
      ∀ entry ∈ later, (fewest best rest).2 ≤ entry.2 := by
  induction rest generalizing best with
  | nil => exact ⟨[], [], rfl, by simp, by simp⟩
  | cons entry rest ih =>
    rw [fewest]
    by_cases hless : entry.2 < best.2
    · -- The entry takes the lead, so that `best` is one more entry that has more than the least.
      rw [if_pos hless]
      obtain ⟨before, later, hsplit, hbefore, hlater⟩ := ih entry
      have hentry : ∀ other ∈ entry :: rest, (fewest entry rest).2 ≤ other.2 := by
        rw [hsplit, List.forall_mem_append, List.forall_mem_cons]
        exact ⟨fun other hother => Nat.le_of_lt (hbefore other hother), Nat.le_refl _, hlater⟩
      have hbest := Nat.lt_of_le_of_lt (hentry entry List.mem_cons_self) hless
      exact ⟨best :: before, later, congrArg (best :: ·) hsplit,
        List.forall_mem_cons.2 ⟨hbest, hbefore⟩, hlater⟩
    · rw [if_neg hless]
      have hle := Nat.le_of_not_lt hless
      obtain ⟨before, later, hsplit, hbefore, hlater⟩ := ih best
      cases before with
      | nil =>
        obtain ⟨hbest, rfl⟩ := List.cons.inj hsplit
        rw [← hbest] at hlater ⊢
        exact ⟨[], entry :: rest, rfl, by simp, List.forall_mem_cons.2 ⟨hle, hlater⟩⟩
      | cons head before =>
        obtain ⟨rfl, hrest⟩ := List.cons.inj hsplit
        obtain ⟨hbest, hbefore⟩ := List.forall_mem_cons.1 hbefore
        refine ⟨best :: entry :: before, later, congrArg (best :: entry :: ·) hrest, ?_, hlater⟩
        simp only [List.forall_mem_cons]
        exact ⟨hbest, Nat.lt_of_lt_of_le hbest hle, hbefore⟩

/-- The user's entry has the smallest tally, and those ahead of it all have a larger one. -/
def IsFirstLeast (entries : List (UserId × Nat)) (user : UserId) : Prop :=
  ∃ before count later, entries = before ++ (user, count) :: later ∧
    (∀ entry ∈ before, count < entry.2) ∧ ∀ entry ∈ later, count ≤ entry.2

theorem IsFirstLeast.eq {entries : List (UserId × Nat)} {other : UserId}
    (huser : IsFirstLeast entries user) (hother : IsFirstLeast entries other) : user = other := by
  obtain ⟨before, count, later, hsplit, hbefore, hlater⟩ := huser
  obtain ⟨ahead, least, behind, hparts, hahead, hbehind⟩ := hother
  rw [hsplit, List.append_eq_append_iff] at hparts
  -- Of two entries at different places each would have less than the other.
  rcases hparts with ⟨between, rfl, hrest⟩ | ⟨between, rfl, hrest⟩
  · rcases List.cons_eq_append_iff.1 hrest with ⟨rfl, hsame⟩ | ⟨tail, rfl, rfl⟩
    · exact (congrArg Prod.fst (List.cons.inj hsame).1).symm
    · have hless : least < count := hahead (user, count) (by simp)
      have hmore : count ≤ least := hlater (other, least) (by simp)
      omega
  · rcases List.cons_eq_append_iff.1 hrest with ⟨rfl, hsame⟩ | ⟨tail, rfl, rfl⟩
    · exact congrArg Prod.fst (List.cons.inj hsame).1
    · have hless : count < least := hbefore (other, least) (by simp)
      have hmore : least ≤ count := hbehind (user, count) (by simp)
      omega

theorem leastCounted_eq_ok_iff :
    leastCounted users keys = .ok user ↔ IsFirstLeast (tallies users keys) user := by
  unfold leastCounted
  split
  · rename_i hnone
    simp [hnone, IsFirstLeast]
  · rename_i first rest hsome
    obtain ⟨before, later, hsplit, hbefore, hlater⟩ := fewest_splits first rest
    have hfewest : IsFirstLeast (tallies users keys) (fewest first rest).1 :=
      ⟨before, _, later, hsome.trans hsplit, hbefore, hlater⟩
    constructor
    · intro hpick
      exact Except.ok.inj hpick ▸ hfewest
    · intro huser
      rw [hfewest.eq huser]

theorem leastCounted_eq_error_iff {fault : Fault} :
    leastCounted users keys = .error fault ↔ users = [] ∧ fault = .noAssignees := by
  have hlisted := map_fst_tallies users keys
  unfold leastCounted
  split
  · rename_i hnone
    rw [hnone] at hlisted
    simp [← hlisted, eq_comm]
  · rename_i first rest hsome
    rw [hsome] at hlisted
    simp [← hlisted]

theorem exists_leastCounted (hsome : users ≠ []) (keys : List UserId) :
    ∃ user, leastCounted users keys = .ok user := by
  cases hleast : leastCounted users keys with
  | ok user => exact ⟨user, rfl⟩
  | error fault => exact absurd (leastCounted_eq_error_iff.1 hleast).1 hsome

theorem leastCounted_eq_ok (hnodup : users.Nodup) (hleast : leastCounted users keys = .ok user) :
    ∃ before later, users = before ++ user :: later ∧
      (∀ other ∈ before, keys.count user < keys.count other) ∧
      ∀ other ∈ later, keys.count user ≤ keys.count other := by
  rw [leastCounted_eq_ok_iff, tallies_eq_map hnodup] at hleast
  obtain ⟨before, count, later, hsplit, hbefore, hlater⟩ := hleast
  obtain ⟨listedBefore, listed, rfl, rfl, hrest⟩ := List.map_eq_append_iff.1 hsplit
  obtain ⟨found, listedLater, rfl, hfound, rfl⟩ := List.map_eq_cons_iff.1 hrest
  obtain ⟨rfl, rfl⟩ := Prod.mk.inj hfound
  exact ⟨listedBefore, listedLater, rfl, by simpa using hbefore, by simpa using hlater⟩

theorem least_of_leastCounted (hnodup : users.Nodup) (hleast : leastCounted users keys = .ok user) :
    user ∈ users ∧ ∀ other ∈ users, keys.count user ≤ keys.count other := by
  obtain ⟨before, later, rfl, hbefore, hlater⟩ := leastCounted_eq_ok hnodup hleast
  refine ⟨by simp, ?_⟩
  simp only [List.forall_mem_append, List.forall_mem_cons]
  exact ⟨fun other hother => Nat.le_of_lt (hbefore other hother), Nat.le_refl _, hlater⟩

/-- A position in the list of users: that of the one listed after the current user, or the first if
nobody listed is current. -/
def turn (users : List UserId) (current : Option UserId) : Nat :=
  match current.bind fun user => users.findIdx? (· == user) with
  | some index => (index + 1) % users.length
  | none => 0

theorem following_eq_ok_iff :
    following users current = .ok user ↔ users[turn users current]? = some user := by
  simp only [following]
  split
  · rename_i found hfound
    change users[turn users current]? = some found at hfound
    simp [hfound]
  · rename_i hnone
    change users[turn users current]? = none at hnone
    simp [hnone]

theorem turn_lt (hsome : users ≠ []) (current : Option UserId) :
    turn users current < users.length := by
  have hlength := List.length_pos_iff.2 hsome
  unfold turn
  split
  · exact Nat.mod_lt _ hlength
  · exact hlength

theorem turn_of_getElem? (hnodup : users.Nodup) {index : Nat} (huser : users[index]? = some user) :
    turn users (some user) = (index + 1) % users.length := by
  obtain ⟨hindex, rfl⟩ := List.getElem?_eq_some_iff.1 huser
  have hfound : users.findIdx? (· == users[index]) = some index := by
    rw [List.findIdx?_eq_some_iff_getElem]
    refine ⟨hindex, beq_self_eq_true _, ?_⟩
    intro earlier hearlier hsame
    exact absurd (hnodup.getElem_inj_iff.1 (eq_of_beq hsame)) (Nat.ne_of_lt hearlier)
  rw [turn, Option.bind_some, hfound]

end Rotation

namespace Chore

open Chance (Source)
open Rotation

variable {chore : Chore} {history : List HistoryRow} {performer user : UserId}
  {source after : Source} {assignee : Option UserId}

theorem nextAssignee_eq_error {fault : Fault}
    (hnext : chore.nextAssignee history performer source = (.error fault, after)) :
    after = source := by
  unfold nextAssignee at hnext
  split at hnext
  · exact (Prod.mk.inj hnext).2.symm
  · exact (Prod.mk.inj hnext).2.symm
  · exact chooseOr_eq_error hnext
  · cases hnext
  · exact chooseOr_eq_error hnext
  · exact (Prod.mk.inj hnext).2.symm
  · cases hnext

theorem mem_of_nextAssignee (hnodup : chore.assignees.Nodup)
    (hnext : chore.nextAssignee history performer source = (.ok assignee, after))
    (huser : assignee = some user) : user ∈ chore.assignees ∨ chore.assignedTo = some user := by
  subst huser
  unfold nextAssignee at hnext
  have hcounted : ∀ keys, (leastCounted chore.assignees keys).map some = .ok (some user) →
      user ∈ chore.assignees := by
    intro keys hleast
    obtain ⟨found, hfewest, hfound⟩ := map_eq_ok_iff.1 hleast
    obtain rfl := Option.some.inj hfound
    exact (least_of_leastCounted hnodup hfewest).1
  split at hnext
  · exact .inl (hcounted _ (Prod.mk.inj hnext).1)
  · exact .inl (hcounted _ (Prod.mk.inj hnext).1)
  · obtain ⟨found, hmem, hfound⟩ := chooseOr_eq_ok hnext
    exact .inl (Option.some.inj hfound ▸ hmem)
  · exact .inr (Except.ok.inj (Prod.mk.inj hnext).1)
  · obtain ⟨found, hmem, hfound⟩ := chooseOr_eq_ok hnext
    exact .inl (Option.some.inj hfound ▸ (List.mem_filter.1 hmem).1)
  · obtain ⟨found, hfollowing, hfound⟩ := map_eq_ok_iff.1 (Prod.mk.inj hnext).1
    obtain rfl := Option.some.inj hfound
    exact .inl (List.mem_of_getElem? (following_eq_ok_iff.1 hfollowing))
  · cases hnext

theorem assignees_removeAssignee (chore : Chore) (user : UserId) (source : Source) :
    (chore.removeAssignee user source).1.assignees = chore.assignees.filter (· != user) := rfl

theorem mem_of_removeAssignee {removed : UserId}
    (hleft : (chore.removeAssignee removed source).1.assignees ≠ [])
    (huser : (chore.removeAssignee removed source).1.assignedTo = some user) :
    user ∈ (chore.removeAssignee removed source).1.assignees := by
  rw [assignees_removeAssignee] at hleft ⊢
  have hsome : (chore.assignees.filter (· != removed)).isEmpty = false := by simpa using hleft
  simp only [removeAssignee, hsome] at huser
  split at huser
  · cases huser
  · obtain ⟨found, hmem, hfound⟩ := Chance.exists_choose_eq_some hleft source
    simp only [Bool.false_eq_true, if_false] at huser
    rw [hfound] at huser
    exact Option.some.inj huser ▸ hmem

end Chore

end ChoreRota
