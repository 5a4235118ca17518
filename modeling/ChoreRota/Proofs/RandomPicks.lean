import Mathlib.Algebra.BigOperators.Fin
import Mathlib.Algebra.Order.Floor.Div
import Mathlib.Data.FinEnum
import Mathlib.Order.Interval.Finset.Nat
import Mathlib.Data.Set.Card
import Mathlib.SetTheory.Cardinal.Finite
import ChoreRota.Proofs.Assignment

/-!
# Fair random picks

The words of one index whose remainder is accepted are a stretch of words that is as long for every
index, and the others are drawn again. A strategy that picks at random first leaves out whoever may
not be picked, so that everybody left is picked by as many sequences of words.
-/

namespace ChoreRota

namespace Chance

section Words

variable {count index : Nat} {word : UInt32}

/-- The accepted remainders fill at least half of the words. -/
theorem leadingZeros_bounds (hcount : 0 < count) (hsize : count < 4294967296) :
    2147483648 ≤ count * 2 ^ leadingZeros count ∧
      count * 2 ^ leadingZeros count < 4294967296 := by
  have hlog : count.log2 < 32 := (Nat.log2_lt (Nat.ne_of_gt hcount)).2 hsize
  have hlow : 2 ^ count.log2 ≤ count := Nat.log2_self_le (Nat.ne_of_gt hcount)
  have hhigh : count < 2 ^ (count.log2 + 1) := Nat.lt_log2_self
  unfold leadingZeros
  constructor
  · calc 2147483648
      _ = 2 ^ (count.log2 + (32 - (count.log2 + 1))) := by
        rw [show count.log2 + (32 - (count.log2 + 1)) = 31 by omega]; rfl
      _ = 2 ^ count.log2 * 2 ^ (32 - (count.log2 + 1)) := Nat.pow_add ..
      _ ≤ count * 2 ^ (32 - (count.log2 + 1)) := Nat.mul_le_mul_right _ hlow
  · calc count * 2 ^ (32 - (count.log2 + 1))
      _ < 2 ^ (count.log2 + 1) * 2 ^ (32 - (count.log2 + 1)) :=
        Nat.mul_lt_mul_of_pos_right hhigh (Nat.two_pow_pos _)
      _ = 2 ^ (count.log2 + 1 + (32 - (count.log2 + 1))) := (Nat.pow_add ..).symm
      _ = 4294967296 := by
        rw [show count.log2 + 1 + (32 - (count.log2 + 1)) = 32 by omega]; rfl

theorem accepts_iff (hcount : 0 < count) :
    accepts count word = true ↔
      word.toNat * count % 4294967296 < count * 2 ^ leadingZeros count := by
  have hpositive : 0 < count * 2 ^ leadingZeros count :=
    Nat.mul_pos hcount (Nat.two_pow_pos _)
  rw [accepts, Nat.shiftLeft_eq, decide_eq_true_iff]
  omega

@[simp]
theorem accepts_zero (count : Nat) : accepts count 0 = true := by
  simp [accepts]

def firstWord (count index : Nat) : Nat := (index * 4294967296) ⌈/⌉ count

theorem firstWord_add_two_pow (hcount : 0 < count) (index : Nat) :
    firstWord count index + 2 ^ leadingZeros count =
      (index * 4294967296 + count * 2 ^ leadingZeros count) ⌈/⌉ count := by
  have hsum : index * 4294967296 + count * 2 ^ leadingZeros count + count - 1 =
      index * 4294967296 + count - 1 + count * 2 ^ leadingZeros count := by omega
  rw [firstWord, Nat.ceilDiv_eq_add_pred_div, Nat.ceilDiv_eq_add_pred_div, hsum,
    Nat.add_mul_div_left _ _ hcount]

theorem firstWord_add_two_pow_le (hsize : count < 4294967296) (hindex : index < count) :
    firstWord count index + 2 ^ leadingZeros count ≤ 4294967296 := by
  have hcount : 0 < count := Nat.zero_lt_of_lt hindex
  obtain ⟨-, hroom⟩ := leadingZeros_bounds hcount hsize
  rw [firstWord_add_two_pow hcount, ceilDiv_le_iff_le_mul hcount]
  generalize count * 2 ^ leadingZeros count = room at *
  omega

/-- The words that choose an index are a stretch of words. -/
theorem accepts_and_indexOf_iff (hcount : 0 < count) (hsize : count < 4294967296) :
    (accepts count word = true ∧ indexOf count word = index) ↔
      word.toNat ∈ Set.Ico (firstWord count index)
        (firstWord count index + 2 ^ leadingZeros count) := by
  obtain ⟨-, hroom⟩ := leadingZeros_bounds hcount hsize
  have hfirst : firstWord count index ≤ word.toNat ↔
      index * 4294967296 ≤ word.toNat * count := by
    rw [firstWord, ceilDiv_le_iff_le_mul hcount, Nat.mul_comm count]
  have hlast : firstWord count index + 2 ^ leadingZeros count ≤ word.toNat ↔
      index * 4294967296 + count * 2 ^ leadingZeros count ≤ word.toNat * count := by
    rw [firstWord_add_two_pow hcount, ceilDiv_le_iff_le_mul hcount, Nat.mul_comm count word.toNat]
  rw [Set.mem_Ico, ← Nat.not_le, hlast, hfirst, accepts_iff hcount, indexOf]
  generalize word.toNat * count = scaled
  generalize count * 2 ^ leadingZeros count = room at *
  omega

theorem ncard_toNat_mem_Ico {low high : Nat} (hhigh : high ≤ 4294967296) :
    {word : UInt32 | word.toNat ∈ Set.Ico low high}.ncard = high - low := by
  have hrange : Set.Ico low high ⊆ Set.range UInt32.toNat := by
    intro value hvalue
    have hsize : value < UInt32.size := Nat.lt_of_lt_of_le hvalue.2 hhigh
    exact ⟨UInt32.ofNat value, UInt32.toNat_ofNat_of_lt' hsize⟩
  calc {word : UInt32 | word.toNat ∈ Set.Ico low high}.ncard
    _ = (Set.Ico low high).ncard :=
      Set.ncard_preimage_of_injective_subset_range (fun _ _ => UInt32.toNat.inj) hrange
    _ = high - low := by rw [← Finset.coe_Ico, Set.ncard_coe_finset, Nat.card_Ico]

end Words

section Picks

variable {α : Type} {items : List α} {item : α} {word : UInt32}

def pick? (items : List α) (word : UInt32) : Option α :=
  if accepts items.length word then items[indexOf items.length word]? else none

theorem mem_of_pick? (hpick : pick? items word = some item) : item ∈ items := by
  unfold pick? at hpick
  split at hpick
  · exact List.mem_of_getElem? hpick
  · cases hpick

theorem pick?_eq_none_iff (hitems : items ≠ []) :
    pick? items word = none ↔ accepts items.length word = false := by
  have hindex := indexOf_lt (List.length_pos_iff.2 hitems) word
  unfold pick?
  split
  · rename_i haccepted
    simp [haccepted, List.getElem?_eq_getElem hindex]
  · rename_i hrejected
    simpa using hrejected

/-- Zero always chooses the first item, so a script that is used up ends a choice. -/
theorem pick?_zero_ne_none (hitems : items ≠ []) : pick? items 0 ≠ none := by
  rw [Ne, pick?_eq_none_iff hitems, accepts_zero]
  decide

/-- **Equal chances.** Equally many words choose each item. -/
theorem ncard_pick?_eq_some (hnodup : items.Nodup) (hsize : items.length < 4294967296)
    (hitem : item ∈ items) :
    {word | pick? items word = some item}.ncard = 2 ^ leadingZeros items.length := by
  obtain ⟨index, hindex, rfl⟩ := List.getElem_of_mem hitem
  have hcount : 0 < items.length := Nat.zero_lt_of_lt hindex
  have hword : ∀ word, pick? items word = some items[index] ↔ word.toNat ∈ Set.Ico
      (firstWord items.length index)
      (firstWord items.length index + 2 ^ leadingZeros items.length) := by
    intro word
    rw [← accepts_and_indexOf_iff hcount hsize, pick?]
    have hlt := indexOf_lt hcount word
    split
    · rename_i haccepted
      rw [List.getElem?_eq_getElem hlt, Option.some.injEq, hnodup.getElem_inj_iff]
      simp [haccepted]
    · rename_i hrejected
      simp [hrejected]
  simp only [hword]
  rw [ncard_toNat_mem_Ico (firstWord_add_two_pow_le hsize hindex), Nat.add_sub_cancel_left]

theorem ncard_pick?_eq_none (hnodup : items.Nodup) (hsize : items.length < 4294967296) :
    {word | pick? items word = none}.ncard + items.length * 2 ^ leadingZeros items.length =
      4294967296 := by
  classical
  have hfiber : ∀ outcome, {word | pick? items word = outcome}.ncard =
      (Finset.univ.filter fun word => pick? items word = outcome).card := by
    intro outcome
    rw [← Set.ncard_coe_finset, Finset.coe_filter_univ]
  have houtcome : ∀ word ∈ Finset.univ,
      pick? items word ∈ insert none (items.toFinset.image some) := by
    intro word _
    cases hpick : pick? items word with
    | none => simp
    | some item => simp [mem_of_pick? hpick]
  have hall : Nat.card UInt32 = 4294967296 := by
    rw [Nat.card_eq_fintype_card, ← FinEnum.card_eq_fintypeCard, FinEnum.card_UInt32]
    rfl
  calc {word | pick? items word = none}.ncard + items.length * 2 ^ leadingZeros items.length
    _ = {word | pick? items word = none}.ncard +
        ∑ item ∈ items.toFinset, {word | pick? items word = some item}.ncard := by
      rw [Finset.sum_congr rfl fun item hitem =>
        ncard_pick?_eq_some hnodup hsize (List.mem_toFinset.1 hitem), Finset.sum_const,
        List.toFinset_card_of_nodup hnodup, smul_eq_mul]
    _ = ∑ outcome ∈ insert none (items.toFinset.image some),
        {word | pick? items word = outcome}.ncard := by
      rw [Finset.sum_insert (by simp), Finset.sum_image fun _ _ _ _ => Option.some.inj]
    _ = Nat.card UInt32 := by
      simp only [hfiber]
      rw [← Finset.card_eq_sum_card_fiberwise houtcome, Finset.card_univ, Nat.card_eq_fintype_card]
    _ = 4294967296 := hall

end Picks

section Draws

variable {α : Type} {items : List α} {item other : α} {source : Source} {draws : Nat}

def Source.ahead (source : Source) (draws : Nat) : UInt32 :=
  source.stream.word (source.drawn + draws)

def Source.afterDraws (source : Source) (draws : Nat) : Source :=
  ⟨source.stream, source.drawn + draws⟩

/-- The word after so many others is the first to be accepted, and it chooses the item. -/
structure EndsWith (items : List α) (source : Source) (draws : Nat) (item : α) : Prop where
  picked : pick? items (source.ahead draws) = some item
  rejected : ∀ earlier < draws, pick? items (source.ahead earlier) = none

/-- Either all words to come are rejected, or there is a first one that is not. -/
theorem rejectsAll_or_endsWith (items : List α) (source : Source) :
    (∀ draws, pick? items (source.ahead draws) = none) ∨
      ∃ draws, ∃ item ∈ items, EndsWith items source draws item := by
  classical
  by_cases hsome : ∃ draws, pick? items (source.ahead draws) ≠ none
  · right
    obtain ⟨item, hitem⟩ := Option.ne_none_iff_exists'.1 (Nat.find_spec hsome)
    refine ⟨Nat.find hsome, item, mem_of_pick? hitem, hitem, ?_⟩
    intro earlier hearlier
    exact not_not.1 (Nat.find_min hsome hearlier)
  · left
    exact fun draws => not_not.1 (not_exists.1 hsome draws)

theorem ahead_of_script {words : List UInt32} (hstream : source.stream = .script words)
    (hdraws : words.length ≤ draws) : source.ahead draws = 0 := by
  rw [Source.ahead, hstream, Stream.word, List.getD_eq_getElem?_getD,
    List.getElem?_eq_none (by omega), Option.getD_none]

/-- The block counter has 64 bits, and a block sixteen words. -/
theorem ahead_of_seeded {seed : UInt64} (hstream : source.stream = .seeded seed) (draws : Nat) :
    source.ahead (draws + 16 * 18446744073709551616) = source.ahead draws := by
  have hblock : UInt64.ofNat ((source.drawn + (draws + 16 * 18446744073709551616)) / 16) =
      UInt64.ofNat ((source.drawn + draws) / 16) := by
    apply UInt64.toNat.inj
    rw [UInt64.toNat_ofNat', UInt64.toNat_ofNat']
    omega
  have hplace : (source.drawn + (draws + 16 * 18446744073709551616)) % 16 =
      (source.drawn + draws) % 16 := by omega
  simp only [Source.ahead, hstream, Stream.word, ChaCha.word, hblock, hplace]

theorem EndsWith.lt_patience (hends : EndsWith items source draws item) :
    draws < source.stream.patience := by
  have hitems : items ≠ [] := List.ne_nil_of_mem (mem_of_pick? hends.picked)
  by_contra hlate
  cases hstream : source.stream with
  | script words =>
    rw [hstream, Stream.patience] at hlate
    refine pick?_zero_ne_none hitems ?_
    rw [← ahead_of_script hstream (Nat.le_refl words.length)]
    exact hends.rejected words.length (by omega)
  | seeded seed =>
    rw [hstream, Stream.patience] at hlate
    obtain ⟨earlier, rfl⟩ : ∃ earlier, draws = earlier + 16 * 18446744073709551616 :=
      ⟨draws - 16 * 18446744073709551616, by omega⟩
    have hpicked := hends.picked
    rw [ahead_of_seeded hstream, hends.rejected earlier (by omega)] at hpicked
    cases hpicked

theorem exists_endsWith_of_script (hitems : items ≠ []) {words : List UInt32}
    (hstream : source.stream = .script words) :
    ∃ draws, ∃ item ∈ items, EndsWith items source draws item := by
  rcases rejectsAll_or_endsWith items source with hnone | hends
  · have hzero := hnone words.length
    rw [ahead_of_script hstream (Nat.le_refl _)] at hzero
    exact absurd hzero (pick?_zero_ne_none hitems)
  · exact hends

theorem Source.ahead_afterDraws_one (source : Source) (draws : Nat) :
    (source.afterDraws 1).ahead draws = source.ahead (draws + 1) := by
  rw [ahead, ahead, afterDraws, Nat.add_assoc, Nat.add_comm 1]

theorem chooseIndex_succ (count : Nat) (source : Source) (patience : Nat) :
    chooseIndex count source (patience + 1) =
      if accepts count (source.ahead 0) = true then
        (indexOf count (source.ahead 0), source.afterDraws 1)
      else chooseIndex count (source.afterDraws 1) patience := rfl

theorem chooseIndex_eq {count patience : Nat} (hdraws : draws < patience)
    (haccepted : accepts count (source.ahead draws) = true)
    (hrejected : ∀ earlier < draws, accepts count (source.ahead earlier) = false) :
    chooseIndex count source patience =
      (indexOf count (source.ahead draws), source.afterDraws (draws + 1)) := by
  induction draws generalizing source patience with
  | zero =>
    obtain ⟨patience, rfl⟩ := Nat.exists_eq_add_one_of_ne_zero (Nat.ne_of_gt hdraws)
    rw [chooseIndex_succ, if_pos haccepted]
  | succ draws ih =>
    obtain ⟨patience, rfl⟩ := Nat.exists_eq_add_one_of_ne_zero (Nat.ne_zero_of_lt hdraws)
    have hfirst := hrejected 0 (Nat.succ_pos draws)
    have hnext : chooseIndex count (source.afterDraws 1) patience =
        (indexOf count ((source.afterDraws 1).ahead draws),
          (source.afterDraws 1).afterDraws (draws + 1)) := by
      refine ih (by omega) ?_ ?_
      · rwa [source.ahead_afterDraws_one]
      · intro earlier hearlier
        rw [source.ahead_afterDraws_one]
        exact hrejected (earlier + 1) (by omega)
    rw [chooseIndex_succ, hfirst, if_neg (by decide), hnext, source.ahead_afterDraws_one]
    simp only [Source.afterDraws, Prod.mk.injEq, true_and, Source.mk.injEq]
    omega

theorem EndsWith.choose_eq (hends : EndsWith items source draws item) :
    choose items source = (some item, source.afterDraws (draws + 1)) := by
  have hitems : items ≠ [] := List.ne_nil_of_mem (mem_of_pick? hends.picked)
  have hpicked := hends.picked
  have haccepted : accepts items.length (source.ahead draws) = true := by
    by_contra hrejected
    rw [pick?, if_neg hrejected] at hpicked
    cases hpicked
  rw [pick?, if_pos haccepted] at hpicked
  have hindex := chooseIndex_eq hends.lt_patience haccepted fun earlier hearlier =>
    (pick?_eq_none_iff hitems).1 (hends.rejected earlier hearlier)
  cases items with
  | nil => exact absurd rfl hitems
  | cons first rest =>
    simp only [choose, hindex, hpicked]

end Draws

section Sequences

variable {α : Type} {items : List α} {item : α} {draws : Nat}

def Source.ofWords (words : Fin draws → UInt32) : Source :=
  .start (.script (List.ofFn words))

theorem Source.ahead_ofWords (words : Fin draws → UInt32) (place : Fin draws) :
    (ofWords words).ahead place = words place := by
  rw [ahead, ofWords, start, Stream.word, List.getD_eq_getElem?_getD, Nat.zero_add,
    List.getElem?_ofFn, dif_pos place.isLt, Option.getD_some]

/-- The words at a place of a sequence that ends a choice with its last word. -/
def wordsAt (items : List α) (item : α) (place : Fin (draws + 1)) : Set UInt32 :=
  {word | pick? items word = if place = Fin.last draws then some item else none}

theorem wordsAt_castSucc (items : List α) (item : α) (place : Fin draws) :
    wordsAt items item place.castSucc = {word | pick? items word = none} := by
  rw [wordsAt, if_neg place.castSucc_ne_last]

theorem wordsAt_last (items : List α) (item : α) (draws : Nat) :
    wordsAt items item (Fin.last draws) = {word | pick? items word = some item} := by
  rw [wordsAt, if_pos rfl]

theorem endsWith_ofWords_iff (words : Fin (draws + 1) → UInt32) :
    EndsWith items (Source.ofWords words) draws item ↔
      words ∈ Set.univ.pi (wordsAt items item) := by
  rw [Set.mem_univ_pi]
  constructor
  · intro hends place
    rw [wordsAt, Set.mem_ofPred_eq, ← Source.ahead_ofWords words]
    split
    · rename_i hlast
      rw [hlast]
      exact hends.picked
    · rename_i hearlier
      exact hends.rejected place (Fin.val_lt_last hearlier)
  · intro hwords
    refine ⟨?_, ?_⟩
    · have hlast := hwords (Fin.last draws)
      rwa [wordsAt, Set.mem_ofPred_eq, if_pos rfl, ← Source.ahead_ofWords words] at hlast
    · intro earlier hearlier
      have hplace := hwords ⟨earlier, by omega⟩
      rwa [wordsAt, Set.mem_ofPred_eq, if_neg (Fin.ne_of_lt hearlier), ← Source.ahead_ofWords words]
        at hplace

/-- Each draw but the last takes any of the rejected words, and the last any of those that choose
the item. -/
theorem ncard_endsWith (items : List α) (item : α) (draws : Nat) :
    {words : Fin (draws + 1) → UInt32 | EndsWith items (Source.ofWords words) draws item}.ncard =
      {word | pick? items word = none}.ncard ^ draws *
        {word | pick? items word = some item}.ncard := by
  calc {words : Fin (draws + 1) → UInt32 | EndsWith items (Source.ofWords words) draws item}.ncard
    _ = Nat.card (Set.univ.pi fun place : Fin (draws + 1) => wordsAt items item place) := by
      simp only [endsWith_ofWords_iff]
      rfl
    _ = ∏ place : Fin (draws + 1), (wordsAt items item place).ncard := by
      rw [Nat.card_congr (Equiv.Set.univPi _), Nat.card_pi]
      rfl
    _ = _ := by
      rw [Fin.prod_univ_castSucc, wordsAt_last]
      simp only [wordsAt_castSucc, Finset.prod_const, Finset.card_univ, Fintype.card_fin]

end Sequences

end Chance

namespace Chore

open Chance
open Rotation (chooseOr chooseOr_eq_ok)

variable {chore : Chore} {users : List UserId} {user : UserId} {history : List HistoryRow}
  {performer : UserId} {draws : Nat}

def eligible? (chore : Chore) : Option (List UserId) :=
  match chore.strategy with
  | .random => some chore.assignees
  | .randomExceptLastAssigned =>
    some (chore.assignees.filter fun user => some user != chore.assignedTo)
  | _ => none

theorem mem_eligible_iff (heligible : chore.eligible? = some users) :
    user ∈ users ↔ user ∈ chore.assignees ∧
      (chore.strategy = .randomExceptLastAssigned → chore.assignedTo ≠ some user) := by
  unfold eligible? at heligible
  split at heligible
  · rename_i hstrategy
    obtain rfl := Option.some.inj heligible
    simp [hstrategy]
  · rename_i hstrategy
    obtain rfl := Option.some.inj heligible
    rw [List.mem_filter, bne_iff_ne, ne_comm]
    simp [hstrategy]
  · cases heligible

theorem nextAssignee_eq_chooseOr (heligible : chore.eligible? = some users) :
    ∃ missing : Fault, missing.code = .invalidAssignment ∧ ∀ history performer source,
      chore.nextAssignee history performer source = chooseOr missing users source := by
  unfold eligible? at heligible
  split at heligible
  · rename_i hstrategy
    obtain rfl := Option.some.inj heligible
    refine ⟨.noAssignees, rfl, fun history performer source => ?_⟩
    rw [nextAssignee, hstrategy]
  · rename_i hstrategy
    obtain rfl := Option.some.inj heligible
    refine ⟨.onlyLastAssigned, rfl, fun history performer source => ?_⟩
    rw [nextAssignee, hstrategy]
  · cases heligible

theorem nextAssignee_of_endsWith (heligible : chore.eligible? = some users) {source : Source}
    (hends : EndsWith users source draws user) (history : List HistoryRow) (performer : UserId) :
    chore.nextAssignee history performer source =
      (.ok (some user), source.afterDraws (draws + 1)) := by
  obtain ⟨missing, -, hnext⟩ := nextAssignee_eq_chooseOr heligible
  rw [hnext, chooseOr, hends.choose_eq]

/-- A pick tells how many words it took, because a sequence of words ends every choice. -/
theorem nextAssignee_ofWords_iff (heligible : chore.eligible? = some users) (hsome : users ≠ [])
    (words : Fin (draws + 1) → UInt32) :
    chore.nextAssignee history performer (Source.ofWords words) =
        (.ok (some user), (Source.ofWords words).afterDraws (draws + 1)) ↔
      EndsWith users (Source.ofWords words) draws user := by
  constructor
  · intro hnext
    have hscript : (Source.ofWords words).stream = .script (List.ofFn words) := rfl
    obtain ⟨later, other, -, hends⟩ := exists_endsWith_of_script hsome hscript
    rw [nextAssignee_of_endsWith heligible hends] at hnext
    obtain ⟨huser, hdrawn⟩ := Prod.mk.inj hnext
    obtain rfl : other = user := Option.some.inj (Except.ok.inj huser)
    have hcount := congrArg Source.drawn hdrawn
    simp only [Source.afterDraws] at hcount
    obtain rfl : later = draws := by omega
    exact hends
  · intro hends
    exact nextAssignee_of_endsWith heligible hends history performer

structure PicksFairly (chore : Chore) (users : List UserId) : Prop where
  eligible : ∀ user, user ∈ users ↔ user ∈ chore.assignees ∧
    (chore.strategy = .randomExceptLastAssigned → chore.assignedTo ≠ some user)
  fails : users = [] → ∀ history performer source, ∃ fault : Fault,
    fault.code = .invalidAssignment ∧
      chore.nextAssignee history performer source = (.error fault, source)
  confined : ∀ history performer source assignee after,
    chore.nextAssignee history performer source = (.ok assignee, after) →
      ∃ user ∈ users, assignee = some user
  /-- Of the words that a draw can yield, so many choose each user and the rest nobody. -/
  chances : (∀ user ∈ users,
      {word | pick? users word = some user}.ncard = 2 ^ leadingZeros users.length) ∧
    {word | pick? users word = none}.ncard = 2 ^ 32 - users.length * 2 ^ leadingZeros users.length
  /-- Words that choose nobody are followed by another draw, and the first other word decides. -/
  picks : ∀ history performer source draws user, EndsWith users source draws user →
    chore.nextAssignee history performer source =
      (.ok (some user), source.afterDraws (draws + 1))
  ends : ∀ source, (∀ draws, pick? users (source.ahead draws) = none) ∨
    ∃ draws, ∃ user ∈ users, EndsWith users source draws user
  /-- Whatever the number of draws, equally many sequences of words pick each user. -/
  sequences : ∀ history performer draws, ∀ user ∈ users,
    {words : Fin (draws + 1) → UInt32 |
        chore.nextAssignee history performer (Source.ofWords words) =
          (.ok (some user), (Source.ofWords words).afterDraws (draws + 1))}.ncard =
      (2 ^ 32 - users.length * 2 ^ leadingZeros users.length) ^ draws *
        2 ^ leadingZeros users.length

/-- **Fair random picks.** A strategy that picks at random picks one of those who may be picked,
each with the same chance, and draws until a word chooses one of them. If nobody may be picked, it
fails without a draw. -/
theorem picksFairly_of_eligible (heligible : chore.eligible? = some users) (hnodup : users.Nodup)
    (hsize : users.length < 2 ^ 32) : chore.PicksFairly users := by
  obtain ⟨missing, hcode, hnext⟩ := nextAssignee_eq_chooseOr heligible
  have hchosen := fun user (huser : user ∈ users) => ncard_pick?_eq_some hnodup hsize huser
  have hrejected : {word | pick? users word = none}.ncard =
      2 ^ 32 - users.length * 2 ^ leadingZeros users.length :=
    Nat.eq_sub_of_add_eq (ncard_pick?_eq_none hnodup hsize)
  refine
    { eligible := fun user => mem_eligible_iff heligible
      fails := ?_
      confined := ?_
      chances := ⟨hchosen, hrejected⟩
      picks := fun history performer source draws user hends =>
        nextAssignee_of_endsWith heligible hends history performer
      ends := rejectsAll_or_endsWith users
      sequences := ?_ }
  · rintro rfl history performer source
    exact ⟨missing, hcode, hnext history performer source⟩
  · intro history performer source assignee after hpicked
    rw [hnext] at hpicked
    exact chooseOr_eq_ok hpicked
  · intro history performer draws user huser
    simp only [nextAssignee_ofWords_iff heligible (List.ne_nil_of_mem huser)]
    rw [ncard_endsWith, hchosen user huser, hrejected]

end Chore

def oven : Chore where
  id := 43
  name := "clean the oven"
  kind := .monthly
  frequency := 0
  details := FrequencyDetails.unset
  dueDate := none
  isRolling := false
  strategy := .randomExceptLastAssigned
  assignedTo := some 20
  assignees := [10, 20, 30, 40]
  createdBy := 10
  isActive := true
  completionWindow := none

/-- Of the four, the second may not be picked. The first word is rejected and the second one is the
least that chooses the last of the three. -/
theorem oven_goes_to_last :
    oven.eligible? = some [10, 30, 40] ∧
      {word | Chance.pick? ([10, 30, 40] : List UserId) word = some 40}.ncard = 2 ^ 30 ∧
      oven.nextAssignee [] 20 (Chance.Source.start (.script [1431655765, 2863311531])) =
        (.ok (some 40), ⟨.script [1431655765, 2863311531], 2⟩) := by
  have heligible : oven.eligible? = some [10, 30, 40] := by decide
  have hfair := Chore.picksFairly_of_eligible heligible (by decide) (by decide)
  have hends : Chance.EndsWith ([10, 30, 40] : List UserId)
      (Chance.Source.start (.script [1431655765, 2863311531])) 1 40 :=
    ⟨by decide, by decide⟩
  exact ⟨heligible, hfair.chances.1 40 (by decide), hfair.picks [] 20 _ 1 40 hends⟩

end ChoreRota
