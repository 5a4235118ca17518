import ChoreRota.Proofs.Rounding
import ChoreRota.Proofs.SameInstants

/-!
# Gaps in doubles

A weight is an exact power of two down to position 1074 and zero from there on. A gap in seconds is
rounded where it has too many digits, but not past a bound that is a double itself. All of it is the
same with time running backwards, so that an upper bound is a lower one as well.
-/

namespace ChoreRota.Cadence

open Binary64

def wholeSeconds (nanos : Int) : Int :=
  nanos.tdiv 1000000000

/-- No two times on the calendar are this many seconds apart, whatever clocks they are given by. -/
def longestSpan : Int := 640000000000

theorem longestSpan_cast : (longestSpan : ℚ) = 640000000000 := by
  norm_num [longestSpan]

section Weight

variable {position : Nat}

theorem weight_eq_zpow (hposition : position ≤ 1074) : weight position = 2 ^ (-position : Int) := by
  rw [weight, twoPow_eq_zpow, round_eq_self (isDouble_zpow (by omega))]

theorem weight_eq_zero (hposition : 1074 < position) : weight position = 0 := by
  rw [weight, twoPow_eq_zpow]
  exact round_eq_zero (by positivity) (zpow_le_zpow_right₀ one_le_two (by omega))

theorem zpow_neg_le {early late : Nat} (hle : early ≤ late) :
    (2 : ℚ) ^ (-late : Int) ≤ 2 ^ (-early : Int) :=
  zpow_le_zpow_right₀ one_le_two (by omega)

/-- What is left of the weights to come after a position. -/
theorem zpow_neg_succ (hposition : position ≤ 1074) :
    (2 : ℚ) ^ (-(position + 1 : Nat) : Int) = weight position / 2 := by
  rw [weight_eq_zpow hposition, Nat.cast_succ, neg_add, ← sub_eq_add_neg,
    zpow_sub_one₀ two_ne_zero, div_eq_mul_inv]

theorem isDouble_weight (position : Nat) : IsDouble (weight position) :=
  isDouble_round _

theorem weight_nonneg (position : Nat) : 0 ≤ weight position :=
  le_round isDouble_zero (by rw [twoPow_eq_zpow]; positivity)

end Weight

section Gaps

variable {position : Nat} {moments : List (Option Int)} {gap : Nat × Int}

theorem position_of_mem_gapsFrom (hgap : gap ∈ gapsFrom position moments) :
    position ≤ gap.1 ∧ gap.1 + 1 < position + moments.length := by
  fun_induction gapsFrom position moments with
  | case1 position newer older rest ih =>
    rcases List.mem_cons.1 hgap with rfl | hmem
    · simp
    · have hbounds := ih hmem
      simp only [List.length_cons] at hbounds ⊢
      omega
  | case2 position moment rest _ ih =>
    have hbounds := ih hgap
    rw [List.length_cons]
    omega
  | case3 => cases hgap

theorem pairwise_gapsFrom (position : Nat) (moments : List (Option Int)) :
    (gapsFrom position moments).Pairwise fun newer older => newer.1 < older.1 := by
  fun_induction gapsFrom position moments with
  | case1 position newer older rest ih =>
    exact .cons (fun gap hmem => (position_of_mem_gapsFrom hmem).1) ih
  | case2 position moment rest _ ih => exact ih
  | case3 => exact .nil

theorem exists_of_mem_gapsFrom (hgap : gap ∈ gapsFrom position moments) :
    ∃ newer older, some newer ∈ moments ∧ some older ∈ moments ∧ gap.2 = newer - older := by
  fun_induction gapsFrom position moments with
  | case1 position newer older rest ih =>
    rcases List.mem_cons.1 hgap with rfl | hmem
    · exact ⟨newer, older, .head _, .tail _ (.head _), rfl⟩
    · obtain ⟨newer, older, hnewer, holder, heq⟩ := ih hmem
      exact ⟨newer, older, .tail _ hnewer, .tail _ holder, heq⟩
  | case2 position moment rest _ ih =>
    obtain ⟨newer, older, hnewer, holder, heq⟩ := ih hgap
    exact ⟨newer, older, .tail _ hnewer, .tail _ holder, heq⟩
  | case3 => cases hgap

end Gaps

theorem moment_bounds (moment : Moment) :
    days firstDay ≤ moment.nanos ∧ moment.nanos < days (lastDay + 1) := by
  have hfirst := moment.date.firstDay_le
  have hlast := moment.date.le_lastDay
  have htime := moment.time.nanos_lt
  unfold Moment.nanos days
  omega

theorem abs_gap_lt {completed : Moment} {history : List HistoryRow} {gap : Nat × Int}
    (hclocks : ∀ row ∈ history, ∀ performed ∈ row.performedAt, IsClockOffset performed.offset)
    (hgap : gap ∈ gaps completed history) : |gap.2| < seconds longestSpan := by
  have hbounds : ∀ instant, some instant ∈ some completed.nanos ::
      history.map (fun row => row.performedAt.map Timestamp.instant) →
      days firstDay - seconds 93600 ≤ instant ∧ instant ≤ days (lastDay + 1) + seconds 93600 := by
    intro instant hmem
    rcases List.mem_cons.1 hmem with hcompleted | hrow
    · have hmoment := moment_bounds completed
      obtain rfl := Option.some.inj hcompleted
      unfold seconds
      omega
    · obtain ⟨row, hmember, hinstant⟩ := List.mem_map.1 hrow
      obtain ⟨performed, hperformed, rfl⟩ := Option.map_eq_some_iff.1 hinstant
      have hmoment := moment_bounds performed.wall
      have hclock := hclocks row hmember performed hperformed
      unfold IsClockOffset at hclock
      unfold Timestamp.instant seconds
      omega
  obtain ⟨newer, older, hnewer, holder, heq⟩ := exists_of_mem_gapsFrom hgap
  have hnewer := hbounds newer hnewer
  have holder := hbounds older holder
  unfold days seconds firstDay lastDay longestSpan at *
  rw [heq, abs_lt]
  omega

section Seconds

variable {nanos : Int} {bound : ℚ}

theorem wholeSeconds_add_fraction (nanos : Int) :
    1000000000 * wholeSeconds nanos + nanos.tmod 1000000000 = nanos :=
  Int.mul_tdiv_add_tmod nanos 1000000000

theorem wholeSeconds_neg (nanos : Int) : wholeSeconds (-nanos) = -wholeSeconds nanos :=
  Int.neg_tdiv ..

theorem fraction_lt (nanos : Int) : (nanos.tmod 1000000000).natAbs < 1000000000 := by
  rw [Int.natAbs_tmod]
  exact Nat.mod_lt _ (by norm_num)

theorem abs_wholeSeconds_lt (hspan : |nanos| < seconds longestSpan) :
    |wholeSeconds nanos| < longestSpan := by
  have hsize : (wholeSeconds nanos).natAbs = nanos.natAbs / 1000000000 :=
    Int.natAbs_tdiv nanos 1000000000
  unfold seconds at hspan
  rw [Int.abs_eq_natAbs] at *
  omega

/-- A whole number of seconds cut off towards zero is a bound on what it was cut off from, below
zero; from zero on there is a fraction of a second more. -/
theorem le_seconds_of_wholeSeconds_le {most : Int} (hle : wholeSeconds nanos ≤ most) :
    (most < 0 → nanos ≤ seconds most) ∧ nanos < seconds (most + 1) := by
  have hsum := wholeSeconds_add_fraction nanos
  have hfraction := fraction_lt nanos
  have hsign : wholeSeconds nanos < 0 → nanos.tmod 1000000000 ≤ 0 := by
    intro hneg
    have hnanos : nanos < 0 := by
      by_contra hnonneg
      exact absurd (Int.tdiv_nonneg (not_lt.1 hnonneg) (by decide)) (not_le.2 hneg)
    have hopposite := Int.tmod_nonneg 1000000000 (show 0 ≤ -nanos by omega)
    rw [Int.neg_tmod] at hopposite
    omega
  unfold seconds
  omega

theorem inSeconds_neg (nanos : Int) : inSeconds (-nanos) = -inSeconds nanos := by
  simp only [inSeconds, Int.neg_tdiv, Int.neg_tmod, Int.cast_neg, add, div, round_neg, neg_div]
  rw [← neg_add, round_neg]

/-- A bound that is a double, and without the gap's whole seconds one again, is not passed by
rounding the fraction or the sum. -/
theorem inSeconds_le (hspan : |nanos| < seconds longestSpan) (hbound : IsDouble bound)
    (hrest : IsDouble (bound - wholeSeconds nanos)) (hle : (nanos : ℚ) ≤ bound * 1000000000) :
    inSeconds nanos ≤ bound := by
  have hwhole : IsDouble (wholeSeconds nanos : ℚ) :=
    isDouble_intCast ((abs_wholeSeconds_lt hspan).le.trans (by decide))
  have hfraction : IsDouble (nanos.tmod 1000000000 : ℚ) := by
    have hlt := fraction_lt nanos
    exact isDouble_intCast (by rw [Int.abs_eq_natAbs]; norm_num; omega)
  have hsum : (1000000000 * wholeSeconds nanos + nanos.tmod 1000000000 : ℚ) = nanos := by
    exact_mod_cast wholeSeconds_add_fraction nanos
  have hpart : Binary64.round ((nanos.tmod 1000000000 : ℚ) / 1000000000) ≤
      bound - wholeSeconds nanos := by
    refine round_le hrest ?_
    rw [div_le_iff₀ (by norm_num)]
    linarith
  have htotal : (wholeSeconds nanos : ℚ) +
      Binary64.round ((nanos.tmod 1000000000 : ℚ) / 1000000000) ≤ bound := by linarith
  unfold wholeSeconds at hwhole htotal
  unfold inSeconds add div
  rw [round_eq_self hfraction, round_eq_self hwhole]
  exact round_le hbound htotal

theorem inSeconds_le_of_le {whole : Int} (hspan : |nanos| < seconds longestSpan)
    (hwhole : |whole| ≤ longestSpan) (hle : nanos ≤ seconds whole) :
    inSeconds nanos ≤ whole := by
  have hsize := abs_wholeSeconds_lt hspan
  unfold longestSpan at hsize hwhole
  have hbound : IsDouble (whole : ℚ) := isDouble_intCast (hwhole.trans (by norm_num))
  have hrest : IsDouble ((whole : ℚ) - wholeSeconds nanos) := by
    have hsub : |whole - wholeSeconds nanos| ≤ 2 ^ 53 := by
      have htriangle := abs_sub whole (wholeSeconds nanos)
      norm_num
      omega
    exact_mod_cast isDouble_intCast hsub
  refine inSeconds_le hspan hbound hrest ?_
  unfold seconds at hle
  exact_mod_cast hle

theorem abs_inSeconds_le (hspan : |nanos| < seconds longestSpan) :
    |inSeconds nanos| ≤ longestSpan := by
  have hwhole : |longestSpan| ≤ longestSpan := by decide
  have hneg : |(-nanos)| < seconds longestSpan := by rwa [abs_neg]
  have hupper := inSeconds_le_of_le hspan hwhole (le_of_abs_le hspan.le)
  have hlower := inSeconds_le_of_le hneg hwhole (le_of_abs_le hneg.le)
  rw [inSeconds_neg] at hlower
  exact abs_le.2 ⟨by linarith, hupper⟩

end Seconds

def addGap (sum : ℚ) (gap : Nat × Int) : ℚ :=
  add sum (mul (inSeconds gap.2) (weight gap.1))

def addWeight (weights : ℚ) (gap : Nat × Int) : ℚ :=
  add weights (weight gap.1)

theorem weightedSum_eq (gaps : List (Nat × Int)) : weightedSum gaps = gaps.foldl addGap 0 := rfl

theorem totalWeight_eq (gaps : List (Nat × Int)) : totalWeight gaps = gaps.foldl addWeight 0 := rfl

section Mirror

variable {gaps : List (Nat × Int)} {gap : Nat × Int}

/-- The gaps with time running backwards. -/
def mirror (gaps : List (Nat × Int)) : List (Nat × Int) :=
  gaps.map fun gap => (gap.1, -gap.2)

theorem mem_mirror : gap ∈ mirror gaps ↔ (gap.1, -gap.2) ∈ gaps := by
  unfold mirror
  rw [List.mem_map]
  constructor
  · rintro ⟨other, hother, rfl⟩
    rwa [neg_neg]
  · intro hgap
    exact ⟨_, hgap, by rw [neg_neg]⟩

theorem addGap_mirror (sum : ℚ) (gap : Nat × Int) :
    addGap (-sum) (gap.1, -gap.2) = -addGap sum gap := by
  simp only [addGap, add, mul, inSeconds_neg, neg_mul, round_neg]
  rw [← neg_add, round_neg]

theorem weightedSum_mirror (gaps : List (Nat × Int)) :
    weightedSum (mirror gaps) = -weightedSum gaps := by
  have hfold : (mirror gaps).foldl addGap (-0) = -gaps.foldl addGap 0 := by
    unfold mirror
    rw [List.foldl_map]
    exact List.foldl_hom (fun sum : ℚ => -sum) addGap_mirror
  rwa [neg_zero] at hfold

theorem totalWeight_mirror (gaps : List (Nat × Int)) :
    totalWeight (mirror gaps) = totalWeight gaps := by
  rw [totalWeight_eq, totalWeight_eq]
  unfold mirror
  rw [List.foldl_map]
  rfl

theorem averageSeconds_mirror (gaps : List (Nat × Int)) :
    averageSeconds (mirror gaps) = -averageSeconds gaps := by
  unfold averageSeconds div
  rw [weightedSum_mirror, totalWeight_mirror, neg_div, round_neg, truncate_neg]

end Mirror

end ChoreRota.Cadence
