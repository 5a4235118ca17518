import Mathlib.Data.Finset.Max
import ChoreRota.Proofs.Gaps

/-!
# Rounding in an average

Weights halve from gap to gap, so that both sums of an average stay within a few times the first
weight, and after some thousand positions they vanish: all that is lost by rounding is less than the
first weight (`Tally`), and the quotient stays less than a second above the longest gap.
-/

namespace ChoreRota.Cadence

open Binary64

section OneSecond

variable {first position : Nat} {bound : Int} {sum weights : ℚ} {gap : Nat × Int}

/-- What one more gap may add to a sum by rounding, if the latest gap stands at `first`. -/
def lossPerGap (first : Nat) : ℚ :=
  9 * longestSpan / 2 ^ 53 * 2 ^ (-first : Int) + 2 ^ (-1075 : Int)

theorem lossPerGap_nonneg (first : Nat) : 0 ≤ lossPerGap first := by
  unfold lossPerGap longestSpan
  positivity

/-- The sums over the gaps before a position, where no gap is longer than so many seconds. -/
structure Tally (first : Nat) (bound : Int) (position : Nat) (sum weights : ℚ) : Prop where
  sum_isDouble : IsDouble sum
  weights_isDouble : IsDouble weights
  weights_nonneg : 0 ≤ weights
  abs_sum_le : |sum| ≤ 4 * longestSpan * (2 ^ (-first : Int) - 2 ^ (-position : Int))
  weights_le : weights ≤ 4 * (2 ^ (-first : Int) - 2 ^ (-position : Int))
  sum_le : sum ≤ bound * weights + (position - first) * lossPerGap first

theorem Tally.start (first : Nat) (bound : Int) : Tally first bound first 0 0 where
  sum_isDouble := isDouble_zero
  weights_isDouble := isDouble_zero
  weights_nonneg := le_rfl
  abs_sum_le := by simp
  weights_le := by simp
  sum_le := by simp

theorem Tally.mono {later : Nat} (htally : Tally first bound position sum weights)
    (hlater : position ≤ later) : Tally first bound later sum weights := by
  have hpower := zpow_neg_le hlater
  have hcast : (position : ℚ) ≤ later := by exact_mod_cast hlater
  have hspan : (0 : ℚ) ≤ 4 * longestSpan := by norm_num [longestSpan]
  refine ⟨htally.sum_isDouble, htally.weights_isDouble, htally.weights_nonneg, ?_, ?_, ?_⟩
  · refine htally.abs_sum_le.trans (mul_le_mul_of_nonneg_left ?_ hspan)
    linarith
  · have hweights := htally.weights_le
    linarith
  · have hloss := mul_le_mul_of_nonneg_right (sub_le_sub_right hcast (first : ℚ))
      (lossPerGap_nonneg first)
    linarith [htally.sum_le]

/-- A gap's share of the sum is off by a part of it and by half of the smallest double. -/
theorem mul_weight_bounds (hlast : gap.1 ≤ 1074) (hspan : |inSeconds gap.2| ≤ longestSpan) :
    |mul (inSeconds gap.2) (weight gap.1)| ≤ longestSpan * weight gap.1 ∧
      mul (inSeconds gap.2) (weight gap.1) ≤ inSeconds gap.2 * weight gap.1 +
        longestSpan * weight gap.1 / 2 ^ 53 + 2 ^ (-1075 : Int) := by
  have hweight := weight_nonneg gap.1
  have hsize : |inSeconds gap.2 * weight gap.1| ≤ longestSpan * weight gap.1 := by
    rw [abs_mul, abs_of_nonneg hweight]
    exact mul_le_mul_of_nonneg_right hspan hweight
  have hdouble : IsDouble (longestSpan * weight gap.1 : ℚ) := by
    rw [weight_eq_zpow hlast]
    exact ⟨longestSpan, -gap.1, by decide, by omega, rfl⟩
  have herror := le_of_abs_le (abs_round_sub_le_relative (inSeconds gap.2 * weight gap.1))
  have hpart : |inSeconds gap.2 * weight gap.1| / 2 ^ 53 ≤ longestSpan * weight gap.1 / 2 ^ 53 :=
    div_le_div_of_nonneg_right hsize (by positivity)
  refine ⟨abs_round_le hdouble hsize, ?_⟩
  unfold mul
  linarith

theorem addGap_bounds (hsum : IsDouble sum) (hlast : gap.1 ≤ 1074)
    (hspan : |inSeconds gap.2| ≤ longestSpan) :
    |addGap sum gap| ≤ |sum| + 2 * (longestSpan * weight gap.1) ∧
      addGap sum gap ≤ sum + inSeconds gap.2 * weight gap.1 +
        (|sum| + 2 * (longestSpan * weight gap.1)) / 2 ^ 53 + 2 ^ (-1075 : Int) := by
  obtain ⟨hshare, hexcess⟩ := mul_weight_bounds hlast hspan
  have hdouble : IsDouble (mul (inSeconds gap.2) (weight gap.1)) := isDouble_round _
  have hnear := abs_add_sub_le hsum (mul (inSeconds gap.2) (weight gap.1))
  have hloss := le_of_abs_le (abs_add_sub_le_relative hsum hdouble)
  have htotal := abs_add_le sum (mul (inSeconds gap.2) (weight gap.1))
  have htriangle := abs_sub_abs_le_abs_sub (addGap sum gap)
    (sum + mul (inSeconds gap.2) (weight gap.1))
  unfold addGap at *
  exact ⟨by linarith, by linarith⟩

theorem addWeight_bounds (gap : Nat × Int) (hdouble : IsDouble weights) (hweights : 0 ≤ weights) :
    weights ≤ addWeight weights gap ∧ addWeight weights gap ≤ weights + 2 * weight gap.1 ∧
      |addWeight weights gap - (weights + weight gap.1)| ≤
        (weights + weight gap.1) / 2 ^ 53 := by
  have hweight := weight_nonneg gap.1
  have hnear := le_of_abs_le (abs_add_sub_le hdouble (weight gap.1))
  have hloss := abs_add_sub_le_relative hdouble (isDouble_weight gap.1)
  rw [abs_of_nonneg hweight] at hnear
  rw [abs_of_nonneg (add_nonneg hweights hweight)] at hloss
  refine ⟨le_round hdouble (by linarith), ?_, hloss⟩
  unfold addWeight
  linarith

/-- One more gap no longer than the bound. The bounds on the sums leave room for the weights to
come, so that what rounding adds is a small part of the first weight each time. -/
theorem Tally.step (htally : Tally first bound position sum weights) (hfirst : first ≤ position)
    (hposition : position ≤ gap.1) (hlast : gap.1 ≤ 1074)
    (hspan : |inSeconds gap.2| ≤ longestSpan) (hbound : |bound| ≤ longestSpan)
    (hgap : inSeconds gap.2 ≤ bound) :
    Tally first bound (gap.1 + 1) (addGap sum gap) (addWeight weights gap) := by
  obtain ⟨hsumDouble, hweightsDouble, hweightsNonneg, hsum, hweights, hle⟩ := htally
  obtain ⟨hsumNear, hsumLoss⟩ := addGap_bounds hsumDouble hlast hspan
  obtain ⟨hrise, hweightsNear, hweightsLoss⟩ :=
    addWeight_bounds gap hweightsDouble hweightsNonneg
  have hweight := weight_nonneg gap.1
  have hlate : weight gap.1 ≤ 2 ^ (-position : Int) :=
    (weight_eq_zpow hlast).trans_le (zpow_neg_le hposition)
  have hearly := zpow_neg_le hfirst
  refine ⟨isDouble_round _, isDouble_round _, hweightsNonneg.trans hrise, ?_, ?_, ?_⟩
  · rw [zpow_neg_succ hlast]
    simp only [longestSpan_cast] at *
    linarith
  · rw [zpow_neg_succ hlast]
    linarith
  have hshare : inSeconds gap.2 * weight gap.1 ≤ bound * weight gap.1 :=
    mul_le_mul_of_nonneg_right hgap hweight
  -- What the total weight loses counts in the sum as often as the bound has seconds.
  have hcarry : bound * (weights + weight gap.1 - addWeight weights gap) ≤
      longestSpan * ((weights + weight gap.1) / 2 ^ 53) := by
    have hcast : |(bound : ℚ)| ≤ longestSpan := by exact_mod_cast hbound
    refine (le_abs_self _).trans ?_
    rw [abs_mul, abs_sub_comm]
    exact mul_le_mul hcast hweightsLoss (abs_nonneg _) ((abs_nonneg _).trans hcast)
  have hroom : ((position : ℚ) - first) * lossPerGap first + lossPerGap first ≤
      ((gap.1 + 1 : Nat) - first) * lossPerGap first := by
    have hcast : (position : ℚ) ≤ gap.1 := by exact_mod_cast hposition
    rw [← add_one_mul]
    refine mul_le_mul_of_nonneg_right ?_ (lossPerGap_nonneg first)
    push_cast
    linarith
  have hloss : (|sum| + 2 * (longestSpan * weight gap.1)) / 2 ^ 53 + 2 ^ (-1075 : Int) +
      longestSpan * ((weights + weight gap.1) / 2 ^ 53) ≤ lossPerGap first := by
    unfold lossPerGap
    simp only [longestSpan_cast] at *
    linarith
  linarith

theorem addGap_of_lt (hsum : IsDouble sum) (hfar : 1074 < gap.1) : addGap sum gap = sum := by
  unfold addGap mul add
  rw [weight_eq_zero hfar, mul_zero, round_zero, add_zero, round_eq_self hsum]

theorem addWeight_of_lt (hweights : IsDouble weights) (hfar : 1074 < gap.1) :
    addWeight weights gap = weights := by
  unfold addWeight add
  rw [weight_eq_zero hfar, add_zero, round_eq_self hweights]

theorem Tally.run {gaps : List (Nat × Int)} (htally : Tally first bound position sum weights)
    (hfirst : first ≤ position) (hposition : position ≤ 1075)
    (hsorted : gaps.Pairwise fun newer older => newer.1 < older.1)
    (hpositions : ∀ gap ∈ gaps, position ≤ gap.1) (hbound : |bound| ≤ longestSpan)
    (hgaps : ∀ gap ∈ gaps, |inSeconds gap.2| ≤ longestSpan ∧ inSeconds gap.2 ≤ bound) :
    Tally first bound 1075 (gaps.foldl addGap sum) (gaps.foldl addWeight weights) := by
  induction gaps generalizing position sum weights with
  | nil => exact htally.mono hposition
  | cons gap rest ih =>
    obtain ⟨hspan, hle⟩ := hgaps gap (.head _)
    have hrest := fun other hmem => hgaps other (.tail gap hmem)
    rw [List.pairwise_cons] at hsorted
    rw [List.foldl_cons, List.foldl_cons]
    rcases Nat.lt_or_ge 1074 gap.1 with hfar | hnear
    · rw [addGap_of_lt htally.sum_isDouble hfar, addWeight_of_lt htally.weights_isDouble hfar]
      exact ih htally hfirst hposition hsorted.2
        (fun other hmem => hpositions other (.tail gap hmem)) hrest
    · have hlater := hpositions gap (.head _)
      exact ih (htally.step hfirst hlater hnear hspan hbound hle) (by omega) (by omega) hsorted.2
        (fun other hmem => hsorted.1 other hmem) hrest

theorem le_foldl_addWeight (gaps : List (Nat × Int)) (hweights : IsDouble weights) :
    weights ≤ gaps.foldl addWeight weights := by
  induction gaps generalizing weights with
  | nil => exact le_rfl
  | cons gap rest ih =>
    have hstep : weights ≤ addWeight weights gap :=
      le_round hweights (le_add_of_nonneg_right (weight_nonneg gap.1))
    exact hstep.trans (ih (isDouble_round _))

theorem weight_le_totalWeight (gap : Nat × Int) (rest : List (Nat × Int)) :
    weight gap.1 ≤ totalWeight (gap :: rest) := by
  have hone : addWeight 0 gap = weight gap.1 := by
    unfold addWeight add
    rw [zero_add, round_eq_self (isDouble_weight _)]
  rw [totalWeight_eq, List.foldl_cons, hone]
  exact le_foldl_addWeight rest (isDouble_weight _)

/-- The losses of all positions that are left, in halves of the smallest double: one half for each,
and a small part of the first weight. -/
theorem scaled_loss_le {left : Nat} (hleft : left ≤ 1074) :
    ((left : ℚ) + 1) * (9 * 640000000000 / 2 ^ 53 * (2 * 2 ^ left) + 1) ≤
      9 / 10 * (2 * 2 ^ left) := by
  -- The halves come to half of the first weight where few positions are left, and to an eighth of
  -- it where the small parts add up.
  rcases Nat.lt_or_ge left 600 with hfew | hmany
  · have hbound : (left : ℚ) + 1 ≤ 600 := by exact_mod_cast hfew
    have hproduct := mul_le_mul_of_nonneg_right hbound (by positivity : (0 : ℚ) ≤ 2 ^ left)
    have hhalf : (left : ℚ) + 1 ≤ 2 ^ left := by exact_mod_cast Nat.lt_two_pow_self
    linarith
  · obtain ⟨rest, rfl⟩ := Nat.exists_eq_add_of_le' (show 3 ≤ left by omega)
    have hbound : ((rest + 3 : Nat) : ℚ) + 1 ≤ 1075 := by
      exact_mod_cast (show rest + 3 + 1 ≤ 1075 by omega)
    have hproduct := mul_le_mul_of_nonneg_right hbound
      (by positivity : (0 : ℚ) ≤ 2 ^ (rest + 3))
    have heighth : (rest + 1 : ℚ) ≤ 2 ^ rest := by exact_mod_cast Nat.lt_two_pow_self
    have hrest : (597 : ℚ) ≤ rest := by exact_mod_cast (show 597 ≤ rest by omega)
    rw [pow_add] at *
    push_cast at hproduct ⊢
    linarith

theorem mul_lossPerGap_le (hfirst : first ≤ 1074) :
    (1075 - first) * lossPerGap first ≤ 9 / 10 * 2 ^ (-first : Int) := by
  obtain ⟨left, hleft⟩ := Nat.le.dest hfirst
  have hcount : (1075 - first : ℚ) = left + 1 := by
    have hcast : (first + left : ℚ) = 1074 := by exact_mod_cast hleft
    linarith
  have hfirstWeight : (2 : ℚ) ^ (-first : Int) = 2 * 2 ^ left * 2 ^ (-1075 : Int) := by
    rw [← pow_succ', ← zpow_natCast, ← zpow_add₀ two_ne_zero]
    congr 1
    push_cast
    omega
  have hsmallest : (0 : ℚ) ≤ 2 ^ (-1075 : Int) := by positivity
  have hproduct :=
    mul_le_mul_of_nonneg_right (scaled_loss_le (show left ≤ 1074 by omega)) hsmallest
  unfold lossPerGap
  rw [longestSpan_cast, hfirstWeight, hcount]
  generalize (2 : ℚ) ^ (-1075 : Int) = smallest at *
  linarith

theorem Tally.div_lt (htally : Tally first bound 1075 sum weights) (hfirst : first ≤ 1074)
    (hweights : 2 ^ (-first : Int) ≤ weights) : div sum weights < bound + 1 := by
  have hfirstWeight : (0 : ℚ) < 2 ^ (-first : Int) := by positivity
  have hpos : 0 < weights := hfirstWeight.trans_le hweights
  have hlast : (0 : ℚ) ≤ 2 ^ (-(1075 : Nat) : Int) := by positivity
  have hquotient : sum / weights ≤ bound + 9 / 10 := by
    rw [div_le_iff₀ hpos]
    have hloss := mul_lossPerGap_le hfirst
    have hsum := htally.sum_le
    push_cast at hsum
    linarith
  have hsize : |sum / weights| ≤ 4 * longestSpan := by
    rw [abs_div, abs_of_pos hpos, div_le_iff₀ hpos]
    have hsum := htally.abs_sum_le
    rw [longestSpan_cast] at *
    linarith
  have hsmallest : (2 : ℚ) ^ (-1075 : Int) ≤ 1 / 100 := by
    calc (2 : ℚ) ^ (-1075 : Int) ≤ 2 ^ (-7 : Int) := zpow_le_zpow_right₀ one_le_two (by norm_num)
      _ ≤ 1 / 100 := by norm_num
  have hround := le_of_abs_le (abs_round_sub_le_relative (sum / weights))
  rw [longestSpan_cast] at hsize
  unfold div
  linarith

end OneSecond

/-- Gaps as a history leaves them: at growing positions, and none longer than the calendar. -/
structure WellSpaced (gaps : List (Nat × Int)) : Prop where
  sorted : gaps.Pairwise fun newer older => newer.1 < older.1
  span : ∀ gap ∈ gaps, |gap.2| < seconds longestSpan

theorem wellSpaced_gaps {completed : Moment} {history : List HistoryRow}
    (hclocks : ∀ row ∈ history, ∀ performed ∈ row.performedAt, IsClockOffset performed.offset) :
    WellSpaced (gaps completed history) :=
  ⟨pairwise_gapsFrom _ _, fun _ hgap => abs_gap_lt hclocks hgap⟩

theorem WellSpaced.mirrored {gaps : List (Nat × Int)} (hspaced : WellSpaced gaps) :
    WellSpaced (mirror gaps) := by
  refine ⟨?_, ?_⟩
  · exact List.pairwise_map.2 hspaced.sorted
  · intro gap hgap
    rw [← abs_neg]
    exact hspaced.span _ (mem_mirror.1 hgap)

section Average

variable {gaps : List (Nat × Int)} {first : Nat × Int} {rest : List (Nat × Int)}

theorem WellSpaced.first_le (hspaced : WellSpaced (first :: rest)) {gap : Nat × Int}
    (hgap : gap ∈ first :: rest) : first.1 ≤ gap.1 := by
  rcases List.mem_cons.1 hgap with rfl | hmem
  · exact le_rfl
  · exact ((List.pairwise_cons.1 hspaced.sorted).1 gap hmem).le

theorem WellSpaced.quotient_lt {bound : Int} (hspaced : WellSpaced gaps)
    (hrecent : ∃ gap ∈ gaps, gap.1 ≤ 1074) (hbound : |bound| ≤ longestSpan)
    (hgaps : ∀ gap ∈ gaps, gap.2 ≤ seconds bound) :
    div (weightedSum gaps) (totalWeight gaps) < bound + 1 := by
  obtain ⟨recent, hrecent, hnear⟩ := hrecent
  cases gaps with
  | nil => cases hrecent
  | cons first rest =>
    have hfirst : first.1 ≤ 1074 := (hspaced.first_le hrecent).trans hnear
    have htally : Tally first.1 bound 1075 (weightedSum (first :: rest))
        (totalWeight (first :: rest)) := by
      refine (Tally.start first.1 bound).run le_rfl (by omega) hspaced.sorted
        (fun _ => hspaced.first_le) hbound ?_
      intro gap hgap
      have hspan := hspaced.span gap hgap
      exact ⟨abs_inSeconds_le hspan, inSeconds_le_of_le hspan hbound (hgaps gap hgap)⟩
    have hweight := weight_le_totalWeight first rest
    rw [weight_eq_zpow hfirst] at hweight
    exact htally.div_lt hfirst hweight

theorem foldl_addGap_of_lt {sum : ℚ} (hsum : IsDouble sum) (hfar : ∀ gap ∈ gaps, 1074 < gap.1) :
    gaps.foldl addGap sum = sum := by
  induction gaps with
  | nil => rfl
  | cons gap rest ih =>
    rw [List.foldl_cons, addGap_of_lt hsum (hfar gap (.head _))]
    exact ih fun other hmem => hfar other (.tail gap hmem)

theorem averageSeconds_eq_zero (hfar : ∀ gap ∈ gaps, 1074 < gap.1) : averageSeconds gaps = 0 := by
  unfold averageSeconds div
  rw [weightedSum_eq, foldl_addGap_of_lt isDouble_zero hfar, zero_div, round_zero]
  rfl

theorem exists_greatest (hgaps : gaps ≠ []) :
    ∃ gap ∈ gaps, ∀ other ∈ gaps, wholeSeconds other.2 ≤ wholeSeconds gap.2 := by
  have hnonempty : gaps.toFinset.Nonempty := List.toFinset_nonempty_iff gaps |>.2 hgaps
  obtain ⟨greatest, hmem, hgreatest⟩ :=
    Finset.exists_max_image gaps.toFinset (fun gap => wholeSeconds gap.2) hnonempty
  exact ⟨greatest, List.mem_toFinset.1 hmem,
    fun other hother => hgreatest other (List.mem_toFinset.2 hother)⟩

theorem WellSpaced.averageSeconds_le_succ (hspaced : WellSpaced gaps)
    (hrecent : ∃ gap ∈ gaps, gap.1 ≤ 1074) :
    ∃ gap ∈ gaps, averageSeconds gaps ≤ wholeSeconds gap.2 + 1 := by
  have hne : gaps ≠ [] := by
    rintro rfl
    obtain ⟨gap, hgap, -⟩ := hrecent
    cases hgap
  obtain ⟨greatest, hmem, hgreatest⟩ := exists_greatest hne
  have hmost := abs_wholeSeconds_lt (hspaced.span greatest hmem)
  refine ⟨greatest, hmem, ?_⟩
  rcases le_or_gt 0 (wholeSeconds greatest.2) with hpos | hneg
  · have hbound : |wholeSeconds greatest.2 + 1| ≤ longestSpan := by
      rw [abs_lt] at hmost
      rw [abs_le]
      omega
    refine truncate_le_of_lt (by omega) (hspaced.quotient_lt hrecent hbound ?_)
    exact fun gap hgap => (le_seconds_of_wholeSeconds_le (hgreatest gap hgap)).2.le
  · have hquotient := hspaced.quotient_lt hrecent hmost.le fun gap hgap =>
      (le_seconds_of_wholeSeconds_le (hgreatest gap hgap)).1 hneg
    exact truncate_le (by exact_mod_cast hquotient.le)

theorem mirror_isRecent (hrecent : ∃ gap ∈ gaps, gap.1 ≤ 1074) :
    ∃ gap ∈ mirror gaps, gap.1 ≤ 1074 := by
  obtain ⟨gap, hgap, hnear⟩ := hrecent
  exact ⟨(gap.1, -gap.2), mem_mirror.2 (by rwa [neg_neg]), hnear⟩

theorem WellSpaced.le_averageSeconds_succ (hspaced : WellSpaced gaps)
    (hrecent : ∃ gap ∈ gaps, gap.1 ≤ 1074) :
    ∃ gap ∈ gaps, wholeSeconds gap.2 ≤ averageSeconds gaps + 1 := by
  obtain ⟨gap, hgap, hle⟩ := hspaced.mirrored.averageSeconds_le_succ (mirror_isRecent hrecent)
  refine ⟨_, mem_mirror.1 hgap, ?_⟩
  rw [averageSeconds_mirror] at hle
  rw [wholeSeconds_neg]
  omega

theorem WellSpaced.averageSeconds_le_of_period {period : Int} (hspaced : WellSpaced gaps)
    (hrecent : ∃ gap ∈ gaps, gap.1 ≤ 1074) (hperiod : ∀ gap ∈ gaps, gap.2 = seconds period)
    (hpos : 0 ≤ period) : averageSeconds gaps ≤ period := by
  have hbound : |period| ≤ longestSpan := by
    obtain ⟨gap, hgap, -⟩ := hrecent
    have hspan := hspaced.span gap hgap
    rw [hperiod gap hgap, abs_lt] at hspan
    rw [abs_le]
    unfold seconds at hspan
    omega
  refine truncate_le_of_lt hpos (hspaced.quotient_lt hrecent hbound ?_)
  exact fun gap hgap => (hperiod gap hgap).le

theorem WellSpaced.averageSeconds_of_period {period : Int} (hspaced : WellSpaced gaps)
    (hrecent : ∃ gap ∈ gaps, gap.1 ≤ 1074) (hperiod : ∀ gap ∈ gaps, gap.2 = seconds period) :
    averageSeconds gaps = period ∨ |averageSeconds gaps| + 1 = |period| := by
  have hwhole : ∀ gap ∈ gaps, wholeSeconds gap.2 = period := by
    intro gap hgap
    rw [hperiod gap hgap]
    exact Int.mul_tdiv_cancel _ (by decide)
  have hmirror : ∀ gap ∈ mirror gaps, gap.2 = seconds (-period) := by
    intro gap hgap
    have hgap := hperiod _ (mem_mirror.1 hgap)
    unfold seconds at *
    omega
  obtain ⟨high, hhigh, hupper⟩ := hspaced.averageSeconds_le_succ hrecent
  obtain ⟨low, hlow, hlower⟩ := hspaced.le_averageSeconds_succ hrecent
  rw [hwhole high hhigh] at hupper
  rw [hwhole low hlow] at hlower
  have hpos := hspaced.averageSeconds_le_of_period hrecent hperiod
  have hneg := hspaced.mirrored.averageSeconds_le_of_period (mirror_isRecent hrecent) hmirror
  rw [averageSeconds_mirror] at hneg
  rw [Int.abs_eq_natAbs, Int.abs_eq_natAbs]
  omega

end Average

end ChoreRota.Cadence
