import ChoreRota.Proofs.RoundedAverage
import ChoreRota.Proofs.Schedule

/-!
# The average gap

In doubles the average of the gaps is one up to a second. It is one to the second where the weights'
sums and their products with a bound have room in the digits of a double: then no step rounds a sum
past the bound (`ExactTally`), and neither does the division.
-/

namespace ChoreRota.Cadence

open Binary64

section Exact

variable {first last position : Nat} {bound sum weights : ℚ} {gap : Nat × Int}

/-- What weights from a first to a last position can add up to. -/
structure IsWeightSum (first last : Nat) (weights : ℚ) : Prop where
  nonneg : 0 ≤ weights
  le : weights ≤ 2 * 2 ^ (-first : Int)
  isMultiple : ∃ count : Int, weights = count * 2 ^ (-last : Int)

/-- A bound by which every sum of such weights can be multiplied in doubles. -/
def IsExactBound (first last : Nat) (bound : ℚ) : Prop :=
  ∀ weights, IsWeightSum first last weights → IsDouble weights ∧ IsDouble (bound * weights)

theorem isWeightSum_weight (hfirst : first ≤ position) (hlast : position ≤ last)
    (hdepth : last ≤ 1074) : IsWeightSum first last (weight position) := by
  have hearly := zpow_neg_le hfirst
  have hpos : (0 : ℚ) < 2 ^ (-first : Int) := by positivity
  obtain ⟨count, hcount⟩ := exists_eq_mul_zpow 1 (show -(last : Int) ≤ -position by omega)
  rw [Int.cast_one, one_mul] at hcount
  refine ⟨weight_nonneg position, ?_, count, ?_⟩
  · rw [weight_eq_zpow (by omega)]
    linarith
  · rw [weight_eq_zpow (by omega), hcount]

/-- The sums over the gaps before a position, none longer than the bound, with nothing lost. -/
structure ExactTally (first last : Nat) (bound : ℚ) (position : Nat) (sum weights : ℚ) :
    Prop where
  isWeightSum : IsWeightSum first last weights
  weights_le : weights ≤ 2 * (2 ^ (-first : Int) - 2 ^ (-position : Int))
  sum_le : sum ≤ bound * weights

theorem ExactTally.start (first last : Nat) (bound : ℚ) :
    ExactTally first last bound first 0 0 where
  isWeightSum := ⟨le_rfl, by positivity, 0, by simp⟩
  weights_le := by simp
  sum_le := by simp

theorem ExactTally.step (htally : ExactTally first last bound position sum weights)
    (hexact : IsExactBound first last bound) (hfirst : first ≤ position)
    (hposition : position ≤ gap.1) (hlast : gap.1 ≤ last) (hdepth : last ≤ 1074)
    (hgap : inSeconds gap.2 ≤ bound) :
    ExactTally first last bound (gap.1 + 1) (addGap sum gap) (addWeight weights gap) := by
  obtain ⟨⟨hnonneg, hle, count, hcount⟩, hweights, hsum⟩ := htally
  have hone : IsWeightSum first last (weight gap.1) :=
    isWeightSum_weight (hfirst.trans hposition) hlast hdepth
  have hlate : weight gap.1 ≤ 2 ^ (-position : Int) :=
    (weight_eq_zpow (hlast.trans hdepth)).trans_le (zpow_neg_le hposition)
  have htotal : IsWeightSum first last (weights + weight gap.1) := by
    obtain ⟨step, hstep⟩ := hone.isMultiple
    refine ⟨add_nonneg hnonneg hone.nonneg, by linarith [hone.nonneg], count + step, ?_⟩
    rw [hcount, hstep, Int.cast_add, add_mul]
  have hadd : addWeight weights gap = weights + weight gap.1 :=
    round_eq_self (hexact _ htotal).1
  have hshare : mul (inSeconds gap.2) (weight gap.1) ≤ bound * weight gap.1 :=
    round_le (hexact _ hone).2 (mul_le_mul_of_nonneg_right hgap hone.nonneg)
  rw [hadd]
  refine ⟨htotal, ?_, round_le (hexact _ htotal).2 ?_⟩
  · rw [zpow_neg_succ (hlast.trans hdepth)]
    linarith
  · rw [mul_add]
    exact add_le_add hsum hshare

theorem ExactTally.run {gaps : List (Nat × Int)}
    (htally : ExactTally first last bound position sum weights)
    (hexact : IsExactBound first last bound) (hfirst : first ≤ position) (hdepth : last ≤ 1074)
    (hsorted : gaps.Pairwise fun newer older => newer.1 < older.1)
    (hpositions : ∀ gap ∈ gaps, position ≤ gap.1 ∧ gap.1 ≤ last)
    (hgaps : ∀ gap ∈ gaps, inSeconds gap.2 ≤ bound) :
    gaps.foldl addGap sum ≤ bound * gaps.foldl addWeight weights := by
  induction gaps generalizing position sum weights with
  | nil => exact htally.sum_le
  | cons gap rest ih =>
    obtain ⟨hlater, hlast⟩ := hpositions gap (.head _)
    rw [List.pairwise_cons] at hsorted
    refine ih (htally.step hexact hfirst hlater hlast hdepth (hgaps gap (.head _))) (by omega)
      hsorted.2 ?_ (fun other hmem => hgaps other (.tail gap hmem))
    exact fun other hmem => ⟨hsorted.1 other hmem, (hpositions other (.tail gap hmem)).2⟩

end Exact

/-- Gaps that can be averaged without leaving them: their positions lie close together and not too
far back, they are short enough for the digits of a double, and none of them comes nearer to its
next whole second than the last of the bits after the point. -/
structure FitsDoubles (gaps : List (Nat × Int)) (first spread bits : Nat) : Prop where
  position : ∀ gap ∈ gaps, first ≤ gap.1 ∧ gap.1 ≤ first + spread
  depth : first + spread + bits ≤ 1074
  fraction : ∀ gap ∈ gaps,
    (gap.2.tmod 1000000000).natAbs * 2 ^ bits + 1000000000 ≤ 1000000000 * 2 ^ bits
  length : ∀ gap ∈ gaps, ((wholeSeconds gap.2).natAbs + 1) * 2 ^ (bits + spread + 1) ≤ 2 ^ 53

section Reach

variable {most whole : Int} {bits spread : Nat}

/-- In units of a second's binary fraction, the most that is cut off to so many whole seconds. -/
def reach (bits : Nat) (most : Int) : Int :=
  if 0 ≤ most then (most + 1) * 2 ^ bits - 1 else most * 2 ^ bits

theorem abs_reach_le (bits : Nat) (most : Int) : |reach bits most| ≤ (|most| + 1) * 2 ^ bits := by
  have hpower : (1 : Int) ≤ 2 ^ bits := one_le_pow₀ (by decide)
  unfold reach
  split
  · rename_i hpos
    have hproduct : 0 ≤ most * 2 ^ bits := mul_nonneg hpos (by omega)
    rw [abs_of_nonneg hpos, abs_of_nonneg] <;> linarith
  · rw [abs_mul, abs_of_nonneg (by omega : (0 : Int) ≤ 2 ^ bits), add_one_mul]
    omega

theorem pow_mul_zpow_neg (bits : Nat) : (2 : ℚ) ^ bits * 2 ^ (-bits : Int) = 1 := by
  rw [← zpow_natCast, ← zpow_add₀ two_ne_zero, add_neg_cancel, zpow_zero]

theorem isDouble_mul_zpow {digits : Int} {exponent : Nat} (hdigits : |digits| ≤ 2 ^ 53)
    (hexponent : exponent ≤ 1074) : IsDouble (digits * 2 ^ (-exponent : Int)) :=
  ⟨digits, -exponent, hdigits, by omega, rfl⟩

/-- The last weight goes into such a sum a whole number of times, told by as many bits as there are
positions. -/
theorem IsWeightSum.exists_count {first : Nat} {weights : ℚ}
    (hweights : IsWeightSum first (first + spread) weights) :
    ∃ count : Int, |count| ≤ 2 ^ (spread + 1) ∧
      weights = count * 2 ^ (-(first + spread : Nat) : Int) := by
  obtain ⟨hnonneg, hle, count, rfl⟩ := hweights
  have hunit : (0 : ℚ) < 2 ^ (-(first + spread : Nat) : Int) := by positivity
  have hscale : (2 : ℚ) * 2 ^ (-first : Int) =
      2 ^ (spread + 1) * 2 ^ (-(first + spread : Nat) : Int) := by
    rw [← zpow_natCast, ← zpow_add₀ two_ne_zero, ← zpow_one_add₀ two_ne_zero]
    congr 1
    push_cast
    ring
  rw [hscale] at hle
  have hcountNonneg : (0 : ℚ) ≤ count := nonneg_of_mul_nonneg_left hnonneg hunit
  have hcountLe : (count : ℚ) ≤ 2 ^ (spread + 1) := le_of_mul_le_mul_right hle hunit
  refine ⟨count, ?_, rfl⟩
  rw [abs_of_nonneg (by exact_mod_cast hcountNonneg)]
  exact_mod_cast hcountLe

theorem isExactBound_reach {first : Nat} (hdepth : first + spread + bits ≤ 1074)
    (hlength : (|most| + 1) * 2 ^ (bits + spread + 1) ≤ 2 ^ 53) :
    IsExactBound first (first + spread) (reach bits most * 2 ^ (-bits : Int)) := by
  intro weights hweights
  obtain ⟨count, habs, rfl⟩ := hweights.exists_count
  have hproduct : |reach bits most * count| ≤ 2 ^ 53 := by
    calc |reach bits most * count| = |reach bits most| * |count| := abs_mul _ _
      _ ≤ (|most| + 1) * 2 ^ bits * 2 ^ (spread + 1) :=
          mul_le_mul (abs_reach_le bits most) habs (abs_nonneg _) (by positivity)
      _ = (|most| + 1) * 2 ^ (bits + spread + 1) := by ring
      _ ≤ 2 ^ 53 := hlength
  have hdigits : (2 : Int) ^ (spread + 1) ≤ 2 ^ 53 := by
    calc (2 : Int) ^ (spread + 1) ≤ 2 ^ (bits + spread + 1) :=
          pow_le_pow_right₀ one_le_two (by omega)
      _ ≤ (|most| + 1) * 2 ^ (bits + spread + 1) :=
          le_mul_of_one_le_left (by positivity) (by linarith [abs_nonneg most])
      _ ≤ 2 ^ 53 := hlength
  have hexponents : (2 : ℚ) ^ (-(first + spread + bits : Nat) : Int) =
      2 ^ (-bits : Int) * 2 ^ (-(first + spread : Nat) : Int) := by
    rw [← zpow_add₀ two_ne_zero]
    congr 1
    push_cast
    ring
  constructor
  · exact isDouble_mul_zpow (habs.trans hdigits) (by omega)
  · have hdouble := isDouble_mul_zpow hproduct hdepth
    rw [hexponents, Int.cast_mul] at hdouble
    rwa [mul_mul_mul_comm]

/-- In whole units of the fraction: a gap with fewer whole seconds is short of the bound by them,
and one with as many by its own fraction. -/
theorem mul_le_reach {nanos : Int} (hle : wholeSeconds nanos ≤ most)
    (hfraction : (nanos.tmod 1000000000).natAbs * 2 ^ bits + 1000000000 ≤ 1000000000 * 2 ^ bits) :
    nanos * 2 ^ bits ≤ reach bits most * 1000000000 := by
  have hpower : (1 : Int) ≤ 2 ^ bits := one_le_pow₀ (by decide)
  have hfraction : |nanos.tmod 1000000000| * 2 ^ bits + 1000000000 ≤ 1000000000 * 2 ^ bits := by
    rw [Int.abs_eq_natAbs]
    exact_mod_cast hfraction
  have hsum := wholeSeconds_add_fraction nanos
  obtain ⟨hbelow, -⟩ := le_seconds_of_wholeSeconds_le hle
  unfold reach
  split
  · rcases hle.eq_or_lt with heq | hlt
    · have hpart := mul_le_mul_of_nonneg_right (le_abs_self (nanos.tmod 1000000000))
        (by omega : (0 : Int) ≤ 2 ^ bits)
      rw [heq] at hsum
      rw [← hsum]
      linarith
    · obtain ⟨-, hnext⟩ := le_seconds_of_wholeSeconds_le (Int.le_sub_one_of_lt hlt)
      rw [sub_add_cancel] at hnext
      have hproduct := mul_le_mul_of_nonneg_right hnext.le (by omega : (0 : Int) ≤ 2 ^ bits)
      unfold seconds at hproduct
      linarith
  · have hproduct := mul_le_mul_of_nonneg_right (hbelow (by omega))
      (by omega : (0 : Int) ≤ 2 ^ bits)
    unfold seconds at hproduct
    linarith

theorem inSeconds_le_reach {nanos : Int} (hspan : |nanos| < seconds longestSpan)
    (hdepth : bits ≤ 1074) (hle : wholeSeconds nanos ≤ most)
    (hfraction : (nanos.tmod 1000000000).natAbs * 2 ^ bits + 1000000000 ≤ 1000000000 * 2 ^ bits)
    (hlength : (|wholeSeconds nanos| + 1) * 2 ^ (bits + 1) ≤ 2 ^ 53)
    (hmost : (|most| + 1) * 2 ^ (bits + 1) ≤ 2 ^ 53) :
    inSeconds nanos ≤ reach bits most * 2 ^ (-bits : Int) := by
  have hpower : (1 : Int) ≤ 2 ^ bits := one_le_pow₀ (by decide)
  have hreach := abs_reach_le bits most
  rw [pow_succ] at hlength hmost
  have hwhole : |wholeSeconds nanos * 2 ^ bits| = |wholeSeconds nanos| * 2 ^ bits := by
    rw [abs_mul, abs_of_nonneg (by omega : (0 : Int) ≤ 2 ^ bits)]
  refine inSeconds_le hspan (isDouble_mul_zpow (by linarith) hdepth) ?_ ?_
  · have hdigits : |reach bits most - wholeSeconds nanos * 2 ^ bits| ≤ 2 ^ 53 := by
      have htriangle := abs_sub (reach bits most) (wholeSeconds nanos * 2 ^ bits)
      linarith
    have hdouble := isDouble_mul_zpow hdigits hdepth
    rwa [Int.cast_sub, sub_mul, Int.cast_mul, Int.cast_pow, Int.cast_ofNat, mul_assoc,
      pow_mul_zpow_neg, mul_one] at hdouble
  · have hcast : (nanos : ℚ) * 2 ^ bits ≤ reach bits most * 1000000000 := by
      exact_mod_cast mul_le_reach hle hfraction
    calc (nanos : ℚ) = nanos * 2 ^ bits * 2 ^ (-bits : Int) := by
          rw [mul_assoc, pow_mul_zpow_neg, mul_one]
      _ ≤ reach bits most * 1000000000 * 2 ^ (-bits : Int) :=
          mul_le_mul_of_nonneg_right hcast (by positivity)
      _ = reach bits most * 2 ^ (-bits : Int) * 1000000000 := mul_right_comm _ _ _

theorem truncate_le_of_le_reach {value : ℚ} (hle : value ≤ reach bits most * 2 ^ (-bits : Int)) :
    truncate value ≤ most := by
  have hpos : (0 : ℚ) < 2 ^ (-bits : Int) := by positivity
  unfold reach at hle
  split at hle
  · rename_i hmost
    refine truncate_le_of_lt hmost (hle.trans_lt ?_)
    rw [Int.cast_sub, sub_mul, Int.cast_mul, Int.cast_pow, Int.cast_ofNat, mul_assoc,
      pow_mul_zpow_neg]
    push_cast
    linarith
  · refine truncate_le (hle.trans_eq ?_)
    rw [Int.cast_mul, Int.cast_pow, Int.cast_ofNat, mul_assoc, pow_mul_zpow_neg, mul_one]

end Reach

section Bounds

variable {gaps : List (Nat × Int)} {first spread bits : Nat}

theorem FitsDoubles.mirrored (hfits : FitsDoubles gaps first spread bits) :
    FitsDoubles (mirror gaps) first spread bits := by
  refine ⟨fun gap hgap => ?_, hfits.depth, ?_, ?_⟩
  · exact hfits.position (gap.1, -gap.2) (mem_mirror.1 hgap)
  · intro gap hgap
    have hfraction := hfits.fraction _ (mem_mirror.1 hgap)
    rwa [Int.neg_tmod, Int.natAbs_neg] at hfraction
  · intro gap hgap
    have hlength := hfits.length _ (mem_mirror.1 hgap)
    rwa [wholeSeconds_neg, Int.natAbs_neg] at hlength

theorem FitsDoubles.abs_length_le (hfits : FitsDoubles gaps first spread bits) {gap : Nat × Int}
    (hgap : gap ∈ gaps) : (|wholeSeconds gap.2| + 1) * 2 ^ (bits + spread + 1) ≤ 2 ^ 53 := by
  rw [Int.abs_eq_natAbs]
  exact_mod_cast hfits.length gap hgap

theorem FitsDoubles.abs_length_le_of_spread (hfits : FitsDoubles gaps first spread bits)
    {gap : Nat × Int} (hgap : gap ∈ gaps) :
    (|wholeSeconds gap.2| + 1) * 2 ^ (bits + 1) ≤ 2 ^ 53 := by
  refine le_trans ?_ (hfits.abs_length_le hgap)
  exact mul_le_mul_of_nonneg_left (pow_le_pow_right₀ one_le_two (by omega)) (by positivity)

theorem WellSpaced.quotient_le_of_fits (hspaced : WellSpaced gaps)
    (hfits : FitsDoubles gaps first spread bits) {greatest : Nat × Int} (hmem : greatest ∈ gaps)
    (hgreatest : ∀ other ∈ gaps, wholeSeconds other.2 ≤ wholeSeconds greatest.2) :
    div (weightedSum gaps) (totalWeight gaps) ≤
      reach bits (wholeSeconds greatest.2) * 2 ^ (-bits : Int) := by
  have hdepth := hfits.depth
  have hmost := hfits.abs_length_le_of_spread hmem
  have hdigits : |reach bits (wholeSeconds greatest.2)| ≤ 2 ^ 53 := by
    have hreach := abs_reach_le bits (wholeSeconds greatest.2)
    have hpower : (0 : Int) < 2 ^ bits := by positivity
    have hproduct := mul_nonneg (abs_nonneg (wholeSeconds greatest.2)) hpower.le
    rw [pow_succ] at hmost
    linarith
  have hsums : weightedSum gaps ≤
      reach bits (wholeSeconds greatest.2) * 2 ^ (-bits : Int) * totalWeight gaps := by
    refine (ExactTally.start first (first + spread) _).run
      (isExactBound_reach hdepth (hfits.abs_length_le hmem)) le_rfl (by omega) hspaced.sorted
      hfits.position ?_
    intro gap hgap
    exact inSeconds_le_reach (hspaced.span gap hgap) (by omega) (hgreatest gap hgap)
      (hfits.fraction gap hgap) (hfits.abs_length_le_of_spread hgap) hmost
  have hpos : 0 < totalWeight gaps := by
    cases gaps with
    | nil => cases hmem
    | cons latest rest =>
      have hlatest := hfits.position latest (.head _)
      refine lt_of_lt_of_le ?_ (weight_le_totalWeight latest rest)
      rw [weight_eq_zpow (by omega)]
      positivity
  exact round_le (isDouble_mul_zpow hdigits (by omega)) ((div_le_iff₀ hpos).2 hsums)

theorem WellSpaced.averageSeconds_le_of_fits (hspaced : WellSpaced gaps) (hgaps : gaps ≠ [])
    (hfits : FitsDoubles gaps first spread bits) :
    ∃ gap ∈ gaps, averageSeconds gaps ≤ wholeSeconds gap.2 := by
  obtain ⟨greatest, hmem, hgreatest⟩ := exists_greatest hgaps
  exact ⟨greatest, hmem,
    truncate_le_of_le_reach (hspaced.quotient_le_of_fits hfits hmem hgreatest)⟩

/-- Between the least and the greatest of the gaps in whole seconds, or outside by some slack at
most. -/
def IsWithin (slack : Int) (gaps : List (Nat × Int)) (average : Int) : Prop :=
  (∃ gap ∈ gaps, wholeSeconds gap.2 ≤ average + slack) ∧
    ∃ gap ∈ gaps, average ≤ wholeSeconds gap.2 + slack

theorem WellSpaced.isWithin_of_fits (hspaced : WellSpaced gaps) (hgaps : gaps ≠ [])
    (hfits : FitsDoubles gaps first spread bits) : IsWithin 0 gaps (averageSeconds gaps) := by
  have hmirror : mirror gaps ≠ [] := by
    unfold mirror
    rwa [ne_eq, List.map_eq_nil_iff]
  obtain ⟨low, hlow, hlower⟩ := hspaced.mirrored.averageSeconds_le_of_fits hmirror hfits.mirrored
  obtain ⟨high, hhigh, hupper⟩ := hspaced.averageSeconds_le_of_fits hgaps hfits
  rw [averageSeconds_mirror] at hlower
  refine ⟨⟨_, mem_mirror.1 hlow, ?_⟩, high, hhigh, by omega⟩
  rw [wholeSeconds_neg]
  omega

end Bounds

theorem fitsDoubles_of_length_le {completed : Moment} {history : List HistoryRow}
    (hclocks : ∀ row ∈ history, ∀ performed ∈ row.performedAt, IsClockOffset performed.offset)
    (hlength : history.length ≤ 13)
    (hwhole : ∀ gap ∈ gaps completed history, gap.2 = seconds (wholeSeconds gap.2)) :
    FitsDoubles (gaps completed history) 0 12 0 := by
  refine ⟨?_, by decide, ?_, ?_⟩
  · intro gap hgap
    have hposition := position_of_mem_gapsFrom hgap
    rw [List.length_cons, List.length_map] at hposition
    omega
  · intro gap hgap
    have hsum := wholeSeconds_add_fraction gap.2
    have hgap := hwhole gap hgap
    unfold seconds at hgap
    omega
  · intro gap hgap
    have hsize := abs_wholeSeconds_lt (abs_gap_lt hclocks hgap)
    rw [Int.abs_eq_natAbs] at hsize
    unfold longestSpan at hsize
    omega

/-- Averaging the gaps in doubles. Where one of the gaps still has a weight, the average in whole
seconds leaves the gaps by a second at most, and one period over and over comes out as itself or a
second nearer to zero; gaps that all stand too far back average to nothing. Gaps whose sums fit the
digits of a double, as in any history of up to 13 rows that are whole seconds apart, are not left at
all. -/
theorem nextDue_within_gaps {priorDue : Option Timestamp} {completedAt : Timestamp}
    {completed : Moment} {history : List HistoryRow}
    (hcompleted : completedAt.toUtc? = some completed)
    (hclocks : ∀ row ∈ history, ∀ performed ∈ row.performedAt, IsClockOffset performed.offset)
    (hgaps : gaps completed history ≠ []) :
    ∃ average, nextDue priorDue completedAt history = .ok (completed.shift? (seconds average)) ∧
      (∀ next, nextDue priorDue completedAt history = .ok (some next) →
        next.nanos = completed.nanos + seconds average) ∧
      ((∃ gap ∈ gaps completed history, gap.1 ≤ 1074) →
        IsWithin 1 (gaps completed history) average ∧
          ∀ period, (∀ gap ∈ gaps completed history, gap.2 = seconds period) →
            average = period ∨ |average| + 1 = |period|) ∧
      ((∀ gap ∈ gaps completed history, 1074 < gap.1) → average = 0) ∧
      (∀ first spread bits, FitsDoubles (gaps completed history) first spread bits →
        IsWithin 0 (gaps completed history) average) ∧
      (history.length ≤ 13 →
        (∀ gap ∈ gaps completed history, gap.2 = seconds (wholeSeconds gap.2)) →
          IsWithin 0 (gaps completed history) average) := by
  have hspaced : WellSpaced (gaps completed history) := wellSpaced_gaps hclocks
  have hdue : nextDue priorDue completedAt history =
      .ok (completed.shift? (seconds (averageSeconds (gaps completed history)))) := by
    simp only [nextDue, hcompleted, nextAfter]
  refine ⟨averageSeconds (gaps completed history), hdue, ?_, ?_, averageSeconds_eq_zero, ?_, ?_⟩
  · intro next hnext
    rw [hdue] at hnext
    exact Moment.shift?_eq_some_iff.1 (Except.ok.inj hnext)
  · intro hrecent
    exact ⟨⟨hspaced.le_averageSeconds_succ hrecent, hspaced.averageSeconds_le_succ hrecent⟩,
      fun period hperiod => hspaced.averageSeconds_of_period hrecent hperiod⟩
  · intro first spread bits hfits
    exact hspaced.isWithin_of_fits hgaps hfits
  · intro hlength hwhole
    exact hspaced.isWithin_of_fits hgaps (fitsDoubles_of_length_le hclocks hlength hwhole)

/-- The days before the tenth of March 2025 on each of which the lamp was filled, latest first. -/
def lampHistory (count : Nat) : List HistoryRow :=
  (List.range count).map fun index =>
    { choreId := 36
      performedAt :=
        ((timeOf "2025-03-10T08:00:00Z").wall.shift? (-days (index + 1))).map Timestamp.ofUtc
      dueDate := none
      completedBy := some 1
      assignedTo := some 1
      note := none
      status := .completed }

theorem lamp_is_filled_daily :
    gaps (timeOf "2025-03-10T08:00:00Z").wall (lampHistory 3) ≠ [] ∧
      nextDue none (timeOf "2025-03-10T08:00:00Z") (lampHistory 3) =
        .ok ((timeOf "2025-03-10T08:00:00Z").wall.shift? (seconds 86400)) := by
  have hcompleted : (timeOf "2025-03-10T08:00:00Z").toUtc? =
      some (timeOf "2025-03-10T08:00:00Z").wall := by decide +kernel
  have hclocks : ∀ row ∈ lampHistory 3, ∀ performed ∈ row.performedAt,
      IsClockOffset performed.offset := by
    unfold IsClockOffset
    decide +kernel
  have hgaps : gaps (timeOf "2025-03-10T08:00:00Z").wall (lampHistory 3) ≠ [] := by
    decide +kernel
  have hperiod : ∀ gap ∈ gaps (timeOf "2025-03-10T08:00:00Z").wall (lampHistory 3),
      gap.2 = seconds 86400 := by decide +kernel
  obtain ⟨average, hdue, -, -, -, -, hshort⟩ :=
    @nextDue_within_gaps none _ _ _ hcompleted hclocks hgaps
  have hwhole : ∀ gap ∈ gaps (timeOf "2025-03-10T08:00:00Z").wall (lampHistory 3),
      wholeSeconds gap.2 = 86400 := by
    intro gap hgap
    rw [hperiod gap hgap]
    rfl
  obtain ⟨⟨low, hlow, hlower⟩, high, hhigh, hupper⟩ := hshort (by decide) fun gap hgap => by
    rw [hwhole gap hgap, hperiod gap hgap]
  rw [hwhole low hlow] at hlower
  rw [hwhole high hhigh] at hupper
  obtain rfl : average = 86400 := by omega
  exact ⟨hgaps, hdue⟩

/-- With forty-four days in the history the average falls below 86400 seconds, and the lamp is due
a second early. -/
theorem lamp_is_filled_too_early :
    gaps (timeOf "2025-03-10T08:00:00Z").wall (lampHistory 44) ≠ [] ∧
      (∀ gap ∈ gaps (timeOf "2025-03-10T08:00:00Z").wall (lampHistory 44),
        gap.2 = seconds 86400) ∧
      nextDue none (timeOf "2025-03-10T08:00:00Z") (lampHistory 44) =
        .ok (some (timeOf "2025-03-11T07:59:59Z").wall) ∧
      (timeOf "2025-03-11T07:59:59Z").wall.nanos =
        (timeOf "2025-03-10T08:00:00Z").wall.nanos + seconds 86399 ∧
      ¬IsWithin 0 (gaps (timeOf "2025-03-10T08:00:00Z").wall (lampHistory 44)) 86399 := by
  unfold IsWithin
  decide +kernel

end ChoreRota.Cadence
