import Mathlib.Algebra.BigOperators.Group.Finset.Basic
import ChoreRota.Proofs.AverageGap
import ChoreRota.Proofs.Estimates

/-!
# The exact average

Where known neighbours lie whole seconds apart and the history is short, every product and every sum
of the average has room in the digits of a double. The quotient of two integers, rounded, is still
on the same side of the next integer (`truncate_round_div`).
-/

namespace ChoreRota

namespace Binary64

section Quotient

variable {numer denom : Int}

theorem mul_loss_lt_one (hnumer : numer < 2 ^ 53) (hpos : 0 < denom) (hdenom : denom ≤ 2 ^ 53) :
    denom * ((numer / denom : ℚ) / 2 ^ 53 + 2 ^ (-1075 : Int)) < 1 := by
  have hdenomPos : (0 : ℚ) < denom := by exact_mod_cast hpos
  have hnumerLe : (numer : ℚ) ≤ 2 ^ 53 - 1 := by exact_mod_cast Int.le_sub_one_of_lt hnumer
  have hdenomLe : (denom : ℚ) ≤ 2 ^ 53 := by exact_mod_cast hdenom
  have htiny : (2 : ℚ) ^ (-1075 : Int) < 1 / 2 ^ 107 := by
    calc (2 : ℚ) ^ (-1075 : Int) < 2 ^ (-107 : Int) := zpow_lt_zpow_right₀ one_lt_two (by norm_num)
      _ = 1 / 2 ^ 107 := by norm_num
  have hpart : denom * (2 : ℚ) ^ (-1075 : Int) < 2 ^ 53 * (1 / 2 ^ 107) :=
    mul_lt_mul' hdenomLe htiny (by positivity) (by positivity)
  calc denom * ((numer / denom : ℚ) / 2 ^ 53 + 2 ^ (-1075 : Int))
      = numer / 2 ^ 53 + denom * 2 ^ (-1075 : Int) := by field_simp
    _ < 1 := by linarith

theorem truncate_round_div_of_nonneg (hnonneg : 0 ≤ numer) (hnumer : numer < 2 ^ 53)
    (hpos : 0 < denom) (hdenom : denom ≤ 2 ^ 53) :
    truncate (round (numer / denom : ℚ)) = truncate (numer / denom : ℚ) := by
  have hnumerCast : (0 : ℚ) ≤ numer := by exact_mod_cast hnonneg
  have hdenomCast : (1 : ℚ) ≤ denom := by exact_mod_cast hpos
  have hdenomPos : (0 : ℚ) < denom := by linarith
  have hquotient : (0 : ℚ) ≤ numer / denom := div_nonneg hnumerCast hdenomPos.le
  have hround : 0 ≤ round (numer / denom : ℚ) := le_round isDouble_zero hquotient
  have hnear := le_of_abs_le (abs_round_sub_le_relative (numer / denom : ℚ))
  have hloss := mul_loss_lt_one hnumer hpos hdenom
  rw [abs_of_nonneg hquotient] at hnear
  rw [truncate_of_nonneg hround, truncate_of_nonneg hquotient, Int.floor_eq_iff]
  have hlow : ((⌊(numer / denom : ℚ)⌋ : Int) : ℚ) ≤ numer / denom := Int.floor_le _
  have hhigh : (numer / denom : ℚ) < (⌊(numer / denom : ℚ)⌋ : Int) + 1 := Int.lt_floor_add_one _
  have hfloor : 0 ≤ ⌊(numer / denom : ℚ)⌋ := Int.floor_nonneg.2 hquotient
  generalize ⌊(numer / denom : ℚ)⌋ = whole at *
  constructor
  · have hsize : whole ≤ numer := by
      exact_mod_cast hlow.trans (div_le_self hnumerCast hdenomCast)
    refine le_round (isDouble_intCast ?_) hlow
    rw [abs_of_nonneg hfloor]
    exact hsize.trans hnumer.le
  · -- The next integer is a whole part of the denominator away, or more.
    have hnext : (numer : ℚ) + 1 ≤ (whole + 1) * denom := by
      rw [div_lt_iff₀ hdenomPos] at hhigh
      exact_mod_cast Int.add_one_le_iff.2 (by exact_mod_cast hhigh)
    have hscaled : denom * round (numer / denom : ℚ) < numer + 1 := by
      have hproduct := mul_le_mul_of_nonneg_left hnear hdenomPos.le
      rw [mul_sub, mul_div_cancel₀ _ hdenomPos.ne'] at hproduct
      linarith
    refine lt_of_mul_lt_mul_left ?_ hdenomPos.le
    linarith

/-- A quotient of integers that are doubles is cut off to the same integer whether it is rounded
before or not. -/
theorem truncate_round_div (hnumer : |numer| < 2 ^ 53) (hpos : 0 < denom)
    (hdenom : denom ≤ 2 ^ 53) :
    truncate (round (numer / denom : ℚ)) = truncate (numer / denom : ℚ) := by
  obtain ⟨hlow, hhigh⟩ := abs_lt.1 hnumer
  rcases le_total 0 numer with hnonneg | hneg
  · exact truncate_round_div_of_nonneg hnonneg hhigh hpos hdenom
  · have hmirror := truncate_round_div_of_nonneg (neg_nonneg.2 hneg) (by linarith) hpos hdenom
    rw [Int.cast_neg, neg_div, round_neg, truncate_neg, truncate_neg] at hmirror
    exact neg_inj.1 hmirror

end Quotient

end Binary64

namespace Cadence

open Binary64

section Sums

variable {limit : Int} {last position index : Nat} {sum : ℚ}

/-- A sum of integers, each with the weight of its position, up to a position. It is a whole number
of times the last weight, and none of the integers is larger than the limit. -/
structure IsPartialSum (limit : Int) (last position : Nat) (sum : ℚ) : Prop where
  isMultiple : ∃ count : Int, sum = count * 2 ^ (-last : Int)
  abs_le : |sum| ≤ 2 * limit * (1 - 2 ^ (-position : Int))

theorem IsPartialSum.start (limit : Int) (last : Nat) : IsPartialSum limit last 0 0 where
  isMultiple := ⟨0, by simp⟩
  abs_le := by simp

theorem IsPartialSum.step {value : Int} (hsum : IsPartialSum limit last position sum)
    (hposition : position ≤ index) (hlast : index ≤ last) (hvalue : |value| ≤ limit) :
    IsPartialSum limit last (index + 1) (sum + value * 2 ^ (-index : Int)) := by
  have hlimit : (0 : ℚ) ≤ limit := by exact_mod_cast (abs_nonneg value).trans hvalue
  have hcast : |(value : ℚ)| ≤ limit := by exact_mod_cast hvalue
  have hweight : (0 : ℚ) < 2 ^ (-index : Int) := by positivity
  constructor
  · obtain ⟨count, hcount⟩ := hsum.isMultiple
    obtain ⟨step, hstep⟩ := exists_eq_mul_zpow value (show -(last : Int) ≤ -index by omega)
    exact ⟨count + step, by rw [hcount, hstep, Int.cast_add, add_mul]⟩
  · have hshare : |value * (2 : ℚ) ^ (-index : Int)| ≤ limit * 2 ^ (-index : Int) := by
      rw [abs_mul, abs_of_pos hweight]
      exact mul_le_mul_of_nonneg_right hcast hweight.le
    have hnext : (2 : ℚ) ^ (-(index + 1 : Nat) : Int) = 2 ^ (-index : Int) / 2 := by
      rw [Nat.cast_succ, neg_add, ← sub_eq_add_neg, zpow_sub_one₀ two_ne_zero, div_eq_mul_inv]
    have hearly := mul_le_mul_of_nonneg_left (zpow_neg_le hposition) hlimit
    have htotal := abs_add_le sum (value * (2 : ℚ) ^ (-index : Int))
    rw [hnext]
    linarith [hsum.abs_le]

/-- Such a sum is a double as long as there is room for it in 53 bits. -/
theorem IsPartialSum.exists_count (hsum : IsPartialSum limit last position sum)
    (hlimit : 0 ≤ limit) (hroom : 2 * limit * 2 ^ last < 2 ^ 53) :
    ∃ count : Int, |count| < 2 ^ 53 ∧ sum = count * 2 ^ (-last : Int) := by
  obtain ⟨⟨count, rfl⟩, hle⟩ := hsum
  refine ⟨count, lt_of_le_of_lt ?_ hroom, rfl⟩
  have hunit : (0 : ℚ) < 2 ^ (-last : Int) := by positivity
  have hlimitCast : (0 : ℚ) ≤ limit := by exact_mod_cast hlimit
  have hleft : (0 : ℚ) ≤ limit * 2 ^ (-position : Int) := by positivity
  rw [abs_mul, abs_of_pos hunit] at hle
  have hscaled : |(count : ℚ)| * 2 ^ (-last : Int) ≤
      2 * limit * 2 ^ last * 2 ^ (-last : Int) := by
    rw [mul_assoc (2 * (limit : ℚ)), pow_mul_zpow_neg, mul_one]
    linarith
  exact_mod_cast le_of_mul_le_mul_right hscaled hunit

end Sums

def decayedSum (value : Nat × Int → Int) (gaps : List (Nat × Int)) : ℚ :=
  (gaps.map fun gap => value gap * (2 : ℚ) ^ (-gap.1 : Int)).sum

section Runs

variable {limit : Int} {last position : Nat} {sum : ℚ} {gaps : List (Nat × Int)}
  {value : Nat × Int → Int} {op : ℚ → Nat × Int → ℚ}

/-- Where a step adds an integer with its weight and rounds, nothing is rounded in all the run. -/
theorem IsPartialSum.run (hsum : IsPartialSum limit last position sum) (hlimit : 0 ≤ limit)
    (hroom : 2 * limit * 2 ^ last < 2 ^ 53) (hdepth : last ≤ 1074)
    (hsorted : gaps.Pairwise fun newer older => newer.1 < older.1)
    (hpositions : ∀ gap ∈ gaps, position ≤ gap.1 ∧ gap.1 ≤ last)
    (hvalue : ∀ gap ∈ gaps, |value gap| ≤ limit)
    (hop : ∀ gap ∈ gaps, ∀ sum, op sum gap = add sum (value gap * 2 ^ (-gap.1 : Int))) :
    gaps.foldl op sum = sum + decayedSum value gaps ∧
      ∃ after, IsPartialSum limit last after (gaps.foldl op sum) := by
  induction gaps generalizing position sum with
  | nil => exact ⟨(add_zero sum).symm, position, hsum⟩
  | cons gap rest ih =>
    obtain ⟨hlater, hlast⟩ := hpositions gap (.head _)
    have hnext := hsum.step hlater hlast (hvalue gap (.head _))
    have hdouble : IsDouble (sum + value gap * 2 ^ (-gap.1 : Int)) := by
      obtain ⟨count, hcount, heq⟩ := hnext.exists_count hlimit hroom
      exact heq ▸ isDouble_mul_zpow hcount.le hdepth
    rw [List.pairwise_cons] at hsorted
    obtain ⟨hrun, hafter⟩ := ih hnext hsorted.2
      (fun other hmem => ⟨hsorted.1 other hmem, (hpositions other (.tail gap hmem)).2⟩)
      (fun other hmem => hvalue other (.tail gap hmem))
      (fun other hmem => hop other (.tail gap hmem))
    rw [List.foldl_cons, hop gap (.head _), add, round_eq_self hdouble]
    refine ⟨?_, hafter⟩
    rw [hrun, decayedSum, decayedSum, List.map_cons, List.sum_cons, add_assoc]

end Runs

section Average

variable {gaps : List (Nat × Int)} {gap : Nat × Int} {last : Nat}

theorem inSeconds_of_whole {nanos whole : Int} (hspan : |nanos| < seconds longestSpan)
    (hwhole : nanos = seconds whole) : inSeconds nanos = whole := by
  have hsize : |whole| ≤ longestSpan := by
    rw [hwhole] at hspan
    unfold seconds at hspan
    rw [abs_lt] at hspan
    rw [abs_le]
    omega
  have hneg : |(-nanos)| < seconds longestSpan := by rwa [abs_neg]
  have hlower := inSeconds_le_of_le hneg (by rwa [abs_neg] : |(-whole)| ≤ longestSpan) (by
    rw [hwhole]
    unfold seconds
    omega)
  rw [inSeconds_neg, Int.cast_neg] at hlower
  exact le_antisymm (inSeconds_le_of_le hspan hsize hwhole.le) (neg_le_neg_iff.1 hlower)

theorem addGap_eq_add (hspan : |gap.2| < seconds longestSpan) (hdepth : gap.1 ≤ 1074)
    (hwhole : gap.2 = seconds (wholeSeconds gap.2)) (sum : ℚ) :
    addGap sum gap = add sum (wholeSeconds gap.2 * 2 ^ (-gap.1 : Int)) := by
  have hdigits : |wholeSeconds gap.2| ≤ 2 ^ 53 :=
    (abs_wholeSeconds_lt hspan).le.trans (by decide)
  unfold addGap mul
  rw [inSeconds_of_whole hspan hwhole, weight_eq_zpow hdepth,
    round_eq_self (isDouble_mul_zpow hdigits hdepth)]

theorem addWeight_eq_add (hdepth : gap.1 ≤ 1074) (weights : ℚ) :
    addWeight weights gap = add weights ((1 : Int) * 2 ^ (-gap.1 : Int)) := by
  unfold addWeight
  rw [weight_eq_zpow hdepth, Int.cast_one, one_mul]

theorem le_of_room (hroom : 2 * longestSpan * 2 ^ last < 2 ^ 53) : last ≤ 1074 := by
  have hpower : (0 : Int) < 2 ^ last := by positivity
  have hsmall : (2 : Int) ^ last < 2 ^ 53 := by
    unfold longestSpan at hroom
    omega
  have hlast := (pow_lt_pow_iff_right₀ (by norm_num : (1 : Int) < 2)).1 hsmall
  omega

theorem WellSpaced.averageSeconds_eq (hspaced : WellSpaced gaps) (hgaps : gaps ≠ [])
    (hroom : 2 * longestSpan * 2 ^ last < 2 ^ 53) (hpositions : ∀ gap ∈ gaps, gap.1 ≤ last)
    (hwhole : ∀ gap ∈ gaps, gap.2 = seconds (wholeSeconds gap.2)) :
    averageSeconds gaps =
      truncate
        (decayedSum (fun gap => wholeSeconds gap.2) gaps / decayedSum (fun _ => 1) gaps) := by
  have hdepth := le_of_room hroom
  have hweightRoom : 2 * (1 : Int) * 2 ^ last < 2 ^ 53 := by
    have hpower : (0 : Int) < 2 ^ last := by positivity
    unfold longestSpan at hroom
    omega
  have hbetween : ∀ gap ∈ gaps, 0 ≤ gap.1 ∧ gap.1 ≤ last :=
    fun gap hgap => ⟨Nat.zero_le _, hpositions gap hgap⟩
  obtain ⟨hsum, _, hsumPartial⟩ := (IsPartialSum.start longestSpan last).run (by decide) hroom
    hdepth hspaced.sorted hbetween
    (fun gap hgap => (abs_wholeSeconds_lt (hspaced.span gap hgap)).le)
    (fun gap hgap => addGap_eq_add (hspaced.span gap hgap)
      ((hpositions gap hgap).trans hdepth) (hwhole gap hgap))
  obtain ⟨hweights, _, hweightsPartial⟩ := (IsPartialSum.start 1 last).run (by decide) hweightRoom
    hdepth hspaced.sorted hbetween (fun _ _ => (by decide : |(1 : Int)| ≤ 1))
    (fun gap hgap => addWeight_eq_add ((hpositions gap hgap).trans hdepth))
  obtain ⟨numer, hnumer, hsumCount⟩ := hsumPartial.exists_count (by decide) hroom
  obtain ⟨denom, hdenom, hweightsCount⟩ := hweightsPartial.exists_count (by decide) hweightRoom
  rw [zero_add] at hsum hweights
  rw [← weightedSum_eq] at hsum hsumCount
  rw [← totalWeight_eq] at hweights hweightsCount
  have hunit : (0 : ℚ) < 2 ^ (-last : Int) := by positivity
  have hpos : 0 < denom := by
    have htotal : 0 < totalWeight gaps := by
      cases gaps with
      | nil => exact absurd rfl hgaps
      | cons latest rest =>
        refine lt_of_lt_of_le ?_ (weight_le_totalWeight latest rest)
        rw [weight_eq_zpow ((hpositions latest (.head _)).trans hdepth)]
        positivity
    rw [hweightsCount] at htotal
    exact_mod_cast (mul_pos_iff_of_pos_right hunit).1 htotal
  have hquotient : weightedSum gaps / totalWeight gaps = numer / denom := by
    rw [hsumCount, hweightsCount, mul_div_mul_right _ _ hunit.ne']
  rw [averageSeconds, div, ← hsum, ← hweights, hquotient]
  exact truncate_round_div hnumer hpos (abs_lt.1 hdenom).2.le

end Average

section Reference

variable {times : List (Option Timestamp)}

/-- A sum over the known neighbours, in which each counts half as much as the one after it. -/
def decayedTotal (value : Timestamp × Timestamp → ℚ) (times : List (Option Timestamp)) : ℚ :=
  ∑ position ∈ Finset.range times.length,
    (neighboursAt times position).elim 0 fun pair => value pair / 2 ^ position

def secondsBetween (pair : Timestamp × Timestamp) : ℚ :=
  (pair.1.instant - pair.2.instant) / 1000000000

def exactAverage (times : List (Option Timestamp)) : ℚ :=
  decayedTotal secondsBetween times / decayedTotal (fun _ => 1) times

def exactSeconds (times : List (Option Timestamp)) : Int :=
  if 0 ≤ exactAverage times then ⌊exactAverage times⌋ else ⌈exactAverage times⌉

theorem truncate_exactAverage (times : List (Option Timestamp)) :
    truncate (exactAverage times) = exactSeconds times := by
  unfold exactSeconds
  split
  · exact truncate_of_nonneg ‹_›
  · exact truncate_of_nonpos (not_le.1 ‹_›).le

theorem sum_map_filterMap {α β : Type} (find : α → Option β) (value : β → ℚ) (items : List α) :
    ((items.filterMap find).map value).sum =
      (items.map fun item => (find item).elim 0 value).sum := by
  induction items with
  | nil => rfl
  | cons item rest ih =>
    rw [List.filterMap_cons, List.map_cons, List.sum_cons, ← ih]
    cases find item with
    | none => exact (zero_add _).symm
    | some found => rfl

theorem decayedSum_gapsFrom {value : Nat × Int → Int} {share : Timestamp × Timestamp → ℚ}
    (hvalue : ∀ position pair, neighboursAt times position = some pair →
      value (position, pair.1.instant - pair.2.instant) = share pair) :
    decayedSum value (gapsFrom 0 (times.map (Option.map Timestamp.instant))) =
      decayedTotal share times := by
  unfold decayedSum decayedTotal
  rw [gapsFrom_eq_filterMap, sum_map_filterMap, List.length_map]
  refine congrArg List.sum (List.map_congr_left fun position _ => ?_)
  rw [neighboursAt_map]
  cases hpair : neighboursAt times position with
  | none => rfl
  | some pair =>
    simp only [Option.map_some, Option.elim_some, Prod.map_fst, Prod.map_snd, Nat.zero_add]
    rw [hvalue position pair hpair, zpow_neg, zpow_natCast, div_eq_mul_inv]

end Reference

section NextDue

variable {completedAt : Timestamp} {history : List HistoryRow} {times : List (Option Timestamp)}

/-- Times without a fraction of a second lie whole seconds apart. -/
theorem dvd_of_neighboursAt (hwhole : ∀ time ∈ times, ∀ known ∈ time, 1000000000 ∣ known.instant)
    {position : Nat} {pair : Timestamp × Timestamp}
    (hpair : neighboursAt times position = some pair) :
    1000000000 ∣ pair.1.instant - pair.2.instant := by
  obtain ⟨hnewer, holder⟩ := mem_of_neighboursAt hpair
  exact Int.dvd_sub (hwhole _ hnewer _ rfl) (hwhole _ holder _ rfl)

theorem wholeSeconds_of_dvd {nanos : Int} (hdvd : 1000000000 ∣ nanos) :
    nanos = seconds (wholeSeconds nanos) ∧ (wholeSeconds nanos : ℚ) = nanos / 1000000000 := by
  obtain ⟨count, rfl⟩ := hdvd
  have hcount : wholeSeconds (1000000000 * count) = count := Int.mul_tdiv_cancel_left _ (by decide)
  rw [hcount]
  refine ⟨Int.mul_comm _ _, ?_⟩
  push_cast
  rw [mul_div_cancel_left₀ _ (by norm_num)]

/-- **Short histories are averaged exactly.** Where known neighbours lie whole seconds apart, as
times without a fraction of a second do, the next due date after a history of up to 13 rows is the
one that exact arithmetic gives, or none if the calendar does not reach that far. Only a completion
that is off the calendar in UTC is not averaged at all. -/
theorem nextDue_eq_exactSeconds {priorDue : Option Timestamp}
    (hclocks : ∀ row ∈ history, ∀ performed ∈ row.performedAt, IsClockOffset performed.offset)
    (hlength : history.length ≤ 13)
    (hwhole : ∀ position pair, neighboursAt (timesOf completedAt history) position = some pair →
      1000000000 ∣ pair.1.instant - pair.2.instant)
    (hgap : HasGap completedAt history) :
    (∀ completed, completedAt.toUtc? = some completed →
      nextDue priorDue completedAt history =
        .ok (completed.shift? (seconds (exactSeconds (timesOf completedAt history))))) ∧
      (completedAt.toUtc? = none →
        nextDue priorDue completedAt history = .error .offCalendar) := by
  constructor
  · intro completed hcompleted
    have hgaps : gaps completed history ≠ [] := mt (gaps_eq_nil_iff hcompleted).1 (not_not.2 hgap)
    have hseconds : ∀ gap ∈ gaps completed history, gap.2 = seconds (wholeSeconds gap.2) := by
      intro gap hmem
      obtain ⟨pair, hpair, hlength⟩ := exists_neighbours_of_mem_gaps hcompleted hmem
      rw [hlength]
      exact (wholeSeconds_of_dvd (hwhole gap.1 pair hpair)).1
    have hpositions : ∀ gap ∈ gaps completed history, gap.1 ≤ 12 := by
      intro gap hmem
      have hposition := position_of_mem_gapsFrom hmem
      rw [List.length_cons, List.length_map] at hposition
      omega
    have haverage := (wellSpaced_gaps hclocks).averageSeconds_eq hgaps
      (show 2 * longestSpan * 2 ^ 12 < 2 ^ 53 by decide) hpositions hseconds
    have hsum : decayedSum (fun gap => wholeSeconds gap.2) (gaps completed history) =
        decayedTotal secondsBetween (timesOf completedAt history) := by
      rw [gaps_eq_gapsFrom hcompleted]
      refine decayedSum_gapsFrom ?_
      intro position pair hpair
      rw [(wholeSeconds_of_dvd (hwhole position pair hpair)).2, secondsBetween, Int.cast_sub]
    have hweights : decayedSum (fun _ => 1) (gaps completed history) =
        decayedTotal (fun _ => 1) (timesOf completedAt history) := by
      rw [gaps_eq_gapsFrom hcompleted]
      exact decayedSum_gapsFrom fun _ _ _ => Int.cast_one
    rw [hsum, hweights] at haverage
    rw [nextDue_of_hasGap hcompleted hgap, haverage, ← truncate_exactAverage, exactAverage]
  · intro hoff
    simp only [nextDue, hoff]

end NextDue

def roses (performedAt : List (Option String)) : List HistoryRow :=
  performedAt.map fun time => ⟨37, time.map timeOf, none, some 1, some 1, none, .completed⟩

def rosesInWinter : List HistoryRow :=
  roses [some "2025-03-08T08:00:00Z", none, some "2025-03-01T08:00:00Z",
    some "2025-02-20T07:59:59Z"]

/-- Two gaps of 172800 and 777601 seconds, the second one three positions behind the first, average
to 240000 seconds and a ninth. -/
theorem roses_are_due_after_exact_average :
    exactAverage (timesOf (timeOf "2025-03-10T08:00:00Z") rosesInWinter) = 240000 + 1 / 9 ∧
      nextDue none (timeOf "2025-03-10T08:00:00Z") rosesInWinter =
        .ok (some (timeOf "2025-03-13T02:40:00Z").wall) := by
  have hclocks : ∀ row ∈ rosesInWinter, ∀ performed ∈ row.performedAt,
      IsClockOffset performed.offset := by
    unfold IsClockOffset
    decide
  have hwhole : ∀ time ∈ timesOf (timeOf "2025-03-10T08:00:00Z") rosesInWinter,
      ∀ known ∈ time, 1000000000 ∣ known.instant := by decide
  have hcompleted : (timeOf "2025-03-10T08:00:00Z").toUtc? =
      some (timeOf "2025-03-10T08:00:00Z").wall := rfl
  have haverage : exactAverage (timesOf (timeOf "2025-03-10T08:00:00Z") rosesInWinter) =
      240000 + 1 / 9 := by decide +kernel
  have hseconds : exactSeconds (timesOf (timeOf "2025-03-10T08:00:00Z") rosesInWinter) =
      240000 := by
    unfold exactSeconds
    rw [haverage, if_pos (by norm_num)]
    norm_num
  have hshift : (timeOf "2025-03-10T08:00:00Z").wall.shift? (seconds 240000) =
      some (timeOf "2025-03-13T02:40:00Z").wall := rfl
  obtain ⟨hexact, -⟩ := @nextDue_eq_exactSeconds _ _ none hclocks (by decide)
    (fun _ _ => dvd_of_neighboursAt hwhole) ⟨0, by decide⟩
  refine ⟨haverage, ?_⟩
  rw [hexact _ hcompleted, hseconds, hshift]

/-- On a clock behind UTC the last hour of the calendar is off the calendar in UTC. A completion
there is not averaged, although the gap is negative and leads back to a time that the calendar has.
-/
theorem roses_have_no_average_at_calendars_end :
    HasGap (timeOf "9999-12-31T23:30:00-01:00") (roses [some "9999-12-31T23:59:59-02:00"]) ∧
      exactAverage (timesOf (timeOf "9999-12-31T23:30:00-01:00")
        (roses [some "9999-12-31T23:59:59-02:00"])) = -5399 ∧
      Moment.ofNanos? ((timeOf "9999-12-31T23:30:00-01:00").instant + seconds (-5399)) =
        some (timeOf "9999-12-31T23:00:01Z").wall ∧
      nextDue none (timeOf "9999-12-31T23:30:00-01:00")
          (roses [some "9999-12-31T23:59:59-02:00"]) = .error .offCalendar :=
  ⟨⟨0, by decide⟩, by decide +kernel, rfl, rfl⟩

end Cadence

end ChoreRota
