import Mathlib.Algebra.Order.Field.Power
import Mathlib.Data.Rat.Floor
import Mathlib.Tactic.FieldSimp
import Mathlib.Tactic.GCongr
import Mathlib.Tactic.Linarith
import Mathlib.Tactic.Ring
import ChoreRota.Numeric.Binary64

/-!
# Rounding to doubles

A rational is rounded to a nearest double (`abs_round_sub_le`), so that a double between which and
the rational no other one lies is not passed by rounding (`le_round`, `round_le`). Of a number above
the smallest doubles at most one part in `2 ^ 53` is lost.
-/

namespace ChoreRota.Binary64

theorem twoPow_eq_zpow (exponent : Int) : twoPow exponent = (2 : ℚ) ^ exponent := by
  unfold twoPow
  split
  · rename_i hexponent
    obtain ⟨power, rfl⟩ := Int.eq_ofNat_of_zero_le hexponent
    simp
  · rename_i hexponent
    obtain ⟨power, hpower⟩ := Int.eq_ofNat_of_zero_le (show 0 ≤ -exponent by omega)
    obtain rfl : exponent = -power := by omega
    simp

theorem magnitude_eq_abs (value : ℚ) : magnitude value = |value| := by
  unfold magnitude
  split
  · exact (abs_of_neg ‹_›).symm
  · exact (abs_of_nonneg (not_lt.1 ‹_›)).symm

section RoundHalfEven

variable {value : ℚ} {bound : Int}

theorem abs_roundHalfEven_sub_le (value : ℚ) (other : Int) :
    |(roundHalfEven value : ℚ) - value| ≤ |(other : ℚ) - value| := by
  have hlow : ((⌊value⌋ : Int) : ℚ) ≤ value := Int.floor_le value
  have hhigh : value < (⌊value⌋ : Int) + 1 := Int.lt_floor_add_one value
  have hfloor : value.floor = ⌊value⌋ := rfl
  have hdistance : (value - (⌊value⌋ : Int) ≤ |(other : ℚ) - value|) ∨
      ((⌊value⌋ : Int) + 1 - value ≤ |(other : ℚ) - value|) := by
    rcases le_or_gt other ⌊value⌋ with hle | hgt
    · have hcast : (other : ℚ) ≤ (⌊value⌋ : Int) := by exact_mod_cast hle
      exact .inl (by rw [abs_of_nonpos (by linarith)]; linarith)
    · have hcast : ((⌊value⌋ : Int) : ℚ) + 1 ≤ other := by exact_mod_cast hgt
      exact .inr (by rw [abs_of_nonneg (by linarith)]; linarith)
  unfold roundHalfEven
  simp only [hfloor]
  split_ifs
  · rw [abs_of_nonpos (by linarith)]
    rcases hdistance with hdistance | hdistance <;> linarith
  · push_cast
    rw [abs_of_nonneg (by linarith)]
    rcases hdistance with hdistance | hdistance <;> linarith
  · rw [abs_of_nonpos (by linarith)]
    rcases hdistance with hdistance | hdistance <;> linarith
  · push_cast
    rw [abs_of_nonneg (by linarith)]
    rcases hdistance with hdistance | hdistance <;> linarith

theorem roundHalfEven_le (hvalue : value ≤ bound) : roundHalfEven value ≤ bound := by
  by_contra hbeyond
  have hcast : (bound : ℚ) < roundHalfEven value := by exact_mod_cast not_le.1 hbeyond
  have hnearest := abs_roundHalfEven_sub_le value bound
  rw [abs_of_nonneg (by linarith), abs_of_nonneg (by linarith)] at hnearest
  linarith

theorem le_roundHalfEven (hvalue : bound ≤ value) : bound ≤ roundHalfEven value := by
  by_contra hbeyond
  have hcast : (roundHalfEven value : ℚ) < bound := by exact_mod_cast not_le.1 hbeyond
  have hnearest := abs_roundHalfEven_sub_le value bound
  rw [abs_of_nonpos (by linarith), abs_of_nonpos (by linarith)] at hnearest
  linarith

theorem roundHalfEven_intCast (whole : Int) : roundHalfEven (whole : ℚ) = whole :=
  Int.le_antisymm (roundHalfEven_le le_rfl) (le_roundHalfEven le_rfl)

theorem abs_roundHalfEven_sub_le_half (value : ℚ) :
    |(roundHalfEven value : ℚ) - value| ≤ 1 / 2 := by
  have hlow : ((⌊value⌋ : Int) : ℚ) ≤ value := Int.floor_le value
  have hhigh : value < (⌊value⌋ : Int) + 1 := Int.lt_floor_add_one value
  rcases le_total (value - (⌊value⌋ : Int)) (1 / 2) with hnear | hfar
  · refine (abs_roundHalfEven_sub_le value ⌊value⌋).trans ?_
    rw [abs_of_nonpos (by linarith)]
    linarith
  · refine (abs_roundHalfEven_sub_le value (⌊value⌋ + 1)).trans ?_
    push_cast
    rw [abs_of_nonneg (by linarith)]
    linarith

/-- A tie goes to the even one on either side of zero. -/
theorem roundHalfEven_neg (value : ℚ) : roundHalfEven (-value) = -roundHalfEven value := by
  by_cases hwhole : value = (⌊value⌋ : Int)
  · rw [hwhole, ← Int.cast_neg, roundHalfEven_intCast, roundHalfEven_intCast]
  have hlow : ((⌊value⌋ : Int) : ℚ) < value :=
    lt_of_le_of_ne (Int.floor_le value) (Ne.symm hwhole)
  have hhigh : value < (⌊value⌋ : Int) + 1 := Int.lt_floor_add_one value
  have hfloor : value.floor = ⌊value⌋ := rfl
  have hfloorNeg : ⌊-value⌋ = -⌊value⌋ - 1 := by
    refine Int.floor_eq_iff.2 ⟨?_, ?_⟩ <;> push_cast <;> linarith
  replace hfloorNeg : (-value).floor = -⌊value⌋ - 1 := hfloorNeg
  unfold roundHalfEven
  simp only [hfloor, hfloorNeg]
  push_cast
  split_ifs <;> first | omega | (exfalso; linarith)

end RoundHalfEven

section Spacing

variable {value : ℚ}

theorem binade_bounds (hvalue : value ≠ 0) :
    (2 : ℚ) ^ binade value ≤ |value| ∧ |value| < (2 : ℚ) ^ (binade value + 1) := by
  have hnum : value.num.natAbs ≠ 0 := by simpa using hvalue
  have habs : |value| = (value.num.natAbs : ℚ) / value.den := by
    conv_lhs => rw [← Rat.num_div_den value]
    rw [abs_div, Nat.abs_cast, Nat.cast_natAbs, Int.cast_abs]
  have hnumLow : (2 : ℚ) ^ value.num.natAbs.log2 ≤ value.num.natAbs := by
    exact_mod_cast Nat.log2_self_le hnum
  have hnumHigh : (value.num.natAbs : ℚ) < 2 ^ (value.num.natAbs.log2 + 1) := by
    exact_mod_cast Nat.lt_log2_self
  have hdenLow : (2 : ℚ) ^ value.den.log2 ≤ value.den := by
    exact_mod_cast Nat.log2_self_le value.den_nz
  have hdenHigh : (value.den : ℚ) < 2 ^ (value.den.log2 + 1) := by
    exact_mod_cast Nat.lt_log2_self
  have hden : (0 : ℚ) < value.den := by exact_mod_cast value.den_pos
  generalize hguess : (value.num.natAbs.log2 : Int) - value.den.log2 = guess at *
  have habove : |value| < (2 : ℚ) ^ (guess + 1) := by
    rw [habs, div_lt_iff₀ hden, ← hguess]
    calc (value.num.natAbs : ℚ) < 2 ^ (value.num.natAbs.log2 + 1) := hnumHigh
      _ = 2 ^ ((value.num.natAbs.log2 : Int) - value.den.log2 + 1) * 2 ^ value.den.log2 := by
        rw [← zpow_natCast, ← zpow_natCast, ← zpow_add₀ two_ne_zero]
        congr 1
        push_cast
        ring
      _ ≤ _ := by gcongr
  have hbelow : (2 : ℚ) ^ (guess - 1) ≤ |value| := by
    rw [habs, le_div_iff₀ hden, ← hguess]
    calc (2 : ℚ) ^ ((value.num.natAbs.log2 : Int) - value.den.log2 - 1) * value.den ≤
          2 ^ ((value.num.natAbs.log2 : Int) - value.den.log2 - 1) * 2 ^ (value.den.log2 + 1) :=
        mul_le_mul_of_nonneg_left hdenHigh.le (by positivity)
      _ = 2 ^ value.num.natAbs.log2 := by
        rw [← zpow_natCast, ← zpow_natCast, ← zpow_add₀ two_ne_zero]
        congr 1
        push_cast
        ring
      _ ≤ _ := hnumLow
  unfold binade
  simp only [hguess, magnitude_eq_abs, twoPow_eq_zpow]
  split
  · rename_i hless
    exact ⟨hbelow, by simpa using hless⟩
  · rename_i hmore
    exact ⟨not_lt.1 hmore, habove⟩

def spacingExponent (value : ℚ) : Int :=
  max (-1074) (binade value - 52)

theorem spacing_eq_zpow (value : ℚ) : spacing value = (2 : ℚ) ^ spacingExponent value :=
  twoPow_eq_zpow _

theorem spacing_pos (value : ℚ) : 0 < spacing value := by
  rw [spacing_eq_zpow]
  positivity

theorem spacing_neg (value : ℚ) : spacing (-value) = spacing value := by
  unfold spacing binade
  simp only [magnitude_eq_abs, abs_neg, Rat.num_neg_eq_neg_num, Int.natAbs_neg,
    Rat.den_neg_eq_den]

theorem neg_1074_le_spacingExponent (value : ℚ) : -1074 ≤ spacingExponent value :=
  le_max_left _ _

theorem abs_le_mul_spacing (hvalue : value ≠ 0) : |value| ≤ 2 ^ 53 * spacing value := by
  have hexponent : binade value + 1 ≤ 53 + spacingExponent value := by
    unfold spacingExponent
    omega
  calc |value| ≤ 2 ^ (binade value + 1) := (binade_bounds hvalue).2.le
    _ ≤ 2 ^ (53 + spacingExponent value) := zpow_le_zpow_right₀ one_le_two hexponent
    _ = 2 ^ 53 * spacing value := by
      rw [spacing_eq_zpow, zpow_add₀ two_ne_zero]
      norm_num

/-- Above the smallest doubles a number is at least `2 ^ 52` spacings. -/
theorem mul_spacing_le_abs (hvalue : value ≠ 0) (hlarge : -1074 < spacingExponent value) :
    2 ^ 52 * spacing value ≤ |value| := by
  have hexponent : 52 + spacingExponent value = binade value := by
    unfold spacingExponent at *
    omega
  calc 2 ^ 52 * spacing value = 2 ^ (52 + spacingExponent value) := by
        rw [spacing_eq_zpow, zpow_add₀ two_ne_zero]
        norm_num
    _ = 2 ^ binade value := by rw [hexponent]
    _ ≤ |value| := (binade_bounds hvalue).1

end Spacing

/-- A number with at most 53 significant bits, the last of them not below that of the smallest
double. -/
def IsDouble (value : ℚ) : Prop :=
  ∃ digits exponent : Int, |digits| ≤ 2 ^ 53 ∧ -1074 ≤ exponent ∧ value = digits * 2 ^ exponent

def OnGrid (value : ℚ) : Prop :=
  ∃ digits : Int, value = digits * 2 ^ (-1074 : Int)

theorem exists_eq_mul_zpow (digits : Int) {low high : Int} (hle : low ≤ high) :
    ∃ count : Int, (digits : ℚ) * 2 ^ high = count * 2 ^ low := by
  obtain ⟨power, hpower⟩ := Int.le.dest hle
  refine ⟨digits * 2 ^ power, ?_⟩
  rw [← hpower, zpow_add₀ two_ne_zero, zpow_natCast]
  push_cast
  ring

theorem IsDouble.onGrid {value : ℚ} (hdouble : IsDouble value) : OnGrid value := by
  obtain ⟨digits, exponent, -, hexponent, rfl⟩ := hdouble
  exact exists_eq_mul_zpow digits hexponent

theorem IsDouble.neg {value : ℚ} (hdouble : IsDouble value) : IsDouble (-value) := by
  obtain ⟨digits, exponent, hdigits, hexponent, rfl⟩ := hdouble
  exact ⟨-digits, exponent, by rwa [abs_neg], hexponent, by push_cast; ring⟩

theorem isDouble_zero : IsDouble 0 :=
  ⟨0, 0, by norm_num, by norm_num, by norm_num⟩

theorem isDouble_zpow {exponent : Int} (hexponent : -1074 ≤ exponent) :
    IsDouble ((2 : ℚ) ^ exponent) :=
  ⟨1, exponent, by norm_num, hexponent, by norm_num⟩

theorem isDouble_intCast {whole : Int} (hwhole : |whole| ≤ 2 ^ 53) : IsDouble whole :=
  ⟨whole, 0, hwhole, by norm_num, by simp⟩

theorem OnGrid.add {left right : ℚ} (hleft : OnGrid left) (hright : OnGrid right) :
    OnGrid (left + right) := by
  obtain ⟨leftDigits, rfl⟩ := hleft
  obtain ⟨rightDigits, rfl⟩ := hright
  exact ⟨leftDigits + rightDigits, by rw [Int.cast_add, add_mul]⟩

section Round

variable {value bound : ℚ}

@[simp]
theorem round_zero : round 0 = 0 := rfl

theorem round_eq (value : ℚ) :
    round value = roundHalfEven (value / spacing value) * spacing value := by
  unfold round
  split
  · rename_i hzero
    have hnone : roundHalfEven 0 = 0 := by exact_mod_cast roundHalfEven_intCast 0
    rw [hzero, zero_div, hnone, Int.cast_zero, zero_mul]
  · rfl

theorem round_neg (value : ℚ) : round (-value) = -round value := by
  rw [round_eq, round_eq, spacing_neg, neg_div, roundHalfEven_neg]
  push_cast
  ring

theorem isDouble_round (value : ℚ) : IsDouble (round value) := by
  by_cases hvalue : value = 0
  · rw [hvalue]
    exact isDouble_zero
  have hspacing := spacing_pos value
  have hsize : |value / spacing value| ≤ (2 ^ 53 : Int) := by
    rw [abs_div, abs_of_pos hspacing, div_le_iff₀ hspacing]
    exact_mod_cast abs_le_mul_spacing hvalue
  rw [abs_le] at hsize
  refine ⟨roundHalfEven (value / spacing value), spacingExponent value, ?_,
    neg_1074_le_spacingExponent value, ?_⟩
  · exact abs_le.2 ⟨le_roundHalfEven (by exact_mod_cast hsize.1), roundHalfEven_le hsize.2⟩
  · rw [round_eq, ← spacing_eq_zpow]

theorem abs_round_sub_le_of_multiple {digits : Int} (hbound : bound = digits * spacing value) :
    |round value - value| ≤ |bound - value| := by
  have hspacing := spacing_pos value
  have hscale : ∀ count : Int,
      |count * spacing value - value| = |count - value / spacing value| * spacing value := by
    intro count
    rw [← abs_of_pos hspacing, ← abs_mul, abs_of_pos hspacing, sub_mul,
      div_mul_cancel₀ _ hspacing.ne']
  rw [round_eq, hbound, hscale, hscale]
  exact mul_le_mul_of_nonneg_right (abs_roundHalfEven_sub_le _ _) hspacing.le

/-- A double finer than the spacing is below a power of two, itself a multiple of the spacing, that
the value has reached. -/
theorem abs_round_sub_le_of_nonneg (hvalue : 0 ≤ value) (hbound : IsDouble bound) :
    |round value - value| ≤ |bound - value| := by
  by_cases hzero : value = 0
  · rw [hzero, round_zero, sub_zero, abs_zero]
    exact abs_nonneg _
  obtain ⟨digits, exponent, hdigits, hexponent, rfl⟩ := hbound
  rcases le_or_gt (spacingExponent value) exponent with hcoarse | hfine
  · obtain ⟨count, hcount⟩ := exists_eq_mul_zpow digits hcoarse
    exact abs_round_sub_le_of_multiple (hcount.trans (by rw [← spacing_eq_zpow]))
  have hcast : (digits : ℚ) ≤ 2 ^ 53 := by exact_mod_cast (le_abs_self digits).trans hdigits
  have hpower : 2 ^ 52 * spacing value ≤ value :=
    (mul_spacing_le_abs hzero (by omega)).trans_eq (abs_of_nonneg hvalue)
  have hsmall : (digits : ℚ) * 2 ^ exponent ≤ 2 ^ 52 * spacing value := by
    calc (digits : ℚ) * 2 ^ exponent ≤ 2 ^ 53 * 2 ^ exponent :=
          mul_le_mul_of_nonneg_right hcast (by positivity)
      _ ≤ 2 ^ 53 * 2 ^ (spacingExponent value - 1) :=
          mul_le_mul_of_nonneg_left (zpow_le_zpow_right₀ one_le_two (by omega)) (by positivity)
      _ = 2 ^ 52 * spacing value := by
          rw [spacing_eq_zpow, zpow_sub₀ two_ne_zero]
          ring
  have hnear : |round value - value| ≤ |2 ^ 52 * spacing value - value| :=
    abs_round_sub_le_of_multiple (show _ = ((2 ^ 52 : Int) : ℚ) * spacing value by norm_num)
  refine hnear.trans ?_
  rw [abs_of_nonpos (by linarith), abs_of_nonpos (by linarith)]
  linarith

theorem abs_round_sub_le (value : ℚ) (hbound : IsDouble bound) :
    |round value - value| ≤ |bound - value| := by
  rcases le_total 0 value with hpos | hneg
  · exact abs_round_sub_le_of_nonneg hpos hbound
  · have hnear := abs_round_sub_le_of_nonneg (neg_nonneg.2 hneg) hbound.neg
    rwa [round_neg, neg_sub_neg, neg_sub_neg, abs_sub_comm, abs_sub_comm value] at hnear

theorem le_round (hbound : IsDouble bound) (hle : bound ≤ value) : bound ≤ round value := by
  by_contra hbeyond
  have hnearest := abs_round_sub_le value hbound
  rw [abs_of_nonpos (by linarith), abs_of_nonpos (by linarith)] at hnearest
  linarith

theorem round_le (hbound : IsDouble bound) (hle : value ≤ bound) : round value ≤ bound := by
  by_contra hbeyond
  have hnearest := abs_round_sub_le value hbound
  rw [abs_of_nonneg (by linarith), abs_of_nonneg (by linarith)] at hnearest
  linarith

theorem round_eq_self (hdouble : IsDouble value) : round value = value :=
  le_antisymm (round_le hdouble le_rfl) (le_round hdouble le_rfl)

theorem abs_round_le (hbound : IsDouble bound) (hle : |value| ≤ bound) : |round value| ≤ bound := by
  rw [abs_le] at *
  exact ⟨le_round hbound.neg hle.1, round_le hbound hle.2⟩

/-- Half of the smallest double is a tie, which goes to zero. -/
theorem round_eq_zero (hvalue : 0 ≤ value) (hsmall : value ≤ 2 ^ (-1075 : Int)) :
    round value = 0 := by
  by_cases hzero : value = 0
  · rw [hzero, round_zero]
  have hbinade : binade value ≤ -1075 := by
    have hpower := (binade_bounds hzero).1.trans ((abs_of_nonneg hvalue).trans_le hsmall)
    exact (zpow_le_zpow_iff_right₀ one_lt_two).1 hpower
  have hspacing : spacing value = 2 * 2 ^ (-1075 : Int) := by
    have hexponent : spacingExponent value = 1 + -1075 := by
      unfold spacingExponent
      omega
    rw [spacing_eq_zpow, hexponent, zpow_add₀ two_ne_zero, zpow_one]
  have hhalf : value / spacing value ≤ 1 / 2 := by
    rw [div_le_iff₀ (spacing_pos value), hspacing]
    linarith
  have hnonneg : 0 ≤ value / spacing value := div_nonneg hvalue (spacing_pos value).le
  have hfloor : (value / spacing value).floor = 0 :=
    Int.floor_eq_zero_iff.2 ⟨hnonneg, by linarith⟩
  have hnone : roundHalfEven (value / spacing value) = 0 := by
    unfold roundHalfEven
    simp only [hfloor, Int.cast_zero, sub_zero]
    rw [if_neg (not_lt.2 hhalf), if_pos (by decide : (0 : Int) % 2 = 0), ite_self]
  rw [round_eq, hnone, Int.cast_zero, zero_mul]

theorem abs_round_sub_le_half_spacing (value : ℚ) : |round value - value| ≤ spacing value / 2 := by
  have hspacing := spacing_pos value
  calc |round value - value| =
        |roundHalfEven (value / spacing value) - value / spacing value| * spacing value := by
        rw [round_eq, ← abs_of_pos hspacing, ← abs_mul, abs_of_pos hspacing, sub_mul,
          div_mul_cancel₀ _ hspacing.ne']
    _ ≤ 1 / 2 * spacing value :=
        mul_le_mul_of_nonneg_right (abs_roundHalfEven_sub_le_half _) hspacing.le
    _ = spacing value / 2 := by ring

/-- One part in `2 ^ 53` is lost, or half of the smallest double. -/
theorem abs_round_sub_le_relative (value : ℚ) :
    |round value - value| ≤ |value| / 2 ^ 53 + 2 ^ (-1075 : Int) := by
  by_cases hvalue : value = 0
  · simp [hvalue]
  have hhalf := abs_round_sub_le_half_spacing value
  rcases (neg_1074_le_spacingExponent value).eq_or_lt with hsmall | hlarge
  · rw [spacing_eq_zpow, ← hsmall] at hhalf
    have hloss : (0 : ℚ) ≤ |value| / 2 ^ 53 := by positivity
    have hstep : (2 : ℚ) ^ (-1075 : Int) = 2 ^ (-1074 : Int) * (2 : ℚ)⁻¹ :=
      zpow_sub_one₀ two_ne_zero (-1074)
    linarith
  · have hsize := mul_spacing_le_abs hvalue hlarge
    have htiny : (0 : ℚ) < 2 ^ (-1075 : Int) := by positivity
    linarith

theorem abs_round_sub_le_of_onGrid (hgrid : OnGrid value) :
    |round value - value| ≤ |value| / 2 ^ 53 := by
  by_cases hvalue : value = 0
  · simp [hvalue]
  have hhalf := abs_round_sub_le_half_spacing value
  rcases (neg_1074_le_spacingExponent value).eq_or_lt with hsmall | hlarge
  · obtain ⟨digits, hdigits⟩ := hgrid
    have hnear : |round value - value| ≤ |value - value| :=
      abs_round_sub_le_of_multiple (hdigits.trans (by rw [spacing_eq_zpow, ← hsmall]))
    rw [sub_self, abs_zero] at hnear
    exact hnear.trans (by positivity)
  · have hsize := mul_spacing_le_abs hvalue hlarge
    linarith

theorem abs_add_sub_le {left : ℚ} (hleft : IsDouble left) (right : ℚ) :
    |add left right - (left + right)| ≤ |right| := by
  have hnear := abs_round_sub_le (left + right) hleft
  rwa [sub_add_cancel_left, abs_neg] at hnear

theorem abs_add_sub_le_relative {left right : ℚ} (hleft : IsDouble left) (hright : IsDouble right) :
    |add left right - (left + right)| ≤ |left + right| / 2 ^ 53 :=
  abs_round_sub_le_of_onGrid (hleft.onGrid.add hright.onGrid)

end Round

section Truncate

variable {value : ℚ} {bound : Int}

theorem truncate_neg (value : ℚ) : truncate (-value) = -truncate value := by
  rw [truncate, truncate, Rat.num_neg_eq_neg_num, Rat.den_neg_eq_den, Int.neg_tdiv]

theorem truncate_of_nonneg (hvalue : 0 ≤ value) : truncate value = ⌊value⌋ := by
  rw [truncate, Int.tdiv_eq_ediv_of_nonneg (Rat.num_nonneg.2 hvalue), Rat.floor_def']

theorem truncate_of_nonpos (hvalue : value ≤ 0) : truncate value = ⌈value⌉ := by
  rw [← neg_neg value, truncate_neg, truncate_of_nonneg (by linarith), Int.ceil_neg]

theorem truncate_le (hvalue : value ≤ bound) : truncate value ≤ bound := by
  rcases le_total 0 value with hpos | hneg
  · rw [truncate_of_nonneg hpos]
    exact_mod_cast (Int.floor_le value).trans hvalue
  · rw [truncate_of_nonpos hneg]
    exact Int.ceil_le.2 hvalue

theorem truncate_le_of_lt (hbound : 0 ≤ bound) (hvalue : value < bound + 1) :
    truncate value ≤ bound := by
  rcases le_total 0 value with hpos | hneg
  · rw [truncate_of_nonneg hpos]
    exact Int.lt_add_one_iff.1 (Int.floor_lt.2 (by exact_mod_cast hvalue))
  · exact truncate_le (hneg.trans (by exact_mod_cast hbound))

end Truncate

end ChoreRota.Binary64
