import VectorBench.Chart
import VectorBench.Proofs.Chart.Whole

/-!
# Heights of bars

A bar is as high as its share of the axis.  Multiplying, taking the slack away and rounding up all keep
the order, so that the height follows the share: from no pixel for no share to all pixels of the plot
for all of it.  What is between may be off by a pixel, but the order never is.

    q.value ≤ r.value → shareHeight q ≤ shareHeight r                              (shareHeight_mono)
-/

namespace VectorBench

open Binary (ofUnits)

/-- The height of a bar that takes a share of the axis. -/
def shareHeight (share : Binary64) : Int :=
  -((whole64 plotHeight).neg * share - pixelSlack).ceilInt

variable {bound value q r : Binary64} {n k : Nat}

theorem barAt_height : (barAt bound n k value).height = shareHeight (value / bound) := by
  simp only [barAt, pixelLine, shareHeight]
  omega

theorem barAt_y : (barAt bound n k value).y = baseLine - shareHeight (value / bound) := by
  simp only [barAt, pixelLine, shareHeight]
  omega

/-- A share of the axis: no less than nothing and no more than all of it. -/
structure IsShare (q : Binary64) : Prop where
  finite : q.isFinite = true
  nonneg : 0 ≤ q.value
  at_most_one : q.value ≤ 1

/-! ## Pixels of a share -/

/-- The pixels of a share, above the base line and so with a sign. -/
def sharePixels (share : Binary64) : Binary64 := (whole64 plotHeight).neg * share

theorem plotHeight_isFinite : (whole64 plotHeight).neg.isFinite = true :=
  whole64_isFinite (n := plotHeight) (by decide)

theorem sharePixels_mono (hq : q.isFinite = true) (hr : r.isFinite = true)
    (h : |q.value| ≤ |r.value|) : (sharePixels q).magnitude ≤ (sharePixels r).magnitude := by
  refine (Binary.mul_nearest plotHeight_isFinite hq).mono (Binary.mul_nearest plotHeight_isFinite hr) ?_
  rw [abs_mul, abs_mul]
  exact mul_le_mul_of_nonneg_right (mul_le_mul_of_nonneg_left h (abs_nonneg _)) (by positivity)

theorem isShare_zero : IsShare (whole64 0) where
  finite := whole64_isFinite (by norm_num)
  nonneg := whole64_zero_value.ge
  at_most_one := whole64_zero_value.trans_le zero_le_one

theorem isShare_one : IsShare (whole64 1) where
  finite := whole64_isFinite (by norm_num)
  nonneg := zero_le_one.trans_eq whole64_one_value.symm
  at_most_one := whole64_one_value.le

theorem sharePixels_isFinite (hq : IsShare q) : (sharePixels q).isFinite = true := by
  have hle : |q.value| ≤ |(whole64 1).value| := by
    rw [abs_of_nonneg hq.nonneg, whole64_one_value, abs_one]
    exact hq.at_most_one
  have hall : (sharePixels (whole64 1)).magnitude < Format.double.infinity := by
    rw [sharePixels, mul_whole64_one plotHeight_isFinite]
    exact decide_eq_true_iff.1 plotHeight_isFinite
  exact decide_eq_true (Nat.lt_of_le_of_lt (sharePixels_mono hq.finite isShare_one.finite hle) hall)

/-- Pixels of a share are not positive, those of a negative zero included. -/
theorem sharePixels_signedUnits (hq : IsShare q) :
    (sharePixels q).signedUnits = -((sharePixels q).units : ℤ) := by
  have hsign := Binary.mul_negative plotHeight_isFinite hq.finite
  rw [Binary.signedUnits]
  cases hnegative : q.negative with
  | false =>
    rw [hnegative] at hsign
    exact if_pos hsign
  | true =>
    have hzero : q.value = 0 := by
      by_contra hne
      have hpositive := Binary.negative_eq_false_of_pos (lt_of_le_of_ne hq.nonneg (Ne.symm hne))
      rw [hnegative] at hpositive
      cases hpositive
    have hmagnitude : (sharePixels q).magnitude = 0 := by
      have hnearest := Binary.mul_nearest plotHeight_isFinite hq.finite
      rw [hzero, mul_zero, abs_zero, zero_mul] at hnearest
      exact hnearest.unique (nearest_zero (by norm_num))
    rw [Binary.units, hmagnitude, Binary.unitsOf_zero]
    split <;> rfl

theorem pixelSlack_eq : pixelSlack = .ofBits .double 0x3f50624dd2f1a9fc := by decide +kernel

/-- Behind the slack a share is a number of units that gets smaller as the share grows. -/
theorem sharePixels_sub_slack (hq : IsShare q) : sharePixels q - pixelSlack =
    ofUnits .double (-((sharePixels q).units + pixelSlack.units : Nat)) := by
  have hslack : pixelSlack.units ≠ 0 := by
    rw [pixelSlack_eq]
    exact Binary.units_ne_zero (by decide)
  have hsign : pixelSlack.negative = false := by
    rw [pixelSlack_eq]
    decide
  have hfinite : pixelSlack.neg.isFinite = true := by
    rw [pixelSlack_eq]
    decide
  have hneg : pixelSlack.neg.signedUnits = -(pixelSlack.units : ℤ) := by
    rw [Binary.signedUnits_neg, Binary.signedUnits, hsign, if_neg Bool.false_ne_true]
  change sharePixels q + pixelSlack.neg = _
  rw [Binary.add_eq_ofUnits (sharePixels_isFinite hq) hfinite, hneg,
    sharePixels_signedUnits hq, if_neg (by omega), ← neg_add, Nat.cast_add]

/-- A larger share has no lower bar. -/
theorem shareHeight_mono (hq : IsShare q) (hr : IsShare r) (h : q.value ≤ r.value) :
    shareHeight q ≤ shareHeight r := by
  have habs : |q.value| ≤ |r.value| := by
    rwa [abs_of_nonneg hq.nonneg, abs_of_nonneg hr.nonneg]
  have hunits : (sharePixels q).units ≤ (sharePixels r).units :=
    (Binary.unitsOf_strictMono .double).monotone (sharePixels_mono hq.finite hr.finite habs)
  have hceil : (sharePixels r - pixelSlack).ceilInt ≤ (sharePixels q - pixelSlack).ceilInt := by
    rw [sharePixels_sub_slack hq, sharePixels_sub_slack hr]
    exact Binary.ceilInt_mono (Binary.ofUnits_rank_mono (by omega))
  exact Int.neg_le_neg hceil

theorem shareHeight_bounds : shareHeight (whole64 0) = 0 ∧ shareHeight (whole64 1) = plotHeight := by
  decide +kernel

/-- No share has no height, whatever its sign. -/
theorem shareHeight_of_value_eq_zero (hq : IsShare q) (h : q.value = 0) : shareHeight q = 0 := by
  have hvalue : q.value = (whole64 0).value := h.trans whole64_zero_value.symm
  rw [← shareHeight_bounds.1]
  exact le_antisymm (shareHeight_mono hq isShare_zero hvalue.le)
    (shareHeight_mono isShare_zero hq hvalue.ge)

theorem shareHeight_mem (hq : IsShare q) : 0 ≤ shareHeight q ∧ shareHeight q ≤ plotHeight := by
  rw [← shareHeight_bounds.2]
  constructor
  · rw [← shareHeight_bounds.1]
    exact shareHeight_mono isShare_zero hq (whole64_zero_value.trans_le hq.nonneg)
  · exact shareHeight_mono hq isShare_one (hq.at_most_one.trans_eq whole64_one_value.symm)

end VectorBench
