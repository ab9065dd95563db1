import VectorBench.Proofs.Chart.Height
import VectorBench.Proofs.Record.Seconds

/-!
# The bound of an axis

The axis reaches a tenth above the longest time.  Where that is a finite number it covers every time,
and the longest one has at least five sixths of it: the time itself is a number that the product may be
rounded to, so that the tenth becomes at most a fifth, as it does with five times the least number.
Above `longestFitting` the product is infinite.

    (x * headroom).isFinite ↔ x.value ≤ longestFitting.value              (mul_headroom_isFinite_iff)
    CoversAll times (axisBound times)                                          (coversAll_axisBound)
-/

namespace VectorBench

open Binary (unitsOf value_of_positive)

/-! ## The longest time -/

/-- The longest of some times; nothing, if there is none. -/
def longestOf (times : List Binary64) : Binary64 := times.foldl Binary.max (.zero false)

/-- What is known of the longest of some times. -/
structure Longest (times : List Binary64) (x : Binary64) : Prop where
  seconds : IsSeconds x
  covers : ∀ t ∈ times, t.value ≤ x.value
  attained : x.value = 0 ∨ x ∈ times

variable {times : List Binary64} {x t : Binary64}

theorem longest_nil : Longest [] (.zero false) where
  seconds := ⟨by decide, fun h => by cases h⟩
  covers := fun t ht => absurd ht List.not_mem_nil
  attained := .inl (Binary.zero_value false)

theorem Longest.max (h : Longest times x) (ht : IsSeconds t) : Longest (times ++ [t]) (x.max t) := by
  have hx := Binary.isNaN_eq_false_of_isFinite h.seconds.finite
  have hnan := Binary.isNaN_eq_false_of_isFinite ht.finite
  rw [Binary.max, hx, if_neg Bool.false_ne_true]
  split
  · rename_i hlt
    have hle := (Binary.value_strictMono hlt).le
    refine ⟨ht, fun s hs => ?_, .inr (List.mem_append_right _ (List.mem_singleton_self t))⟩
    rcases List.mem_append.1 hs with hs | hs
    · exact (h.covers s hs).trans hle
    · rw [List.mem_singleton.1 hs]
  · rename_i hnot
    have hle := Binary.value_le_of_not_lt hx hnan hnot
    refine ⟨h.seconds, fun s hs => ?_, h.attained.imp_right (List.mem_append_left _)⟩
    rcases List.mem_append.1 hs with hs | hs
    · exact h.covers s hs
    · rw [List.mem_singleton.1 hs]
      exact hle

theorem longest_longestOf (h : ∀ t ∈ times, IsSeconds t) : Longest times (longestOf times) := by
  induction times using List.reverseRecOn with
  | nil => exact longest_nil
  | append_singleton times t ih =>
    have htimes : ∀ s ∈ times, IsSeconds s := fun s hs => h s (List.mem_append_left _ hs)
    have hfold : longestOf (times ++ [t]) = (longestOf times).max t := by simp [longestOf]
    rw [hfold]
    exact (ih htimes).max (h t (List.mem_append_right _ (List.mem_singleton_self t)))

/-! ## The bound of the axis -/

/-- What the longest time is multiplied by: the number nearest to eleven tenths. -/
def headroom : Binary64 := decimal64 11 (-1)

theorem axisBound_eq (times : List Binary64) : axisBound times =
    if (longestOf times).isPositive then longestOf times * headroom else whole64 1 := rfl

theorem headroom_eq : headroom = .ofBits .double 0x3ff199999999999a := by decide +kernel

theorem headroom_isFinite : headroom.isFinite = true := by
  rw [headroom_eq]
  decide

theorem headroom_negative : headroom.negative = false := by
  rw [headroom_eq]
  decide

theorem headroom_value : headroom.value = 4953959590107546 / 2 ^ 52 := by
  have hs : headroom.significand = 4953959590107546 := by
    rw [headroom_eq]
    decide
  have he : headroom.exponent = 1022 := by
    rw [headroom_eq]
    decide
  rw [Binary.value_of_parts headroom_negative hs he (by decide)]
  norm_num [Format.unitBits]

/-- The longest time of which a tenth more is a finite number. -/
def longestFitting : Binary64 := .ofBits .double 0x7fed1745d1745d16

def nextFitting : Binary64 := .ofBits .double 0x7fed1745d1745d17

theorem mul_headroom_nearest (hx : x.isFinite = true) (hpos : x.isPositive = true) :
    Nearest .double .even (x.value * headroom.value * 2 ^ 1074) (x * headroom).magnitude := by
  have hnearest := Binary.mul_nearest hx headroom_isFinite
  have hnonneg : 0 ≤ x.value * headroom.value := by
    rw [headroom_value]
    exact mul_nonneg (value_pos hx hpos).le (by positivity)
  rwa [abs_of_nonneg hnonneg] at hnearest

theorem mul_headroom_negative (hx : x.isFinite = true) (hpos : x.isPositive = true) :
    (x * headroom).negative = false := by
  rw [Binary.mul_negative hx headroom_isFinite, ((Binary.isPositive_iff hx).1 hpos).1,
    headroom_negative]
  rfl

/-- A tenth more of a longer time is not less. -/
theorem mul_headroom_mono {y : Binary64} (hx : x.isFinite = true) (hxpos : x.isPositive = true)
    (hy : y.isFinite = true) (hypos : y.isPositive = true) (h : x.value ≤ y.value) :
    (x * headroom).magnitude ≤ (y * headroom).magnitude := by
  refine (mul_headroom_nearest hx hxpos).mono (mul_headroom_nearest hy hypos) ?_
  have hheadroom : 0 ≤ headroom.value := by
    rw [headroom_value]
    positivity
  exact mul_le_mul_of_nonneg_right (mul_le_mul_of_nonneg_right h hheadroom) (by positivity)

theorem mul_headroom_isFinite_iff (hx : x.isFinite = true) (hpos : x.isPositive = true) :
    (x * headroom).isFinite = true ↔ x.value ≤ longestFitting.value := by
  have hlast : (longestFitting * headroom).magnitude < Format.double.infinity := by decide +kernel
  have hover : (nextFitting * headroom).magnitude = Format.double.infinity := by decide +kernel
  rw [Binary.isFinite, decide_eq_true_iff]
  constructor
  · intro hlt
    by_contra hle
    have hsign := ((Binary.isPositive_iff hx).1 hpos).1
    have hmagnitude : longestFitting.magnitude < x.magnitude := by
      by_contra hnot
      exact hle (Binary.value_le_of_magnitude_le hsign rfl (Nat.le_of_not_lt hnot))
    have hnext : nextFitting.value ≤ x.value := Binary.value_le_of_magnitude_le rfl hsign hmagnitude
    have hmono := mul_headroom_mono (x := nextFitting) (by decide) (by decide) hx hpos hnext
    omega
  · intro hle
    have hmono := mul_headroom_mono hx hpos (y := longestFitting) (by decide) (by decide) hle
    omega

theorem unitsOf_of_isPositive (hx : x.isFinite = true) (hpos : x.isPositive = true) :
    (unitsOf .double x.magnitude : ℚ) = x.value * 2 ^ 1074 := by
  rw [(isSeconds_of_isPositive hx hpos).value_eq, div_mul_cancel₀ _ (by positivity)]
  rfl

/-- The bound covers the time. -/
theorem le_mul_headroom (hx : x.isFinite = true) (hpos : x.isPositive = true) :
    x.value ≤ (x * headroom).value := by
  have hsign := ((Binary.isPositive_iff hx).1 hpos).1
  have hvalue := value_pos hx hpos
  have hself : (unitsOf .double x.magnitude : ℚ) ≤ x.value * headroom.value * 2 ^ 1074 := by
    rw [unitsOf_of_isPositive hx hpos]
    refine mul_le_mul_of_nonneg_right (le_mul_of_one_le_right hvalue.le ?_) (by positivity)
    rw [headroom_value]
    norm_num
  have hmagnitude := (nearest_unitsOf .even (decide_eq_true_iff.1 hx).le).mono
    (mul_headroom_nearest hx hpos) hself
  exact Binary.value_le_of_magnitude_le hsign (mul_headroom_negative hx hpos) hmagnitude

theorem le_of_near {b v h u : ℚ} (hv : 0 ≤ v * u) (hh : 1 ≤ h)
    (hnear : |v * u - v * h * u| ≥ |b - v * h * u|) : b ≤ (2 * h - 1) * v * u := by
  have hdifference : v * u - v * h * u = -((h - 1) * (v * u)) := by ring
  rw [hdifference, abs_neg, abs_of_nonneg (mul_nonneg (by linarith) hv)] at hnear
  have hhigh := (abs_le.1 hnear).2
  linarith

/-- The time itself is a number that the product may be rounded to, and so the product is no further
from the exact one: it has at most twice the headroom. -/
theorem mul_headroom_value_le (hx : x.isFinite = true) (hpos : x.isPositive = true) :
    (x * headroom).value ≤ (2 * headroom.value - 1) * x.value := by
  have hunit : (0 : ℚ) < 2 ^ 1074 := by positivity
  have hvalue := mul_pos (value_pos hx hpos) hunit
  have hheadroom : 1 ≤ headroom.value := by
    rw [headroom_value]
    norm_num
  have hnear := (mul_headroom_nearest hx hpos).near x.magnitude (decide_eq_true_iff.1 hx).le
  rw [unitsOf_of_isPositive hx hpos] at hnear
  rw [value_of_positive (mul_headroom_negative hx hpos)]
  exact (div_le_iff₀ hunit).2 (le_of_near hvalue.le hheadroom hnear)

/-! ## Shares of the axis -/

theorem isShare_div {v bound : Binary64} (hv : IsSeconds v) (hfinite : bound.isFinite = true)
    (hpos : bound.isPositive = true) (hle : v.value ≤ bound.value) : IsShare (v / bound) := by
  have hbound := isSeconds_of_isPositive hfinite hpos
  have hnonneg := Binary.value_nonneg_of_signedMagnitude (hbound.div_not_below hv hpos)
  obtain ⟨hfinite', hone⟩ := Binary.abs_value_le_one (hbound.div_nearest hv hpos)
    ((div_le_one (value_pos hfinite hpos)).2 hle)
  rw [abs_of_nonneg hnonneg] at hone
  exact ⟨hfinite', hnonneg, hone⟩

/-- A longer time has no smaller share. -/
theorem div_value_mono {v w bound : Binary64} (hv : IsSeconds v) (hw : IsSeconds w)
    (hfinite : bound.isFinite = true) (hpos : bound.isPositive = true) (hle : v.value ≤ w.value) :
    (v / bound).value ≤ (w / bound).value := by
  have hbound := isSeconds_of_isPositive hfinite hpos
  have hvalue := value_pos hfinite hpos
  have habs := Binary.abs_value_mono (hbound.div_nearest hv hpos) (hbound.div_nearest hw hpos)
    (mul_le_mul_of_nonneg_right (div_le_div_of_nonneg_right hle hvalue.le) (by positivity))
  rwa [abs_of_nonneg (Binary.value_nonneg_of_signedMagnitude (hbound.div_not_below hv hpos)),
    abs_of_nonneg (Binary.value_nonneg_of_signedMagnitude (hbound.div_not_below hw hpos))] at habs

/-- A share a little below five sixths, which still has as many pixels. -/
def tallShare : Binary64 := .ofBits .double 0x3feaaaaaaaaaaaa0

theorem shareHeight_tallShare : shareHeight tallShare = 250 := by decide +kernel

theorem tallShare_value : tallShare.value = 7505999378950816 / 2 ^ 53 := by
  have hs : tallShare.significand = 7505999378950816 := by decide
  have he : tallShare.exponent = 1021 := by decide
  rw [Binary.value_of_parts rfl hs he (by decide)]
  norm_num [Format.unitBits]

theorem isShare_tallShare : IsShare tallShare where
  finite := by decide
  nonneg := by
    rw [tallShare_value]
    positivity
  at_most_one := by
    rw [tallShare_value]
    norm_num

/-- The longest time has five sixths of the axis. -/
theorem tallShare_le (hx : x.isFinite = true) (hpos : x.isPositive = true)
    (hfinite : (x * headroom).isFinite = true) (hbound : (x * headroom).isPositive = true) :
    tallShare.value ≤ (x / (x * headroom)).value := by
  have hvalue := value_pos hfinite hbound
  have hshare : tallShare.value ≤ x.value / (x * headroom).value := by
    rw [le_div_iff₀ hvalue]
    have hle := mul_le_mul_of_nonneg_left (mul_headroom_value_le hx hpos)
      (show 0 ≤ tallShare.value by rw [tallShare_value]; positivity)
    refine hle.trans ?_
    rw [← mul_assoc, tallShare_value, headroom_value]
    exact mul_le_of_le_one_left (value_pos hx hpos).le (by norm_num)
  have hseconds := isSeconds_of_isPositive hfinite hbound
  have hx' := isSeconds_of_isPositive hx hpos
  have hself : Nearest .double .even (tallShare.value * 2 ^ 1074) tallShare.magnitude := by
    rw [← unitsOf_of_isPositive (by decide) (by decide)]
    exact nearest_unitsOf .even (by decide)
  have habs := Binary.abs_value_mono hself (hseconds.div_nearest hx' hbound)
    (mul_le_mul_of_nonneg_right hshare (by positivity))
  exact (le_abs_self _).trans (habs.trans_eq
    (abs_of_nonneg (Binary.value_nonneg_of_signedMagnitude (hseconds.div_not_below hx' hbound))))

/-! ## The axis -/

/-- What is known of the bound of an axis. -/
structure CoversAll (times : List Binary64) (bound : Binary64) : Prop where
  finite : bound.isFinite = true
  positive : bound.isPositive = true
  covers : ∀ t ∈ times, t.value ≤ bound.value
  tall : (∃ t ∈ times, t.isPositive = true) → ∃ t ∈ times, tallShare.value ≤ (t / bound).value

theorem isPositive_of_value_pos (hx : x.isFinite = true) (h : 0 < x.value) : x.isPositive = true := by
  rw [Binary.isPositive_iff hx]
  exact ⟨Binary.negative_eq_false_of_pos h,
    Nat.pos_of_ne_zero (beq_eq_false_iff_ne.1 (Binary.isZero_eq_false_of_pos h))⟩

theorem value_nonpos_of_not_isPositive (hx : x.isFinite = true) (h : x.isPositive = false) :
    x.value ≤ 0 := by
  by_contra hnot
  rw [isPositive_of_value_pos hx (not_le.1 hnot)] at h
  cases h

theorem coversAll_axisBound (h : ∀ t ∈ times, IsSeconds t)
    (hfit : (longestOf times).value ≤ longestFitting.value) : CoversAll times (axisBound times) := by
  have hlongest := longest_longestOf h
  have hfinite := hlongest.seconds.finite
  rw [axisBound_eq]
  cases hpos : (longestOf times).isPositive with
  | false =>
    have hzero := value_nonpos_of_not_isPositive hfinite hpos
    rw [if_neg Bool.false_ne_true]
    have hone : (whole64 1).isFinite = true := whole64_isFinite (by norm_num)
    have hpositive : (whole64 1).isPositive = true :=
      isPositive_of_value_pos hone (whole64_one_value ▸ one_pos)
    refine ⟨hone, hpositive, fun t ht => ?_, fun ⟨t, ht, htpos⟩ => ?_⟩
    · rw [whole64_one_value]
      exact (hlongest.covers t ht).trans (hzero.trans zero_le_one)
    · have hcovers := hlongest.covers t ht
      have := value_pos (h t ht).finite htpos
      linarith
  | true =>
    rw [if_pos rfl]
    have hbound := (mul_headroom_isFinite_iff hfinite hpos).2 hfit
    have hle := le_mul_headroom hfinite hpos
    have hbpos := isPositive_of_value_pos hbound (lt_of_lt_of_le (value_pos hfinite hpos) hle)
    refine ⟨hbound, hbpos, fun t ht => (hlongest.covers t ht).trans hle, fun _ => ?_⟩
    refine ⟨longestOf times, hlongest.attained.resolve_left (value_pos hfinite hpos).ne', ?_⟩
    exact tallShare_le hfinite hpos hbound hbpos

theorem longestFitting_pos : 0 < longestFitting.value := value_pos (by decide) (by decide)

theorem longestOf_le_of_finite (h : ∀ t ∈ times, IsSeconds t)
    (hbound : (axisBound times).isFinite = true) :
    (longestOf times).value ≤ longestFitting.value := by
  have hfinite := (longest_longestOf h).seconds.finite
  cases hpos : (longestOf times).isPositive with
  | false => exact (value_nonpos_of_not_isPositive hfinite hpos).trans longestFitting_pos.le
  | true =>
    rw [axisBound_eq, hpos, if_pos rfl] at hbound
    exact (mul_headroom_isFinite_iff hfinite hpos).1 hbound

/-- A bound that is not finite is infinite, as rounding makes it. -/
theorem axisBound_eq_infinity (h : ∀ t ∈ times, IsSeconds t)
    (hlong : longestFitting.value < (longestOf times).value) :
    axisBound times = .infinity false := by
  have hfinite := (longest_longestOf h).seconds.finite
  have hpos := isPositive_of_value_pos hfinite (longestFitting_pos.trans hlong)
  have hover : ¬ (longestOf times * headroom).isFinite = true := by
    rw [mul_headroom_isFinite_iff hfinite hpos]
    exact not_le.2 hlong
  rw [Binary.isFinite, decide_eq_true_iff, not_lt] at hover
  rw [axisBound_eq, if_pos hpos]
  exact Binary.eq_of_parts (mul_headroom_negative hfinite hpos)
    (Nat.le_antisymm (mul_headroom_nearest hfinite hpos).le_infinity hover)

theorem longestOf_le_iff (h : ∀ t ∈ times, IsSeconds t) :
    (longestOf times).value ≤ longestFitting.value ↔ ∀ t ∈ times, t.le longestFitting = true := by
  have hlongest := longest_longestOf h
  have hfitting := isSeconds_of_isPositive (b := longestFitting) (by decide) (by decide)
  constructor
  · intro hle t ht
    exact ((h t ht).value_le_iff hfitting).2 ((hlongest.covers t ht).trans hle)
  · intro hall
    rcases hlongest.attained with hzero | hmem
    · rw [hzero]
      exact longestFitting_pos.le
    · exact Binary.value_mono (hall _ hmem)

end VectorBench
