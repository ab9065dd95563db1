import VectorBench.Proofs.Binary.Error
import VectorBench.Proofs.Binary.Product

/-!
# From one format to the other

A number of another format is the nearest one there.  Nothing is lost on the way from 32 to 64 bits,
and the square of a 32-bit number has few enough digits to be exact in 64 bits as well.

    Nearest g .even (|x.value| * 2 ^ g.unitBits) (x.toFormat g).magnitude          (toFormat_nearest)
    x.widen.value = x.value and (x.widen * x.widen).value = x.value ^ 2     (widen_value, square_value)
-/

namespace VectorBench.Binary

variable {f : Format}

theorem toFormat_eq_ofScaled {x : Binary f} (hx : x.isFinite = true) (g : Format) : x.toFormat g =
    ofScaled g x.negative x.significand (x.exponent + g.unitBits) f.unitBits := by
  simp only [toFormat, isNaN_eq_false_of_isFinite hx, isInfinite_eq_false_of_isFinite hx,
    Bool.false_eq_true, if_false]

theorem toFormat_negative {x : Binary f} (hx : x.isFinite = true) (g : Format) :
    (x.toFormat g).negative = x.negative := by
  rw [toFormat_eq_ofScaled hx]
  rfl

theorem toFormat_nearest {x : Binary f} (hx : x.isFinite = true) (g : Format) :
    Nearest g .even (|x.value| * 2 ^ g.unitBits) (x.toFormat g).magnitude := by
  have hnearest := g.magnitudeOfRatio_nearest (n := x.significand * 2 ^ (x.exponent + g.unitBits))
    (Nat.two_pow_pos f.unitBits)
  have hvalue : ((x.significand * 2 ^ (x.exponent + g.unitBits) : Nat) : ℚ) / (2 ^ f.unitBits : Nat) =
      |x.value| * 2 ^ g.unitBits := by
    rw [abs_value, units_eq, pow_add]
    push_cast
    ring
  rw [hvalue] at hnearest
  rw [toFormat_eq_ofScaled hx, ofScaled, Format.magnitudeOfScaled_eq_ratio,
    ofMagnitude_magnitude hnearest.le_infinity]
  exact hnearest

/-! ## From 32 to 64 bits -/

variable {x : Binary32}

theorem abs_value_eq (x : Binary f) :
    |x.value| = x.significand * 2 ^ x.exponent / 2 ^ f.unitBits := by
  rw [abs_value, units_eq]
  push_cast
  rfl

theorem significand_lt (x : Binary32) : x.significand < 2 ^ 24 := significandOf_lt .single x.magnitude

theorem exponent_le (hx : x.isFinite = true) : x.exponent ≤ 253 := by
  rw [isFinite, decide_eq_true_iff] at hx
  exact exponentOf_le hx

theorem abs_value_lt (hx : x.isFinite = true) : |x.value| < 2 ^ 128 := by
  have hsignificand : (x.significand : ℚ) < 2 ^ 24 := by exact_mod_cast x.significand_lt
  have hpow : (2 : ℚ) ^ x.exponent ≤ 2 ^ 253 := pow_le_pow_right₀ (by norm_num) (exponent_le hx)
  have hunit : Format.single.unitBits = 149 := rfl
  rw [abs_value_eq, hunit, div_lt_iff₀ (by positivity)]
  calc (x.significand : ℚ) * 2 ^ x.exponent
      ≤ x.significand * 2 ^ 253 := mul_le_mul_of_nonneg_left hpow (by positivity)
    _ < 2 ^ 24 * 2 ^ 253 := mul_lt_mul_of_pos_right hsignificand (by positivity)
    _ = 2 ^ 128 * 2 ^ 149 := by rw [← pow_add, ← pow_add]

theorem widen_negative (hx : x.isFinite = true) : x.widen.negative = x.negative :=
  toFormat_negative hx .double

theorem widen_exact (hx : x.isFinite = true) : x.widen.isFinite = true ∧ |x.widen.value| = |x.value| := by
  have hm := x.significand_lt
  have hunits : |x.value| * 2 ^ Format.double.unitBits =
      ((x.significand * 2 ^ (x.exponent + 925) : Nat) : ℚ) := by
    have hpow : (2 : ℚ) ^ 1074 = 2 ^ 925 * 2 ^ 149 := pow_add 2 925 149
    have hsingle : Format.single.unitBits = 149 := rfl
    have hdouble : Format.double.unitBits = 1074 := rfl
    rw [abs_value_eq, hsingle, hdouble, hpow, ← mul_assoc, div_mul_eq_mul_div,
      div_mul_cancel₀ _ (by positivity), Nat.cast_mul, Nat.cast_pow, Nat.cast_ofNat, pow_add,
      mul_assoc]
  refine (toFormat_nearest hx .double).value_eq hunits ?_ ?_
  · exact hm.le.trans (by decide)
  · exact pow_lt_unitsOf_infinity hm (Nat.add_le_add_right (exponent_le hx) 925) (by decide)

theorem widen_isFinite (hx : x.isFinite = true) : x.widen.isFinite = true := (widen_exact hx).1

theorem abs_widen_value (hx : x.isFinite = true) : |x.widen.value| = |x.value| := (widen_exact hx).2

/-- The square has no more digits than a 64-bit number holds. -/
theorem square_exact (hx : x.isFinite = true) : (x.widen * x.widen).isFinite = true ∧
    |(x.widen * x.widen).value| = x.value ^ 2 := by
  have hm : x.significand ^ 2 < 2 ^ 48 := by
    have := Nat.pow_lt_pow_left x.significand_lt (two_ne_zero)
    rwa [← Nat.pow_mul] at this
  have hsquare : |x.widen.value * x.widen.value| = x.value ^ 2 := by
    rw [abs_mul, abs_widen_value hx, ← sq, sq_abs]
  have hunits : x.value ^ 2 * 2 ^ Format.double.unitBits =
      ((x.significand ^ 2 * 2 ^ (2 * x.exponent + 776) : Nat) : ℚ) := by
    have hpow : (2 : ℚ) ^ 1074 = 2 ^ 776 * (2 ^ 149) ^ 2 := by
      rw [← pow_mul]
      exact pow_add 2 776 298
    have hsingle : Format.single.unitBits = 149 := rfl
    have hdouble : Format.double.unitBits = 1074 := rfl
    rw [← sq_abs, abs_value_eq, hsingle, hdouble, hpow, div_pow, ← mul_assoc, div_mul_eq_mul_div,
      div_mul_cancel₀ _ (by positivity), mul_pow, ← pow_mul, Nat.mul_comm x.exponent, Nat.cast_mul,
      Nat.cast_pow, Nat.cast_pow, Nat.cast_ofNat, pow_add, mul_assoc]
  have hnearest := mul_nearest (widen_isFinite hx) (widen_isFinite hx)
  rw [hsquare] at hnearest
  refine hnearest.value_eq hunits ?_ ?_
  · exact hm.le.trans (by decide)
  · have := exponent_le hx
    exact pow_lt_unitsOf_infinity hm (b := 1282) (by omega) (by decide)

theorem square_isFinite (hx : x.isFinite = true) : (x.widen * x.widen).isFinite = true :=
  (square_exact hx).1

theorem square_value (hx : x.isFinite = true) : (x.widen * x.widen).value = x.value ^ 2 := by
  have hsign : (x.widen * x.widen).negative = false := by
    rw [mul_negative (widen_isFinite hx) (widen_isFinite hx), bne_self_eq_false]
  rw [← (square_exact hx).2, abs_value, value_of_positive hsign]

end VectorBench.Binary
