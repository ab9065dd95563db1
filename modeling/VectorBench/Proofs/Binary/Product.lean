import VectorBench.Proofs.Binary.Value

/-!
# Products

The product of two finite numbers is formed from their significands and exponents and rounded once.
Nothing is left of a number times zero.

    x * y = ofScaled f _ (x.significand * y.significand) (x.exponent + y.exponent) f.unitBits
                                                                               (mul_eq_ofScaled)
    Nearest f .even (|x.value * y.value| * 2 ^ f.unitBits) (x * y).magnitude       (mul_nearest)
-/

namespace VectorBench.Binary

variable {f : Format} {x y : Binary f}

theorem mul_eq_ofScaled (hx : x.isFinite = true) (hy : y.isFinite = true) :
    x * y = ofScaled f (x.negative != y.negative) (x.significand * y.significand)
      (x.exponent + y.exponent) f.unitBits := by
  change mul x y = _
  simp only [mul, isNaN_eq_false_of_isFinite hx, isNaN_eq_false_of_isFinite hy,
    isInfinite_eq_false_of_isFinite hx, isInfinite_eq_false_of_isFinite hy, Bool.or_false,
    Bool.false_eq_true, if_false]

theorem mul_negative (hx : x.isFinite = true) (hy : y.isFinite = true) :
    (x * y).negative = (x.negative != y.negative) := by
  rw [mul_eq_ofScaled hx hy]
  rfl

/-- The product of finite numbers is the number nearest to the product of their values. -/
theorem mul_nearest (hx : x.isFinite = true) (hy : y.isFinite = true) :
    Nearest f .even (|x.value * y.value| * 2 ^ f.unitBits) (x * y).magnitude := by
  have hnearest := f.magnitudeOfRatio_nearest
    (n := x.significand * y.significand * 2 ^ (x.exponent + y.exponent)) (Nat.two_pow_pos f.unitBits)
  have hunits : x.significand * y.significand * 2 ^ (x.exponent + y.exponent) = x.units * y.units := by
    rw [units_eq, units_eq]
    ring
  have hvalue : ((x.units * y.units : Nat) : ℚ) / (2 ^ f.unitBits : Nat) =
      |x.value * y.value| * 2 ^ f.unitBits := by
    rw [abs_mul, abs_value, abs_value]
    push_cast
    field_simp
  rw [hunits, hvalue, ← hunits] at hnearest
  rw [mul_eq_ofScaled hx hy, ofScaled, Format.magnitudeOfScaled_eq_ratio,
    ofMagnitude_magnitude hnearest.le_infinity]
  exact hnearest

theorem mul_zero (hx : x.isFinite = true) (hsign : x.negative = false) :
    x * zero false = zero false := by
  have hzero : (zero false : Binary f).significand = 0 := Nat.zero_sub _
  have hfinite : (zero false : Binary f).isFinite = true := by cases f <;> rfl
  have hnone (up down : Nat) : f.magnitudeOfScaled 0 up down = 0 := rfl
  rw [mul_eq_ofScaled hx hfinite, hsign, hzero, Nat.mul_zero, ofScaled, hnone]
  exact eq_of_parts rfl (Nat.zero_min _)

end VectorBench.Binary
