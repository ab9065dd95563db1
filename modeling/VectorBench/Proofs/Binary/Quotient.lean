import VectorBench.Binary.Arith
import VectorBench.Proofs.Binary.Comparison

/-!
# Quotients

Where neither operand is a NaN, an infinity or, as the divisor, a zero, the quotient is that of two
finite numbers: it is no NaN, and zero divided by anything is zero.
-/

namespace VectorBench

theorem Format.magnitudeOfRatio_zero (f : Format) (d : Nat) : f.magnitudeOfRatio 0 d = 0 := by
  have hround : roundHalfEven 0 (d * twoPower 0) = 0 := by
    rcases Nat.eq_zero_or_pos (d * twoPower 0) with hd | hd <;> simp [roundHalfEven, hd]
  simp [magnitudeOfRatio, hround]

namespace Binary

variable {f : Format} {x y : Binary f}

theorem ofMagnitude_isNaN (f : Format) (negative : Bool) (g : Nat) :
    (ofMagnitude f negative g).isNaN = false :=
  isNaN_eq_false_iff.2 (Nat.min_le_right g f.infinity)

/-- The quotient of finite numbers, the divisor not being zero. -/
theorem div_eq_divFinite (hx : x.isFinite = true) (hy : y.isFinite = true)
    (hzero : y.isZero = false) : x / y = divFinite (x.negative != y.negative) x y := by
  change div x y = _
  simp only [div, isNaN_eq_false_of_isFinite hx, isNaN_eq_false_of_isFinite hy,
    isInfinite_eq_false_of_isFinite hx, isInfinite_eq_false_of_isFinite hy, hzero, Bool.or_false,
    Bool.false_eq_true, if_false]

theorem div_isNaN (hx : x.isFinite = true) (hy : y.isFinite = true) (hzero : y.isZero = false) :
    (x / y).isNaN = false := by
  rw [div_eq_divFinite hx hy hzero]
  exact ofMagnitude_isNaN f _ _

theorem zero_div_signedMagnitude (hx : x.isZero = true) (hy : y.isFinite = true)
    (hzero : y.isZero = false) : (x / y).signedMagnitude = 0 := by
  have hmagnitude : x.magnitude = 0 := eq_of_beq hx
  have hfinite : x.isFinite = true := by
    rw [isFinite, hmagnitude]
    cases f <;> rfl
  have hsignificand : x.significand = 0 := by
    rw [significand, significandOf, hmagnitude, Nat.zero_sub]
  rw [div_eq_divFinite hfinite hy hzero, divFinite, hsignificand, Nat.zero_mul, ofRatio,
    Format.magnitudeOfRatio_zero]
  simp [ofMagnitude, signedMagnitude]

end Binary

end VectorBench
