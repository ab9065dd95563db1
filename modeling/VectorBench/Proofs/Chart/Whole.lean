import VectorBench.Chart.Ticks
import VectorBench.Proofs.Binary.Error
import VectorBench.Proofs.Binary.Product

/-!
# Whole numbers

The numbers that a chart counts and measures with.  A whole number goes to the nearest number there
is, the small ones to themselves and the largest ones to infinity; so larger ones do not become
smaller, and all but zero are at least one.  No part of a number and all of it are what they should be.

    n < 2 ^ 53 → (whole64 n).value = n                                              (whole64_value)
    m ≤ n → (whole64 m).magnitude ≤ (whole64 n).magnitude                            (whole64_mono)
    whole64 n / whole64 n = whole64 1 and x * whole64 1 = x        (whole64_div_self, mul_whole64_one)
-/

namespace VectorBench

theorem whole64_eq (n : Nat) : whole64 n = .ofRatio .double false (n * 2 ^ 1074) 1 :=
  Binary.ofScaled_eq_ofRatio false n 1074

theorem whole64_nearest (n : Nat) :
    Nearest .double .even (n * 2 ^ 1074) (whole64 n).magnitude := by
  have hnearest := Format.magnitudeOfRatio_nearest .double (n := n * 2 ^ 1074) Nat.one_pos
  rw [Nat.cast_one, div_one] at hnearest
  rw [whole64_eq, Binary.ofRatio, Binary.ofMagnitude_magnitude hnearest.le_infinity]
  exact_mod_cast hnearest

theorem whole64_negative (n : Nat) : (whole64 n).negative = false := rfl

theorem whole64_mono {m n : Nat} (h : m ≤ n) : (whole64 m).magnitude ≤ (whole64 n).magnitude := by
  have hcast : (m : ℚ) ≤ n := by exact_mod_cast h
  exact (whole64_nearest m).mono (whole64_nearest n) (mul_le_mul_of_nonneg_right hcast (by positivity))

theorem whole64_cases (n : Nat) : (whole64 n).isFinite = true ∨ whole64 n = .infinity false := by
  have hnan : (whole64 n).isNaN = false := Binary.isNaN_eq_false_iff.2 (whole64_nearest n).le_infinity
  refine (Binary.finite_or_infinity hnan).imp_right fun ⟨negative, h⟩ => ?_
  have hsign : negative = false := (congrArg Binary.negative h).symm
  rw [h, hsign]

/-- A whole number of no more than 53 bits needs no rounding. -/
theorem whole64_exact {n : Nat} (h : n < 2 ^ 53) :
    (whole64 n).isFinite = true ∧ |(whole64 n).value| = n := by
  have hlimit : n * 2 ^ 1074 < Binary.unitsOf .double Format.double.infinity :=
    Binary.pow_lt_unitsOf_infinity h le_rfl (by decide)
  have hunits : (n : ℚ) * 2 ^ Format.double.unitBits = (n * 2 ^ 1074 : Nat) := by
    rw [Nat.cast_mul, Nat.cast_pow, Nat.cast_ofNat]
    rfl
  exact (whole64_nearest n).value_eq hunits (Nat.le_of_lt h) hlimit

theorem whole64_isFinite {n : Nat} (h : n < 2 ^ 53) : (whole64 n).isFinite = true :=
  (whole64_exact h).1

theorem whole64_value {n : Nat} (h : n < 2 ^ 53) : (whole64 n).value = n := by
  rw [← (whole64_exact h).2, Binary.abs_value, Binary.value_of_positive (whole64_negative n)]

theorem whole64_zero_value : (whole64 0).value = 0 :=
  (whole64_value (by norm_num)).trans Nat.cast_zero

theorem whole64_one_value : (whole64 1).value = 1 :=
  (whole64_value (by norm_num)).trans Nat.cast_one

theorem one_le_value {n : Nat} (h : 0 < n) : 1 ≤ (whole64 n).value :=
  whole64_one_value.ge.trans
    (Binary.value_le_of_magnitude_le (whole64_negative 1) (whole64_negative n) (whole64_mono h))

theorem whole64_isZero {n : Nat} (h : 0 < n) : (whole64 n).isZero = false := by
  rw [Binary.isZero, beq_eq_false_iff_ne]
  intro hzero
  have hvalue : (whole64 n).value = 0 := by
    rw [Binary.value_eq_zero_iff, Binary.units, hzero, Binary.unitsOf_zero]
  exact absurd (one_le_value h) (by rw [hvalue]; norm_num)

theorem div_infinity {x : Binary64} (hx : x.isFinite = true) :
    x / .infinity false = .zero x.negative := by
  have hinfinite : (Binary.infinity false : Binary64).isInfinite = true := rfl
  have hnan : (Binary.infinity false : Binary64).isNaN = false := rfl
  change Binary.div x (.infinity false) = _
  simp only [Binary.div, Binary.isNaN_eq_false_of_isFinite hx,
    Binary.isInfinite_eq_false_of_isFinite hx, hinfinite, hnan, Bool.or_false, Bool.false_eq_true,
    if_false, if_true]
  cases x.negative <;> rfl

/-- A whole number other than zero is one times itself. -/
theorem whole64_div_self {n : Nat} (h : 0 < n) (hfinite : (whole64 n).isFinite = true) :
    whole64 n / whole64 n = whole64 1 := by
  have hvalue : (whole64 n).value ≠ 0 := ne_of_gt (lt_of_lt_of_le one_pos (one_le_value h))
  have hnearest := Binary.div_nearest hfinite hfinite (whole64_isZero h)
  rw [div_self hvalue, abs_one, ← Nat.cast_one] at hnearest
  refine Binary.eq_of_parts ?_ (hnearest.unique (whole64_nearest 1))
  exact Binary.div_negative hfinite hfinite (whole64_isZero h)

theorem whole64_zero_div {n : Nat} (h : 0 < n) : whole64 0 / whole64 n = .zero false := by
  rcases whole64_cases n with hfinite | hinfinite
  · have hzero := Binary.div_nearest (x := whole64 0) (by decide) hfinite (whole64_isZero h)
    rw [whole64_zero_value, zero_div, abs_zero, zero_mul] at hzero
    refine Binary.eq_of_parts ?_ (hzero.unique (nearest_zero (by norm_num)))
    exact Binary.div_negative (x := whole64 0) (by decide) hfinite (whole64_isZero h)
  · rw [hinfinite, div_infinity (whole64_isFinite (by norm_num)), whole64_negative]

/-- A number times one needs no rounding. -/
theorem mul_whole64_one {x : Binary64} (hx : x.isFinite = true) : x * whole64 1 = x := by
  have hone := whole64_isFinite (n := 1) (by norm_num)
  have hlt : x.magnitude < Format.double.infinity := decide_eq_true_iff.1 hx
  have hnearest := Binary.mul_nearest hx hone
  rw [whole64_one_value, mul_one, Binary.abs_value, div_mul_cancel₀ _ (by positivity)] at hnearest
  refine Binary.eq_of_parts ?_ (hnearest.unique (nearest_unitsOf .even hlt.le))
  rw [Binary.mul_negative hx hone, whole64_negative, Bool.bne_false]

end VectorBench
