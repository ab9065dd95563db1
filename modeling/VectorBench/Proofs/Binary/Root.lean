import Mathlib.Tactic.FieldSimp
import VectorBench.Proofs.Binary.Error

/-!
# Square roots

The root of a finite number that is not below zero is finite.  It is formed from the integer part of
a root in units, which is so long that its square has a smaller error than rounding gives it.  Since
rounding is monotone, a number whose square is not above the radicand is not above the root.

    y.value ^ 2 ≤ x.value → |y.value| ≤ x.sqrt.value                                (le_sqrt_value)
    |x.sqrt.value ^ 2 - x.value| ≤ 2 * x.value / f.hiddenBit                           (sqrt_error)
-/

namespace VectorBench

open Binary (unitsOf)

variable {f : Format}

/-- The root of a natural number, of whose fraction only half a unit is kept. -/
def halfRoot (n : Nat) : ℚ := if n.sqrt * n.sqrt = n then n.sqrt else n.sqrt + 1 / 2

theorem sqrt_le_halfRoot (n : Nat) : (n.sqrt : ℚ) ≤ halfRoot n := by
  unfold halfRoot
  split <;> linarith

/-- The square of a root is wrong by no more than the root. -/
theorem halfRoot_sq (n : Nat) : |halfRoot n ^ 2 - n| ≤ halfRoot n := by
  have hlow : (n.sqrt * n.sqrt : ℚ) ≤ n := by exact_mod_cast n.sqrt_le
  have hhigh : (n : ℚ) ≤ n.sqrt * n.sqrt + n.sqrt + n.sqrt := by exact_mod_cast n.sqrt_le_add
  unfold halfRoot
  split
  · rename_i hexact
    have hexact' : (n.sqrt : ℚ) ^ 2 = n := by
      rw [sq]
      exact_mod_cast hexact
    rw [hexact', sub_self, abs_zero]
    positivity
  · rename_i hinexact
    have hlt : (n.sqrt * n.sqrt : ℚ) + 1 ≤ n := by
      exact_mod_cast lt_of_le_of_ne n.sqrt_le hinexact
    rw [abs_le]
    constructor <;> linarith

theorem halfRoot_lt {n m : Nat} (h : n < m * m) : halfRoot n < m := by
  have hroot : (n.sqrt : ℚ) + 1 ≤ m := by exact_mod_cast Nat.sqrt_lt.2 h
  unfold halfRoot
  split <;> linarith

/-- Rounding a long root leaves its square with an error of four roundings. -/
theorem root_error {r c n h : ℚ} (hh : 1 ≤ h) (hc : 4 * h ≤ c) (hround : 2 * |r - c| ≤ c / h)
    (hroot : |c ^ 2 - n| ≤ c) : |r ^ 2 - n| ≤ 2 * n / h := by
  have hpos : 0 < h := by linarith
  -- the distance of two numbers of this size
  obtain ⟨u, hu⟩ : ∃ u, c / h = u := ⟨_, rfl⟩
  have hcu : c = u * h := (div_eq_iff hpos.ne').1 hu
  have hu4 : 4 ≤ u := by
    rw [← hu, le_div_iff₀ hpos]
    exact hc
  rw [hu] at hround
  have hsquare : |r ^ 2 - c ^ 2| ≤ u ^ 2 / 4 + c * u := by
    have hfactor : r ^ 2 - c ^ 2 = (r - c) ^ 2 + 2 * c * (r - c) := by ring
    have habs : |(r - c) ^ 2 + 2 * c * (r - c)| ≤ |r - c| ^ 2 + 2 * c * |r - c| := by
      refine (abs_add_le _ _).trans (le_of_eq ?_)
      rw [abs_pow, abs_mul, abs_of_nonneg (show 0 ≤ 2 * c by linarith)]
    have hsq : |r - c| ^ 2 ≤ (u / 2) ^ 2 := pow_le_pow_left₀ (abs_nonneg _) (by linarith) 2
    have hmul : 2 * c * |r - c| ≤ 2 * c * (u / 2) :=
      mul_le_mul_of_nonneg_left (by linarith) (by linarith)
    rw [hfactor]
    linarith
  have hsplit : |r ^ 2 - n| ≤ |r ^ 2 - c ^ 2| + |c ^ 2 - n| := by
    have heq : r ^ 2 - n = (r ^ 2 - c ^ 2) + (c ^ 2 - n) := by ring
    rw [heq]
    exact abs_add_le _ _
  have hn := (abs_le.1 hroot).2
  have hrest : u / 4 + h + 2 ≤ c := by
    have huh : u ≤ c := by
      rw [hcu]
      exact le_mul_of_one_le_right (by linarith) hh
    linarith
  have hrest' := mul_le_mul_of_nonneg_left hrest (show 0 ≤ c by linarith)
  rw [le_div_iff₀ hpos]
  calc |r ^ 2 - n| * h
      ≤ (u ^ 2 / 4 + c * u + c) * h := mul_le_mul_of_nonneg_right (by linarith) hpos.le
    _ = c * (u / 4 + h) + c ^ 2 := by
        rw [hcu]
        ring
    _ ≤ 2 * n := by linarith

namespace Binary

variable {x y : Binary f}

/-- The radicand in squares of units. -/
def radicand (x : Binary f) : Nat := x.units * 2 ^ f.unitBits

theorem radicand_eq (h : 0 ≤ x.value) :
    (x.radicand : ℚ) = x.value * (2 ^ f.unitBits * 2 ^ f.unitBits) := by
  have hunits : x.value * 2 ^ f.unitBits = x.units := by
    rw [← abs_of_nonneg h, abs_value, div_mul_cancel₀ _ (by positivity)]
  rw [← mul_assoc, hunits, radicand]
  push_cast
  rfl

theorem sqrt_of_pos (hx : x.isFinite = true) (h : 0 < x.value) : x.sqrt =
    ofRatio f false (if x.radicand.sqrt * x.radicand.sqrt = x.radicand then 2 * x.radicand.sqrt
      else 2 * x.radicand.sqrt + 1) 2 := by
  have hradicand : x.significand * twoPower (x.exponent + f.unitBits) = x.radicand := by
    rw [radicand, units_eq, twoPower_eq_pow, Nat.pow_add, Nat.mul_assoc]
  simp only [sqrt, isNaN_eq_false_of_isFinite hx, isInfinite_eq_false_of_isFinite hx,
    isZero_eq_false_of_pos h, negative_eq_false_of_pos h, Bool.false_eq_true, if_false, hradicand]

/-- The root of a positive number is the number nearest to the root in units. -/
theorem sqrt_nearest (hx : x.isFinite = true) (h : 0 < x.value) :
    Nearest f .even (halfRoot x.radicand) x.sqrt.magnitude ∧ x.sqrt.negative = false := by
  rw [sqrt_of_pos hx h]
  refine ⟨?_, rfl⟩
  have hnearest := f.magnitudeOfRatio_nearest
    (n := if x.radicand.sqrt * x.radicand.sqrt = x.radicand then 2 * x.radicand.sqrt
      else 2 * x.radicand.sqrt + 1) Nat.two_pos
  rw [ofRatio, ofMagnitude_magnitude hnearest.le_infinity]
  convert hnearest using 1
  unfold halfRoot
  split
  · push_cast
    ring
  · push_cast
    ring

theorem sqrt_of_zero (h : x.value = 0) : x.sqrt = x := by
  have hmagnitude : x.magnitude = 0 := by
    by_contra hne
    exact units_ne_zero (beq_eq_false_iff_ne.2 hne) (value_eq_zero_iff.1 h)
  have hnan : x.isNaN = false := isNaN_eq_false_iff.2 (by omega)
  have hzero : x.isZero = true := beq_iff_eq.2 hmagnitude
  simp only [sqrt, hnan, hzero, Bool.false_eq_true, if_false, if_true]

/-! ## The size of a root -/

/-- The exponent of a power of two that is above the root of every finite number, in units. -/
def rootBits (f : Format) : Nat := (limitBits f + f.unitBits) / 2

theorem rootBits_lt (f : Format) : rootBits f < limitBits f := by
  cases f <;> decide

theorem halfRoot_radicand_lt (hx : x.isFinite = true) : halfRoot x.radicand < 2 ^ rootBits f := by
  have hunits : x.units < 2 ^ limitBits f := by
    rw [← unitsOf_infinity]
    exact unitsOf_strictMono f (decide_eq_true_iff.1 hx)
  have hbits : limitBits f + f.unitBits = rootBits f + rootBits f := by
    cases f <;> decide
  have hradicand : x.radicand < 2 ^ rootBits f * 2 ^ rootBits f := by
    rw [radicand, ← Nat.pow_add, ← hbits, Nat.pow_add]
    exact Nat.mul_lt_mul_of_pos_right hunits (Nat.two_pow_pos _)
  exact_mod_cast halfRoot_lt hradicand

/-- The root of a positive number is far longer than a significand. -/
theorem le_halfRoot_radicand (h : 0 < x.value) : 4 * (f.hiddenBit : ℚ) ≤ halfRoot x.radicand := by
  have hunits : 1 ≤ x.units := Nat.pos_of_ne_zero (units_ne_zero (isZero_eq_false_of_pos h))
  have hlong : 4 * f.hiddenBit * (4 * f.hiddenBit) ≤ 2 ^ f.unitBits := by
    rw [f.hiddenBit_eq_pow, show 4 * 2 ^ f.fractionBits * (4 * 2 ^ f.fractionBits) =
      2 ^ (2 * f.fractionBits + 4) by ring]
    exact Nat.pow_le_pow_right Nat.two_pos (by cases f <;> decide)
  have hroot : 4 * f.hiddenBit ≤ x.radicand.sqrt :=
    Nat.le_sqrt.2 (hlong.trans (Nat.le_mul_of_pos_left _ hunits))
  have hroot' : (4 * f.hiddenBit : ℚ) ≤ x.radicand.sqrt := by exact_mod_cast hroot
  exact hroot'.trans (sqrt_le_halfRoot _)

/-- The root of a finite number is finite, and it is not below zero. -/
theorem sqrt_isFinite (hx : x.isFinite = true) (h : 0 ≤ x.value) :
    x.sqrt.isFinite = true ∧ 0 ≤ x.sqrt.value := by
  rcases h.eq_or_lt with hzero | hpos
  · rw [sqrt_of_zero hzero.symm]
    exact ⟨hx, h⟩
  · obtain ⟨hnearest, hsign⟩ := sqrt_nearest hx hpos
    have hfinite := (hnearest.le_pow (halfRoot_radicand_lt hx).le (rootBits_lt f)).1
    refine ⟨decide_eq_true hfinite, ?_⟩
    rw [value_of_positive hsign]
    positivity

/-- A number whose square is not above a number is not above its root. -/
theorem le_sqrt_value (hx : x.isFinite = true) (h : 0 ≤ x.value) (hy : y.isFinite = true)
    (hsquare : y.value ^ 2 ≤ x.value) : |y.value| ≤ x.sqrt.value := by
  rcases h.eq_or_lt with hzero | hpos
  · rw [← hzero] at hsquare
    have hy0 : y.value = 0 := pow_eq_zero_iff two_ne_zero |>.1 (le_antisymm hsquare (sq_nonneg _))
    rw [sqrt_of_zero hzero.symm, hy0, abs_zero]
    exact h
  · obtain ⟨hnearest, hsign⟩ := sqrt_nearest hx hpos
    have hunit : (0 : ℚ) < 2 ^ f.unitBits := by positivity
    have hunits : (y.units * y.units : ℚ) ≤ x.radicand := by
      rw [radicand_eq h, ← div_le_iff₀ (by positivity), mul_div_mul_comm, ← abs_value, ← sq, sq_abs]
      exact hsquare
    have hroot : y.units ≤ x.radicand.sqrt := Nat.le_sqrt.2 (by exact_mod_cast hunits)
    have hle : (unitsOf f y.magnitude : ℚ) ≤ halfRoot x.radicand :=
      le_trans (by exact_mod_cast hroot) (sqrt_le_halfRoot _)
    have hmagnitude :=
      (nearest_unitsOf .even (decide_eq_true_iff.1 hy).le).mono hnearest hle
    have hmono : (y.units : ℚ) ≤ x.sqrt.units := by
      exact_mod_cast (unitsOf_strictMono f).monotone hmagnitude
    rw [abs_value, value_of_positive hsign]
    exact div_le_div_of_nonneg_right hmono hunit.le

/-- The square of a root is all but the radicand. -/
theorem sqrt_error (hx : x.isFinite = true) (h : 0 ≤ x.value) :
    |x.sqrt.value ^ 2 - x.value| ≤ 2 * x.value / f.hiddenBit := by
  rcases h.eq_or_lt with hzero | hpos
  · rw [sqrt_of_zero hzero.symm, ← hzero]
    norm_num
  · obtain ⟨hnearest, hsign⟩ := sqrt_nearest hx hpos
    have hhidden : (1 : ℚ) ≤ f.hiddenBit := by exact_mod_cast f.hiddenBit_pos
    have hlong := le_halfRoot_radicand hpos
    have hlimit : halfRoot x.radicand ≤ unitsOf f f.infinity := by
      rw [unitsOf_infinity]
      push_cast
      exact (halfRoot_radicand_lt hx).le.trans
        (pow_le_pow_right₀ one_le_two (rootBits_lt f).le)
    have hround := hnearest.error (by linarith) hlimit
    have hone : 1 ≤ halfRoot x.radicand / f.hiddenBit := by
      rw [le_div_iff₀ (by linarith)]
      linarith
    rw [max_eq_right hone] at hround
    have herror := root_error hhidden hlong hround (halfRoot_sq _)
    have hunit : (0 : ℚ) < 2 ^ f.unitBits * 2 ^ f.unitBits := by positivity
    have hvalue : x.sqrt.value ^ 2 - x.value =
        ((unitsOf f x.sqrt.magnitude : ℚ) ^ 2 - x.radicand) / (2 ^ f.unitBits * 2 ^ f.unitBits) := by
      rw [radicand_eq h, sub_div, mul_div_cancel_right₀ _ hunit.ne', value_of_positive hsign, div_pow,
        ← sq]
      rfl
    rw [hvalue, abs_div, abs_of_pos hunit, div_le_iff₀ hunit]
    refine herror.trans (le_of_eq ?_)
    rw [radicand_eq h]
    ring

end Binary

end VectorBench
