import Mathlib.Algebra.Order.Field.Power
import Mathlib.Tactic.NormNum.Pow
import VectorBench.Proofs.Binary.Nearest

/-!
# Reading decimals

The exact value of a decimal, and that reading it yields the number nearest to this value.  So the
exact decimal of a number is read as that number.

    Nearest f .even (d.value * 2 ^ f.unitBits) (d.toBinary f s).magnitude        (toBinary_nearest)
    (ofBinary x).toBinary f x.negative = x                                       (toBinary_ofBinary)
-/

namespace VectorBench

/-! ## Counting digits -/

theorem tenPower_eq_pow (n : Nat) : tenPower n = 10 ^ n := rfl

theorem digitCount_pos (n : Nat) : 0 < digitCount n := Nat.length_toDigits_pos

theorem lt_pow_digitCount (n : Nat) : n < 10 ^ digitCount n :=
  (Nat.length_toDigits_le_iff (by decide) (digitCount_pos n)).1 le_rfl

theorem pow_digitCount_le {n : Nat} (h : n ≠ 0) : 10 ^ (digitCount n - 1) ≤ n := by
  rcases Nat.lt_or_ge 1 (digitCount n) with h1 | h1
  · by_contra hlt
    have hle := (Nat.length_toDigits_le_iff (b := 10) (n := n) (by decide)
      (show 0 < digitCount n - 1 by omega)).2 (by omega)
    have : (Nat.toDigits 10 n).length = digitCount n := rfl
    omega
  · rw [show digitCount n - 1 = 0 by omega]
    omega

/-- A power of ten with an integer exponent, by the two powers that are computed. -/
theorem zpow_eq_div (e : Int) : (10 : ℚ) ^ e = 10 ^ e.toNat / 10 ^ (-e).toNat := by
  rcases le_total 0 e with h | h
  · obtain ⟨n, rfl⟩ := Int.eq_ofNat_of_zero_le h
    simp
  · obtain ⟨n, hn⟩ := Int.eq_ofNat_of_zero_le (Int.neg_nonneg_of_nonpos h)
    have he : e = -(n : Int) := by omega
    subst he
    simp

namespace Decimal

/-! ## Values -/

def value (d : Decimal) : ℚ := d.coefficient * 10 ^ d.exponent

theorem pow_leading_le {d : Decimal} (h : d.coefficient ≠ 0) : (10 : ℚ) ^ d.leading ≤ d.value := by
  have hc : ((10 : ℚ) ^ (digitCount d.coefficient - 1)) ≤ d.coefficient := by
    exact_mod_cast pow_digitCount_le h
  have hpos := digitCount_pos d.coefficient
  have hl : d.leading = ((digitCount d.coefficient - 1 : Nat) : Int) + d.exponent := by
    unfold leading
    omega
  rw [hl, zpow_add₀ (by norm_num), zpow_natCast, value]
  exact mul_le_mul_of_nonneg_right hc (by positivity)

theorem value_lt_pow (d : Decimal) : d.value < (10 : ℚ) ^ (d.leading + 1) := by
  have hc : (d.coefficient : ℚ) < 10 ^ digitCount d.coefficient := by
    exact_mod_cast lt_pow_digitCount d.coefficient
  have hl : d.leading + 1 = (digitCount d.coefficient : Int) + d.exponent := by
    unfold leading
    omega
  rw [hl, zpow_add₀ (by norm_num), zpow_natCast, value]
  exact mul_lt_mul_of_pos_right hc (by positivity)

theorem value_ofDigits (whole fraction : List Char) (e : Int) :
    (ofDigits whole fraction e).value =
      Nat.ofDigitChars 10 (whole ++ fraction) 0 * 10 ^ (e - fraction.length) := rfl

/-! ## Reading -/

variable {f : Format}

/-- A number as large as this is beyond all finite ones. -/
theorem unitsOf_infinity_le (f : Format) :
    Binary.unitsOf f f.infinity ≤ 10 ^ f.unitBits * 2 ^ f.unitBits := by
  have hlimit : Binary.limitBits f ≤ f.unitBits + f.unitBits := by cases f <;> decide
  rw [Binary.unitsOf_infinity]
  calc 2 ^ Binary.limitBits f ≤ 2 ^ (f.unitBits + f.unitBits) := Nat.pow_le_pow_right Nat.two_pos hlimit
    _ = 2 ^ f.unitBits * 2 ^ f.unitBits := Nat.pow_add 2 _ _
    _ ≤ 10 ^ f.unitBits * 2 ^ f.unitBits :=
      Nat.mul_le_mul_right _ (Nat.pow_le_pow_left (by decide) _)

theorem unitsOf_infinity_le_value {d : Decimal} (h0 : d.coefficient ≠ 0)
    (h : (f.unitBits : Int) < d.leading) :
    (Binary.unitsOf f f.infinity : ℚ) ≤ d.value * 2 ^ f.unitBits := by
  have hv := pow_leading_le h0
  have hp : (10 : ℚ) ^ (f.unitBits : Int) ≤ 10 ^ d.leading :=
    zpow_le_zpow_right₀ (by norm_num) (by omega)
  rw [zpow_natCast] at hp
  have hu : (Binary.unitsOf f f.infinity : ℚ) ≤ 10 ^ f.unitBits * 2 ^ f.unitBits := by
    exact_mod_cast unitsOf_infinity_le f
  exact le_trans hu (mul_le_mul_of_nonneg_right (le_trans hp hv) (by positivity))

/-- A number as small as this is far below half a unit. -/
theorem value_lt_half_unit {d : Decimal} (h : d.leading < -(f.unitBits : Int)) :
    2 * (d.value * 2 ^ f.unitBits) < 1 := by
  have hv := value_lt_pow d
  have hp : (10 : ℚ) ^ (d.leading + 1) ≤ 10 ^ (-(f.unitBits : Int)) :=
    zpow_le_zpow_right₀ (by norm_num) (by omega)
  have hten : (10 : ℚ) ^ (-(f.unitBits : Int)) * 2 ^ f.unitBits = (5 ^ f.unitBits)⁻¹ := by
    rw [zpow_neg, zpow_natCast, show (10 : ℚ) = 5 * 2 by norm_num, mul_pow]
    field_simp
  have hlt : d.value * 2 ^ f.unitBits < (5 ^ f.unitBits)⁻¹ := by
    rw [← hten]
    exact mul_lt_mul_of_pos_right (lt_of_lt_of_le hv hp) (by positivity)
  have h5 : ((5 : ℚ) ^ f.unitBits)⁻¹ ≤ 5⁻¹ := by
    apply inv_anti₀ (by norm_num)
    exact le_self_pow₀ (by norm_num) (by cases f <;> decide)
  linarith

/-- All other numbers are rounded as one exact quotient. -/
theorem ofRatio_nearest (d : Decimal) (s : Bool) :
    Nearest f .even (d.value * 2 ^ f.unitBits)
      (Binary.ofRatio f s (d.coefficient * tenPower d.exponent.toNat * twoPower f.unitBits)
        (tenPower (-d.exponent).toNat)).magnitude := by
  have hd : 0 < tenPower (-d.exponent).toNat := Nat.pow_pos (by decide)
  have hn := f.magnitudeOfRatio_nearest
    (n := d.coefficient * tenPower d.exponent.toNat * twoPower f.unitBits) hd
  have hq : ((d.coefficient * tenPower d.exponent.toNat * twoPower f.unitBits : Nat) : ℚ) /
      (tenPower (-d.exponent).toNat : Nat) = d.value * 2 ^ f.unitBits := by
    rw [value, zpow_eq_div, twoPower_eq_pow, tenPower_eq_pow, tenPower_eq_pow]
    push_cast
    ring
  rw [hq] at hn
  rw [Binary.ofRatio, Binary.ofMagnitude_magnitude hn.le_infinity]
  exact hn

theorem toBinary_negative (d : Decimal) (s : Bool) : (d.toBinary f s).negative = s := by
  unfold toBinary
  split
  · rfl
  · split
    · rfl
    · split <;> rfl

/-- Reading a decimal yields the number nearest to its exact value. -/
theorem toBinary_nearest (d : Decimal) (s : Bool) :
    Nearest f .even (d.value * 2 ^ f.unitBits) (d.toBinary f s).magnitude := by
  unfold toBinary
  split
  · rename_i h0
    have hv : d.value = 0 := by
      unfold value
      rw [h0]
      simp
    exact nearest_zero (by rw [hv]; norm_num)
  · rename_i h0
    split
    · rename_i hbig
      exact nearest_infinity (unitsOf_infinity_le_value h0 hbig)
    · split
      · rename_i hsmall
        exact nearest_zero (value_lt_half_unit hsmall)
      · exact ofRatio_nearest d s

/-- A decimal with the value of a number is read as that number. -/
theorem toBinary_eq_of_value {d : Decimal} {x : Binary f} (hx : x.magnitude ≤ f.infinity)
    (h : d.value * 2 ^ f.unitBits = x.units) : d.toBinary f x.negative = x := by
  apply Binary.eq_of_parts
  · rw [toBinary_negative]
  · have hd := toBinary_nearest (f := f) d x.negative
    rw [h] at hd
    exact hd.unique (nearest_unitsOf .even hx)

/-! ## The exact decimal of a number -/

theorem value_ofBinary (x : Binary f) : (ofBinary x).value * 2 ^ f.unitBits = x.units := by
  have hu : x.units = x.significand * 2 ^ x.exponent := Binary.unitsOf_eq f x.magnitude
  rw [hu]
  unfold ofBinary
  split
  · rename_i h
    obtain ⟨k, hk⟩ : ∃ k, x.exponent = k + f.unitBits := ⟨x.exponent - f.unitBits, by omega⟩
    rw [hk, Nat.add_sub_cancel, twoPower_eq_pow, value, pow_add]
    push_cast
    ring
  · rename_i h
    obtain ⟨k, hk⟩ : ∃ k, f.unitBits = x.exponent + k := ⟨f.unitBits - x.exponent, by omega⟩
    simp only [value, hk, Nat.add_sub_cancel_left, Nat.pow_eq]
    rw [zpow_neg, zpow_natCast, show (10 : ℚ) = 5 * 2 by norm_num, mul_pow, pow_add]
    push_cast
    field_simp

theorem toBinary_ofBinary {x : Binary f} (hx : x.magnitude ≤ f.infinity) :
    (ofBinary x).toBinary f x.negative = x :=
  toBinary_eq_of_value hx (value_ofBinary x)

end Decimal

end VectorBench
