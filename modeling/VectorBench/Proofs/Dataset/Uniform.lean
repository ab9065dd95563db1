import VectorBench.Dataset
import VectorBench.Proofs.Binary.Sum

/-!
# The number of a random word

The upper 23 bits of a word are the numerator of a fraction of `2 ^ 23`, and the number drawn is
exactly that fraction: with the exponent of one in front they make a number in `[1, 2)`, and taking
one away from it needs no rounding.

    word.toNat / 2 ^ 9 * 2 ^ 126 units, a unit being 2 ^ (-149)                 (uniform_isFraction)
-/

namespace VectorBench

open Binary

/-- The numerator that the upper bits of a word are. -/
def numerator (word : UInt32) : Nat := word.toNat / 2 ^ 9

theorem numerator_lt (word : UInt32) : numerator word < Format.single.hiddenBit := by
  have h := word.toNat_lt
  rw [numerator, Nat.div_lt_iff_lt_mul (by decide)]
  exact h

/-- The number is the fraction `numerator word / 2 ^ 23` of the interval that is drawn from. -/
structure IsFraction (word : UInt32) (x : Binary32) : Prop where
  negative : x.negative = false
  units : x.units = numerator word * 2 ^ 126
  from_lower : valueRange.1.le x = true
  below_upper : x.lt valueRange.2 = true

/-- The upper end, in units. -/
theorem units_upper : unitsOf .single valueRange.2.magnitude = Format.single.hiddenBit * 2 ^ 126 :=
  unitsOf_binade .single 126 Format.single.hiddenBit (.inr (Nat.le_refl _)) (by decide)

theorem signedUnits_upper :
    valueRange.2.signedUnits = (Format.single.hiddenBit * 2 ^ 126 : ℕ) :=
  congrArg Nat.cast units_upper

/-- The bits of a word behind the exponent of one. -/
theorem toNat_fractionBits (word : UInt32) :
    (word >>> 9 ||| 0x3f800000).toNat = 126 * Format.single.hiddenBit +
      (Format.single.hiddenBit + numerator word) := by
  have hdisjoint : 2 ^ 23 * 127 + numerator word = 2 ^ 23 * 127 ||| numerator word :=
    Nat.two_pow_add_eq_or_of_lt (numerator_lt word) 127
  have hshift : (word >>> 9).toNat = numerator word := by
    rw [UInt32.toNat_shiftRight, Nat.shiftRight_eq_div_pow]
    rfl
  have hone : (0x3f800000 : UInt32).toNat = 2 ^ 23 * 127 := rfl
  rw [UInt32.toNat_or, hshift, hone, Nat.or_comm, ← hdisjoint, Format.hiddenBit]
  omega

/-- With the exponent of one in front, a word is a number in `[1, 2)`. -/
theorem units_fractionBits (word : UInt32) :
    (ofBits .single (word >>> 9 ||| 0x3f800000).toNat).isFinite = true ∧
      (ofBits .single (word >>> 9 ||| 0x3f800000).toNat).negative = false ∧
      (ofBits .single (word >>> 9 ||| 0x3f800000).toNat).units =
        (Format.single.hiddenBit + numerator word) * 2 ^ 126 := by
  have hlt := numerator_lt word
  have hbelow : 126 * Format.single.hiddenBit + (Format.single.hiddenBit + numerator word) <
      Format.single.infinity := by
    rw [Format.hiddenBit] at hlt
    rw [Format.hiddenBit, Format.infinity]
    omega
  have hlimit : Format.single.infinity < Format.single.magnitudeLimit := by decide
  rw [toNat_fractionBits]
  generalize hbits : 126 * Format.single.hiddenBit + (Format.single.hiddenBit + numerator word) =
    bits at hbelow
  have hmagnitude : (ofBits .single bits).magnitude = bits := Nat.mod_eq_of_lt (by omega)
  refine ⟨?_, ?_, ?_⟩
  · rw [isFinite, hmagnitude]
    exact decide_eq_true hbelow
  · rw [ofBits, Nat.div_eq_of_lt (by omega)]
    rfl
  · rw [Binary.units, hmagnitude, ← hbits]
    exact unitsOf_binade .single 126 _ (.inr (Nat.le_add_right _ _)) (by omega)

/-- The number that a word is mapped to, without any rounding. -/
theorem uniform_isFraction (word : UInt32) : IsFraction word (uniform word) := by
  have hlt := numerator_lt word
  obtain ⟨hfinite, hnegative, hunits⟩ := units_fractionBits word
  obtain ⟨g, hg⟩ := exists_unitsOf .single 126 (m := numerator word) (by omega)
  have hbelow : g < valueRange.2.magnitude := by
    rw [← (unitsOf_strictMono .single).lt_iff_lt, hg, units_upper]
    exact Nat.mul_lt_mul_of_pos_right hlt (Nat.two_pow_pos 126)
  have hdifference : uniform word = ofUnits .single (unitsOf .single g) := by
    have h := sub_eq_ofUnits hfinite hnegative (x := valueRange.2) (by decide)
    have hvalue : (((Format.single.hiddenBit + numerator word) * 2 ^ 126 : ℕ) : ℤ) -
        (Format.single.hiddenBit * 2 ^ 126 : ℕ) = (numerator word * 2 ^ 126 : ℕ) := by
      rw [Nat.add_mul, Nat.cast_add, add_sub_cancel_left]
    rw [signedUnits, hnegative, hunits, signedUnits_upper, if_neg Bool.false_ne_true, hvalue] at h
    rw [hg]
    exact h
  obtain ⟨hsign, hmagnitude⟩ := ofUnits_unitsOf (f := .single) (Nat.lt_trans hbelow (by decide))
  rw [← hdifference] at hsign hmagnitude
  have hnumber : (uniform word).isNaN = false := by
    rw [hdifference]
    exact ofUnits_isNaN _ _
  have hsigned : (uniform word).signedMagnitude = g := by
    rw [signedMagnitude, hsign, hmagnitude, if_neg Bool.false_ne_true]
  exact {
    negative := hsign
    units := by rw [Binary.units, hmagnitude, hg]
    from_lower := by
      rw [Binary.le, hnumber, hsigned]
      exact decide_eq_true (Int.natCast_nonneg g)
    below_upper := by
      rw [lt_eq_true_iff, hsigned]
      exact ⟨hnumber, by decide, Int.ofNat_lt.2 hbelow⟩ }

end VectorBench
