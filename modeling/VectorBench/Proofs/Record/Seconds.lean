import VectorBench.Proofs.Binary.Value
import VectorBench.Proofs.Record.Fit

/-!
# Values of seconds

A number of seconds has a value that is not below zero, and a quotient of two is not below zero either:
only a negative zero has a sign.

    Nearest .double .even (c.value / b.value * 2 ^ 1074) (c / b).magnitude     (IsSeconds.div_nearest)
-/

namespace VectorBench

variable {b c : Binary64}

theorem isZero_of_not_isPositive (hb : IsSeconds b) (h : b.isPositive = false) : b.isZero = true := by
  rw [← Bool.not_eq_true, Binary.isPositive_iff hb.finite] at h
  refine beq_iff_eq.2 ?_
  cases hsign : b.negative with
  | true => exact hb.not_below hsign
  | false => exact Nat.eq_zero_of_not_pos fun hpos => h ⟨hsign, hpos⟩

theorem IsSeconds.value_eq (hc : IsSeconds c) : c.value = c.units / 2 ^ 1074 := by
  cases hsign : c.negative with
  | false => exact Binary.value_of_positive hsign
  | true =>
    have hunits : c.units = 0 := by
      rw [Binary.units, hc.not_below hsign, Binary.unitsOf_zero]
    rw [hunits, Nat.cast_zero, zero_div, Binary.value_eq_zero_iff, hunits]

theorem IsSeconds.value_nonneg (hc : IsSeconds c) : 0 ≤ c.value := by
  rw [hc.value_eq]
  positivity

theorem value_pos (hfinite : b.isFinite = true) (hpos : b.isPositive = true) : 0 < b.value := by
  obtain ⟨hsign, -⟩ := (Binary.isPositive_iff hfinite).1 hpos
  have hzero := Binary.isZero_eq_false_of_isPositive hpos
  have hunits : (0 : ℚ) < b.units := by
    exact_mod_cast Nat.pos_of_ne_zero (Binary.units_ne_zero hzero)
  rw [Binary.value_of_positive hsign]
  positivity

theorem isSeconds_of_isPositive (hfinite : b.isFinite = true) (hpos : b.isPositive = true) :
    IsSeconds b where
  finite := hfinite
  not_below := by
    intro hsign
    rw [((Binary.isPositive_iff hfinite).1 hpos).1] at hsign
    cases hsign

theorem IsSeconds.value_le_iff (hb : IsSeconds b) (hc : IsSeconds c) :
    b.le c = true ↔ b.value ≤ c.value :=
  Binary.le_iff_value_le (Binary.isNaN_eq_false_of_isFinite hb.finite)
    (Binary.isNaN_eq_false_of_isFinite hc.finite)

/-! ## Quotients -/

theorem IsSeconds.div_negative (hb : IsSeconds b) (hc : IsSeconds c) (hpos : b.isPositive = true) :
    (c / b).negative = c.negative := by
  have hzero := Binary.isZero_eq_false_of_isPositive hpos
  have hsign := ((Binary.isPositive_iff hb.finite).1 hpos).1
  rw [Binary.div_negative hc.finite hb.finite hzero, hsign, Bool.bne_false]

theorem IsSeconds.div_nearest (hb : IsSeconds b) (hc : IsSeconds c) (hpos : b.isPositive = true) :
    Nearest .double .even (c.value / b.value * 2 ^ 1074) (c / b).magnitude := by
  have hnearest :=
    Binary.div_nearest hc.finite hb.finite (Binary.isZero_eq_false_of_isPositive hpos)
  rwa [abs_of_nonneg (div_nonneg hc.value_nonneg hb.value_nonneg)] at hnearest

theorem IsSeconds.div_not_below (hb : IsSeconds b) (hc : IsSeconds c) (hpos : b.isPositive = true) :
    0 ≤ (c / b).signedMagnitude := by
  rw [Binary.signedMagnitude, hb.div_negative hc hpos]
  cases hc' : c.negative with
  | false => exact Int.natCast_nonneg _
  | true =>
    have hvalue : c.value = 0 := by
      rw [Binary.value_eq_zero_iff, Binary.units, hc.not_below hc', Binary.unitsOf_zero]
    have hzero : Nearest .double .even (c.value / b.value * 2 ^ 1074) 0 := by
      rw [hvalue]
      exact nearest_zero (by norm_num)
    rw [(hb.div_nearest hc hpos).unique hzero]
    decide

end VectorBench
