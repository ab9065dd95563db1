import VectorBench.Proofs.Binary.Value

/-!
# Rounding errors

How far from an exact value the nearest magnitude is: half a unit where magnitudes are one unit apart,
and otherwise at most one part in twice the hidden bit of the value.  A value that a magnitude has is
not changed at all, so that whole numbers of units have the relative bound without exception.

    2 * |unitsOf f g - q| ≤ max 1 (q / f.hiddenBit)                                (Nearest.error)
    2 * |unitsOf f g - n| ≤ n / f.hiddenBit                                (Nearest.error_natCast)
    2 * ||x.value| - v| ≤ max (1 / 2 ^ f.unitBits) (v / f.hiddenBit)        (Nearest.value_error)
-/

namespace VectorBench

open Binary (unitsOf exponentOf significandOf)

variable {f : Format} {tie : Tie} {q : ℚ} {g k : Nat}

/-- The distance to the next magnitude is one unit, or it is small against the value. -/
theorem pow_exponentOf_le (f : Format) (g : Nat) :
    (2 : ℚ) ^ exponentOf f g ≤ max 1 ((unitsOf f g : ℚ) / f.hiddenBit) := by
  have hpos : (0 : ℚ) < f.hiddenBit := by exact_mod_cast f.hiddenBit_pos
  by_cases he : exponentOf f g = 0
  · rw [he, pow_zero]
    exact le_max_left _ _
  · refine le_max_of_le_right ((le_div_iff₀ hpos).2 ?_)
    have hunits := Binary.unitsOf_eq f g
    have hmul := Nat.mul_le_mul_right (2 ^ exponentOf f g) (Binary.hiddenBit_le_significandOf he)
    rw [← hunits, Nat.mul_comm] at hmul
    exact_mod_cast hmul

theorem unitsOf_add_one (f : Format) (g : Nat) :
    (unitsOf f (g + 1) : ℚ) = unitsOf f g + 2 ^ exponentOf f g := by
  exact_mod_cast Binary.unitsOf_succ f g

/-- The error of rounding is at most half the distance of the magnitudes on both sides. -/
theorem Nearest.error (h : Nearest f tie q g) (hlow : 0 ≤ q) (hhigh : q ≤ unitsOf f f.infinity) :
    2 * |(unitsOf f g : ℚ) - q| ≤ max 1 (q / f.hiddenBit) := by
  have hpos : (0 : ℚ) < f.hiddenBit := by exact_mod_cast f.hiddenBit_pos
  have hzero : (0 : ℚ) ≤ max 1 (q / f.hiddenBit) := le_max_of_le_left zero_le_one
  -- the distance of magnitudes below the value is bounded by the value
  have hstep : ∀ k, (unitsOf f k : ℚ) ≤ q → (2 : ℚ) ^ exponentOf f k ≤ max 1 (q / f.hiddenBit) := by
    intro k hk
    exact le_trans (pow_exponentOf_le f k)
      (max_le_max_left _ (div_le_div_of_nonneg_right hk hpos.le))
  obtain ⟨hinfinity, hbelow, habove⟩ := nearest_iff.1 h
  rcases le_total (unitsOf f g : ℚ) q with hle | hge
  · rw [abs_of_nonpos (by linarith)]
    rcases Nat.lt_or_eq_of_le hinfinity with hlt | rfl
    · have hmid := (habove (g + 1) hlt (Nat.lt_succ_self g)).1
      have hgap := hstep g hle
      rw [unitsOf_add_one] at hmid
      linarith
    · linarith
  · rw [abs_of_nonneg (by linarith)]
    cases g with
    | zero =>
      have h0 : (unitsOf f 0 : ℚ) = 0 := by exact_mod_cast Binary.unitsOf_zero f
      linarith
    | succ k =>
      have hmid := (hbelow k (Nat.lt_succ_self k)).1
      have hgap := hstep k (by linarith)
      have hnext := unitsOf_add_one f k
      linarith

theorem unitsOf_self (f : Format) {n : Nat} (h : n ≤ 2 * f.hiddenBit) : unitsOf f n = n := by
  have hbinade := Binary.unitsOf_binade f 0 n (.inl rfl) h
  rwa [Nat.zero_mul, Nat.zero_add, Nat.pow_zero, Nat.mul_one] at hbinade

/-- Whole numbers of units up to the hidden bit need no rounding. -/
theorem Nearest.error_natCast {n : Nat} (h : Nearest f tie n g)
    (hhigh : (n : ℚ) ≤ unitsOf f f.infinity) :
    2 * |(unitsOf f g : ℚ) - n| ≤ n / f.hiddenBit := by
  have hpos : (0 : ℚ) < f.hiddenBit := by exact_mod_cast f.hiddenBit_pos
  rcases Nat.lt_or_ge n f.hiddenBit with hlt | hge
  · have hself := unitsOf_self f (show n ≤ 2 * f.hiddenBit by omega)
    have hinfinity : n ≤ f.infinity := by
      have : f.hiddenBit ≤ f.infinity := by cases f <;> decide
      omega
    have hnearest : Nearest f tie n n := by
      have := nearest_unitsOf tie hinfinity
      rwa [hself] at this
    rw [h.unique hnearest, hself, sub_self, abs_zero, mul_zero]
    positivity
  · have hone : (1 : ℚ) ≤ n / f.hiddenBit := by
      rw [le_div_iff₀ hpos, one_mul]
      exact_mod_cast hge
    exact le_trans (h.error (by positivity) hhigh) (max_le hone le_rfl)

/-! ## Values that need no rounding -/

/-- A significand and an exponent below infinity are a magnitude, which is the nearest one. -/
theorem Nearest.unitsOf_eq {m e : Nat} (h : Nearest f tie ((m * 2 ^ e : Nat) : ℚ) g)
    (hm : m ≤ 2 * f.hiddenBit) (hlt : m * 2 ^ e < unitsOf f f.infinity) :
    g < f.infinity ∧ unitsOf f g = m * 2 ^ e := by
  obtain ⟨k, hk⟩ := Binary.exists_unitsOf f e hm
  have hbelow : k < f.infinity := by
    rw [← (Binary.unitsOf_strictMono f).lt_iff_lt, hk]
    exact hlt
  rw [← hk] at h ⊢
  obtain rfl := h.unique (nearest_unitsOf tie hbelow.le)
  exact ⟨hbelow, rfl⟩

/-! ## Errors of values -/

variable {x : Binary f} {v : ℚ}

theorem Nearest.value_error (h : Nearest f tie (v * 2 ^ f.unitBits) x.magnitude) (hlow : 0 ≤ v)
    (hhigh : v * 2 ^ f.unitBits ≤ unitsOf f f.infinity) :
    2 * |(|x.value|) - v| ≤ max (1 / 2 ^ f.unitBits) (v / f.hiddenBit) := by
  have hunit : (0 : ℚ) < 2 ^ f.unitBits := by positivity
  have herror := h.error (by positivity) hhigh
  have hvalue : |x.value| - v = (unitsOf f x.magnitude - v * 2 ^ f.unitBits) / 2 ^ f.unitBits := by
    rw [Binary.abs_value, Binary.units]
    field_simp
  rw [hvalue, abs_div, abs_of_pos hunit, ← mul_div_assoc, div_le_iff₀ hunit, max_mul_of_nonneg _ _ hunit.le,
    div_mul_cancel₀ _ hunit.ne', div_mul_eq_mul_div]
  exact herror

/-- A value with a significand and an exponent is not changed. -/
theorem Nearest.value_eq {m e : Nat} (h : Nearest f tie (v * 2 ^ f.unitBits) x.magnitude)
    (hv : v * 2 ^ f.unitBits = (m * 2 ^ e : Nat)) (hm : m ≤ 2 * f.hiddenBit)
    (hlt : m * 2 ^ e < unitsOf f f.infinity) : x.isFinite = true ∧ |x.value| = v := by
  rw [hv] at h
  obtain ⟨hfinite, hunits⟩ := h.unitsOf_eq hm hlt
  refine ⟨decide_eq_true hfinite, ?_⟩
  rw [Binary.abs_value, Binary.units, hunits, ← hv, mul_div_cancel_right₀ _ (by positivity)]

end VectorBench
