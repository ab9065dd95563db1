import VectorBench.Proofs.Binary.Comparison
import VectorBench.Proofs.Binary.Nearest

/-!
# Rounding is monotone

Of two exact values the larger one is not rounded to the smaller number: if it were, both would have
to lie on the midpoint between the two numbers, and equal values are rounded alike.

    Nearest f tie q g → Nearest f tie r k → q ≤ r → g ≤ k                          (Nearest.mono)
    n * e ≤ m * d → f.magnitudeOfRatio n d ≤ f.magnitudeOfRatio m e        (magnitudeOfRatio_mono)
    v ≤ w → (ofUnits f v).rank ≤ (ofUnits f w).rank                            (ofUnits_rank_mono)
-/

namespace VectorBench

variable {f : Format}

theorem Nearest.mono {tie : Tie} {q r : ℚ} {g k : Nat} (hg : Nearest f tie q g)
    (hk : Nearest f tie r k) (h : q ≤ r) : g ≤ k := by
  rcases Nat.lt_or_ge k g with hlt | hle
  · have hlow := ((nearest_iff.1 hg).2.1 k hlt).1
    have hhigh := ((nearest_iff.1 hk).2.2 g hg.le_infinity hlt).1
    obtain rfl : q = r := by linarith
    exact Nat.le_of_eq (hg.unique hk)
  · exact hle

/-- A value up to a power of two below infinity's is not rounded beyond that power. -/
theorem Nearest.le_pow {tie : Tie} {q : ℚ} {g e : Nat} (h : Nearest f tie q g) (hq : q ≤ 2 ^ e)
    (he : e < Binary.limitBits f) : g < f.infinity ∧ Binary.unitsOf f g ≤ 2 ^ e := by
  obtain ⟨k, hk⟩ := Binary.exists_unitsOf f e (Nat.mul_pos Nat.two_pos f.hiddenBit_pos)
  rw [Nat.one_mul] at hk
  have hfinite : k < f.infinity := by
    rw [← (Binary.unitsOf_strictMono f).lt_iff_lt, hk, Binary.unitsOf_infinity]
    exact Nat.pow_lt_pow_right Nat.one_lt_two he
  have hle : q ≤ Binary.unitsOf f k := by
    rw [hk]
    push_cast
    exact hq
  have hmagnitude := h.mono (nearest_unitsOf tie hfinite.le) hle
  refine ⟨Nat.lt_of_le_of_lt hmagnitude hfinite, ?_⟩
  rw [← hk]
  exact (Binary.unitsOf_strictMono f).monotone hmagnitude

namespace Format

theorem magnitudeOfRatio_mono (f : Format) {n d m e : Nat} (hd : 0 < d) (he : 0 < e)
    (h : n * e ≤ m * d) : f.magnitudeOfRatio n d ≤ f.magnitudeOfRatio m e := by
  have hq : (n : ℚ) / d ≤ m / e := by
    rw [div_le_div_iff₀ (by exact_mod_cast hd) (by exact_mod_cast he)]
    exact_mod_cast h
  exact (f.magnitudeOfRatio_nearest hd).mono (f.magnitudeOfRatio_nearest he) hq

theorem magnitudeOfRatio_le_infinity (f : Format) (n d : Nat) :
    f.magnitudeOfRatio n d ≤ f.infinity := Nat.min_le_left _ _

end Format

namespace Binary

/-! ## Whole numbers of units -/

/-- The number nearest to a whole number of units; nothing is the positive zero. -/
def ofUnits (f : Format) (v : ℤ) : Binary f := ofRatio f (v < 0) v.natAbs 1

theorem ofUnits_isNaN (f : Format) (v : ℤ) : (ofUnits f v).isNaN = false :=
  isNaN_eq_false_iff.2 (Nat.min_le_right _ _)

theorem ofUnits_rank (f : Format) (v : ℤ) : (ofUnits f v).rank =
    if v < 0 then -(f.magnitudeOfRatio v.natAbs 1 : ℤ) - 1 else f.magnitudeOfRatio v.natAbs 1 := by
  have hmin := Nat.min_eq_left (f.magnitudeOfRatio_le_infinity v.natAbs 1)
  simp only [ofUnits, ofRatio, ofMagnitude, rank, decide_eq_true_eq, hmin]

theorem ofUnits_rank_mono {v w : ℤ} (h : v ≤ w) : (ofUnits f v).rank ≤ (ofUnits f w).rank := by
  rw [ofUnits_rank, ofUnits_rank]
  split <;> split
  · -- the larger of two negative values has the smaller magnitude
    have := f.magnitudeOfRatio_mono (n := w.natAbs) (m := v.natAbs) Nat.one_pos Nat.one_pos (by omega)
    omega
  · omega
  · omega
  · have := f.magnitudeOfRatio_mono (n := v.natAbs) (m := w.natAbs) Nat.one_pos Nat.one_pos (by omega)
    omega

end Binary

end VectorBench
