import VectorBench.Proofs.Binary.Monotone
import VectorBench.Proofs.Binary.Quotient

/-!
# Sums and differences

The sum of two finite numbers is the exact sum of their values in units, rounded; the sign of a sum
that is nothing is a matter of the operands.  A difference falls when the number that is taken away
grows, in the total order and through the infinities, as long as what it is taken from is finite and
not negative.

    x + y = if v = 0 then zero (x.negative && y.negative) else ofUnits f v,
      where v = x.signedUnits + y.signedUnits                                  (add_eq_ofUnits)
    x.signedMagnitude ≤ y.signedMagnitude → (a - y).rank ≤ (a - x).rank           (sub_rank_anti)
-/

namespace VectorBench.Binary

variable {f : Format} {a x y : Binary f}

/-- The exact value of a finite number in units, with its sign. -/
def signedUnits (x : Binary f) : ℤ := if x.negative then -(x.units : ℤ) else x.units

theorem signedUnits_le (h : x.signedMagnitude ≤ y.signedMagnitude) :
    x.signedUnits ≤ y.signedUnits := by
  have hmono := (unitsOf_strictMono f).monotone
  have hzero : ∀ z : Binary f, z.magnitude = 0 → z.units = 0 := by
    intro z hz
    rw [units, hz, unitsOf_zero]
  cases hx : x.negative <;> cases hy : y.negative <;>
    simp only [signedMagnitude, signedUnits, hx, hy, if_true, Bool.false_eq_true, if_false] at h ⊢
  · have : x.units ≤ y.units := hmono (by omega)
    omega
  · have := hzero x (by omega)
    have := hzero y (by omega)
    omega
  · omega
  · have : y.units ≤ x.units := hmono (by omega)
    omega

theorem signedUnits_lt (h : x.signedMagnitude < y.signedMagnitude) :
    x.signedUnits < y.signedUnits := by
  have hmono := unitsOf_strictMono f
  have hpos : ∀ z : Binary f, 0 < z.magnitude → 0 < z.units := by
    intro z hz
    have hlt := hmono hz
    rwa [unitsOf_zero] at hlt
  cases hx : x.negative <;> cases hy : y.negative <;>
    simp only [signedMagnitude, signedUnits, hx, hy, if_true, Bool.false_eq_true, if_false] at h ⊢
  · have : x.units < y.units := hmono (by omega)
    omega
  · omega
  · rcases Nat.eq_zero_or_pos y.magnitude with hzero | hy'
    · have := hpos x (by omega)
      omega
    · have := hpos y hy'
      omega
  · have : y.units < x.units := hmono (by omega)
    omega

theorem signedUnits_neg (x : Binary f) : x.neg.signedUnits = -x.signedUnits := by
  have hunits : x.neg.units = x.units := rfl
  have hnegative : x.neg.negative = !x.negative := rfl
  rw [signedUnits, signedUnits, hunits, hnegative]
  cases x.negative <;> simp

theorem ofUnits_natCast (f : Format) (n : Nat) : ofUnits f n = ofRatio f false n 1 := by
  have hsign : ¬ (n : ℤ) < 0 := by omega
  rw [ofUnits, decide_eq_false hsign, Int.natAbs_natCast]

theorem ofUnits_neg_natCast (f : Format) {n : Nat} (hn : 0 < n) :
    ofUnits f (-n) = ofRatio f true n 1 := by
  have hsign : -(n : ℤ) < 0 := by omega
  rw [ofUnits, decide_eq_true hsign, Int.natAbs_neg, Int.natAbs_natCast]

theorem ofRatio_zero (f : Format) (negative : Bool) (d : Nat) :
    ofRatio f negative 0 d = zero negative := by
  rw [ofRatio, Format.magnitudeOfRatio_zero, ofMagnitude, zero, Binary.mk.injEq]
  exact ⟨rfl, Nat.zero_min f.infinity⟩

/-- A value that needs no rounding stays as it is. -/
theorem ofUnits_unitsOf {g : Nat} (hg : g < f.infinity) :
    (ofUnits f (unitsOf f g)).negative = false ∧ (ofUnits f (unitsOf f g)).magnitude = g := by
  have hnearest : Nearest f .even (unitsOf f g) (f.magnitudeOfRatio (unitsOf f g) 1) := by
    have h := Format.magnitudeOfRatio_nearest f (n := unitsOf f g) Nat.one_pos
    rwa [Nat.cast_one, div_one] at h
  rw [ofUnits_natCast, ofRatio, hnearest.unique (nearest_unitsOf .even hg.le)]
  exact ⟨rfl, Nat.min_eq_left hg.le⟩

/-! ## Sums -/

theorem ofScaled_eq_ofRatio (negative : Bool) (m up : Nat) :
    ofScaled f negative m up 0 = ofRatio f negative (m * 2 ^ up) 1 := by
  rw [ofScaled, Format.magnitudeOfScaled_eq_ratio, Nat.pow_zero, ofRatio]

theorem scaled_units {low : Nat} (h : low ≤ x.exponent) :
    x.significand * twoPower (x.exponent - low) * 2 ^ low = x.units := by
  rw [twoPower_eq_pow, Nat.mul_assoc, ← Nat.pow_add, Nat.sub_add_cancel h]
  exact (unitsOf_eq f x.magnitude).symm

/-- The scale that both operands are brought to does not matter. -/
theorem addFinite_eq (x y : Binary f) : addFinite x y =
    if x.negative = y.negative then ofRatio f x.negative (x.units + y.units) 1
    else if y.units < x.units then ofRatio f x.negative (x.units - y.units) 1
    else if x.units < y.units then ofRatio f y.negative (y.units - x.units) 1
    else zero false := by
  have hx := scaled_units (x := x) (Nat.min_le_left x.exponent y.exponent)
  have hy := scaled_units (x := y) (Nat.min_le_right x.exponent y.exponent)
  have hpos := Nat.two_pow_pos (min x.exponent y.exponent)
  simp only [← hx, ← hy, Nat.mul_lt_mul_right hpos, ← Nat.add_mul, ← Nat.sub_mul, addFinite,
    ofScaled_eq_ofRatio]

theorem add_eq_addFinite (hx : x.isFinite = true) (hy : y.isFinite = true) :
    x + y = addFinite x y := by
  change add x y = _
  simp only [add, isNaN_eq_false_of_isFinite hx, isNaN_eq_false_of_isFinite hy,
    isInfinite_eq_false_of_isFinite hx, isInfinite_eq_false_of_isFinite hy, Bool.or_false,
    Bool.false_eq_true, if_false]

theorem ofRatio_sub {m n : Nat} (h : n < m) : ofRatio f false (m - n) 1 = ofUnits f (m - n) := by
  rw [← ofUnits_natCast, Nat.cast_sub h.le]

theorem ofRatio_neg_sub {m n : Nat} (h : n < m) : ofRatio f true (m - n) 1 = ofUnits f (n - m) := by
  rw [← ofUnits_neg_natCast f (Nat.sub_pos_of_lt h), Nat.cast_sub h.le, neg_sub]

theorem add_eq_ofUnits (hx : x.isFinite = true) (hy : y.isFinite = true) :
    x + y = if x.signedUnits + y.signedUnits = 0 then zero (x.negative && y.negative)
      else ofUnits f (x.signedUnits + y.signedUnits) := by
  rw [add_eq_addFinite hx hy, addFinite_eq, signedUnits, signedUnits]
  generalize x.units = u
  generalize y.units = v
  cases x.negative <;> cases y.negative <;>
    simp only [if_true, Bool.false_eq_true, Bool.true_eq_false, if_false, Bool.and_true,
      Bool.and_false, Bool.and_self, ← sub_eq_add_neg, neg_add_eq_sub]
  · rw [← Nat.cast_add, ofUnits_natCast]
    split
    · rename_i h
      rw [Nat.cast_eq_zero.1 h, ofRatio_zero]
    · rfl
  · -- of numbers of different sign the larger one decides
    rcases Nat.lt_trichotomy u v with h | rfl | h
    · rw [if_neg h.not_gt, if_pos h, if_neg (by omega), ofRatio_neg_sub h]
    · simp
    · rw [if_pos h, if_neg (by omega), ofRatio_sub h]
  · rcases Nat.lt_trichotomy u v with h | rfl | h
    · rw [if_neg h.not_gt, if_pos h, if_neg (by omega), ofRatio_sub h]
    · simp
    · rw [if_pos h, if_neg (by omega), ofRatio_neg_sub h]
  · have hneg : -(u : ℤ) - v = -(u + v : Nat) := by
      rw [Nat.cast_add, neg_add']
    rw [hneg]
    rcases Nat.eq_zero_or_pos (u + v) with h | h
    · rw [h, ofRatio_zero]
      simp
    · rw [if_neg (by omega), ofUnits_neg_natCast f h]

/-! ## Differences -/

theorem finite_or_infinity (hx : x.isNaN = false) :
    x.isFinite = true ∨ ∃ negative, x = infinity negative := by
  obtain ⟨s, g, hg⟩ := x
  rcases Nat.lt_or_eq_of_le (isNaN_eq_false_iff.1 hx) with hlt | rfl
  · exact Or.inl (decide_eq_true hlt)
  · exact Or.inr ⟨s, rfl⟩

theorem signedMagnitude_bounds (hx : x.isFinite = true) :
    -(f.infinity : ℤ) < x.signedMagnitude ∧ x.signedMagnitude < f.infinity := by
  rw [isFinite, decide_eq_true_iff] at hx
  unfold signedMagnitude
  split <;> omega

/-- An infinity that is taken away is left with the other sign. -/
theorem sub_infinity (ha : a.isFinite = true) (negative : Bool) :
    a - infinity negative = infinity (!negative) := by
  have hneg : (infinity negative : Binary f).neg = infinity (!negative) := rfl
  have hinfinite : (infinity (!negative) : Binary f).isInfinite = true := beq_self_eq_true f.infinity
  change add a (infinity negative).neg = _
  simp only [hneg, add, isNaN_eq_false_of_isFinite ha, isInfinite_eq_false_of_isFinite ha,
    infinity_isNaN, hinfinite, Bool.or_false, Bool.false_eq_true, if_false, if_true]

/-- What is not negative is never left as a negative zero. -/
theorem sub_eq_ofUnits (ha : a.isFinite = true) (hsign : a.negative = false)
    (hx : x.isFinite = true) : a - x = ofUnits f (a.signedUnits - x.signedUnits) := by
  change a + x.neg = _
  have hneg : x.neg.isFinite = true := hx
  rw [add_eq_ofUnits ha hneg, signedUnits_neg, ← sub_eq_add_neg, hsign, Bool.false_and]
  split
  · rename_i h
    rw [h]
    exact (ofRatio_zero f false 1).symm
  · rfl

theorem sub_isNaN (ha : a.isFinite = true) (hsign : a.negative = false) (hx : x.isNaN = false) :
    (a - x).isNaN = false := by
  rcases finite_or_infinity hx with hfinite | ⟨negative, rfl⟩
  · rw [sub_eq_ofUnits ha hsign hfinite]
    exact ofUnits_isNaN f _
  · rw [sub_infinity ha]
    exact infinity_isNaN _

/-- The more is taken away, the less is left. -/
theorem sub_rank_anti (ha : a.isFinite = true) (hsign : a.negative = false) (hx : x.isNaN = false)
    (hy : y.isNaN = false) (h : x.signedMagnitude ≤ y.signedMagnitude) :
    (a - y).rank ≤ (a - x).rank := by
  have hlow : (infinity true : Binary f).signedMagnitude = -f.infinity := rfl
  have hhigh : (infinity false : Binary f).signedMagnitude = f.infinity := rfl
  rcases finite_or_infinity hx with hfx | ⟨_ | _, rfl⟩
  · have hbounds := signedMagnitude_bounds hfx
    rcases finite_or_infinity hy with hfy | ⟨_ | _, rfl⟩
    · rw [sub_eq_ofUnits ha hsign hfx, sub_eq_ofUnits ha hsign hfy]
      have := signedUnits_le h
      exact ofUnits_rank_mono (by omega)
    · -- all is taken away
      rw [sub_infinity ha]
      exact neg_infinity_le_rank (isNaN_eq_false_iff.1 (sub_isNaN ha hsign hx))
    · omega
  · rcases finite_or_infinity hy with hfy | ⟨_ | _, rfl⟩
    · have hbounds := signedMagnitude_bounds hfy
      omega
    · exact le_rfl
    · have hpos : 0 < f.infinity := by cases f <;> decide
      omega
  · -- all is left
    rw [sub_infinity ha]
    exact rank_le_infinity (isNaN_eq_false_iff.1 (sub_isNaN ha hsign hy))

end VectorBench.Binary
