import VectorBench.Binary.Order

/-!
# Orders of numbers

How the numeric order and the total order go together.  The numeric order knows no sign of zero and
no NaN; the total order is that of IEEE 754, in which a negative zero comes before a positive one,
NaNs of negative sign come before and NaNs of positive sign come after all numbers.

    x.isFinite = false ↔ x.isNaN ∨ x.isInfinite                          (isFinite_eq_false_iff)
    TotalLT x y ↔ x.rank < y.rank                                        (totalLT_iff)
    x.rank ≤ y.rank → x.signedMagnitude ≤ y.signedMagnitude              (signedMagnitude_le_of_rank_le)
-/

namespace VectorBench.Binary

variable {f : Format} {x y : Binary f}

/-! ## Kinds of numbers -/

theorem isNaN_eq_false_iff : x.isNaN = false ↔ x.magnitude ≤ f.infinity := by
  rw [isNaN, decide_eq_false_iff_not, Nat.not_lt]

theorem isNaN_eq_true_iff : x.isNaN = true ↔ f.infinity < x.magnitude := decide_eq_true_iff

theorem isFinite_eq_false_iff : x.isFinite = false ↔ x.isNaN = true ∨ x.isInfinite = true := by
  rw [isFinite, isNaN, isInfinite, decide_eq_false_iff_not, decide_eq_true_iff, beq_iff_eq]
  omega

theorem infinity_isNaN (negative : Bool) : (infinity negative : Binary f).isNaN = false :=
  isNaN_eq_false_iff.2 (Nat.le_refl f.infinity)

theorem isNaN_eq_false_of_isFinite (h : x.isFinite = true) : x.isNaN = false := by
  rw [isFinite, decide_eq_true_iff] at h
  exact isNaN_eq_false_iff.2 (Nat.le_of_lt h)

theorem isInfinite_eq_false_of_isFinite (h : x.isFinite = true) : x.isInfinite = false := by
  rw [isFinite, decide_eq_true_iff] at h
  exact beq_eq_false_iff_ne.2 (Nat.ne_of_lt h)

/-! ## Signs -/

theorem rank_of_negative (h : x.negative = true) : x.rank = -(x.magnitude : Int) - 1 := by
  rw [rank, if_pos h]

theorem rank_of_positive (h : x.negative = false) : x.rank = x.magnitude := by
  rw [rank, h, if_neg Bool.false_ne_true]

theorem rank_le_infinity (h : x.magnitude ≤ f.infinity) : x.rank ≤ f.infinity := by
  unfold rank
  split <;> omega

theorem neg_infinity_le_rank (h : x.magnitude ≤ f.infinity) : -(f.infinity : Int) - 1 ≤ x.rank := by
  unfold rank
  split <;> omega

/-! ## The numeric order -/

theorem lt_eq_true_iff :
    x.lt y = true ↔ x.isNaN = false ∧ y.isNaN = false ∧ x.signedMagnitude < y.signedMagnitude := by
  simp [lt, and_assoc]

theorem le_eq_true_iff :
    x.le y = true ↔ x.isNaN = false ∧ y.isNaN = false ∧ x.signedMagnitude ≤ y.signedMagnitude := by
  simp [le, and_assoc]

theorem le_of_lt (h : x.lt y = true) : x.le y = true := by
  obtain ⟨hx, hy, hlt⟩ := lt_eq_true_iff.1 h
  exact le_eq_true_iff.2 ⟨hx, hy, Int.le_of_lt hlt⟩

theorem lt_of_lt_of_le {z : Binary f} (h : x.lt y = true) (h' : y.le z = true) : x.lt z = true := by
  rw [lt_eq_true_iff] at h ⊢
  obtain ⟨-, hz, hle⟩ := le_eq_true_iff.1 h'
  exact ⟨h.1, hz, Int.lt_of_lt_of_le h.2.2 hle⟩

theorem lt_of_le_of_lt {z : Binary f} (h : x.le y = true) (h' : y.lt z = true) : x.lt z = true := by
  rw [lt_eq_true_iff] at h' ⊢
  obtain ⟨hx, -, hle⟩ := le_eq_true_iff.1 h
  exact ⟨hx, h'.2.1, Int.lt_of_le_of_lt hle h'.2.2⟩

theorem not_isPositive_of_isZero (h : x.isZero = true) : x.isPositive = false := by
  have hsigned : x.signedMagnitude = 0 := by
    simp [signedMagnitude, eq_of_beq h]
  have hzero : (zero false : Binary f).signedMagnitude = 0 := rfl
  rw [← Bool.not_eq_true, isPositive, lt_eq_true_iff, hsigned, hzero]
  exact fun hlt => Int.lt_irrefl 0 hlt.2.2

theorem isZero_eq_false_of_isPositive (h : x.isPositive = true) : x.isZero = false := by
  rw [← Bool.not_eq_true]
  exact fun hzero => Bool.false_ne_true ((not_isPositive_of_isZero hzero).symm.trans h)

/-- Numerically equal: both zeros are equal, and a NaN is equal to nothing. -/
def Equal (x y : Binary f) : Prop :=
  x.isNaN = false ∧ y.isNaN = false ∧ x.signedMagnitude = y.signedMagnitude

theorem Equal.symm (h : x.Equal y) : y.Equal x := ⟨h.2.1, h.1, h.2.2.symm⟩

theorem equal_self (h : x.isNaN = false) : x.Equal x := ⟨h, h, rfl⟩

theorem lt_congr_right {z : Binary f} (h : x.Equal y) : z.lt x = z.lt y := by
  obtain ⟨hx, hy, hxy⟩ := h
  rw [lt, lt, hx, hy, hxy]

/-- The larger of two numbers; of equal ones it is the first. -/
theorem max_eq (hx : x.isNaN = false) (hy : y.isNaN = false) :
    x.max y = if x.signedMagnitude < y.signedMagnitude then y else x := by
  simp [Binary.max, lt, hx, hy]

theorem max_isNaN (hx : x.isNaN = false) (hy : y.isNaN = false) : (x.max y).isNaN = false := by
  rw [max_eq hx hy]
  split
  · exact hy
  · exact hx

theorem max_signedMagnitude (hx : x.isNaN = false) (hy : y.isNaN = false) :
    (x.max y).signedMagnitude = Max.max x.signedMagnitude y.signedMagnitude := by
  rw [max_eq hx hy]
  split <;> omega

/-! ## The total order -/

/-- The total order of IEEE 754: `x` comes before `y`. -/
inductive TotalLT : Binary f → Binary f → Prop
  /-- A smaller number comes first. -/
  | number {x y : Binary f} : x.lt y = true → TotalLT x y
  /-- The negative zero comes before the positive one. -/
  | zeros : TotalLT (zero true) (zero false)
  /-- A NaN of negative sign comes before every number. -/
  | negativeNaN {x y : Binary f} :
    x.isNaN = true → x.negative = true → y.isNaN = false → TotalLT x y
  /-- A NaN of positive sign comes after every number. -/
  | positiveNaN {x y : Binary f} :
    x.isNaN = false → y.isNaN = true → y.negative = false → TotalLT x y
  /-- Of two NaNs the one of negative sign comes first. -/
  | nanSigns {x y : Binary f} : x.isNaN = true → y.isNaN = true → x.negative = true →
    y.negative = false → TotalLT x y
  /-- Of two NaNs of positive sign the one with the smaller payload comes first. -/
  | positivePayload {x y : Binary f} : x.isNaN = true → y.isNaN = true → x.negative = false →
    y.negative = false → x.magnitude < y.magnitude → TotalLT x y
  /-- Of two NaNs of negative sign the one with the larger payload comes first. -/
  | negativePayload {x y : Binary f} : x.isNaN = true → y.isNaN = true → x.negative = true →
    y.negative = true → y.magnitude < x.magnitude → TotalLT x y

theorem signedMagnitude_le_of_rank_le (h : x.rank ≤ y.rank) :
    x.signedMagnitude ≤ y.signedMagnitude := by
  cases hx : x.negative <;> cases hy : y.negative <;>
    simp only [rank, signedMagnitude, hx, hy, if_true, Bool.false_eq_true, if_false] at h ⊢ <;>
    omega

theorem rank_lt_of_signedMagnitude_lt (h : x.signedMagnitude < y.signedMagnitude) :
    x.rank < y.rank := by
  rcases Int.lt_or_le x.rank y.rank with hlt | hle
  · exact hlt
  · have := signedMagnitude_le_of_rank_le hle
    omega

/-- Different bit patterns of one numeric value are the two zeros. -/
theorem zeros_of_rank_lt (h : x.rank < y.rank) (heq : x.signedMagnitude = y.signedMagnitude) :
    x = zero true ∧ y = zero false := by
  obtain ⟨s, g, hg⟩ := x
  obtain ⟨t, k, hk⟩ := y
  cases s <;> cases t <;>
    simp only [rank, signedMagnitude, if_true, Bool.false_eq_true, if_false] at h heq
  · omega
  · omega
  · obtain rfl : g = 0 := by omega
    obtain rfl : k = 0 := by omega
    exact ⟨rfl, rfl⟩
  · omega

theorem Equal.eq_or_zeros (h : x.Equal y) : x = y ∨ x.isZero = true ∧ y.isZero = true := by
  rcases Int.lt_trichotomy x.rank y.rank with hlt | heq | hgt
  · obtain ⟨rfl, rfl⟩ := zeros_of_rank_lt hlt h.2.2
    exact Or.inr ⟨rfl, rfl⟩
  · exact Or.inl (rank_injective heq)
  · obtain ⟨rfl, rfl⟩ := zeros_of_rank_lt hgt h.2.2.symm
    exact Or.inr ⟨rfl, rfl⟩

theorem TotalLT.rank_lt (h : TotalLT x y) : x.rank < y.rank := by
  cases h with
  | number h => exact rank_lt_of_signedMagnitude_lt (lt_eq_true_iff.1 h).2.2
  | zeros => exact (by decide : (-1 : Int) < 0)
  | negativeNaN hx hneg hy =>
    rw [isNaN_eq_true_iff] at hx
    rw [isNaN_eq_false_iff] at hy
    have := neg_infinity_le_rank hy
    rw [rank_of_negative hneg]
    omega
  | positiveNaN hx hy hpos =>
    rw [isNaN_eq_true_iff] at hy
    rw [isNaN_eq_false_iff] at hx
    have := rank_le_infinity hx
    rw [rank_of_positive hpos]
    omega
  | nanSigns _ _ hneg hpos =>
    rw [rank_of_negative hneg, rank_of_positive hpos]
    omega
  | positivePayload _ _ hx hy hlt =>
    rw [rank_of_positive hx, rank_of_positive hy]
    omega
  | negativePayload _ _ hx hy hlt =>
    rw [rank_of_negative hx, rank_of_negative hy]
    omega

theorem totalLT_of_rank_lt (h : x.rank < y.rank) : TotalLT x y := by
  cases hx : x.isNaN with
  | false =>
    cases hy : y.isNaN with
    | false =>
      rcases Int.lt_or_eq_of_le (signedMagnitude_le_of_rank_le (Int.le_of_lt h)) with hlt | heq
      · exact .number (lt_eq_true_iff.2 ⟨hx, hy, hlt⟩)
      · obtain ⟨rfl, rfl⟩ := zeros_of_rank_lt h heq
        exact .zeros
    | true =>
      refine .positiveNaN hx hy ?_
      cases hpos : y.negative with
      | false => rfl
      | true =>
        rw [isNaN_eq_true_iff] at hy
        have := neg_infinity_le_rank (isNaN_eq_false_iff.1 hx)
        rw [rank_of_negative hpos] at h
        omega
  | true =>
    cases hy : y.isNaN with
    | false =>
      refine .negativeNaN hx ?_ hy
      cases hneg : x.negative with
      | true => rfl
      | false =>
        rw [isNaN_eq_true_iff] at hx
        have := rank_le_infinity (isNaN_eq_false_iff.1 hy)
        rw [rank_of_positive hneg] at h
        omega
    | true =>
      cases hsx : x.negative <;> cases hsy : y.negative
      · rw [rank_of_positive hsx, rank_of_positive hsy] at h
        exact .positivePayload hx hy hsx hsy (by omega)
      · rw [rank_of_positive hsx, rank_of_negative hsy] at h
        omega
      · exact .nanSigns hx hy hsx hsy
      · rw [rank_of_negative hsx, rank_of_negative hsy] at h
        exact .negativePayload hx hy hsx hsy (by omega)

/-- The places in the total order are those of IEEE 754. -/
theorem totalLT_iff : TotalLT x y ↔ x.rank < y.rank := ⟨TotalLT.rank_lt, totalLT_of_rank_lt⟩

end VectorBench.Binary
