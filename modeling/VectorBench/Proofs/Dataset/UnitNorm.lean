import VectorBench.Proofs.Dataset.Rescaling

/-!
# The norm behind normalizing

Normalizing brings the exact sum of squares of a row as near to one as the roundings allow: those of
the sum and of the root, once for the row, and the two of each quotient.  With some ninety thousand
million numbers the sum alone may be wrong by one part in a hundred thousand.  A row stays as it is if
its norm, as it is computed, is not above `2 ^ (-52)`; in terms of the exact sum of squares that is so
but for the error of the norm.

    row.length ≤ longestRow → AllFinite row → ¬ Faint row → UnitNorm (normalize row)  (normalize_unitNorm)
-/

namespace VectorBench

open Binary (value_of_positive)

/-- The exact sum of squares is one, but for one part in a hundred thousand. -/
def UnitNorm (row : Vector32) : Prop := |squareSum row - 1| < 1 / 10 ^ 5

/-- The sum of squares is below that of the least norm, or above it by no more than its error. -/
def Faint (row : Vector32) : Prop := squareSum row < (1 + 2 * normError row) / 2 ^ 104

/-- The sum of squares is below that of the least norm by more than its error. -/
def VeryFaint (row : Vector32) : Prop := squareSum row ≤ (1 - 2 * normError row) / 2 ^ 104

/-- Up to this length a row comes out with norm one. -/
def longestRow : Nat := 88 * 10 ^ 9

/-! ## One number -/

/-- The relative error of a square behind two roundings. -/
def squareError : ℚ := 12 / 10 ^ 8

/-- What two roundings of numbers far below one add to the error of a square. -/
def leastError : ℚ := 1 / 2 ^ 90

theorem square_error_of_error {a y e : ℚ} (ha : 0 ≤ a) (hy : 0 ≤ y) (h : |y - a| ≤ e) :
    |y ^ 2 - a ^ 2| ≤ e * (2 * a + e) := by
  have hfactor : y ^ 2 - a ^ 2 = (y - a) * (y + a) := by ring
  have hsum : y + a ≤ 2 * a + e := by
    have := (abs_le.1 h).2
    linarith
  rw [hfactor, abs_mul, abs_of_nonneg (add_nonneg hy ha)]
  exact mul_le_mul h hsum (add_nonneg hy ha) (le_trans (abs_nonneg _) h)

/-- A number of at most one that is rounded to 64 bits and then to 32. -/
theorem two_roundings {a q y : ℚ} (ha : 0 ≤ a) (ha1 : a ≤ 1) (hq : 0 ≤ q) (hy : 0 ≤ y)
    (hwide : 2 * |q - a| ≤ max (1 / 2 ^ 1074) (a / 2 ^ 52))
    (hnarrow : 2 * |y - q| ≤ max (1 / 2 ^ 149) (q / 2 ^ 23)) :
    |y ^ 2 - a ^ 2| ≤ squareError * a ^ 2 + leastError := by
  have hunit : (1 : ℚ) / 2 ^ 1074 ≤ 1 / 2 ^ 149 :=
    one_div_le_one_div_of_le (by positivity) (pow_le_pow_right₀ one_le_two (by norm_num))
  have hwide' : 2 * |q - a| ≤ 1 / 2 ^ 149 + a / 2 ^ 52 :=
    hwide.trans (max_le (hunit.trans (le_add_of_nonneg_right (by positivity)))
      (le_add_of_nonneg_left (by positivity)))
  have hnarrow' : 2 * |y - q| ≤ 1 / 2 ^ 149 + q / 2 ^ 23 :=
    hnarrow.trans (max_le (le_add_of_nonneg_right (by positivity))
      (le_add_of_nonneg_left (by positivity)))
  have herror : |y - a| ≤ (1 / 2 ^ 24 + 1 / 2 ^ 52) * a + 1 / 2 ^ 100 := by
    have hsplit := abs_sub_le y q a
    have hlarger := (abs_le.1 (show |q - a| ≤ 1 / 2 ^ 150 + a / 2 ^ 53 by linarith)).2
    linarith
  have hlinear : a * (1 / 2 ^ 100) ≤ 1 / 2 ^ 100 := mul_le_of_le_one_left (by positivity) ha1
  calc |y ^ 2 - a ^ 2|
      ≤ ((1 / 2 ^ 24 + 1 / 2 ^ 52) * a + 1 / 2 ^ 100) *
          (2 * a + ((1 / 2 ^ 24 + 1 / 2 ^ 52) * a + 1 / 2 ^ 100)) := square_error_of_error ha hy herror
    _ = (1 / 2 ^ 24 + 1 / 2 ^ 52) * (2 + (1 / 2 ^ 24 + 1 / 2 ^ 52)) * a ^ 2 +
          (2 + 2 * (1 / 2 ^ 24 + 1 / 2 ^ 52)) * (a * (1 / 2 ^ 100)) + 1 / 2 ^ 200 := by ring
    _ ≤ squareError * a ^ 2 + leastError := by
        have hsquare := sq_nonneg a
        rw [squareError, leastError]
        linarith

/-- Values up to one are far below infinity. -/
theorem value_error_of_le_one {f : Format} {tie : Tie} {v : ℚ} {x : Binary f}
    (h : Nearest f tie (v * 2 ^ f.unitBits) x.magnitude) (hlow : 0 ≤ v) (hv : v ≤ 1) :
    2 * |(|x.value|) - v| ≤ max (1 / 2 ^ f.unitBits) (v / f.hiddenBit) := by
  refine h.value_error hlow ?_
  have hbits : f.unitBits ≤ Binary.limitBits f := by cases f <;> decide
  rw [Binary.unitsOf_infinity, Nat.cast_pow, Nat.cast_ofNat]
  calc v * 2 ^ f.unitBits ≤ 2 ^ f.unitBits := mul_le_of_le_one_left (by positivity) hv
    _ ≤ 2 ^ Binary.limitBits f := pow_le_pow_right₀ one_le_two hbits

/-! ## A row -/

variable {row : Vector32} {norm : Binary64} {x : Binary32}

theorem rescaled_square_error (h : FiniteNorm row norm) (hpos : 0 < norm.value)
    (hx : x.isFinite = true) (hmem : x ∈ row) :
    |(rescaled norm x).value ^ 2 - x.value ^ 2 / norm.value ^ 2| ≤
      squareError * (x.value ^ 2 / norm.value ^ 2) + leastError := by
  have hquotient : x.value ^ 2 / norm.value ^ 2 = (|x.value| / norm.value) ^ 2 := by
    rw [div_pow, sq_abs]
  obtain ⟨hfinite, hone⟩ := quotient_le_one h hpos hx hmem
  have ha : 0 ≤ |x.value| / norm.value := div_nonneg (abs_nonneg _) hpos.le
  have ha1 : |x.value| / norm.value ≤ 1 := (div_le_one hpos).2 (h.covers x hmem)
  have hwide := value_error_of_le_one (quotient_nearest h hpos hx) ha ha1
  have hnarrow := value_error_of_le_one (Binary.toFormat_nearest hfinite .single) (abs_nonneg _) hone
  have hdouble : (Format.double.hiddenBit : ℚ) = 2 ^ 52 := by norm_num [Format.hiddenBit]
  have hsingle : (Format.single.hiddenBit : ℚ) = 2 ^ 23 := by norm_num [Format.hiddenBit]
  rw [hdouble] at hwide
  rw [hsingle] at hnarrow
  rw [hquotient, ← sq_abs (rescaled norm x).value]
  exact two_roundings ha ha1 (abs_nonneg _) (abs_nonneg _) hwide hnarrow

/-- Errors of squares add up. -/
theorem squareSum_map_error {g : Binary32 → Binary32} {r k e : ℚ}
    (h : ∀ x ∈ row, |(g x).value ^ 2 - x.value ^ 2 / r| ≤ k * (x.value ^ 2 / r) + e) :
    |squareSum (row.map g) - squareSum row / r| ≤ k * (squareSum row / r) + row.length * e := by
  induction row with
  | nil => simp [squareSum]
  | cons x row ih =>
    have hx := h x List.mem_cons_self
    have hrow := ih fun y hy => h y (List.mem_cons_of_mem x hy)
    have hsplit : squareSum ((x :: row).map g) - squareSum (x :: row) / r =
        ((g x).value ^ 2 - x.value ^ 2 / r) + (squareSum (row.map g) - squareSum row / r) := by
      rw [List.map_cons, squareSum_cons, squareSum_cons, add_div]
      ring
    rw [hsplit, squareSum_cons, add_div, List.length_cons, Nat.cast_add, Nat.cast_one]
    exact (abs_add_le _ _).trans (by linarith)

theorem normError_pos (row : Vector32) : 0 < normError row := by
  rw [normError]
  positivity

theorem normError_le (hlength : row.length ≤ longestRow) :
    normError row ≤ (88 * 10 ^ 9 + 5) / 2 ^ 53 := by
  have hcast : (row.length : ℚ) ≤ 88 * 10 ^ 9 := by exact_mod_cast hlength
  exact div_le_div_of_nonneg_right (by linarith) (by positivity)

/-- The errors of the norm and of the quotients together. -/
theorem unitNorm_of_errors {s a t k : ℚ} (ha : 0 ≤ a) (ht : t ≤ (88 * 10 ^ 9 + 5) / 2 ^ 53)
    (hnorm : |a - 1| ≤ t * a) (hnumbers : |s - a| ≤ squareError * a + k * leastError)
    (hk : k ≤ 88 * 10 ^ 9) : |s - 1| < 1 / 10 ^ 5 := by
  have hnorm' : |a - 1| ≤ (88 * 10 ^ 9 + 5) / 2 ^ 53 * a :=
    hnorm.trans (mul_le_mul_of_nonneg_right ht ha)
  have hone : a ≤ 1 + 1 / 10 ^ 4 := by
    have := (abs_le.1 hnorm').2
    linarith
  have hleast : k * leastError ≤ 88 * 10 ^ 9 * leastError :=
    mul_le_mul_of_nonneg_right hk (by norm_num [leastError])
  have hsplit := abs_sub_le s a 1
  rw [leastError] at hleast hnumbers
  rw [squareError] at hnumbers
  linarith

/-! ## The least norm -/

theorem norm_lt_of_not_faint (h : AllFinite row) (hlength : row.length ≤ longestRow)
    (hfaint : ¬ Faint row) : 1 / 2 ^ 52 < (euclideanNorm row).value := by
  have hpos := normError_pos row
  have hsmall : normError row < 1 / 2 := lt_of_le_of_lt (normError_le hlength) (by norm_num)
  have hlow := (abs_le.1 (norm_error h (hlength.trans (by decide)))).1
  rw [Faint, not_lt, div_le_iff₀ (by positivity)] at hfaint
  have hscaled := mul_le_mul_of_nonneg_left hfaint (show 0 ≤ 1 - normError row by linarith)
  -- the margin is twice the error, so that one error is left
  have hmargin : 1 < (1 - normError row) * (1 + 2 * normError row) := by
    have hleft := mul_pos hpos (show 0 < 1 - 2 * normError row by linarith)
    linarith
  refine lt_of_pow_lt_pow_left₀ 2 (finiteNorm h).nonneg ?_
  linarith

theorem norm_le_of_veryFaint (h : AllFinite row) (hlength : row.length ≤ longestRow)
    (hfaint : VeryFaint row) : (euclideanNorm row).value ≤ 1 / 2 ^ 52 := by
  have hpos := normError_pos row
  have hhigh := (abs_le.1 (norm_error h (hlength.trans (by decide)))).2
  rw [VeryFaint, le_div_iff₀ (by positivity)] at hfaint
  have hscaled := mul_le_mul_of_nonneg_left hfaint (show 0 ≤ 1 + normError row by linarith)
  refine le_of_not_gt fun hlarge => ?_
  have hsquare := pow_lt_pow_left₀ hlarge (by positivity) two_ne_zero
  have hleft := mul_pos hpos hpos
  linarith

/-! ## Normalizing -/

theorem unitNorm_of_large (h : AllFinite row) (hlength : row.length ≤ longestRow)
    (hlarge : 1 / 2 ^ 52 < (euclideanNorm row).value) : UnitNorm (normalize row) := by
  have hnorm := finiteNorm h
  have hpos : 0 < (euclideanNorm row).value := lt_trans (by positivity) hlarge
  have hsquare : 0 < (euclideanNorm row).value ^ 2 := pow_pos hpos 2
  have hnumbers := squareSum_map_error fun x hx => rescaled_square_error hnorm hpos (h x hx) hx
  have herror : |squareSum row / (euclideanNorm row).value ^ 2 - 1| ≤
      normError row * (squareSum row / (euclideanNorm row).value ^ 2) := by
    have hone : squareSum row / (euclideanNorm row).value ^ 2 - 1 =
        -((euclideanNorm row).value ^ 2 - squareSum row) / (euclideanNorm row).value ^ 2 := by
      rw [neg_sub, sub_div, div_self hsquare.ne']
    rw [hone, abs_div, abs_neg, abs_of_pos hsquare, ← mul_div_assoc]
    exact div_le_div_of_nonneg_right (norm_error h (hlength.trans (by decide))) hsquare.le
  rw [normalize_of_large h hlarge, UnitNorm]
  refine unitNorm_of_errors (div_nonneg (squareSum_nonneg row) hsquare.le) (normError_le hlength)
    herror hnumbers ?_
  exact_mod_cast hlength

/-- A row with a number that is not finite stays as it is, whatever its length.  Of those that are not
too long, a row comes out with norm one if it is not as good as zero, and stays if it is. -/
theorem normalize_unitNorm (row : Vector32) :
    ((∃ x ∈ row, x.isFinite = false) → normalize row = row) ∧
      (row.length ≤ longestRow →
        (AllFinite row → ¬ Faint row → UnitNorm (normalize row)) ∧
        (normalize row = row → (∃ x ∈ row, x.isFinite = false) ∨ Faint row ∨ UnitNorm row) ∧
        (AllFinite row → VeryFaint row → normalize row = row)) := by
  refine ⟨normalize_of_not_finite, fun hlength => ?_⟩
  have hunit : AllFinite row → ¬ Faint row → UnitNorm (normalize row) := by
    intro h hfaint
    exact unitNorm_of_large h hlength (norm_lt_of_not_faint h hlength hfaint)
  refine ⟨hunit, fun hsame => ?_, fun h hfaint => ?_⟩
  · by_cases hfinite : AllFinite row
    · by_cases hfaint : Faint row
      · exact .inr (.inl hfaint)
      · have hrow := hunit hfinite hfaint
        rw [hsame] at hrow
        exact .inr (.inr hrow)
    · left
      simpa [AllFinite] using hfinite
  · exact normalize_of_small h (norm_le_of_veryFaint h hlength hfaint)

theorem value_sq (x : Binary32) : x.value ^ 2 = (x.units / 2 ^ 149) ^ 2 := by
  rw [← sq_abs, Binary.abs_value]
  rfl

def smallRow : Vector32 := [.ofBits .single 0x30800000, .ofBits .single 0xb0000000]

def openRow : Vector32 := [.infinity false, .ofBits .single 0x3f800000]

theorem normalize_unitNorm_small :
    smallRow.length ≤ longestRow ∧ UnitNorm (normalize smallRow) ∧ normalize openRow = openRow := by
  have hfinite : AllFinite smallRow := by
    unfold AllFinite smallRow
    decide
  have hfirst : (Binary.ofBits .single 0x30800000).units = 2 ^ 119 := by decide
  have hsecond : (Binary.ofBits .single 0xb0000000).units = 2 ^ 118 := by decide
  have hfaint : ¬ Faint smallRow := by
    rw [Faint, smallRow, squareSum_cons, squareSum_cons, value_sq, value_sq, hfirst, hsecond]
    norm_num [squareSum, normError]
  have hshort : smallRow.length ≤ longestRow := by decide
  obtain ⟨-, hsmall⟩ := normalize_unitNorm smallRow
  obtain ⟨hopen, -⟩ := normalize_unitNorm openRow
  exact ⟨hshort, (hsmall hshort).1 hfinite hfaint, hopen ⟨_, List.mem_cons_self, rfl⟩⟩

/-! ## Rows that do not come out with norm one -/

def faintRow : Vector32 := [.ofBits .single 1]

/-- A one, and more than ninety thousand million numbers whose squares are so small against it that
adding them changes nothing. -/
def longRow : Vector32 :=
  .ofBits .single 0x3f800000 :: List.replicate (91 * 10 ^ 9) (.ofBits .single 0x323504f3)

theorem foldl_add_replicate {s w : Binary64} (h : s + w = s) (n : Nat) :
    (List.replicate n w).foldl (· + ·) s = s := by
  induction n with
  | zero => rfl
  | succ n ih => rw [List.replicate_succ, List.foldl_cons, h, ih]

def oneNorm : Binary64 := .ofBits .double 0x3ff0000000000000

theorem oneNorm_units : oneNorm.units = 2 ^ 1074 := by
  have hs : oneNorm.significand = 2 ^ 52 := by decide
  have he : oneNorm.exponent = 1022 := by decide
  have hsum : 52 + 1022 = 1074 := rfl
  rw [Binary.units_eq, hs, he, ← pow_add, hsum]

theorem oneNorm_value : oneNorm.value = 1 := by
  rw [value_of_positive rfl, oneNorm_units, Nat.cast_pow, Nat.cast_ofNat]
  exact div_self (by positivity)

theorem sqrt_oneNorm : oneNorm.sqrt = oneNorm := by
  have hpos : 0 < oneNorm.value := by
    rw [oneNorm_value]
    exact one_pos
  have hradicand : oneNorm.radicand = 2 ^ 1074 * 2 ^ 1074 := by
    have hdouble : Format.double.unitBits = 1074 := rfl
    rw [Binary.radicand, oneNorm_units, hdouble]
  rw [Binary.sqrt_of_pos (by decide) hpos, hradicand, Nat.sqrt_eq, if_pos rfl]
  decide +kernel

theorem euclideanNorm_longRow : euclideanNorm longRow = oneNorm := by
  have hfirst : Binary.zero true + (Binary.ofBits .single 0x3f800000).widen *
      (Binary.ofBits .single 0x3f800000).widen = oneNorm := by
    decide +kernel
  have hother : oneNorm + (Binary.ofBits .single 0x323504f3).widen *
      (Binary.ofBits .single 0x323504f3).widen = oneNorm := by
    decide +kernel
  rw [euclideanNorm_eq, squares, longRow, List.map_cons, List.map_replicate, Binary.sum,
    List.foldl_cons, hfirst, foldl_add_replicate hother, sqrt_oneNorm]

theorem longRow_finite : AllFinite longRow := by
  intro x hx
  rcases List.mem_cons.1 hx with rfl | hx
  · decide
  · rw [List.eq_of_mem_replicate hx]
    decide

theorem normalize_longRow : normalize longRow = longRow := by
  have hlarge : 1 / 2 ^ 52 < (euclideanNorm longRow).value := by
    rw [euclideanNorm_longRow, oneNorm_value]
    norm_num
  have hfirst : rescaled oneNorm (.ofBits .single 0x3f800000) = .ofBits .single 0x3f800000 := by
    decide +kernel
  have hother : rescaled oneNorm (.ofBits .single 0x323504f3) = .ofBits .single 0x323504f3 := by
    decide +kernel
  rw [normalize_of_large longRow_finite hlarge, euclideanNorm_longRow, longRow, List.map_cons,
    List.map_replicate, hfirst, hother]

theorem squareSum_longRow : squareSum longRow = 1 + 91 * 10 ^ 9 * (11863283 / 2 ^ 50) ^ 2 := by
  have hfirst : (Binary.ofBits .single 0x3f800000).units = 2 ^ 149 := by decide
  have hother : (Binary.ofBits .single 0x323504f3).units = 11863283 * 2 ^ 99 := by decide
  rw [longRow, squareSum_cons, squareSum, List.map_replicate, List.sum_replicate, value_sq, value_sq,
    hfirst, hother]
  norm_num

theorem faintRow_finite : AllFinite faintRow := by
  unfold AllFinite faintRow
  decide

theorem squareSum_faintRow_le : squareSum faintRow ≤ 1 / 2 ^ 149 := by
  have hunits : (Binary.ofBits .single 1).units = 1 := by decide
  rw [faintRow, squareSum_cons, value_sq, hunits, squareSum, List.map_nil, List.sum_nil, add_zero,
    Nat.cast_one]
  exact pow_le_of_le_one (by positivity) (by norm_num) two_ne_zero

theorem normalize_faintRow : normalize faintRow = faintRow := by
  have hfaint : VeryFaint faintRow := by
    refine squareSum_faintRow_le.trans ?_
    norm_num [normError, faintRow]
  exact normalize_of_small faintRow_finite (norm_le_of_veryFaint faintRow_finite (by decide) hfaint)

/-- Rows other than zero are left without norm one: faint ones, and among the others long ones. -/
theorem not_forall_normalize_unitNorm :
    (¬ ∀ row, AllFinite row → (∃ x ∈ row, x.isZero = false) → UnitNorm (normalize row)) ∧
      ¬ ∀ row, AllFinite row → ¬ Faint row → UnitNorm (normalize row) := by
  constructor
  · intro h
    have hunit := h faintRow faintRow_finite ⟨_, List.mem_singleton_self _, by decide⟩
    rw [normalize_faintRow, UnitNorm] at hunit
    have hlow := (abs_lt.1 hunit).1
    have hhigh : squareSum faintRow ≤ 1 / 2 := squareSum_faintRow_le.trans (by norm_num)
    linarith
  · intro h
    have hfaint : ¬ Faint longRow := by
      rw [Faint, squareSum_longRow, normError, longRow, List.length_cons, List.length_replicate]
      norm_num
    have hunit := h longRow longRow_finite hfaint
    rw [normalize_longRow, UnitNorm, squareSum_longRow] at hunit
    norm_num at hunit

end VectorBench
