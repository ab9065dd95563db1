import VectorBench.Dataset
import VectorBench.Proofs.Binary.Accumulation
import VectorBench.Proofs.Binary.Formats
import VectorBench.Proofs.Binary.NonFinite
import VectorBench.Proofs.Binary.Root

/-!
# Norms of rows

The norm of a row of finite numbers.  The squares of 32-bit numbers are exact in 64 bits, and a sum of
them does not overflow, however long the row is: the norm is finite and covers every number of the
row.  Its square differs from the exact sum of squares by the roundings of the additions and of the
root.  A row with a number that is not finite has no finite norm.

    |x.value| ≤ (euclideanNorm row).value for all x of the row                  (covers of finite_norm)
    |(euclideanNorm row).value ^ 2 - squareSum row| ≤ normError row * squareSum row        (norm_error)
-/

namespace VectorBench

open Binary

def AllFinite (row : Vector32) : Prop := ∀ x ∈ row, x.isFinite = true

def squareSum (row : Vector32) : ℚ := (row.map fun x => x.value ^ 2).sum

theorem squareSum_nonneg (row : Vector32) : 0 ≤ squareSum row := by
  apply List.sum_nonneg
  intro v hv
  obtain ⟨x, -, rfl⟩ := List.mem_map.1 hv
  exact sq_nonneg x.value

theorem squareSum_cons (x : Binary32) (row : Vector32) :
    squareSum (x :: row) = x.value ^ 2 + squareSum row := by
  rw [squareSum, List.map_cons, List.sum_cons, squareSum]

def squares (row : Vector32) : List Binary64 := row.map fun x => x.widen * x.widen

variable {row : Vector32} {x : Binary32}

theorem euclideanNorm_eq (row : Vector32) : euclideanNorm row = (Binary.sum (squares row)).sqrt := rfl

theorem square_isTerm (hx : x.isFinite = true) : IsTerm (x.widen * x.widen) where
  finite := square_isFinite hx
  nonneg := by
    rw [square_value hx]
    exact sq_nonneg x.value
  le_limit := by
    have hsquare := pow_le_pow_left₀ (abs_nonneg x.value) (abs_value_lt hx).le 2
    rwa [sq_abs, ← pow_mul, ← square_value hx] at hsquare

theorem squares_isTerm (h : AllFinite row) : ∀ s ∈ squares row, IsTerm s := by
  intro s hs
  obtain ⟨x, hx, rfl⟩ := List.mem_map.1 hs
  exact square_isTerm (h x hx)

theorem total_squares (h : AllFinite row) : total (squares row) = squareSum row := by
  rw [total, squares, List.map_map, squareSum]
  refine congrArg List.sum (List.map_congr_left fun x hx => ?_)
  exact square_value (h x hx)

/-- The sum of the squares of a row of finite numbers. -/
theorem sum_squares (h : AllFinite row) : Accumulated (squares row) (Binary.sum (squares row)) :=
  sum_accumulated (squares_isTerm h)

/-! ## The norm -/

/-- What is known of the norm of finite numbers without regard to its error. -/
structure FiniteNorm (row : Vector32) (norm : Binary64) : Prop where
  finite : norm.isFinite = true
  nonneg : 0 ≤ norm.value
  covers : ∀ x ∈ row, |x.value| ≤ norm.value

theorem finiteNorm (h : AllFinite row) : FiniteNorm row (euclideanNorm row) := by
  have hsum := sum_squares h
  obtain ⟨hfinite, hnonneg⟩ := sqrt_isFinite hsum.finite hsum.nonneg
  refine ⟨hfinite, hnonneg, fun x hx => ?_⟩
  have hcovered := hsum.covers _ (List.mem_map_of_mem hx)
  rw [square_value (h x hx)] at hcovered
  rw [← abs_widen_value (h x hx)]
  refine le_sqrt_value hsum.finite hsum.nonneg (widen_isFinite (h x hx)) ?_
  rwa [← sq_abs, abs_widen_value (h x hx), sq_abs]

/-- The relative error of the square of a norm: one rounding for each number of the row, four for the
root and one for all that is of higher order. -/
def normError (row : Vector32) : ℚ := (row.length + 5) / 2 ^ 53

theorem norm_error (h : AllFinite row) (hlength : row.length ≤ 2 ^ 50) :
    |(euclideanNorm row).value ^ 2 - squareSum row| ≤ normError row * squareSum row := by
  have hsum := sum_squares h
  have hroot := sqrt_error hsum.finite hsum.nonneg
  have herror := hsum.error
  rw [total_squares h] at herror
  have hcount : (squares row).length = row.length := List.length_map ..
  have hhidden : (Format.double.hiddenBit : ℚ) = 2 ^ 52 := by norm_num [Format.hiddenBit]
  rw [hcount] at herror
  rw [hhidden, ← euclideanNorm_eq] at hroot
  have hnonneg := squareSum_nonneg row
  have hlength' : (row.length : ℚ) ≤ 2 ^ 50 := by exact_mod_cast hlength
  have hsplit : |(euclideanNorm row).value ^ 2 - squareSum row| ≤
      |(euclideanNorm row).value ^ 2 - (Binary.sum (squares row)).value| +
        |(Binary.sum (squares row)).value - squareSum row| := abs_sub_le _ _ _
  have hlarger := (abs_le.1 herror).2
  have hhigher : row.length / 2 ^ 53 * squareSum row ≤ 1 / 8 * squareSum row :=
    mul_le_mul_of_nonneg_right (by linarith) hnonneg
  rw [normError, add_div, add_mul]
  linarith

/-! ## Rows that stay -/

theorem euclideanNorm_isFinite_eq_false (h : ∃ x ∈ row, x.isFinite = false) :
    (euclideanNorm row).isFinite = false := by
  obtain ⟨x, hx, hfinite⟩ := h
  refine sqrt_isFinite_eq_false (sum_isFinite_eq_false ⟨x.widen * x.widen, ?_, ?_⟩)
  · exact List.mem_map_of_mem hx
  · exact mul_self_isFinite (toFormat_isFinite_eq_false .double hfinite)

/-- A number of the row in relation to the norm. -/
def rescaled (norm : Binary64) (x : Binary32) : Binary32 := (x.widen / norm).narrow

theorem normalize_eq (row : Vector32) : normalize row =
    if (euclideanNorm row).le leastNorm || !(euclideanNorm row).isFinite then row
    else row.map (rescaled (euclideanNorm row)) := rfl

theorem normalize_of_not_finite (h : ∃ x ∈ row, x.isFinite = false) : normalize row = row := by
  rw [normalize_eq, euclideanNorm_isFinite_eq_false h, Bool.not_false, Bool.or_true, if_pos rfl]

theorem leastNorm_value : leastNorm.value = 1 / 2 ^ 52 := by
  have hs : leastNorm.significand = 2 ^ 52 := by decide
  have he : leastNorm.exponent = 970 := by decide
  rw [Binary.value_of_parts rfl hs he (by decide)]
  norm_num [Format.unitBits]

theorem norm_le_leastNorm_iff (h : AllFinite row) :
    (euclideanNorm row).le leastNorm = true ↔ (euclideanNorm row).value ≤ 1 / 2 ^ 52 := by
  have hnorm := finiteNorm h
  rw [← leastNorm_value]
  exact le_iff_value_le (isNaN_eq_false_of_isFinite hnorm.finite) (by decide)

theorem normalize_of_small (h : AllFinite row) (hsmall : (euclideanNorm row).value ≤ 1 / 2 ^ 52) :
    normalize row = row := by
  rw [normalize_eq, (norm_le_leastNorm_iff h).2 hsmall, Bool.true_or, if_pos rfl]

theorem normalize_of_large (h : AllFinite row) (hlarge : 1 / 2 ^ 52 < (euclideanNorm row).value) :
    normalize row = row.map (rescaled (euclideanNorm row)) := by
  have hle : (euclideanNorm row).le leastNorm = false := by
    rw [← Bool.not_eq_true, norm_le_leastNorm_iff h]
    exact not_le.2 hlarge
  rw [normalize_eq, hle, (finiteNorm h).finite, Bool.not_true, Bool.or_false,
    if_neg Bool.false_ne_true]

end VectorBench
