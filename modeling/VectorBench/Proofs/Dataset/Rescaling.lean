import VectorBench.Proofs.Dataset.Norm

/-!
# What normalizing keeps

Normalizing a row of finite numbers leaves finite numbers, each with the sign it had, none of them
above one, and in the order of absolute values that they had: the norm covers every number of the row,
and dividing by it and rounding twice keeps the order.  That holds of rows of every length, and as well
where the row stays as it is because its norm is as good as zero.

    (∀ x ∈ row, x.isFinite) → Rescales row (normalize row)                       (normalize_rescales)
-/

namespace VectorBench

open Binary

/-- A number behind normalizing in relation to the one before. -/
structure Rescaled (x y : Binary32) : Prop where
  finite : y.isFinite = true
  at_most_one : |y.value| ≤ 1
  sign : y.negative = x.negative

/-- A row behind normalizing in relation to the one before. -/
structure Rescales (row after : Vector32) : Prop where
  numbers : List.Forall₂ Rescaled row after
  ordered : ∀ p ∈ row.zip after, ∀ q ∈ row.zip after,
    |p.1.value| ≤ |q.1.value| → |p.2.value| ≤ |q.2.value|

theorem rescales_map {row : Vector32} {g : Binary32 → Binary32}
    (hnumbers : ∀ x ∈ row, Rescaled x (g x))
    (hordered : ∀ x ∈ row, ∀ y ∈ row, |x.value| ≤ |y.value| → |(g x).value| ≤ |(g y).value|) :
    Rescales row (row.map g) := by
  have hmem : ∀ p ∈ row.zip (row.map g), p.1 ∈ row ∧ p.2 = g p.1 := by
    intro p hp
    have hzip : row.zip (row.map g) = row.map fun x => (x, g x) := by
      have hpairs := @List.zip_map' _ _ _ id g row
      rwa [List.map_id] at hpairs
    rw [hzip] at hp
    obtain ⟨x, hx, rfl⟩ := List.mem_map.1 hp
    exact ⟨hx, rfl⟩
  refine ⟨?_, ?_⟩
  · rw [List.forall₂_map_right_iff, List.forall₂_same]
    exact hnumbers
  · intro p hp q hq hle
    obtain ⟨hp1, hp2⟩ := hmem p hp
    obtain ⟨hq1, hq2⟩ := hmem q hq
    rw [hp2, hq2]
    exact hordered p.1 hp1 q.1 hq1 hle

/-! ## Numbers in relation to the norm -/

section Numbers

variable {row : Vector32} {norm : Binary64} {x y : Binary32}

/-- The quotient of which a number of the rescaled row is the rounded one. -/
theorem quotient_nearest (h : FiniteNorm row norm) (hpos : 0 < norm.value) (hx : x.isFinite = true) :
    Nearest .double .even (|x.value| / norm.value * 2 ^ Format.double.unitBits)
      (x.widen / norm).magnitude := by
  have hnearest := div_nearest (widen_isFinite hx) h.finite (isZero_eq_false_of_pos hpos)
  rwa [abs_div, abs_widen_value hx, abs_of_pos hpos] at hnearest

theorem quotient_le_one (h : FiniteNorm row norm) (hpos : 0 < norm.value) (hx : x.isFinite = true)
    (hmem : x ∈ row) : (x.widen / norm).isFinite = true ∧ |(x.widen / norm).value| ≤ 1 :=
  abs_value_le_one (quotient_nearest h hpos hx) ((div_le_one hpos).2 (h.covers x hmem))

theorem rescaled_rescaled (h : FiniteNorm row norm) (hpos : 0 < norm.value) (hx : x.isFinite = true)
    (hmem : x ∈ row) : Rescaled x (rescaled norm x) := by
  obtain ⟨hfinite, hone⟩ := quotient_le_one h hpos hx hmem
  obtain ⟨hfinite', hone'⟩ := abs_value_le_one (toFormat_nearest hfinite .single) hone
  refine ⟨hfinite', hone', ?_⟩
  have hsign := toFormat_negative hfinite .single
  rw [div_negative (widen_isFinite hx) h.finite (isZero_eq_false_of_pos hpos),
    negative_eq_false_of_pos hpos, widen_negative hx, Bool.bne_false] at hsign
  exact hsign

theorem rescaled_mono (h : FiniteNorm row norm) (hpos : 0 < norm.value) (hx : x.isFinite = true)
    (hy : y.isFinite = true) (hxrow : x ∈ row) (hyrow : y ∈ row) (hle : |x.value| ≤ |y.value|) :
    |(rescaled norm x).value| ≤ |(rescaled norm y).value| := by
  have hquotient : |x.value| / norm.value ≤ |y.value| / norm.value :=
    div_le_div_of_nonneg_right hle hpos.le
  have hwide : |(x.widen / norm).value| ≤ |(y.widen / norm).value| :=
    abs_value_mono (quotient_nearest h hpos hx) (quotient_nearest h hpos hy)
      (mul_le_mul_of_nonneg_right hquotient (by positivity))
  exact abs_value_mono (toFormat_nearest (quotient_le_one h hpos hx hxrow).1 .single)
    (toFormat_nearest (quotient_le_one h hpos hy hyrow).1 .single)
    (mul_le_mul_of_nonneg_right hwide (by positivity))

end Numbers

/-- Normalizing keeps the signs and the order of absolute values, and it leaves numbers of at most one;
a row with a number that is not finite stays. -/
theorem normalize_rescales (row : Vector32) :
    (AllFinite row → Rescales row (normalize row)) ∧
      ((∃ x ∈ row, x.isFinite = false) → normalize row = row) := by
  refine ⟨fun hrow => ?_, normalize_of_not_finite⟩
  have hnorm := finiteNorm hrow
  rcases le_or_gt (euclideanNorm row).value (1 / 2 ^ 52) with hsmall | hlarge
  · rw [normalize_of_small hrow hsmall]
    have hself : Rescales row (row.map id) := by
      refine rescales_map (fun x hx => ⟨hrow x hx, ?_, rfl⟩) fun x _ y _ hle => hle
      exact (hnorm.covers x hx).trans (hsmall.trans (by norm_num))
    rwa [List.map_id] at hself
  · have hpos : 0 < (euclideanNorm row).value := lt_trans (by positivity) hlarge
    rw [normalize_of_large hrow hlarge]
    refine rescales_map (fun x hx => ?_) fun x hx y hy hle => ?_
    · exact rescaled_rescaled hnorm hpos (hrow x hx) hx
    · exact rescaled_mono hnorm hpos (hrow x hx) (hrow y hy) hx hy hle

def extremeRow : Vector32 :=
  [.ofBits .single 0x7f7fffff, .ofBits .single 0xff7fffff, .ofBits .single 1,
    .ofBits .single 0x80000000]

theorem normalize_rescales_extremes :
    AllFinite extremeRow ∧ Rescales extremeRow (normalize extremeRow) := by
  have hrow : AllFinite extremeRow := by
    unfold AllFinite extremeRow
    decide
  exact ⟨hrow, (normalize_rescales extremeRow).1 hrow⟩

end VectorBench
