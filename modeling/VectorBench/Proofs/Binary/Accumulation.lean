import Mathlib.Algebra.BigOperators.Group.List.Basic
import Mathlib.Data.List.Induction
import VectorBench.Binary.Arith
import VectorBench.Proofs.Binary.Error

/-!
# Adding up numbers that are not below zero

A sum from left to right of numbers that are not below zero never falls, so that it covers each of
them.  Every addition is wrong by at most one part in `2 ^ 53` of its result, and by no more than what
is added; from both together the relative error is at most that part for each number added, without
any term of higher order.  Numbers up to `2 ^ 256` leave a sum as it is once it has come up to
`2 ^ 310`: however many there are, the sum does not overflow.

    Accumulated xs s → Accumulated (xs ++ [x]) (s + x)                              (Accumulated.add)
    Accumulated xs (sum xs)                                                         (sum_accumulated)
-/

namespace VectorBench

open Binary (unitsOf exponentOf)

/-- A value below the midpoint with the next magnitude is not rounded up. -/
theorem Nearest.le_of_lt {f : Format} {tie : Tie} {q : ℚ} {g k : Nat} (h : Nearest f tie q g)
    (hlt : 2 * q < unitsOf f k + unitsOf f (k + 1)) : g ≤ k := by
  by_contra hgt
  have hnext : k + 1 ≤ g := by omega
  have hmid := ((nearest_iff.1 h).2.1 k (by omega)).1
  have hmono : (unitsOf f (k + 1) : ℚ) ≤ unitsOf f g := by
    exact_mod_cast (Binary.unitsOf_strictMono f).monotone hnext
  linarith

namespace Binary

variable {f : Format} {a b : Binary f}

theorem value_of_nonneg (h : 0 ≤ a.value) : a.value = a.units / 2 ^ f.unitBits := by
  rw [← abs_value, abs_of_nonneg h]

theorem signedUnits_of_nonneg (h : 0 ≤ a.value) : a.signedUnits = a.units := by
  have hunit : (2 : ℚ) ^ f.unitBits ≠ 0 := by positivity
  have hvalue := value_of_nonneg h
  rw [value, div_left_inj' hunit] at hvalue
  exact_mod_cast hvalue

/-! ## One addition -/

/-- The sum of numbers that are not below zero is the number nearest to the sum of their values. -/
theorem add_nearest (ha : a.isFinite = true) (hb : b.isFinite = true) (ha0 : 0 ≤ a.value)
    (hb0 : 0 ≤ b.value) :
    Nearest f .even ((a.units + b.units : Nat) : ℚ) (a + b).magnitude ∧ 0 ≤ (a + b).value := by
  rw [add_eq_ofUnits ha hb, signedUnits_of_nonneg ha0, signedUnits_of_nonneg hb0, ← Nat.cast_add]
  split
  · rename_i hzero
    rw [Nat.cast_eq_zero.1 hzero]
    exact ⟨nearest_zero (by norm_num), (zero_value _).ge⟩
  · have hnearest := f.magnitudeOfRatio_nearest (n := a.units + b.units) Nat.one_pos
    rw [Nat.cast_one, div_one] at hnearest
    rw [ofUnits_natCast, ofRatio, ofMagnitude_magnitude hnearest.le_infinity]
    refine ⟨hnearest, ?_⟩
    rw [value_of_positive rfl]
    positivity

theorem add_units_eq (ha0 : 0 ≤ a.value) (hb0 : 0 ≤ b.value) :
    ((a.units + b.units : Nat) : ℚ) = (a.value + b.value) * 2 ^ f.unitBits := by
  rw [value_of_nonneg ha0, value_of_nonneg hb0, ← add_div, div_mul_cancel₀ _ (by positivity)]
  push_cast
  rfl

/-- Adding does not make a sum smaller. -/
theorem le_add_left (ha : a.isFinite = true) (hb : b.isFinite = true) (ha0 : 0 ≤ a.value)
    (hb0 : 0 ≤ b.value) : a.value ≤ (a + b).value := by
  obtain ⟨hnearest, hnonneg⟩ := add_nearest ha hb ha0 hb0
  have hle : (unitsOf f a.magnitude : ℚ) ≤ (a.units + b.units : Nat) := by
    exact_mod_cast Nat.le_add_right a.units b.units
  have hmagnitude := (nearest_unitsOf .even (decide_eq_true_iff.1 ha).le).mono hnearest hle
  have hunits : (a.units : ℚ) ≤ (a + b).units := by
    exact_mod_cast (unitsOf_strictMono f).monotone hmagnitude
  rw [value_of_nonneg ha0, value_of_nonneg hnonneg]
  exact div_le_div_of_nonneg_right hunits (by positivity)

theorem add_comm_value (ha : a.isFinite = true) (hb : b.isFinite = true) (ha0 : 0 ≤ a.value)
    (hb0 : 0 ≤ b.value) : (a + b).value = (b + a).value := by
  obtain ⟨hnearest, hnonneg⟩ := add_nearest ha hb ha0 hb0
  obtain ⟨hnearest', hnonneg'⟩ := add_nearest hb ha hb0 ha0
  rw [Nat.add_comm] at hnearest'
  rw [value_of_nonneg hnonneg, value_of_nonneg hnonneg', units, units, hnearest.unique hnearest']

/-- A sum is wrong by no more than what is added. -/
theorem add_error_le (ha : a.isFinite = true) (hb : b.isFinite = true) (ha0 : 0 ≤ a.value)
    (hb0 : 0 ≤ b.value) : |(a + b).value - (a.value + b.value)| ≤ b.value := by
  obtain ⟨hnearest, hnonneg⟩ := add_nearest ha hb ha0 hb0
  have hunit : (0 : ℚ) < 2 ^ f.unitBits := by positivity
  have hnear := hnearest.near a.magnitude (decide_eq_true_iff.1 ha).le
  have hself : |(unitsOf f a.magnitude : ℚ) - (a.units + b.units : Nat)| = b.units := by
    have hdifference : (unitsOf f a.magnitude : ℚ) - (a.units + b.units : Nat) = -b.units := by
      push_cast
      exact sub_add_cancel_left _ _
    rw [hdifference, abs_neg, Nat.abs_cast]
  rw [hself] at hnear
  have hdifference : (a + b).value - (a.value + b.value) =
      (unitsOf f (a + b).magnitude - (a.units + b.units : Nat)) / 2 ^ f.unitBits := by
    rw [value_of_nonneg hnonneg, add_units_eq ha0 hb0, sub_div, mul_div_cancel_right₀ _ hunit.ne']
    rfl
  rw [hdifference, abs_div, abs_of_pos hunit, value_of_nonneg hb0]
  exact div_le_div_of_nonneg_right hnear hunit.le

/-- A sum that does not overflow has the relative error of one rounding. -/
theorem add_error (ha : a.isFinite = true) (hb : b.isFinite = true) (ha0 : 0 ≤ a.value)
    (hb0 : 0 ≤ b.value) (h : a.value + b.value ≤ unitsOf f f.infinity / 2 ^ f.unitBits) :
    |(a + b).value - (a.value + b.value)| ≤ (a.value + b.value) / f.hiddenBit / 2 := by
  obtain ⟨hnearest, hnonneg⟩ := add_nearest ha hb ha0 hb0
  have hunit : (0 : ℚ) < 2 ^ f.unitBits := by positivity
  have hsum := add_units_eq ha0 hb0
  have hlimit : ((a.units + b.units : Nat) : ℚ) ≤ unitsOf f f.infinity := by
    rw [hsum]
    exact (le_div_iff₀ hunit).1 h
  have herror := hnearest.error_natCast hlimit
  have hdifference : (a + b).value - (a.value + b.value) =
      (unitsOf f (a + b).magnitude - (a.units + b.units : Nat)) / 2 ^ f.unitBits := by
    rw [value_of_nonneg hnonneg, hsum, sub_div, mul_div_cancel_right₀ _ hunit.ne']
    rfl
  rw [hsum] at herror
  rw [hdifference, abs_div, abs_of_pos hunit, div_le_iff₀ hunit, div_mul_eq_mul_div,
    div_mul_eq_mul_div, hsum]
  linarith

end Binary

namespace Binary

/-! ## Many additions -/

variable {a s x : Binary64} {xs : List Binary64}

def total {f : Format} (xs : List (Binary f)) : ℚ := (xs.map value).sum

/-- What a term may be at most. -/
structure IsTerm (x : Binary64) : Prop where
  finite : x.isFinite = true
  nonneg : 0 ≤ x.value
  le_limit : x.value ≤ 2 ^ 256

/-- How far a sum of terms can be relied on. -/
structure Accumulated (xs : List Binary64) (s : Binary64) : Prop where
  finite : s.isFinite = true
  nonneg : 0 ≤ s.value
  le_limit : s.value ≤ 2 ^ 310
  covers : ∀ x ∈ xs, x.value ≤ s.value
  error : |s.value - total xs| ≤ xs.length / 2 ^ 53 * total xs

theorem total_append (xs : List Binary64) (x : Binary64) : total (xs ++ [x]) = total xs + x.value := by
  simp [total]

def limitMagnitude : Nat := 1332 * Format.double.hiddenBit + Format.double.hiddenBit

theorem unitsOf_limitMagnitude :
    unitsOf .double limitMagnitude = Format.double.hiddenBit * 2 ^ 1332 :=
  unitsOf_binade .double 1332 Format.double.hiddenBit (.inr le_rfl) (by decide)

theorem exponentOf_limitMagnitude : exponentOf .double limitMagnitude = 1332 :=
  exponentOf_binade .double 1332 Format.double.hiddenBit (.inr le_rfl) (by decide)

theorem below_midpoint {s x limit term unit gap : ℚ} (hs : s ≤ limit) (hx : x ≤ term)
    (hunit : 0 ≤ unit) (hgap : 2 * (term * unit) < gap) :
    2 * ((s + x) * unit) < limit * unit + (limit * unit + gap) := by
  have hsum := mul_le_mul_of_nonneg_right (add_le_add hs hx) hunit
  rw [add_mul limit] at hsum
  linarith

/-- A sum that has come up to the limit stays there. -/
theorem add_le_limit (ha : a.isFinite = true) (hx : IsTerm x) (ha0 : 0 ≤ a.value)
    (hlimit : a.value ≤ 2 ^ 310) : (a + x).isFinite = true ∧ (a + x).value ≤ 2 ^ 310 := by
  obtain ⟨hnearest, hnonneg⟩ := add_nearest ha hx.finite ha0 hx.nonneg
  have hunit : (0 : ℚ) < 2 ^ 1074 := by positivity
  have hk : (unitsOf .double limitMagnitude : ℚ) = 2 ^ 310 * 2 ^ 1074 := by
    have hhidden : (Format.double.hiddenBit : ℚ) = 2 ^ 52 := by norm_num [Format.hiddenBit]
    rw [unitsOf_limitMagnitude, Nat.cast_mul, Nat.cast_pow, Nat.cast_ofNat, hhidden, ← pow_add,
      ← pow_add]
  -- a term is a quarter of the distance to the next number
  have hle : (a + x).magnitude ≤ limitMagnitude := by
    refine hnearest.le_of_lt ?_
    have hgap : 2 * (2 ^ 256 * 2 ^ 1074 : ℚ) < 2 ^ 1332 := by
      rw [← pow_add, ← pow_succ']
      exact pow_lt_pow_right₀ one_lt_two (by norm_num)
    have hdouble : Format.double.unitBits = 1074 := rfl
    rw [unitsOf_add_one, exponentOf_limitMagnitude, hk, add_units_eq ha0 hx.nonneg, hdouble]
    exact below_midpoint hlimit hx.le_limit hunit.le hgap
  refine ⟨decide_eq_true (Nat.lt_of_le_of_lt hle (by decide)), ?_⟩
  have hunits : ((a + x).units : ℚ) ≤ unitsOf .double limitMagnitude := by
    exact_mod_cast (unitsOf_strictMono .double).monotone hle
  rw [hk] at hunits
  rw [value_of_nonneg hnonneg]
  exact (div_le_iff₀ hunit).2 hunits

theorem limit_add_le : (2 : ℚ) ^ 310 + 2 ^ 256 ≤ 2 ^ 1024 :=
  calc (2 : ℚ) ^ 310 + 2 ^ 256
      ≤ 2 ^ 310 + 2 ^ 310 := add_le_add_right (pow_le_pow_right₀ one_le_two (by norm_num)) _
    _ = 2 ^ 311 := by rw [← two_mul, ← pow_succ']
    _ ≤ 2 ^ 1024 := pow_le_pow_right₀ one_le_two (by norm_num)

/-- One more term costs one more rounding.  A term that is small against the sum is wrong by no more
than itself, and with one that is not the error of the sum is small against the term. -/
theorem error_step {n : Nat} {u s t x s' : ℚ} (hu : 0 ≤ u) (hx : 0 ≤ x)
    (herror : |s - t| ≤ n * u * t) (hterm : |s' - (s + x)| ≤ x) (hround : |s' - (s + x)| ≤ u * (s + x)) :
    |s' - (t + x)| ≤ (n + 1) * u * (t + x) := by
  have hn : (0 : ℚ) ≤ n * u := by positivity
  have hsplit : |s' - (t + x)| ≤ |s' - (s + x)| + |s - t| := by
    have heq : s' - (t + x) = (s' - (s + x)) + (s - t) := by ring
    rw [heq]
    exact abs_add_le _ _
  have hs : s ≤ t + n * u * t := by
    have := (abs_le.1 herror).2
    linarith
  rcases le_total x (u * t) with hsmall | hlarge
  · have hux : 0 ≤ (n * u + u) * x := by positivity
    linarith
  · have hhigher : n * u * (u * t) ≤ n * u * x := mul_le_mul_of_nonneg_left hlarge hn
    have hrounded : u * (s + x) ≤ u * (t + n * u * t + x) :=
      mul_le_mul_of_nonneg_left (by linarith) hu
    linarith

theorem accumulated_nil : Accumulated [] (zero true) where
  finite := by decide
  nonneg := (zero_value true).ge
  le_limit := by
    rw [zero_value]
    positivity
  covers := fun x hx => absurd hx List.not_mem_nil
  error := by
    rw [zero_value]
    simp [total]

theorem Accumulated.add (h : Accumulated xs s) (hx : IsTerm x) :
    Accumulated (xs ++ [x]) (s + x) := by
  obtain ⟨hfinite, hlimit⟩ := add_le_limit h.finite hx h.nonneg h.le_limit
  refine ⟨hfinite, (add_nearest h.finite hx.finite h.nonneg hx.nonneg).2, hlimit, fun y hy => ?_, ?_⟩
  · rcases List.mem_append.1 hy with hy | hy
    · exact (h.covers y hy).trans (le_add_left h.finite hx.finite h.nonneg hx.nonneg)
    · rw [List.mem_singleton.1 hy, add_comm_value h.finite hx.finite h.nonneg hx.nonneg]
      exact le_add_left hx.finite h.finite hx.nonneg h.nonneg
  · have hlimit : s.value + x.value ≤ unitsOf .double Format.double.infinity / 2 ^ 1074 := by
      rw [value_infinity]
      exact (add_le_add h.le_limit hx.le_limit).trans limit_add_le
    have hround := add_error h.finite hx.finite h.nonneg hx.nonneg hlimit
    have hhidden : (Format.double.hiddenBit : ℚ) = 2 ^ 52 := by norm_num [Format.hiddenBit]
    rw [hhidden] at hround
    have herror : |s.value - total xs| ≤ xs.length * (1 / 2 ^ 53) * total xs := by
      rw [mul_one_div]
      exact h.error
    have hstep := error_step (by positivity) hx.nonneg herror (add_error_le h.finite hx.finite h.nonneg hx.nonneg)
      (hround.trans (le_of_eq (by ring)))
    rw [total_append, List.length_append, List.length_singleton]
    push_cast
    rwa [mul_one_div] at hstep

/-- A sum from left to right accumulates its terms. -/
theorem sum_accumulated (h : ∀ x ∈ xs, IsTerm x) : Accumulated xs (sum xs) := by
  induction xs using List.reverseRecOn with
  | nil => exact accumulated_nil
  | append_singleton xs x ih =>
    have hxs : ∀ y ∈ xs, IsTerm y := fun y hy => h y (List.mem_append_left _ hy)
    have hsum : sum (xs ++ [x]) = sum xs + x := by simp [sum]
    rw [hsum]
    exact (ih hxs).add (h x (List.mem_append_right _ (List.mem_singleton_self x)))

end Binary

end VectorBench
