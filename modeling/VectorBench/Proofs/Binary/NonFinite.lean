import VectorBench.Binary.Arith
import VectorBench.Binary.Convert
import VectorBench.Proofs.Binary.Comparison

/-!
# What is not finite

A NaN or an infinity never turns into a finite number again: not by adding to it or adding it to
something, not by squaring, by taking its root or by changing its format.

    (∃ x ∈ xs, x.isFinite = false) → (sum xs).isFinite = false                 (sum_isFinite_eq_false)
-/

namespace VectorBench.Binary

variable {f : Format} {x y : Binary f}

theorem nan_isFinite : (nan : Binary f).isFinite = false := by
  cases f <;> rfl

theorem infinity_isFinite (negative : Bool) : (infinity negative : Binary f).isFinite = false := by
  cases f <;> rfl

theorem isZero_eq_false_of_not_finite (h : x.isFinite = false) : x.isZero = false := by
  have hpos : 0 < f.infinity := by cases f <;> decide
  rw [isFinite, decide_eq_false_iff_not] at h
  exact beq_eq_false_iff_ne.2 (by omega)

theorem add_isFinite_left (h : x.isFinite = false) : (x + y).isFinite = false := by
  change (add x y).isFinite = false
  unfold add
  split
  · exact nan_isFinite
  · rename_i hnan
    rw [Bool.or_eq_true, not_or] at hnan
    rw [if_pos ((isFinite_eq_false_iff.1 h).resolve_left hnan.1)]
    split
    · exact nan_isFinite
    · exact h

theorem add_isFinite_right (h : y.isFinite = false) : (x + y).isFinite = false := by
  cases hx : x.isFinite with
  | false => exact add_isFinite_left hx
  | true =>
    change (add x y).isFinite = false
    unfold add
    split
    · exact nan_isFinite
    · rename_i hnan
      rw [Bool.or_eq_true, not_or] at hnan
      have hinfinite := (isFinite_eq_false_iff.1 h).resolve_left hnan.2
      rw [isInfinite_eq_false_of_isFinite hx, if_neg Bool.false_ne_true, if_pos hinfinite]
      exact h

/-- One number that is not finite is enough. -/
theorem sum_isFinite_eq_false {xs : List (Binary f)} (h : ∃ x ∈ xs, x.isFinite = false) :
    (sum xs).isFinite = false := by
  have hfold : ∀ (xs : List (Binary f)) (s : Binary f),
      (s.isFinite = false ∨ ∃ x ∈ xs, x.isFinite = false) →
        (xs.foldl (· + ·) s).isFinite = false := by
    intro xs
    induction xs with
    | nil =>
      rintro s (hs | ⟨x, hx, -⟩)
      · exact hs
      · cases hx
    | cons x xs ih =>
      rintro s (hs | ⟨y, hy, hfinite⟩)
      · exact ih _ (.inl (add_isFinite_left hs))
      · rcases List.mem_cons.1 hy with rfl | hy
        · exact ih _ (.inl (add_isFinite_right hfinite))
        · exact ih _ (.inr ⟨y, hy, hfinite⟩)
  exact hfold xs _ (.inr h)

theorem mul_self_isFinite (h : x.isFinite = false) : (x * x).isFinite = false := by
  change (mul x x).isFinite = false
  have hzero := isZero_eq_false_of_not_finite h
  simp only [mul, Bool.or_self, hzero, Bool.false_eq_true, if_false]
  split
  · exact nan_isFinite
  · rename_i hnan
    rw [if_pos ((isFinite_eq_false_iff.1 h).resolve_left hnan)]
    exact infinity_isFinite _

theorem sqrt_isFinite_eq_false (h : x.isFinite = false) : x.sqrt.isFinite = false := by
  unfold sqrt
  split
  · exact nan_isFinite
  · rename_i hnan
    rw [isZero_eq_false_of_not_finite h, if_neg Bool.false_ne_true]
    split
    · exact nan_isFinite
    · rw [if_pos ((isFinite_eq_false_iff.1 h).resolve_left hnan)]
      exact h

theorem toFormat_isFinite_eq_false (g : Format) (h : x.isFinite = false) :
    (x.toFormat g).isFinite = false := by
  unfold toFormat
  split
  · exact nan_isFinite
  · rename_i hnan
    rw [if_pos ((isFinite_eq_false_iff.1 h).resolve_left hnan)]
    exact infinity_isFinite _

end VectorBench.Binary
