import VectorBench.Engine.Graph

/-!
# The budget of a search

How many candidates a graph may look at, against the formula in unbounded naturals.  A product that
does not fit into a word is cut to the largest one, which no upper bound exceeds, so that the bounds
leave the same number as of the whole product.  The lower bound is never above the upper one, whatever
a tuning says, and the budget grows with the hits wanted and with the factor.

    (mulSaturating a b).toNat = min (a.toNat * b.toNat) (2 ^ 64 - 1)            (toNat_mulSaturating)
    t.budget? topK = some (t.searchBudget topK)                                          (budget?_eq)
    (t.searchBudget topK).toNat = t.exactBudget topK.toNat                      (toNat_searchBudget)
-/

namespace VectorBench

/-! ## Words as naturals -/

theorem toNat_max (a b : UInt64) : (max a b).toNat = max a.toNat b.toNat := by
  simp only [max, UInt64.le_iff_toNat_le]
  split <;> omega

theorem toNat_min (a b : UInt64) : (min a b).toNat = min a.toNat b.toNat := by
  simp only [min, UInt64.le_iff_toNat_le]
  split <;> omega

/-- A product is never taken modulo a word. -/
theorem toNat_mulSaturating (a b : UInt64) :
    (mulSaturating a b).toNat = min (a.toNat * b.toNat) (UInt64.size - 1) := by
  have hsize : UInt64.size = 2 ^ 64 := rfl
  rw [mulSaturating]
  split
  · rename_i hfit
    rw [UInt64.toNat_mul, ← hsize, Nat.mod_eq_of_lt hfit, Nat.min_eq_left (Nat.le_sub_one_of_lt hfit)]
  · rename_i hover
    rw [Nat.min_eq_right (by omega)]
    rfl

/-- The word between two bounds that is nearest to another word.  There is none when the bounds are
inverted. -/
def clamped? (low high x : UInt64) : Option UInt64 :=
  if high < low then none
  else some (if x < low then low else if high < x then high else x)

theorem clamped?_eq {low high : UInt64} (h : low ≤ high) (x : UInt64) :
    clamped? low high x = some (min (max x low) high) := by
  rw [UInt64.le_iff_toNat_le] at h
  rw [clamped?, if_neg (by rw [UInt64.lt_iff_toNat_lt]; omega), Option.some_inj, ← UInt64.toNat_inj,
    toNat_min, toNat_max]
  simp only [UInt64.lt_iff_toNat_lt]
  split
  · omega
  · split <;> omega

namespace Tuning

/-- The fewest candidates that are looked at, at least one. -/
def low (t : Tuning) : UInt64 := max t.least 1

/-- The most candidates that are looked at, unless more hits are wanted. -/
def high (t : Tuning) : UInt64 := max t.most t.low

/-- The budget with bounds that have to be in order. -/
def budget? (t : Tuning) (topK : UInt64) : Option UInt64 :=
  (clamped? t.low t.high (mulSaturating topK (max t.factor 1))).map (max topK)

/-- The budget in unbounded naturals. -/
def exactBudget (t : Tuning) (topK : Nat) : Nat :=
  let low := max t.least.toNat 1
  let high := max t.most.toNat low
  max topK (min (max (topK * max t.factor.toNat 1) low) high)

variable {t : Tuning} {topK : UInt64}

theorem toNat_low (t : Tuning) : t.low.toNat = max t.least.toNat 1 := toNat_max _ _

theorem toNat_high (t : Tuning) : t.high.toNat = max t.most.toNat (max t.least.toNat 1) := by
  rw [high, toNat_max, toNat_low]

theorem low_le_high (t : Tuning) : t.low ≤ t.high := by
  rw [UInt64.le_iff_toNat_le, high, toNat_max]
  omega

theorem searchBudget_eq (t : Tuning) (topK : UInt64) : t.searchBudget topK =
    max topK (min (max (mulSaturating topK (max t.factor 1)) t.low) t.high) := rfl

/-- The bounds are in order for every tuning. -/
theorem budget?_eq (t : Tuning) (topK : UInt64) : t.budget? topK = some (t.searchBudget topK) := by
  rw [budget?, clamped?_eq t.low_le_high, Option.map_some, searchBudget_eq]

/-- What is lost where the product is cut lies above the upper bound. -/
theorem toNat_searchBudget (t : Tuning) (topK : UInt64) :
    (t.searchBudget topK).toNat = t.exactBudget topK.toNat := by
  have hhigh : t.high.toNat < UInt64.size := t.high.toNat_lt
  have hfactor : (max t.factor 1).toNat = max t.factor.toNat 1 := toNat_max _ _
  rw [searchBudget_eq, toNat_max, toNat_min, toNat_max, toNat_mulSaturating, hfactor]
  rw [toNat_high] at hhigh ⊢
  rw [toNat_low, exactBudget]
  generalize topK.toNat * max t.factor.toNat 1 = product
  omega

theorem exactBudget_mono (t : Tuning) {m n : Nat} (h : m ≤ n) : t.exactBudget m ≤ t.exactBudget n := by
  have hproduct : m * max t.factor.toNat 1 ≤ n * max t.factor.toNat 1 := Nat.mul_le_mul_right _ h
  simp only [exactBudget]
  omega

theorem exactBudget_mono_factor (t : Tuning) {factor : UInt64} (h : t.factor ≤ factor) (n : Nat) :
    t.exactBudget n ≤ { t with factor := factor }.exactBudget n := by
  rw [UInt64.le_iff_toNat_le] at h
  have hproduct : n * max t.factor.toNat 1 ≤ n * max factor.toNat 1 :=
    Nat.mul_le_mul_left n (by omega)
  simp only [exactBudget]
  omega

/-- The budget of every tuning is that of unbounded naturals: the product is cut and never wraps, and
the bounds are in order.  It allows for the hits wanted and for at least one candidate, is above the
upper bound only if more hits are wanted than that, and does not fall when more hits are wanted or when
the factor is larger. -/
theorem searchBudget_exact (t : Tuning) (topK : UInt64) :
    (mulSaturating topK (max t.factor 1)).toNat =
      min (topK.toNat * max t.factor.toNat 1) (UInt64.size - 1) ∧
    t.low ≤ t.high ∧ t.budget? topK = some (t.searchBudget topK) ∧
    (t.searchBudget topK).toNat = t.exactBudget topK.toNat ∧
    topK ≤ t.searchBudget topK ∧ 1 ≤ t.searchBudget topK ∧
    (t.high < t.searchBudget topK ↔ t.high < topK) ∧
    (∀ more, topK ≤ more → t.searchBudget topK ≤ t.searchBudget more) ∧
    ∀ factor, t.factor ≤ factor →
      t.searchBudget topK ≤ { t with factor := factor }.searchBudget topK := by
  have hhigh := t.toNat_high
  simp only [UInt64.le_iff_toNat_le, UInt64.lt_iff_toNat_lt, toNat_searchBudget, hhigh]
  refine ⟨?_, ?_, t.budget?_eq topK, trivial, ?_, ?_, ?_, fun _ h => t.exactBudget_mono h, fun _ h => ?_⟩
  · rw [toNat_mulSaturating, toNat_max]
    rfl
  · rw [toNat_low]
    omega
  · exact Nat.le_max_left _ _
  · simp only [exactBudget, UInt64.toNat_one]
    omega
  · simp only [exactBudget]
    omega
  · exact t.exactBudget_mono_factor (UInt64.le_iff_toNat_le.2 h) _

/-- A tuning with inverted bounds and a factor that overflows: the upper bound comes up to the lower
one, and more hits are wanted than that. -/
theorem searchBudget_exact_inverted :
    let t : Tuning := ⟨16, 100, 0xffffffffffffffff, 9, 3⟩
    (2 : UInt64) ≤ 10 ∧ t.factor ≤ 0xffffffffffffffff ∧ t.searchBudget 2 = 9 ∧
      t.searchBudget 2 ≤ t.searchBudget 10 ∧ t.searchBudget 10 = 10 := by
  intro t
  obtain ⟨-, -, -, -, -, -, -, hmore, -⟩ := t.searchBudget_exact 2
  exact ⟨by decide, by decide, by decide, hmore 10 (by decide), by decide⟩

end Tuning

end VectorBench
