import VectorBench.Binary.Arith
import VectorBench.Binary.Order
import VectorBench.VectorSet

/-!
# Hits and their ranking

A hit is the number of a corpus row with the score it got.  Of two hits the one with the higher
score is better, in the total order of the scores' bit patterns, and of equal scores the one with
the lower row number.  Different hits are never equally good, so that a ranking is unique.

    a.compare b = .eq ↔ a = b                                  (compare_eq_eq_iff)
-/

namespace VectorBench

/-- A corpus row and its score. -/
structure Hit where
  id : Nat
  score : Binary32
  deriving DecidableEq

namespace Hit

/-- `gt` when `a` is better than `b`. -/
def compare (a b : Hit) : Ordering :=
  (Ord.compare a.score.rank b.score.rank).then (Ord.compare b.id a.id)

def better (a b : Hit) : Bool := a.compare b == .gt

/-- Hits from the best to the worst. -/
def ranked (hits : List Hit) : List Hit := hits.mergeSort fun a b => a.compare b != .lt

/-! ## Lemmas -/

theorem compare_eq_eq_iff {a b : Hit} : a.compare b = .eq ↔ a = b := by
  obtain ⟨i, x⟩ := a
  obtain ⟨j, y⟩ := b
  simp only [compare, Ordering.then_eq_eq, Hit.mk.injEq]
  constructor
  · rintro ⟨h1, h2⟩
    have hx : x.rank = y.rank := by simpa using h1
    have hi : j = i := by simpa using h2
    exact ⟨hi.symm, Binary.rank_injective hx⟩
  · rintro ⟨rfl, rfl⟩
    simp

end Hit

/-- The inner product: the products of the numbers at the same places, added from left to right.
The shorter row decides how many there are. -/
def innerProduct (a b : Vector32) : Binary32 := Binary.sum (List.zipWith (· * ·) a b)

end VectorBench
