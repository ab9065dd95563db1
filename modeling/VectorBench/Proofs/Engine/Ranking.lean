import Mathlib.Data.List.Sort
import Mathlib.Data.Prod.Lex
import VectorBench.Engine.Hit
import VectorBench.Proofs.Binary.Comparison

/-!
# Rankings of hits

What it means for one hit to rank above another, in the words of IEEE 754, and that this is the order
in which hits are compared.  It is a linear order, so that a list of different hits has one ranking,
and whatever is cut off a ranking ranks below all that is left.

    a.Above b ↔ b < a                                                    (above_iff)
    a.better b ↔ b < a                                                   (better_iff)
    hits.Nodup → Ranking hits (ranked hits)                              (ranked_ranking)
    Ranking hits l → Ranking hits k → l = k                              (Ranking.unique)
-/

namespace VectorBench

namespace Hit

variable {a b c : Hit}

/-- `a` ranks above `b`: its score comes later in the total order, or the scores are the same and its
row comes first. -/
def Above (a b : Hit) : Prop :=
  Binary.TotalLT b.score a.score ∨ a.score = b.score ∧ a.id < b.id

/-! ## A linear order -/

/-- The place of a hit: the place of its score, then that of its row, counted backwards. -/
def key (h : Hit) : ℤ ×ₗ ℕᵒᵈ := toLex (h.score.rank, OrderDual.toDual h.id)

theorem key_injective : Function.Injective key := by
  intro a b h
  have hpair : (a.score.rank, OrderDual.toDual a.id) = (b.score.rank, OrderDual.toDual b.id) := h
  obtain ⟨hrank, hid⟩ := Prod.mk.inj hpair
  obtain ⟨i, x⟩ := a
  obtain ⟨j, y⟩ := b
  exact congrArg₂ Hit.mk hid (Binary.rank_injective hrank)

instance : LinearOrder Hit := LinearOrder.lift' key key_injective

theorem lt_iff :
    a < b ↔ a.score.rank < b.score.rank ∨ a.score.rank = b.score.rank ∧ b.id < a.id :=
  Prod.Lex.toLex_lt_toLex

theorem above_iff : a.Above b ↔ b < a := by
  rw [Above, lt_iff, Binary.totalLT_iff]
  constructor
  · rintro (h | ⟨h, hid⟩)
    · exact Or.inl h
    · exact Or.inr ⟨by rw [h], hid⟩
  · rintro (h | ⟨h, hid⟩)
    · exact Or.inl h
    · exact Or.inr ⟨Binary.rank_injective h.symm, hid⟩

theorem score_rank_le (h : a ≤ b) : a.score.rank ≤ b.score.rank := by
  rcases h.lt_or_eq with hlt | rfl
  · rcases lt_iff.1 hlt with hrank | ⟨hrank, -⟩ <;> omega
  · exact le_rfl

theorem compare_eq_lt_iff : a.compare b = .lt ↔ a < b := by
  rw [compare, Ordering.then_eq_lt, compare_lt_iff_lt, compare_eq_iff_eq, compare_lt_iff_lt, lt_iff]

theorem compare_eq_gt_iff : a.compare b = .gt ↔ b < a := by
  rw [compare, Ordering.then_eq_gt, compare_gt_iff_gt, compare_eq_iff_eq, compare_gt_iff_gt, lt_iff]
  constructor
  · rintro (h | ⟨h, hid⟩)
    · exact Or.inl h
    · exact Or.inr ⟨h.symm, hid⟩
  · rintro (h | ⟨h, hid⟩)
    · exact Or.inl h
    · exact Or.inr ⟨h.symm, hid⟩

theorem better_iff : a.better b = true ↔ b < a := by
  rw [better, beq_iff_eq, compare_eq_gt_iff]

/-! ## Sorting -/

theorem ranked_perm (hits : List Hit) : (ranked hits).Perm hits := List.mergeSort_perm _ _

theorem ranked_pairwise (hits : List Hit) : (ranked hits).Pairwise fun a b => b ≤ a := by
  have hle : ∀ a b : Hit, (a.compare b != .lt) = true ↔ b ≤ a := by
    intro a b
    rw [bne_iff_ne, ne_eq, compare_eq_lt_iff, not_lt]
  have htrans : ∀ a b c : Hit, (a.compare b != .lt) = true → (b.compare c != .lt) = true →
      (a.compare c != .lt) = true := by
    intro a b c hab hbc
    rw [hle] at hab hbc ⊢
    exact hbc.trans hab
  have htotal : ∀ a b : Hit, ((a.compare b != .lt) || (b.compare a != .lt)) = true := by
    intro a b
    rw [Bool.or_eq_true, hle, hle]
    exact le_total b a
  exact (List.pairwise_mergeSort htrans htotal hits).imp fun h => (hle _ _).1 h

/-- A sorted list of hits is the ranking of what it is made of. -/
theorem eq_ranked {hits sorted : List Hit} (hperm : sorted.Perm hits)
    (hsorted : sorted.Pairwise fun a b => b ≤ a) : sorted = ranked hits :=
  (hperm.trans (ranked_perm hits).symm).eq_of_pairwise (fun _ _ _ _ hab hba => le_antisymm hba hab)
    hsorted (ranked_pairwise hits)

/-- The order in which hits come in does not matter. -/
theorem ranked_eq_of_perm {hits hits' : List Hit} (h : hits.Perm hits') :
    ranked hits = ranked hits' := eq_ranked ((ranked_perm hits).trans h) (ranked_pairwise hits)

end Hit

open Hit

/-- All of the hits in their order, the best one first. -/
structure Ranking (hits sorted : List Hit) : Prop where
  perm : sorted.Perm hits
  ordered : sorted.Pairwise Above

variable {hits sorted : List Hit}

theorem Ranking.eq_ranked (h : Ranking hits sorted) : sorted = ranked hits :=
  Hit.eq_ranked h.perm (h.ordered.imp fun hab => (above_iff.1 hab).le)

theorem Ranking.unique {sorted' : List Hit} (h : Ranking hits sorted) (h' : Ranking hits sorted') :
    sorted = sorted' := h.eq_ranked.trans h'.eq_ranked.symm

theorem ranked_ranking (h : hits.Nodup) : Ranking hits (ranked hits) := by
  refine ⟨ranked_perm hits, ?_⟩
  have hnodup : (ranked hits).Nodup := (ranked_perm hits).nodup_iff.2 h
  exact ((ranked_pairwise hits).and hnodup).imp fun hab =>
    above_iff.2 (lt_of_le_of_ne hab.1 (Ne.symm hab.2))

/-- Whatever is cut off a ranking ranks below all that is left. -/
theorem Ranking.above_of_not_mem_take (h : Ranking hits sorted) (n : Nat) {a b : Hit}
    (ha : a ∈ sorted.take n) (hb : b ∈ hits) (hcut : b ∉ sorted.take n) : a.Above b := by
  have hsplit : (sorted.take n ++ sorted.drop n).Pairwise Above := by
    rw [List.take_append_drop]
    exact h.ordered
  have hmem : b ∈ sorted.take n ++ sorted.drop n := by
    rw [List.take_append_drop]
    exact h.perm.mem_iff.2 hb
  have hdrop : b ∈ sorted.drop n := (List.mem_append.1 hmem).resolve_left hcut
  exact (List.pairwise_append.1 hsplit).2.2 a ha b hdrop

end VectorBench
