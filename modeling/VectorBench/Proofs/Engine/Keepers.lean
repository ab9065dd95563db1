import VectorBench.Engine.Flat
import VectorBench.Proofs.Engine.Ranking

/-!
# The keepers of an exact search

Looking at one hit after the other, the keepers are at any time the best of all that were seen: they
are sorted, there are no more than the limit, and what was dropped is no better than any of them and
only dropped when the limit was reached.  A further hit finds room, replaces the weakest keeper or is
dropped itself; an equal one does not replace it.

    KeepsBest limit seen kept → KeepsBest limit (hit :: seen) (offer limit kept hit)    (offer)
    (hits.foldl (Keepers.offer limit) []).reverse = (ranked hits).take limit    (foldl_offer_reverse)
-/

namespace VectorBench

open Hit

/-- The keepers, weakest first, are the best of the hits that were seen. -/
structure KeepsBest (limit : Nat) (seen kept : List Hit) : Prop where
  sorted : kept.Pairwise (· ≤ ·)
  length_le : kept.length ≤ limit
  dropped : ∃ dropped, (kept ++ dropped).Perm seen ∧ (∀ d ∈ dropped, ∀ k ∈ kept, d ≤ k) ∧
    (dropped ≠ [] → kept.length = limit)

/-- The place that a hit finds is that of the order. -/
theorem Keepers.insert_eq (hit : Hit) (kept : List Hit) :
    Keepers.insert hit kept = kept.orderedInsert (· ≤ ·) hit := by
  induction kept with
  | nil => rfl
  | cons k rest ih =>
    rw [Keepers.insert, List.orderedInsert_cons, ih]
    by_cases hle : hit ≤ k
    · rw [if_pos hle, if_neg (by rw [better_iff]; exact not_lt.2 hle)]
    · rw [if_neg hle, if_pos (better_iff.2 (not_le.1 hle))]

namespace KeepsBest

variable {limit : Nat} {seen kept : List Hit} {hit : Hit}

theorem nil (limit : Nat) : KeepsBest limit [] [] :=
  ⟨.nil, Nat.zero_le limit, [], .nil, by simp, by simp⟩

theorem of_perm {seen' : List Hit} (h : KeepsBest limit seen kept) (hperm : seen.Perm seen') :
    KeepsBest limit seen' kept := by
  obtain ⟨dropped, hall, hle, hfull⟩ := h.dropped
  exact ⟨h.sorted, h.length_le, dropped, hall.trans hperm, hle, hfull⟩

/-! ## One more hit -/

/-- There is room for a hit. -/
theorem keep (h : KeepsBest limit seen kept) (hroom : kept.length < limit) :
    KeepsBest limit (hit :: seen) (Keepers.insert hit kept) := by
  obtain ⟨dropped, hall, -, hfull⟩ := h.dropped
  obtain rfl : dropped = [] := by
    by_contra hne
    have := hfull hne
    omega
  have hinsert : (Keepers.insert hit kept).Perm (hit :: kept) := by
    rw [Keepers.insert_eq]
    exact List.perm_orderedInsert _ hit kept
  refine ⟨?_, ?_, [], ?_, by simp, by simp⟩
  · rw [Keepers.insert_eq]
    exact h.sorted.orderedInsert hit kept
  · rw [hinsert.length_eq, List.length_cons]
    omega
  · rw [List.append_nil] at hall ⊢
    exact hinsert.trans (hall.cons hit)

/-- A hit that is better than the weakest keeper replaces it. -/
theorem replace {weakest : Hit} (h : KeepsBest limit seen (weakest :: kept))
    (hfull : (weakest :: kept).length = limit) (hbetter : weakest < hit) :
    KeepsBest limit (hit :: seen) (Keepers.insert hit kept) := by
  obtain ⟨dropped, hall, hle, -⟩ := h.dropped
  obtain ⟨hweakest, hsorted⟩ := List.pairwise_cons.1 h.sorted
  have hinsert : (Keepers.insert hit kept).Perm (hit :: kept) := by
    rw [Keepers.insert_eq]
    exact List.perm_orderedInsert _ hit kept
  have hlength : (Keepers.insert hit kept).length = limit := by
    rw [hinsert.length_eq, ← hfull, List.length_cons, List.length_cons]
  refine ⟨?_, hlength.le, weakest :: dropped, ?_, ?_, fun _ => hlength⟩
  · rw [Keepers.insert_eq]
    exact hsorted.orderedInsert hit kept
  · exact (hinsert.append_right _).trans ((List.perm_middle.trans hall).cons hit)
  · -- what is dropped is no better than the weakest, which is below all that is kept now
    have hbelow : ∀ k ∈ Keepers.insert hit kept, weakest ≤ k := by
      intro k hk
      rcases List.mem_cons.1 (hinsert.mem_iff.1 hk) with rfl | hk'
      · exact hbetter.le
      · exact hweakest k hk'
    intro d hd k hk
    rcases List.mem_cons.1 hd with rfl | hd'
    · exact hbelow k hk
    · exact (hle d hd' weakest List.mem_cons_self).trans (hbelow k hk)

/-- A hit that is no better than any keeper is dropped. -/
theorem drop (h : KeepsBest limit seen kept) (hfull : kept.length = limit)
    (hworse : ∀ k ∈ kept, hit ≤ k) : KeepsBest limit (hit :: seen) kept := by
  obtain ⟨dropped, hall, hle, -⟩ := h.dropped
  refine ⟨h.sorted, h.length_le, hit :: dropped, ?_, ?_, fun _ => hfull⟩
  · exact List.perm_middle.trans (hall.cons hit)
  · intro d hd k hk
    rcases List.mem_cons.1 hd with rfl | hd'
    · exact hworse k hk
    · exact hle d hd' k hk

theorem offer (h : KeepsBest limit seen kept) (hit : Hit) :
    KeepsBest limit (hit :: seen) (Keepers.offer limit kept hit) := by
  unfold Keepers.offer
  split
  · rename_i hroom
    exact h.keep hroom
  · rename_i hroom
    have hfull : kept.length = limit := Nat.le_antisymm h.length_le (Nat.not_lt.1 hroom)
    cases kept with
    | nil => exact h.drop hfull (by simp)
    | cons weakest rest =>
      cases hbetter : hit.better weakest with
      | true =>
        simp only [hbetter, if_true]
        exact h.replace hfull (better_iff.1 hbetter)
      | false =>
        simp only [hbetter, Bool.false_eq_true, if_false]
        have hle : hit ≤ weakest := by
          rw [← not_lt, ← better_iff, hbetter]
          exact Bool.false_ne_true
        refine h.drop hfull fun k hk => ?_
        rcases List.mem_cons.1 hk with rfl | hk'
        · exact hle
        · exact hle.trans ((List.pairwise_cons.1 h.sorted).1 k hk')

/-! ## All hits -/

theorem foldl_offer (h : KeepsBest limit seen kept) (hits : List Hit) :
    KeepsBest limit (hits ++ seen) (hits.foldl (Keepers.offer limit) kept) := by
  induction hits generalizing seen kept with
  | nil => exact h
  | cons hit rest ih => exact (ih (h.offer hit)).of_perm List.perm_middle

/-- The best of all hits are the first of their ranking. -/
theorem reverse_eq {hits : List Hit} (h : KeepsBest limit hits kept) :
    kept.reverse = (ranked hits).take limit := by
  obtain ⟨dropped, hall, hle, hfull⟩ := h.dropped
  have hranked : kept.reverse ++ ranked dropped = ranked hits := by
    refine eq_ranked ?_ ?_
    · exact ((List.reverse_perm kept).append (ranked_perm dropped)).trans hall
    · rw [List.pairwise_append, List.pairwise_reverse]
      refine ⟨h.sorted, ranked_pairwise dropped, fun k hk d hd => ?_⟩
      exact hle d ((ranked_perm dropped).mem_iff.1 hd) k (List.mem_reverse.1 hk)
  rw [← hranked]
  cases dropped with
  | nil =>
    have hnil : ranked [] = [] := List.perm_nil.1 (ranked_perm [])
    rw [hnil, List.append_nil, List.take_of_length_le]
    rw [List.length_reverse]
    exact h.length_le
  | cons d dropped =>
    have hlength : kept.reverse.length = limit := by
      rw [List.length_reverse]
      exact hfull (List.cons_ne_nil d dropped)
    rw [List.take_left' hlength]

end KeepsBest

theorem foldl_offer_reverse (limit : Nat) (hits : List Hit) :
    (hits.foldl (Keepers.offer limit) []).reverse = (ranked hits).take limit := by
  have h := (KeepsBest.nil limit).foldl_offer hits
  rw [List.append_nil] at h
  exact h.reverse_eq

end VectorBench
