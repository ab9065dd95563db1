import VectorBench.Proofs.Engine.Answers
import VectorBench.Proofs.Engine.Keepers

/-!
# Exact search

Keeping the best hits while looking at one row after the other gives the same answer as ranking all
rows by their inner products and taking the first of them, whatever the scores are: equal ones, zeros
of either sign, infinities and NaNs.

    exactNearest rows n query = (ranked (scoredRows rows query)).take n        (exactNearest_eq)
    BestHits (scoredBy score rows) (min n rows.length) (keptBy score rows n)    (keptBy_bestHits)
-/

namespace VectorBench

open Hit

theorem exactNearest_eq (rows : List Vector32) (limit : Nat) (query : Vector32) :
    exactNearest rows limit query = (ranked (scoredRows rows query)).take limit :=
  foldl_offer_reverse limit (scoredRows rows query)

/-- The keepers behind all rows, best first. -/
def keptBy (score : Vector32 → Binary32) (rows : List Vector32) (limit : Nat) : List Hit :=
  ((scoredBy score rows).foldl (Keepers.offer limit) []).reverse

theorem exactNearest_eq_keptBy (rows : List Vector32) (limit : Nat) (query : Vector32) :
    exactNearest rows limit query = keptBy (innerProduct query) rows limit := rfl

/-- The keepers are the best hits, whichever score the rows are given. -/
theorem keptBy_bestHits (score : Vector32 → Binary32) (rows : List Vector32) (limit : Nat) :
    BestHits (scoredBy score rows) (min limit rows.length) (keptBy score rows limit) := by
  rw [keptBy, foldl_offer_reverse, take_ranked_scoredBy]
  exact bestHits score rows _

/-- The exact engine takes the first hits of the ranking by the inner product. -/
theorem flat_nearest (corpus : VectorSet) (topK : UInt64) :
    (Engine.flat.index corpus).nearest topK =
      fun query => (ranked (scoredBy (innerProduct query) corpus.rows)).take topK.toNat :=
  funext fun query => exactNearest_eq corpus.rows topK.toNat query

/-- After a build the exact engine answers every query, in the order of the queries, with the best
rows by the inner product, as many as are asked for and there are.  That it looks at one row after
the other would give the best rows by any other score as well, NaNs of either sign included. -/
theorem flat_search (s : Session) (hs : s.engine = .flat) {corpus queries : VectorSet}
    {topK : UInt64} (hrows : corpus.rows ≠ []) (hdim : corpus.dim = queries.dim) (hk : topK ≠ 0) :
    (∃ built found, s.build corpus = (.ok (), built) ∧ built.search queries topK = .ok found ∧
        List.Forall₂ (fun query hits => BestHits (scoredRows corpus.rows query)
          (min topK.toNat corpus.rows.length) hits) queries.rows found) ∧
      (∀ query, exactNearest corpus.rows topK.toNat query =
        keptBy (innerProduct query) corpus.rows topK.toNat) ∧
      ∀ score, BestHits (scoredBy score corpus.rows) (min topK.toNat corpus.rows.length)
        (keptBy score corpus.rows topK.toNat) := by
  obtain ⟨built, hbuild, hsearch⟩ := Session.search_of_build hs hrows hdim hk
  rw [flat_nearest] at hsearch
  exact ⟨⟨built, _, hbuild, hsearch,
      forall₂_bestHits innerProduct corpus.rows topK.toNat queries.rows⟩,
    exactNearest_eq_keptBy corpus.rows topK.toNat, fun score => keptBy_bestHits score _ _⟩

/-- One, both zeros, NaNs of both signs, one again and infinity, a row each. -/
def specialRows : VectorSet :=
  ⟨1, [.ofBits .single 0x3f800000, .zero true, .zero false, .ofBits .single 0xffc00000, .nan,
    .ofBits .single 0x3f800000, .infinity false]⟩

def only (row : Vector32) : Binary32 := row.headD .nan

theorem flat_search_special :
    specialRows.rows ≠ [] ∧ (3 : UInt64) ≠ 0 ∧
    (∃ built found, (Session.start .flat).build specialRows = (.ok (), built) ∧
      built.search specialRows 3 = .ok found ∧
      List.Forall₂ (fun query hits => BestHits (scoredRows specialRows.rows query)
        (min 3 specialRows.rows.length) hits) specialRows.rows found) ∧
    BestHits (scoredBy only specialRows.rows) (min 3 specialRows.rows.length)
      (keptBy only specialRows.rows 3) := by
  have hrows : specialRows.rows ≠ [] := List.cons_ne_nil _ _
  have hk : (3 : UInt64) ≠ 0 := by decide
  obtain ⟨hanswers, -, hbest⟩ := flat_search (Session.start .flat) rfl hrows rfl hk
  exact ⟨hrows, hk, hanswers, hbest only⟩

-- the NaN without a sign comes first and the other one last, and of the ones the earlier row
example : (keptBy only specialRows.rows 7).map (·.id) = [4, 6, 0, 5, 2, 1, 3] := by decide +kernel

end VectorBench
