import VectorBench.Engine.Graph
import VectorBench.Proofs.Binary.Sum
import VectorBench.Proofs.Engine.ExactSearch

/-!
# Graph search

A graph that leaves no row out answers like a ranking of all rows by a score of their own, one less
the distance.  That score never falls when the inner product grows, but it is the same for all inner
products from one on and for some that rounding does not tell apart, so that the answer of the exact
engine has the same scores once these are clamped, and may have other rows.

    s.rank ≤ t.rank → (clampedScore s).rank ≤ (clampedScore t).rank       (clampedScore_rank_mono)
    scores of the ranking by `g ∘ score` = `g` of the scores of the ranking by `score`, for a `g` that
      is monotone on them                                                       (map_score_ranked)
    every row is named once → the candidates rank like all rows               (rankCandidates_eq)
-/

namespace VectorBench

open Hit

/-- The score by which a graph ranks a row, from its inner product with the query. -/
def clampedScore (s : Binary32) : Binary32 := one32 - Binary.max (one32 - s) (.zero false)

theorem clampedScore_rank_mono {s t : Binary32} (hs : s.isNaN = false) (ht : t.isNaN = false)
    (h : s.rank ≤ t.rank) : (clampedScore s).rank ≤ (clampedScore t).rank := by
  have hone : one32.isFinite = true := by decide
  have hsign : one32.negative = false := rfl
  have hzero : (Binary.zero false : Binary32).isNaN = false := rfl
  have hs' := Binary.sub_isNaN hone hsign hs
  have ht' := Binary.sub_isNaN hone hsign ht
  -- the distances come the other way round, and stay so where they are cut off
  have hdistance : (one32 - t).signedMagnitude ≤ (one32 - s).signedMagnitude :=
    Binary.signedMagnitude_le_of_rank_le
      (Binary.sub_rank_anti hone hsign hs ht (Binary.signedMagnitude_le_of_rank_le h))
  have hclamped : (Binary.max (one32 - t) (.zero false)).signedMagnitude ≤
      (Binary.max (one32 - s) (.zero false)).signedMagnitude := by
    rw [Binary.max_signedMagnitude ht' hzero, Binary.max_signedMagnitude hs' hzero]
    exact max_le_max_right _ hdistance
  exact Binary.sub_rank_anti hone hsign (Binary.max_isNaN ht' hzero) (Binary.max_isNaN hs' hzero)
    hclamped

/-! ## Ranking by a function of the score -/

/-- A function that is monotone on the scores may be applied before or after ranking, as far as the
scores are concerned.  The rows may differ where it takes different scores to one. -/
theorem map_score_ranked (g : Binary32 → Binary32) (score : Vector32 → Binary32)
    {rows : List Vector32} (hg : ∀ a ∈ rows, ∀ b ∈ rows, (score a).rank ≤ (score b).rank →
      (g (score a)).rank ≤ (g (score b)).rank) :
    (ranked (scoredBy (fun row => g (score row)) rows)).map (·.score) =
      (ranked (scoredBy score rows)).map fun hit => g hit.score := by
  have hrow : ∀ hit ∈ ranked (scoredBy score rows), ∃ row ∈ rows, score row = hit.score := by
    intro hit hmem
    have hscore : hit.score ∈ (scoredBy score rows).map (·.score) :=
      List.mem_map_of_mem ((ranked_perm _).mem_iff.1 hmem)
    rw [map_score_scoredBy] at hscore
    exact List.mem_map.1 hscore
  -- both sides are the scores of all rows, and both fall
  have hperm : ((ranked (scoredBy (fun row => g (score row)) rows)).map (·.score)).Perm
      ((ranked (scoredBy score rows)).map fun hit => g hit.score) := by
    have hleft := (ranked_perm (scoredBy (fun row => g (score row)) rows)).map (·.score)
    have hright := ((ranked_perm (scoredBy score rows)).map (·.score)).map g
    rw [map_score_scoredBy] at hleft
    rw [map_score_scoredBy, List.map_map, List.map_map] at hright
    exact hleft.trans hright.symm
  have hantisymm : ∀ s t : Binary32, t.rank ≤ s.rank → s.rank ≤ t.rank → s = t :=
    fun s t hts hst => Binary.rank_injective (le_antisymm hst hts)
  refine hperm.eq_of_pairwise (fun s t _ _ => hantisymm s t) ?_ ?_
  · rw [List.pairwise_map]
    exact (ranked_pairwise _).imp score_rank_le
  · rw [List.pairwise_map]
    refine (ranked_pairwise _).imp_of_mem fun {hit hit'} hmem hmem' hle => ?_
    obtain ⟨row, hrow_mem, hscore⟩ := hrow hit hmem
    obtain ⟨row', hrow_mem', hscore'⟩ := hrow hit' hmem'
    rw [← hscore, ← hscore']
    exact hg row' hrow_mem' row hrow_mem (by rw [hscore, hscore']; exact score_rank_le hle)

/-! ## Sources that leave nothing out -/

/-- For each of the queries the source names every row of the corpus once with its distance, in
whichever order. -/
def CandidateSource.SuppliesAll (source : CandidateSource) (tuning : Tuning)
    (corpus queries : VectorSet) (topK : UInt64) : Prop :=
  ∀ query ∈ queries.rows,
    (source tuning corpus.rows query topK (tuning.searchBudget topK)).Perm
      (corpus.rows.mapIdx fun id row => (id, innerProductDistance query row))

/-- Ranking all candidates is ranking the rows by their clamped inner products. -/
theorem rankCandidates_eq {candidates : List (Nat × Binary32)} {rows : List Vector32}
    {query : Vector32} (limit : Nat)
    (h : candidates.Perm (rows.mapIdx fun id row => (id, innerProductDistance query row))) :
    rankCandidates limit candidates =
      (ranked (scoredBy (fun row => clampedScore (innerProduct query row)) rows)).take limit := by
  have hhits : ((rows.mapIdx fun id row => (id, innerProductDistance query row)).map
      fun candidate => Hit.mk candidate.1 (scoreOfDistance candidate.2)) =
      scoredBy (fun row => clampedScore (innerProduct query row)) rows := by
    refine List.ext_getElem (by simp [scoredBy]) fun i hi _ => ?_
    simp only [List.getElem_map, List.getElem_mapIdx, scoredBy]
    rfl
  rw [rankCandidates, ranked_eq_of_perm (h.map _), hhits]

/-- After a build the graph engine answers every query, whatever its tuning is and in whichever order
the graph names the rows, with the best rows by the clamped inner product.  The exact engine, built
and searched alike, finds hits with the same scores up to clamping. -/
theorem graph_search {corpus queries : VectorSet} {topK : UInt64} (hrows : corpus.rows ≠ [])
    (hdim : corpus.dim = queries.dim) (hk : topK ≠ 0)
    (hnumber : ∀ query ∈ queries.rows, ∀ row ∈ corpus.rows, (innerProduct query row).isNaN = false) :
    ∃ found : Hits,
      (∀ (s : Session) (tuning : Tuning) (source : CandidateSource),
        s.engine = .graph tuning source → source.SuppliesAll tuning corpus queries topK →
        ∃ built, s.build corpus = (.ok (), built) ∧ built.search queries topK = .ok found) ∧
      List.Forall₂ (fun query hits =>
        BestHits (scoredBy (fun row => clampedScore (innerProduct query row)) corpus.rows)
          (min topK.toNat corpus.rows.length) hits) queries.rows found ∧
      ∀ s : Session, s.engine = .flat →
        ∃ built unclamped, s.build corpus = (.ok (), built) ∧ built.search queries topK = .ok unclamped ∧
          found.map (·.map (·.score)) = unclamped.map (·.map fun hit => clampedScore hit.score) := by
  refine ⟨queries.rows.map fun query => (ranked (scoredBy
    (fun row => clampedScore (innerProduct query row)) corpus.rows)).take topK.toNat, ?_, ?_, ?_⟩
  · intro s tuning source hs hsource
    obtain ⟨built, hbuild, hsearch⟩ := Session.search_of_build hs hrows hdim hk
    refine ⟨built, hbuild, ?_⟩
    rw [hsearch]
    refine congrArg Except.ok (List.map_congr_left fun query hquery => ?_)
    exact rankCandidates_eq topK.toNat (hsource query hquery)
  · exact forall₂_bestHits (fun query row => clampedScore (innerProduct query row)) corpus.rows
      topK.toNat queries.rows
  · intro s hs
    obtain ⟨built, hbuild, hsearch⟩ := Session.search_of_build hs hrows hdim hk
    rw [flat_nearest] at hsearch
    refine ⟨built, _, hbuild, hsearch, ?_⟩
    rw [List.map_map, List.map_map]
    refine List.map_congr_left fun query hquery => ?_
    have hscores := map_score_ranked clampedScore (innerProduct query)
      fun a ha b hb => clampedScore_rank_mono (hnumber query hquery a ha) (hnumber query hquery b hb)
    rw [Function.comp_apply, Function.comp_apply, List.map_take, List.map_take, hscores]

/-! ## Rows that trade places -/

def cappedRows : VectorSet := ⟨1, [.ofBits .single 0x40000000, one32, .ofBits .single 0x40400000]⟩

def unitQuery : VectorSet := ⟨1, [one32]⟩

/-- A graph that names every row, the last one first. -/
def CandidateSource.reversed : CandidateSource := fun tuning rows query topK budget =>
  (exhaustive tuning rows query topK budget).reverse

/-- All three rows have the clamped score one, so that the graph engine prefers the first of them and
the exact engine the last. -/
theorem graph_search_capped :
    cappedRows.rows ≠ [] ∧ cappedRows.dim = unitQuery.dim ∧ (2 : UInt64) ≠ 0 ∧
    (∀ query ∈ unitQuery.rows, ∀ row ∈ cappedRows.rows, (innerProduct query row).isNaN = false) ∧
    CandidateSource.reversed.SuppliesAll .default cappedRows unitQuery 2 ∧
    ∃ graph flat found unclamped,
      (Session.start (.graph .default .reversed)).build cappedRows = (.ok (), graph) ∧
      graph.search unitQuery 2 = .ok found ∧
      (Session.start .flat).build cappedRows = (.ok (), flat) ∧
      flat.search unitQuery 2 = .ok unclamped ∧
      found.map (·.map (·.score)) = unclamped.map (·.map fun hit => clampedScore hit.score) ∧
      found.map (·.map (·.id)) = [[0, 1]] ∧ unclamped.map (·.map (·.id)) = [[2, 0]] := by
  have hrows : cappedRows.rows ≠ [] := List.cons_ne_nil _ _
  have hdim : cappedRows.dim = unitQuery.dim := rfl
  have hk : (2 : UInt64) ≠ 0 := by decide
  have hnumber : ∀ query ∈ unitQuery.rows, ∀ row ∈ cappedRows.rows,
      (innerProduct query row).isNaN = false := by decide +kernel
  have hsource : CandidateSource.reversed.SuppliesAll .default cappedRows unitQuery 2 :=
    fun _ _ => List.reverse_perm _
  obtain ⟨found, hgraph, hbest, hflat⟩ := graph_search hrows hdim hk hnumber
  obtain ⟨graph, hgraph_build, hfound⟩ := hgraph (.start _) .default .reversed rfl hsource
  obtain ⟨flat, unclamped, hflat_build, hunclamped, hscores⟩ := hflat (.start .flat) rfl
  refine ⟨hrows, hdim, hk, hnumber, hsource, graph, flat, found, unclamped, hgraph_build, hfound, hflat_build,
    hunclamped, hscores, ?_, ?_⟩
  · have hall : scoredBy (fun row => clampedScore (innerProduct [one32] row)) cappedRows.rows =
        [⟨0, one32⟩, ⟨1, one32⟩, ⟨2, one32⟩] := by decide +kernel
    have hranking : Ranking (scoredBy (fun row => clampedScore (innerProduct [one32] row))
        cappedRows.rows) [⟨0, one32⟩, ⟨1, one32⟩, ⟨2, one32⟩] := by
      rw [hall]
      refine ⟨.rfl, ?_⟩
      simp [Above]
    have hquery : unitQuery.rows = [[one32]] := rfl
    rw [hquery] at hbest
    cases hbest with
    | cons hhits hnil =>
      cases hnil
      obtain ⟨sorted, hsorted, rfl⟩ := hhits.first
      rw [hsorted.unique hranking]
      rfl
  · have hanswer : ((Session.start .flat).build cappedRows).2.search unitQuery 2 =
        .ok [exactNearest cappedRows.rows 2 [one32]] := rfl
    rw [hflat_build] at hanswer
    rw [hunclamped] at hanswer
    rw [Except.ok.inj hanswer]
    decide +kernel

end VectorBench
