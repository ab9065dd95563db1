import Mathlib.Data.List.Forall2
import VectorBench.Engine.Basic
import VectorBench.Proofs.Engine.Ranking

/-!
# Answers of a search

What a query is to be answered with: the first hits of the ranking of all rows, whichever score the
rows are given.  As every row has a number of its own, the ranking is strict, and an answer names no
row twice.

    BestHits (scoredBy score rows) n ((ranked (scoredBy score rows)).take n)             (bestHits)
    s.build corpus, then a search with the same dimension and at least one hit:
      every query is answered by the index of the corpus                 (Session.search_of_build)
-/

namespace VectorBench

open Hit

/-- The rows as hits, with the score that each of them is given. -/
def scoredBy (score : Vector32 → Binary32) (rows : List Vector32) : List Hit :=
  rows.mapIdx fun id row => ⟨id, score row⟩

/-- The first `count` of all hits in their order: sorted, without a repeated row, and above every hit
that is left out. -/
structure BestHits (all : List Hit) (count : Nat) (hits : List Hit) : Prop where
  first : ∃ sorted, Ranking all sorted ∧ hits = sorted.take count
  ordered : hits.Pairwise Above
  distinct : (hits.map (·.id)).Nodup
  omitted : ∀ h ∈ all, h ∉ hits → ∀ kept ∈ hits, kept.Above h

/-! ## Scored rows -/

variable {score : Vector32 → Binary32} {rows : List Vector32}

theorem length_scoredBy : (scoredBy score rows).length = rows.length := List.length_mapIdx

theorem map_id_scoredBy : (scoredBy score rows).map (·.id) = List.range rows.length := by
  refine List.ext_getElem (by simp [scoredBy]) fun i hi _ => ?_
  simp [scoredBy]

theorem nodup_scoredBy : (scoredBy score rows).Nodup := by
  refine List.Nodup.of_map (·.id) ?_
  rw [map_id_scoredBy]
  exact List.nodup_range

theorem map_score_scoredBy : (scoredBy score rows).map (·.score) = rows.map score := by
  refine List.ext_getElem (by simp [scoredBy]) fun i hi _ => ?_
  simp [scoredBy]

/-- The first hits of the ranking are the best ones. -/
theorem bestHits (score : Vector32 → Binary32) (rows : List Vector32) (count : Nat) :
    BestHits (scoredBy score rows) count ((ranked (scoredBy score rows)).take count) := by
  have hnodup : (scoredBy score rows).Nodup := nodup_scoredBy
  have hranking := ranked_ranking hnodup
  refine ⟨⟨_, hranking, rfl⟩, ?_, ?_, ?_⟩
  · exact hranking.ordered.sublist (List.take_sublist _ _)
  · have hids : ((ranked (scoredBy score rows)).map (·.id)).Nodup := by
      rw [(hranking.perm.map _).nodup_iff, map_id_scoredBy]
      exact List.nodup_range
    exact hids.sublist ((List.take_sublist _ _).map _)
  · intro h hh hcut kept hkept
    exact hranking.above_of_not_mem_take count hkept hh hcut

/-- No more hits can be asked for than there are rows. -/
theorem take_ranked_scoredBy (count : Nat) : (ranked (scoredBy score rows)).take count =
    (ranked (scoredBy score rows)).take (min count rows.length) := by
  have hlength : (ranked (scoredBy score rows)).length = rows.length := by
    rw [(ranked_perm _).length_eq, length_scoredBy]
  rw [List.take_eq_take_iff, hlength, Nat.min_assoc, Nat.min_self]

/-- Every query of a list is answered with its best hits. -/
theorem forall₂_bestHits (score : Vector32 → Vector32 → Binary32) (rows : List Vector32)
    (count : Nat) (queries : List Vector32) :
    List.Forall₂ (fun query hits => BestHits (scoredBy (score query) rows) (min count rows.length) hits)
      queries (queries.map fun query => (ranked (scoredBy (score query) rows)).take count) := by
  rw [List.forall₂_map_right_iff, List.forall₂_same]
  intro query _
  rw [take_ranked_scoredBy]
  exact bestHits (score query) rows _

/-! ## Searching after building -/

namespace Session

/-- After a build each query is answered by the index of the corpus. -/
theorem search_of_build {s : Session} {engine : Engine} (hs : s.engine = engine)
    {corpus queries : VectorSet} {topK : UInt64} (hrows : corpus.rows ≠ [])
    (hdim : (engine.index corpus).dim = queries.dim) (hk : topK ≠ 0) :
    ∃ built, s.build corpus = (.ok (), built) ∧
      built.search queries topK = .ok (queries.rows.map ((engine.index corpus).nearest topK)) := by
  have hempty : corpus.isEmpty = false := by
    cases hdata : corpus.data with
    | nil =>
      refine absurd ?_ hrows
      rw [VectorSet.rows, rowsOf, hdata, List.length_nil, Nat.zero_div, takeRows]
    | cons x data => rw [VectorSet.isEmpty, hdata, List.isEmpty_cons]
  refine ⟨{ s with built := some (engine.index corpus) }, ?_, ?_⟩
  · rw [build, hs, Engine.build, hempty, if_neg Bool.false_ne_true]
  · show (engine.index corpus).search queries topK = _
    rw [Index.search, if_neg hk, if_neg (not_not.2 hdim)]

end Session

end VectorBench
