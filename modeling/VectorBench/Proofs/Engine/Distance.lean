import VectorBench.Engine.Graph
import VectorBench.Proofs.Binary.Sum
import VectorBench.Proofs.Engine.Ranking

/-!
# Distances

What a graph may rely on when it measures: a distance is a number without a sign, whatever becomes of
the inner product on the way, an infinity or a NaN included.  It does not matter which of the two
vectors comes first, nor what stands behind the end of the shorter one, and one less a distance is a
score that is never above one.

    (x.max 0).isNaN = false                                                      (max_zero_isNaN)
    x ≠ -0 → (x.max 0).negative = false                                       (max_zero_negative)
    d.isNaN = false → d.negative = false → IsScore (scoreOfDistance d)  (isScore_scoreOfDistance)
-/

namespace VectorBench

namespace Binary

variable {f : Format} {a x : Binary f}

/-! ## Cutting off below zero -/

/-- Zero takes the place of a NaN. -/
theorem max_zero_isNaN (x : Binary f) : (x.max (zero false)).isNaN = false := by
  have hzero : (zero false : Binary f).isNaN = false := isNaN_eq_false_iff.2 (Nat.zero_le _)
  cases hx : x.isNaN with
  | true => rw [Binary.max, if_pos hx, hzero]
  | false => exact max_isNaN hx hzero

/-- Only a negative zero would keep its sign. -/
theorem max_zero_negative (hx : x ≠ zero true) : (x.max (zero false)).negative = false := by
  have hsigned : (zero false : Binary f).signedMagnitude = 0 := rfl
  have hzero : (zero false : Binary f).isNaN = false := isNaN_eq_false_iff.2 (Nat.zero_le _)
  cases hnan : x.isNaN with
  | true =>
    rw [Binary.max, if_pos hnan]
    rfl
  | false =>
    rw [max_eq hnan hzero, hsigned]
    split
    · rfl
    · rename_i hnonneg
      by_contra hnegative
      rw [Bool.not_eq_false] at hnegative
      rw [signedMagnitude, if_pos hnegative] at hnonneg
      have hmagnitude : x.magnitude = 0 := by omega
      obtain ⟨s, g, hg⟩ := x
      obtain rfl : s = true := hnegative
      obtain rfl : g = 0 := hmagnitude
      exact hx rfl

/-- Something other than nothing is never rounded to a negative zero. -/
theorem ofUnits_ne_neg_zero (f : Format) (v : ℤ) : ofUnits f v ≠ zero true := by
  intro h
  have hrank : (ofUnits f v).rank = -1 := by
    rw [h]
    rfl
  rw [ofUnits_rank] at hrank
  split at hrank
  · have hone : f.magnitudeOfRatio 1 1 = 1 := by cases f <;> decide
    have := f.magnitudeOfRatio_mono (n := 1) (m := v.natAbs) Nat.one_pos Nat.one_pos (by omega)
    omega
  · omega

/-- What is left of a number that is not negative is no negative zero. -/
theorem sub_ne_neg_zero (ha : a.isFinite = true) (hsign : a.negative = false) (x : Binary f) :
    a - x ≠ zero true := by
  cases hx : x.isNaN with
  | true =>
    have hneg : x.neg.isNaN = true := hx
    have hnan : a - x = nan := by
      change add a x.neg = nan
      rw [add, hneg, Bool.or_true, if_pos rfl]
    rw [hnan]
    intro h
    have := congrArg negative h
    cases this
  | false =>
    rcases finite_or_infinity hx with hfinite | ⟨negative, rfl⟩
    · rw [sub_eq_ofUnits ha hsign hfinite]
      exact ofUnits_ne_neg_zero f _
    · rw [sub_infinity ha]
      intro h
      have hmagnitude : f.infinity = 0 := congrArg magnitude h
      cases f <;> cases hmagnitude

end Binary

/-! ## Measuring -/

theorem innerProduct_comm (a b : Vector32) : innerProduct b a = innerProduct a b := by
  rw [innerProduct, innerProduct, List.zipWith_comm]
  simp only [Binary.mul_comm]

/-- Two pairs of vectors are the same as far as both vectors of a pair go. -/
structure SameFronts (a b a' b' : Vector32) : Prop where
  length : min a'.length b'.length = min a.length b.length
  first : a'.take (min a.length b.length) = a.take (min a.length b.length)
  second : b'.take (min a.length b.length) = b.take (min a.length b.length)

theorem SameFronts.innerProduct_eq {a b a' b' : Vector32} (h : SameFronts a b a' b') :
    innerProduct a' b' = innerProduct a b := by
  rw [innerProduct, innerProduct, List.zipWith_eq_zipWith_take_min, h.length, h.first, h.second,
    ← List.zipWith_eq_zipWith_take_min]

theorem one32_isFinite : one32.isFinite = true := by decide

theorem innerProductDistance_isNaN (a b : Vector32) : (innerProductDistance a b).isNaN = false :=
  Binary.max_zero_isNaN _

theorem innerProductDistance_negative (a b : Vector32) :
    (innerProductDistance a b).negative = false :=
  Binary.max_zero_negative (Binary.sub_ne_neg_zero one32_isFinite rfl _)

/-! ## Scores -/

structure IsScore (s : Binary32) : Prop where
  number : s.isNaN = false
  le_one : s.le one32 = true

/-- One less something that is not negative is at most one. -/
theorem isScore_scoreOfDistance {d : Binary32} (hnan : d.isNaN = false)
    (hnegative : d.negative = false) : IsScore (scoreOfDistance d) := by
  have hzero : (Binary.zero false : Binary32).isNaN = false := rfl
  have hsigned : (Binary.zero false : Binary32).signedMagnitude = 0 := rfl
  have hone : one32 - .zero false = one32 := by decide +kernel
  have hnumber : (scoreOfDistance d).isNaN = false := Binary.sub_isNaN one32_isFinite rfl hnan
  have hle : (Binary.zero false : Binary32).signedMagnitude ≤ d.signedMagnitude := by
    rw [hsigned, Binary.signedMagnitude, hnegative, if_neg Bool.false_ne_true]
    omega
  have hrank : (scoreOfDistance d).rank ≤ (one32 - .zero false).rank :=
    Binary.sub_rank_anti one32_isFinite rfl hzero hnan hle
  rw [hone] at hrank
  exact ⟨hnumber, Binary.le_eq_true_iff.2
    ⟨hnumber, rfl, Binary.signedMagnitude_le_of_rank_le hrank⟩⟩

/-- A hit is a candidate with the score of its distance. -/
theorem exists_candidate {limit : Nat} {candidates : List (Nat × Binary32)} {hit : Hit}
    (h : hit ∈ rankCandidates limit candidates) :
    ∃ candidate ∈ candidates, hit = ⟨candidate.1, scoreOfDistance candidate.2⟩ := by
  have hmem := (Hit.ranked_perm _).mem_iff.1 (List.mem_of_mem_take h)
  obtain ⟨candidate, hcandidate, rfl⟩ := List.mem_map.1 hmem
  exact ⟨candidate, hcandidate, rfl⟩

/-- A graph names rows of a corpus with their distances from the query. -/
def CandidateSource.Measures (source : CandidateSource) (tuning : Tuning) (corpus : VectorSet)
    (query : Vector32) (topK : UInt64) : Prop :=
  ∀ candidate ∈ source tuning corpus.rows query topK (tuning.searchBudget topK),
    ∃ row ∈ corpus.rows, candidate.2 = innerProductDistance query row

/-- The source in use does. -/
theorem CandidateSource.exhaustive_measures (tuning : Tuning) (corpus : VectorSet)
    (query : Vector32) (topK : UInt64) : exhaustive.Measures tuning corpus query topK := by
  intro candidate hcandidate
  obtain ⟨i, hi, rfl⟩ := List.mem_mapIdx.1 hcandidate
  exact ⟨corpus.rows[i], List.getElem_mem hi, rfl⟩

/-- The distance of any two vectors is a number without a sign.  It is the same in both directions,
and only as many components count as both vectors have.  One less the distance is at most one, and so
is every score that the graph engine finds. -/
theorem innerProductDistance_measures (a b : Vector32) :
    (innerProductDistance a b).isNaN = false ∧ (innerProductDistance a b).negative = false ∧
    innerProductDistance b a = innerProductDistance a b ∧
    (∀ a' b', SameFronts a b a' b' → innerProductDistance a' b' = innerProductDistance a b) ∧
    IsScore (scoreOfDistance (innerProductDistance a b)) ∧
    ∀ (tuning : Tuning) (source : CandidateSource) (corpus : VectorSet) (topK : UInt64),
      source.Measures tuning corpus a topK →
        ∀ hit ∈ ((Engine.graph tuning source).index corpus).nearest topK a, IsScore hit.score := by
  have hscore : ∀ b, IsScore (scoreOfDistance (innerProductDistance a b)) := fun b =>
    isScore_scoreOfDistance (innerProductDistance_isNaN a b) (innerProductDistance_negative a b)
  refine ⟨innerProductDistance_isNaN a b, innerProductDistance_negative a b, ?_, ?_, hscore b, ?_⟩
  · rw [innerProductDistance, innerProduct_comm, innerProductDistance]
  · intro a' b' h
    rw [innerProductDistance, h.innerProduct_eq, innerProductDistance]
  · intro tuning source corpus topK hsource hit hhit
    obtain ⟨candidate, hcandidate, rfl⟩ := exists_candidate hhit
    obtain ⟨row, -, hdistance⟩ := hsource candidate hcandidate
    show IsScore (scoreOfDistance candidate.2)
    rw [hdistance]
    exact hscore row

/-- Infinity times zero is a NaN, from which there is no distance; what stands behind the end of the
shorter vector does not change that. -/
theorem innerProductDistance_measures_special :
    let a : Vector32 := [.infinity false, one32]
    let b : Vector32 := [.zero false]
    let a' : Vector32 := [.infinity false]
    let b' : Vector32 := [.zero false, .nan]
    let corpus : VectorSet := ⟨2, [.zero true, one32, .nan, .infinity true]⟩
    (innerProduct a b).isNaN = true ∧ innerProductDistance a b = .zero false ∧
    SameFronts a b a' b' ∧ innerProductDistance a' b' = innerProductDistance a b ∧
    CandidateSource.exhaustive.Measures .default corpus a 2 ∧
    ∀ hit ∈ ((Engine.graph .default .exhaustive).index corpus).nearest 2 a, IsScore hit.score := by
  intro a b a' b' corpus
  have hfronts : SameFronts a b a' b' := ⟨rfl, rfl, rfl⟩
  have hmeasures := CandidateSource.exhaustive_measures .default corpus a 2
  obtain ⟨-, -, -, hfront, -, hhits⟩ := innerProductDistance_measures a b
  exact ⟨by decide +kernel, by decide +kernel, hfronts, hfront a' b' hfronts, hmeasures,
    hhits .default .exhaustive corpus 2 hmeasures⟩

end VectorBench
