import VectorBench.Proofs.Chart.Bars
import VectorBench.Proofs.Chart.Bound

/-!
# Scale of a chart

As long as the axis has a finite bound, the bars end within the plot, in the order of the times, and the
highest takes at least five sixths of the plot.  Without one no bar has any height, and the search for
the marks does not end.

    (ofRecord r).InScale r ↔ ∀ t ∈ r.searchTimes, t.le longestFitting             (ofRecord_inScale_iff)
    ¬ SearchEnds (.infinity false) (firstStep (.infinity false)) step          (not_searchEnds_infinity)
-/

namespace VectorBench.Chart

variable {r : Record} {b : Bar} {t : Binary64}

/-! ## Bars on their scale -/

/-- A chart in scale: the axis has a bound that covers the times, the bars end within the plot, in the
order of the times, and the highest of them is most of the plot high. -/
structure InScale (c : Chart) (r : Record) : Prop where
  finite : (axisBound r.searchTimes).isFinite = true
  positive : (axisBound r.searchTimes).isPositive = true
  covers : ∀ t ∈ r.searchTimes, t.le (axisBound r.searchTimes) = true
  length : c.bars.length = r.searchTimes.length
  inside : ∀ b ∈ c.bars, baseLine - plotHeight ≤ b.y ∧ b.y ≤ baseLine
  ordered : ∀ p ∈ r.searchTimes.zip c.bars, ∀ q ∈ r.searchTimes.zip c.bars,
    p.1.le q.1 = true → p.2.height ≤ q.2.height
  tall : (∃ t ∈ r.searchTimes, t.isPositive = true) → ∃ b ∈ c.bars, 250 ≤ b.height

theorem searchTimes_isSeconds (r : Record) : ∀ t ∈ r.searchTimes, IsSeconds t := by
  intro t ht
  obtain ⟨m, hm, rfl⟩ := List.mem_map.1 ht
  exact (checkParts_eq_ok_iff.1 r.fit).search m hm

theorem mem_zip_bars {p : Binary64 × Bar} (h : p ∈ r.searchTimes.zip (ofRecord r).bars) :
    p.1 ∈ r.searchTimes ∧ ∃ k, p.2 = barAt (axisBound r.searchTimes) r.metrics.length k p.1 := by
  obtain ⟨k, hk⟩ := List.mem_iff_getElem?.1 h
  obtain ⟨htime, hbar⟩ := List.getElem?_zip_eq_some.1 hk
  refine ⟨List.mem_of_getElem? htime, k, ?_⟩
  rw [Record.searchTimes, List.getElem?_map, Option.map_eq_some_iff] at htime
  obtain ⟨m, hm, htime⟩ := htime
  rw [ofRecord_bars_getElem? hm, htime] at hbar
  exact (Option.some.inj hbar).symm

theorem exists_of_mem_bars (h : b ∈ (ofRecord r).bars) : ∃ t ∈ r.searchTimes, ∃ k,
    b = barAt (axisBound r.searchTimes) r.metrics.length k t := by
  rw [ofRecord_bars, List.mem_mapIdx] at h
  obtain ⟨k, hk, rfl⟩ := h
  exact ⟨_, List.mem_map_of_mem (List.getElem_mem hk), k, rfl⟩

theorem exists_bar (h : t ∈ r.searchTimes) : ∃ k,
    barAt (axisBound r.searchTimes) r.metrics.length k t ∈ (ofRecord r).bars := by
  obtain ⟨m, hm, rfl⟩ := List.mem_map.1 h
  obtain ⟨k, hk⟩ := List.mem_iff_getElem?.1 hm
  exact ⟨k, List.mem_of_getElem? (ofRecord_bars_getElem? hk)⟩

theorem ofRecord_inScale (h : CoversAll r.searchTimes (axisBound r.searchTimes)) :
    (ofRecord r).InScale r := by
  have hseconds := searchTimes_isSeconds r
  have hbound := isSeconds_of_isPositive h.finite h.positive
  have hshare : ∀ t ∈ r.searchTimes, IsShare (t / axisBound r.searchTimes) := fun t ht =>
    isShare_div (hseconds t ht) h.finite h.positive (h.covers t ht)
  refine ⟨h.finite, h.positive, fun t ht => ?_, ?_, fun b hb => ?_, fun p hp q hq hle => ?_, fun hpos => ?_⟩
  · exact ((hseconds t ht).value_le_iff hbound).2 (h.covers t ht)
  · simp [ofRecord_bars, Record.searchTimes]
  · obtain ⟨t, ht, k, rfl⟩ := exists_of_mem_bars hb
    have hheight := shareHeight_mem (hshare t ht)
    rw [barAt_y]
    omega
  · obtain ⟨hp1, i, hp2⟩ := mem_zip_bars hp
    obtain ⟨hq1, j, hq2⟩ := mem_zip_bars hq
    rw [hp2, hq2, barAt_height, barAt_height]
    exact shareHeight_mono (hshare _ hp1) (hshare _ hq1)
      (div_value_mono (hseconds _ hp1) (hseconds _ hq1) h.finite h.positive (Binary.value_mono hle))
  · obtain ⟨t, ht, htall⟩ := h.tall hpos
    obtain ⟨k, hk⟩ := exists_bar ht
    refine ⟨_, hk, ?_⟩
    rw [barAt_height, ← shareHeight_tallShare]
    exact shareHeight_mono isShare_tallShare (hshare t ht) htall

/-- A chart is in scale as long as a tenth more of every time is a finite number. -/
theorem ofRecord_inScale_iff (r : Record) :
    (ofRecord r).InScale r ↔ ∀ t ∈ r.searchTimes, t.le longestFitting = true := by
  have hseconds := searchTimes_isSeconds r
  rw [← longestOf_le_iff hseconds]
  constructor
  · intro h
    exact longestOf_le_of_finite hseconds h.finite
  · intro h
    exact ofRecord_inScale (coversAll_axisBound hseconds h)

/-! ## A bound that is not finite -/

/-- A search that starts with a distance and ends with another one. -/
inductive SearchEnds (bound : Binary64) : Binary64 → Binary64 → Prop
  | found {old step : Binary64} : searchRound bound old = .inr step → SearchEnds bound old step
  | round {old next step : Binary64} : searchRound bound old = .inl next →
    SearchEnds bound next step → SearchEnds bound old step

/-- The search yields what it ends with. -/
theorem SearchEnds.searchStep_eq {bound old step : Binary64} (h : SearchEnds bound old step) :
    searchStep bound old = step := by
  induction h with
  | found hround =>
    rw [searchStep, repeatM_eq_of_monadTail, repeatM.body, hround]
    rfl
  | round hround _ ih =>
    rw [searchStep, repeatM_eq_of_monadTail, repeatM.body, hround]
    exact ih

example : searchStep (decimal64 11 (-1)) (whole64 1) = decimal64 2 (-1) := by
  have hparts : refineStep (decimal64 11 (-1)) (whole64 1) [2, 5, 10] (whole64 1) =
      (decimal64 2 (-1), false) := by decide +kernel
  refine SearchEnds.searchStep_eq (.found ?_)
  unfold searchRound
  rw [hparts]

/-- With an infinite bound and an infinite distance every round leaves all as it is. -/
theorem not_searchEnds_infinity {step : Binary64} :
    ¬ SearchEnds (.infinity false) (firstStep (.infinity false)) step := by
  have hfirst : firstStep (.infinity false) = .infinity false := by decide +kernel
  have hround : searchRound (.infinity false) (.infinity false) = .inl (.infinity false) := by
    have hfew : refineStep (.infinity false) (.infinity false) [2, 5, 10] (.infinity false) =
        (.infinity false, true) := by decide +kernel
    have htenth : (.infinity false : Binary64) / whole64 10 = .infinity false := by decide +kernel
    unfold searchRound
    rw [hfew]
    dsimp only
    rw [htenth]
  have hnever : ∀ old step, SearchEnds (.infinity false) old step → old ≠ .infinity false := by
    intro old step h
    induction h with
    | found hfound =>
      rintro rfl
      rw [hround] at hfound
      cases hfound
    | round hnext _ ih =>
      rintro rfl
      rw [hround] at hnext
      cases hnext
      exact ih rfl
  rw [hfirst]
  exact fun h => hnever _ _ h rfl

/-- A single time too long leaves the axis without a finite bound, all bars without height and the
search for the marks without an end. -/
theorem flat_of_long (hlong : longestFitting.value < (longestOf r.searchTimes).value) :
    axisBound r.searchTimes = .infinity false ∧
      (∀ step, ¬ SearchEnds (axisBound r.searchTimes) (firstStep (axisBound r.searchTimes)) step) ∧
      ∀ b ∈ (ofRecord r).bars, b.height = 0 := by
  have hseconds := searchTimes_isSeconds r
  have hbound := axisBound_eq_infinity hseconds hlong
  refine ⟨hbound, fun step => ?_, fun b hb => ?_⟩
  · rw [hbound]
    exact not_searchEnds_infinity
  · obtain ⟨t, ht, k, rfl⟩ := exists_of_mem_bars hb
    have hzero : (Binary.zero t.negative : Binary64).value = 0 := Binary.zero_value t.negative
    rw [barAt_height, hbound, div_infinity (hseconds t ht).finite]
    exact shareHeight_of_value_eq_zero ⟨rfl, hzero.ge, hzero.trans_le zero_le_one⟩ hzero

/-- A record of one engine that took the longest time there is. -/
def longestRecord : Record where
  config := ⟨1, 1, 1, 1, 0⟩
  metrics := [⟨"a", .zero false, .ofBits .double 0x7fefffffffffffff⟩]
  fit := by decide +kernel

/-- The longest time there is has an infinite bound and a bar without height. -/
theorem not_forall_inScale : axisBound longestRecord.searchTimes = .infinity false ∧
    (∀ step, ¬ SearchEnds (axisBound longestRecord.searchTimes)
      (firstStep (axisBound longestRecord.searchTimes)) step) ∧
    (∀ b ∈ (ofRecord longestRecord).bars, b.height = 0) ∧
    ¬ ∀ r : Record, (ofRecord r).InScale r := by
  have hlong : longestFitting.value < (longestOf longestRecord.searchTimes).value :=
    Binary.value_strictMono (by decide)
  obtain ⟨hbound, hticks, hflat⟩ := flat_of_long hlong
  refine ⟨hbound, hticks, hflat, fun h => ?_⟩
  have hfinite := (h longestRecord).finite
  rw [hbound] at hfinite
  cases hfinite

end VectorBench.Chart
