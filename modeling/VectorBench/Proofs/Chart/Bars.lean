import VectorBench.Proofs.Chart.Slots

/-!
# Bars of a chart

A chart is laid out when every engine has a bar that can be seen, the bars stand side by side in the
order of the engines, and the name of an engine is below its bar.  All of this is a matter of how wide
the slots are: where one has no pixel left between its margins, its bar ends left of its start.

    (ofRecord r).LaidOut r ↔ r.metrics.length ≤ 10                            (ofRecord_laidOut_iff)
-/

namespace VectorBench

def Record.searchTimes (r : Record) : List Binary64 := r.metrics.map (·.searchSeconds)

/-- A bar and a label that are those of a measurement, with the label within the bar. -/
structure Measurement.Charted (m : Measurement) (bound : Binary64) (b : Bar) (l : AxisLabel) :
    Prop where
  y : b.y = pixelLine bound m.searchSeconds
  height : b.y + b.height = baseLine
  text : l.text = m.engine
  within : b.x ≤ l.x ∧ l.x ≤ b.x + b.width

namespace Chart

/-- Every measurement of a record has its bar, none of which overlaps another one, and all can be
seen. -/
structure LaidOut (c : Chart) (r : Record) : Prop where
  length : c.bars.length = r.metrics.length
  wide : ∀ b ∈ c.bars, 0 < b.width
  apart : c.bars.Pairwise fun a b => a.x + a.width ≤ b.x
  charted : ∀ (k : Nat) (m : Measurement), r.metrics[k]? = some m →
    ∃ b l, c.bars[k]? = some b ∧ c.labels[k]? = some l ∧ m.Charted (axisBound r.searchTimes) b l

variable {r : Record} {m : Measurement} {n k : Nat}

/-! ## The parts of a chart -/

theorem ofRecord_bars (r : Record) : (ofRecord r).bars = r.metrics.mapIdx fun k m =>
    barAt (axisBound r.searchTimes) r.metrics.length k m.searchSeconds := by
  refine List.ext_getElem (by simp [ofRecord, ofSeries, Record.searchSeries]) fun k hk _ => ?_
  have hlt : k < r.metrics.length := by
    simpa [ofRecord, ofSeries, Record.searchSeries] using hk
  have hcount : max r.metrics.length 1 = r.metrics.length := by omega
  simp [ofRecord, ofSeries, Record.searchSeries, Record.searchTimes, hcount, Function.comp_def]

theorem ofRecord_bars_getElem? (h : r.metrics[k]? = some m) : (ofRecord r).bars[k]? =
    some (barAt (axisBound r.searchTimes) r.metrics.length k m.searchSeconds) := by
  rw [ofRecord_bars, List.getElem?_mapIdx, h]
  rfl

theorem ofRecord_labels_getElem? (h : r.metrics[k]? = some m) : (ofRecord r).labels[k]? =
    some ⟨slotCentre r.metrics.length k, m.engine⟩ := by
  obtain ⟨hlt, -⟩ := List.getElem?_eq_some_iff.1 h
  have hcount : max r.metrics.length 1 = r.metrics.length := by omega
  have hrange : k < r.metrics.length + 1 := by omega
  simp [ofRecord, ofSeries, Record.searchSeries, hcount, hrange, h]

/-! ## Bars in their slots -/

variable {bound value : Binary64}

theorem barAt_width_pos_iff : 0 < (barAt bound n k value).width ↔
    slotStart n k + 2 * barMargin < slotStart n (k + 1) := by
  simp only [barAt]
  omega

/-- The middle of a slot is within its bar. -/
theorem charted_of_wide (hk : k < n) (h : 0 < (barAt bound n k m.searchSeconds).width) :
    m.Charted bound (barAt bound n k m.searchSeconds) ⟨slotCentre n k, m.engine⟩ where
  y := rfl
  height := by
    simp only [barAt]
    omega
  text := rfl
  within := by
    rw [barAt_width_pos_iff] at h
    simp only [slotCentre, if_pos hk, barAt]
    omega

theorem wide_iff : (∀ b ∈ (ofRecord r).bars, 0 < b.width) ↔ Roomy r.metrics.length := by
  simp only [ofRecord_bars, List.mem_mapIdx, Roomy]
  constructor
  · intro h k hk
    exact barAt_width_pos_iff.1 (h _ ⟨k, hk, rfl⟩)
  · rintro h b ⟨k, hk, rfl⟩
    exact barAt_width_pos_iff.2 (h k hk)

/-- A bar ends before the next slot starts, and so does every bar before it. -/
theorem apart_of_roomy (h : Roomy r.metrics.length) :
    (ofRecord r).bars.Pairwise fun a b => a.x + a.width ≤ b.x := by
  rw [List.pairwise_iff_getElem]
  intro i j hi hj hij
  have hlt : j < r.metrics.length := by simpa [ofRecord_bars] using hj
  have hapart := h.apart (i := i + 1) hij (Nat.le_of_lt hlt)
  simp only [ofRecord_bars, List.getElem_mapIdx, barAt, barMargin] at hapart ⊢
  omega

/-- Up to ten engines are laid out, and more are not. -/
theorem ofRecord_laidOut_iff (r : Record) :
    (ofRecord r).LaidOut r ↔ r.metrics.length ≤ 10 := by
  rw [← roomy_iff]
  refine ⟨fun h => wide_iff.1 h.wide, fun hroomy => ⟨by simp [ofRecord_bars], wide_iff.2 hroomy,
    apart_of_roomy hroomy, fun k m hm => ?_⟩⟩
  obtain ⟨hlt, -⟩ := List.getElem?_eq_some_iff.1 hm
  exact ⟨_, _, ofRecord_bars_getElem? hm, ofRecord_labels_getElem? hm,
    charted_of_wide hlt (barAt_width_pos_iff.2 (hroomy k hlt))⟩

def elevenEngines : Record where
  config := ⟨1, 1, 1, 1, 0⟩
  metrics := ["a", "b", "c", "d", "e", "f", "g", "h", "i", "j", "k"].map fun engine =>
    ⟨engine, .zero false, .ofBits .double 0x3ff0000000000000⟩
  fit := by decide +kernel

/-- Each of eleven bars ends two or three pixels left of its start. -/
theorem not_forall_laidOut :
    (ofRecord elevenEngines).bars.map (·.width) = [-3, -3, -3, -2, -3, -3, -3, -2, -3, -3, -2] ∧
      ¬ ∀ r : Record, r.metrics ≠ [] → (ofRecord r).LaidOut r := by
  refine ⟨by decide +kernel, fun h => ?_⟩
  have hroomy := wide_iff.1 (h elevenEngines (by decide)).wide
  exact not_roomy (n := elevenEngines.metrics.length) (by decide) hroomy

end Chart

end VectorBench
