import Mathlib.Data.List.Nodup
import VectorBench.Record

/-!
# Parts that make a record

The checks of a record's parts, one after the other, come to the properties of the whole: no count
is zero, no name is blank, no two names are equal and every duration is a number of seconds.

    checkParts config metrics = .ok () ↔ Fit config metrics                  (checkParts_eq_ok_iff)
    Fit config metrics → Record.ofParts config metrics = .ok ⟨config, metrics, _⟩  (ofParts_of_fit)
-/

namespace VectorBench

/-- A number of seconds: finite, and not below zero; a negative zero is not below zero. -/
structure IsSeconds (x : Binary64) : Prop where
  finite : x.isFinite = true
  not_below : x.negative = true → x.magnitude = 0

/-- Parts in which nothing is wrong. -/
structure Fit (config : Config) (metrics : List Measurement) : Prop where
  samples : config.samples ≠ 0
  dims : config.dims ≠ 0
  queries : config.queries ≠ 0
  topK : config.topK ≠ 0
  named : ∀ m ∈ metrics, isBlank m.engine = false
  distinct : (metrics.map (·.engine)).Nodup
  build : ∀ m ∈ metrics, IsSeconds m.buildSeconds
  search : ∀ m ∈ metrics, IsSeconds m.searchSeconds

theorem isDuration_iff {x : Binary64} : isDuration x = true ↔ IsSeconds x := by
  have hnan : x.isFinite = true → x.isNaN = false := by
    intro h
    simp only [Binary.isFinite, decide_eq_true_eq] at h
    simp only [Binary.isNaN, decide_eq_false_iff_not]
    omega
  have hzero : (Binary.zero false : Binary64).isNaN = false := rfl
  have hsigned : (Binary.zero false : Binary64).signedMagnitude = 0 := rfl
  unfold isDuration Binary.lt
  rw [Bool.and_eq_true, Bool.not_eq_true', hzero, hsigned]
  constructor
  · rintro ⟨hfinite, hlt⟩
    refine ⟨hfinite, fun hneg => ?_⟩
    simp only [hnan hfinite, Bool.not_false, Bool.true_and, decide_eq_false_iff_not,
      Binary.signedMagnitude, hneg, if_true] at hlt
    omega
  · rintro ⟨hfinite, hbelow⟩
    refine ⟨hfinite, ?_⟩
    have hle : (0 : Int) ≤ x.signedMagnitude := by
      unfold Binary.signedMagnitude
      split
      · rename_i hneg
        have := hbelow hneg
        omega
      · omega
    simp [hle]

theorem configCheck_eq_ok_iff {config : Config} :
    config.check = .ok () ↔
      config.samples ≠ 0 ∧ config.dims ≠ 0 ∧ config.queries ≠ 0 ∧ config.topK ≠ 0 := by
  have hnone : config.zeroCount? = none ↔
      config.samples ≠ 0 ∧ config.dims ≠ 0 ∧ config.queries ≠ 0 ∧ config.topK ≠ 0 := by
    unfold Config.zeroCount?
    simp [List.find?_eq_none, Count.all, Count.of]
  rw [← hnone]
  unfold Config.check
  cases config.zeroCount? with
  | none => exact iff_of_true rfl rfl
  | some count => exact iff_of_false (fun h => by cases h) (fun h => by cases h)

theorem measurementCheck_eq_ok_iff {m : Measurement} :
    m.check = .ok () ↔
      isBlank m.engine = false ∧ IsSeconds m.buildSeconds ∧ IsSeconds m.searchSeconds := by
  have hnone : m.badDuration? = none ↔ IsSeconds m.buildSeconds ∧ IsSeconds m.searchSeconds := by
    rw [← isDuration_iff, ← isDuration_iff]
    unfold Measurement.badDuration?
    simp [List.find?_eq_none, Duration.of]
  rw [← hnone]
  unfold Measurement.check
  cases isBlank m.engine with
  | true => exact iff_of_false (fun h => by cases h) (fun h => by cases h.1)
  | false =>
    cases m.badDuration? with
    | none => exact iff_of_true rfl ⟨rfl, rfl⟩
    | some duration => exact iff_of_false (fun h => by cases h) (fun h => by cases h.2)

/-- The names that were seen before count as well. -/
theorem checkMeasurements_eq_ok_iff {metrics : List Measurement} {seen : List String} :
    checkMeasurements seen metrics = .ok () ↔
      (∀ m ∈ metrics, m.check = .ok ()) ∧ (∀ m ∈ metrics, m.engine ∉ seen) ∧
        (metrics.map (·.engine)).Nodup := by
  induction metrics generalizing seen with
  | nil => simp [checkMeasurements]
  | cons m metrics ih =>
    simp only [checkMeasurements, List.forall_mem_cons, List.map_cons, List.nodup_cons]
    cases hcheck : m.check with
    | error e => exact iff_of_false (fun h => by cases h) (fun h => by cases h.1.1)
    | ok _ =>
      by_cases hseen : m.engine ∈ seen
      · simp only [if_pos hseen]
        exact iff_of_false (fun h => by cases h) (fun h => h.2.1.1 hseen)
      · simp only [if_neg hseen, ih, List.mem_cons, not_or, List.mem_map, not_exists, not_and]
        constructor
        · rintro ⟨hall, hnot, hnodup⟩
          exact ⟨⟨trivial, hall⟩, ⟨hseen, fun x hx => (hnot x hx).2⟩,
            fun x hx => (hnot x hx).1, hnodup⟩
        · rintro ⟨⟨-, hall⟩, ⟨-, hnot⟩, hne, hnodup⟩
          exact ⟨hall, fun x hx => ⟨hne x hx, hnot x hx⟩, hnodup⟩

/-- Parts pass the checks exactly when nothing is wrong in them. -/
theorem checkParts_eq_ok_iff {config : Config} {metrics : List Measurement} :
    checkParts config metrics = .ok () ↔ Fit config metrics := by
  have hparts : checkParts config metrics = .ok () ↔
      config.check = .ok () ∧ checkMeasurements [] metrics = .ok () := by
    unfold checkParts
    cases config.check with
    | error e => exact iff_of_false (fun h => by cases h) (fun h => by cases h.1)
    | ok _ => exact ⟨fun h => ⟨rfl, h⟩, fun h => h.2⟩
  rw [hparts, configCheck_eq_ok_iff, checkMeasurements_eq_ok_iff]
  constructor
  · rintro ⟨⟨hsamples, hdims, hqueries, htopK⟩, hcheck, -, hnodup⟩
    have hm := fun m hm => measurementCheck_eq_ok_iff.1 (hcheck m hm)
    exact ⟨hsamples, hdims, hqueries, htopK, fun m h => (hm m h).1, hnodup,
      fun m h => (hm m h).2.1, fun m h => (hm m h).2.2⟩
  · intro h
    refine ⟨⟨h.samples, h.dims, h.queries, h.topK⟩, fun m hm => ?_, by simp, h.distinct⟩
    exact measurementCheck_eq_ok_iff.2 ⟨h.named m hm, h.build m hm, h.search m hm⟩

theorem Record.ofParts_of_fit {config : Config} {metrics : List Measurement}
    (h : Fit config metrics) :
    Record.ofParts config metrics = .ok ⟨config, metrics, checkParts_eq_ok_iff.2 h⟩ :=
  Record.ofParts_self ⟨config, metrics, checkParts_eq_ok_iff.2 h⟩

theorem Record.ofParts_of_check_error {config : Config} {metrics : List Measurement}
    {e : ValidationError} (h : checkParts config metrics = .error e) :
    Record.ofParts config metrics = .error e := by
  unfold Record.ofParts
  split
  · rename_i e' h'
    rw [h'] at h
    cases h
    rfl
  · rename_i h'
    rw [h'] at h
    cases h

/-- When names are the only thing that may be wrong, and none of them comes twice, a blank one is
what the refusal is about. -/
theorem checkMeasurements_of_blank {metrics : List Measurement} {seen : List String}
    (hbuild : ∀ m ∈ metrics, IsSeconds m.buildSeconds)
    (hsearch : ∀ m ∈ metrics, IsSeconds m.searchSeconds) (hnew : ∀ m ∈ metrics, m.engine ∉ seen)
    (hdistinct : (metrics.map (·.engine)).Nodup) (hblank : ∃ m ∈ metrics, isBlank m.engine = true) :
    checkMeasurements seen metrics = .error .blankEngine := by
  induction metrics generalizing seen with
  | nil =>
    obtain ⟨m, hm, -⟩ := hblank
    cases hm
  | cons m metrics ih =>
    rw [List.map_cons, List.nodup_cons] at hdistinct
    rw [checkMeasurements]
    by_cases hm : isBlank m.engine = true
    · have hcheck : m.check = .error .blankEngine := by
        rw [Measurement.check, if_pos hm]
      rw [hcheck]
    · have hcheck : m.check = .ok () := measurementCheck_eq_ok_iff.2
        ⟨Bool.eq_false_iff.2 hm, hbuild m List.mem_cons_self, hsearch m List.mem_cons_self⟩
      have hrest : ∃ other ∈ metrics, isBlank other.engine = true := by
        obtain ⟨other, hother, h⟩ := hblank
        rcases List.mem_cons.1 hother with rfl | hother
        · exact absurd h hm
        · exact ⟨other, hother, h⟩
      rw [hcheck]
      dsimp only
      rw [if_neg (hnew m List.mem_cons_self)]
      refine ih (fun x hx => hbuild x (List.mem_cons_of_mem m hx))
        (fun x hx => hsearch x (List.mem_cons_of_mem m hx)) ?_ hdistinct.2 hrest
      intro x hx hseen
      rcases List.mem_cons.1 hseen with heq | hseen
      · exact hdistinct.1 (List.mem_map.2 ⟨x, hx, heq⟩)
      · exact hnew x (List.mem_cons_of_mem m hx) hseen

end VectorBench
