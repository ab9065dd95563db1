import VectorBench.Proofs.Binary.Comparison
import VectorBench.Proofs.Verdict.Collect

/-!
# What a check comes to

A check has three outcomes, in this order: the limit is refused, whatever the engines; an engine is
missing, the first in the order of the names; or there is a verdict on all of them.  Each outcome is
said without the loops of the check, and there is exactly one for all inputs.

    checkRegression … = .error (.invalidLimit x) ↔ BadLimit limit ∧ x = limit
    checkRegression … = .error (.missingEngine e side) ↔ ¬ BadLimit limit ∧ FirstMissing … e side
    checkRegression … = .ok v ↔ ¬ BadLimit limit ∧ (∀ e ∈ engines, InBoth … e) ∧ Judges … v
                                                                         (checkRegression_outcome)
-/

namespace VectorBench

/-- A limit that is never accepted: a NaN, an infinity or a number that is not above zero. -/
def BadLimit (limit : Binary64) : Prop :=
  limit.isNaN = true ∨ limit.isInfinite = true ∨ limit.le (.zero false) = true

/-- What a comparison says of its engine. -/
structure Compares (baseline current : Record) (limit : Binary64) (c : Comparison) : Prop where
  baseline : baseline.SearchTime c.engine c.baseline
  current : current.SearchTime c.engine c.current
  ratio : c.baseline.isPositive = true → c.ratio = c.current / c.baseline
  unbounded : c.baseline.isPositive = false → c.ratio = .infinity false
  exceeded : c.exceeded = true ↔ limit.lt c.ratio = true

/-- What a verdict says of the engines: every distinct one is compared, in the order in which they
first occur, and it is passed when no comparison is among the regressions, which are those that
exceed the limit. -/
structure Judges (baseline current : Record) (engines : List String) (limit : Binary64)
    (v : Verdict) : Prop where
  engines : FirstOccurrences (v.comparisons.map (·.engine)) engines
  comparisons : ∀ c ∈ v.comparisons, Compares baseline current limit c
  passed : v.passed = true ↔ v.regressions = []
  regressions : v.regressions.Sublist v.comparisons ∧
    ∀ c, c ∈ v.regressions ↔ c ∈ v.comparisons ∧ c.exceeded = true
  limit : v.limit = limit

variable {baseline current : Record} {engines : List String} {limit : Binary64}

/-! ## There is one verdict -/

/-- A comparison is determined by its engine. -/
theorem Compares.unique {c d : Comparison} (hc : Compares baseline current limit c)
    (hd : Compares baseline current limit d) (he : c.engine = d.engine) : c = d := by
  have hbase : c.baseline = d.baseline := hc.baseline.unique (he ▸ hd.baseline)
  have hcurr : c.current = d.current := hc.current.unique (he ▸ hd.current)
  have hratio : c.ratio = d.ratio := by
    cases hpos : c.baseline.isPositive with
    | true => rw [hc.ratio hpos, hd.ratio (hbase ▸ hpos), hbase, hcurr]
    | false => rw [hc.unbounded hpos, hd.unbounded (hbase ▸ hpos)]
  have hexceeded : c.exceeded = d.exceeded := by
    rw [Bool.eq_iff_iff, hc.exceeded, hd.exceeded, hratio]
  obtain ⟨⟩ := c
  obtain ⟨⟩ := d
  simp only at he hbase hcurr hratio hexceeded
  rw [he, hbase, hcurr, hratio, hexceeded]

theorem Compares.ratio_eq {c : Comparison} (h : Compares baseline current limit c) :
    c.ratio = searchRatio c.baseline c.current := by
  unfold searchRatio
  split
  · rename_i hpos
    exact h.ratio hpos
  · rename_i hpos
    exact h.unbounded (Bool.not_eq_true _ ▸ hpos)

theorem Judges.unique {v w : Verdict} (hv : Judges baseline current engines limit v)
    (hw : Judges baseline current engines limit w) : v = w := by
  have hcomparisons : v.comparisons = w.comparisons :=
    eq_of_map_eq (hv.engines.unique hw.engines) fun c hc d hd he =>
      (hv.comparisons c hc).unique (hw.comparisons d hd) he
  have hregressions : v.regressions = w.regressions := by
    rw [Verdict.regressions, Verdict.regressions, hcomparisons]
  have hpassed : v.passed = w.passed := by
    rw [Bool.eq_iff_iff, hv.passed, hw.passed, hregressions]
  have hlimit : v.limit = w.limit := hv.limit.trans hw.limit.symm
  obtain ⟨⟩ := v
  obtain ⟨⟩ := w
  simp only at hcomparisons hpassed hlimit
  rw [hcomparisons, hpassed, hlimit]

/-! ## Every check has an outcome -/

theorem badLimit_iff :
    (!limit.isFinite || limit.le (.zero false)) = true ↔ BadLimit limit := by
  rw [Bool.or_eq_true, Bool.not_eq_true', Binary.isFinite_eq_false_iff, or_assoc, BadLimit]

theorem compares_compare {t : SearchTimes} (hbase : baseline.SearchTime t.engine t.baseline)
    (hcurr : current.SearchTime t.engine t.current) :
    Compares baseline current limit (t.compare limit) where
  baseline := hbase
  current := hcurr
  ratio hpos := by
    rw [SearchTimes.compare]
    exact if_pos hpos
  unbounded hpos := by
    rw [SearchTimes.compare]
    exact if_neg (by simpa [SearchTimes.compare] using hpos)
  exceeded := Iff.rfl

/-- What is collected for all engines makes a verdict. -/
theorem Collected.judges {times : List SearchTimes}
    (h : Collected baseline current engines times) :
    Judges baseline current engines limit
      ⟨times.map (SearchTimes.compare limit), limit,
        (times.map (SearchTimes.compare limit)).all fun c => !c.exceeded⟩ where
  engines := by
    rw [List.map_map]
    exact h.engines
  comparisons c hc := by
    obtain ⟨t, ht, rfl⟩ := List.mem_map.1 hc
    exact compares_compare (h.baseline t ht) (h.current t ht)
  passed := by
    rw [List.all_eq_true, Verdict.regressions, List.filter_eq_nil_iff]
    simp only [Bool.not_eq_true', Bool.not_eq_true]
  regressions := ⟨List.filter_sublist, fun _ => List.mem_filter⟩
  limit := rfl

theorem checkRegression_cases (baseline current : Record) (engines : List String)
    (limit : Binary64) :
    (BadLimit limit ∧
      checkRegression baseline current engines limit = .error (.invalidLimit limit)) ∨
    (¬ BadLimit limit ∧ ∃ engine side, FirstMissing baseline current engines engine side ∧
      checkRegression baseline current engines limit = .error (.missingEngine engine side)) ∨
    (¬ BadLimit limit ∧ (∀ e ∈ engines, InBoth baseline current e) ∧
      ∃ v, Judges baseline current engines limit v ∧
        checkRegression baseline current engines limit = .ok v) := by
  rw [checkRegression]
  by_cases hbad : BadLimit limit
  · rw [if_pos (badLimit_iff.2 hbad)]
    exact Or.inl ⟨hbad, rfl⟩
  · rw [if_neg (badLimit_iff.not.2 hbad)]
    right
    rcases Collected.nil.collectTimes_cases engines with ⟨times, hok, htimes⟩ | ⟨e, side, herr, hfirst⟩
    · right
      rw [hok]
      exact ⟨hbad, fun e he => htimes.inBoth he, _, htimes.judges, rfl⟩
    · left
      rw [herr]
      exact ⟨hbad, e, side, hfirst, rfl⟩

/-- There is a verdict when the limit is good and both records have every engine, and it is the one
that judges the engines. -/
theorem checkRegression_eq_ok_iff {v : Verdict} :
    checkRegression baseline current engines limit = .ok v ↔
      ¬ BadLimit limit ∧ (∀ e ∈ engines, InBoth baseline current e) ∧
        Judges baseline current engines limit v := by
  rcases checkRegression_cases baseline current engines limit with
    ⟨hbad, hcheck⟩ | ⟨-, e, side, hfirst, hcheck⟩ | ⟨hgood, hall, w, hw, hcheck⟩ <;> rw [hcheck]
  · exact iff_of_false nofun fun h => h.1 hbad
  · exact iff_of_false nofun fun h => hfirst.not_inBoth h.2.1
  · rw [Except.ok.injEq]
    constructor
    · rintro rfl
      exact ⟨hgood, hall, hw⟩
    · exact fun h => hw.unique h.2.2

/-- An accepted limit and engines that both records have are all that a verdict takes. -/
theorem exists_judges (hgood : ¬ BadLimit limit) (hall : ∀ e ∈ engines, InBoth baseline current e) :
    ∃ v, checkRegression baseline current engines limit = .ok v ∧
      Judges baseline current engines limit v := by
  rcases checkRegression_cases baseline current engines limit with
    ⟨hbad, -⟩ | ⟨-, e, side, hfirst, -⟩ | ⟨-, -, v, hv, hcheck⟩
  · exact absurd hbad hgood
  · exact absurd hall hfirst.not_inBoth
  · exact ⟨v, hcheck, hv⟩

theorem exists_verdict_iff :
    (∃ v, checkRegression baseline current engines limit = .ok v) ↔
      ¬ BadLimit limit ∧ ∀ e ∈ engines, InBoth baseline current e := by
  constructor
  · rintro ⟨v, hv⟩
    obtain ⟨hgood, hall, -⟩ := checkRegression_eq_ok_iff.1 hv
    exact ⟨hgood, hall⟩
  · rintro ⟨hgood, hall⟩
    obtain ⟨v, hcheck, -⟩ := exists_judges hgood hall
    exact ⟨v, hcheck⟩

theorem exists_firstMissing_iff :
    (∃ e side, FirstMissing baseline current engines e side) ↔
      ∃ e ∈ engines, ¬ InBoth baseline current e := by
  constructor
  · rintro ⟨e, side, h⟩
    exact ⟨e, h.mem, missingFrom_not_inBoth h.2⟩
  · rintro ⟨e, he, hmissing⟩
    rcases Collected.nil.collectTimes_cases engines with ⟨times, -, htimes⟩ | ⟨e', side, -, hfirst⟩
    · exact absurd (htimes.inBoth he) hmissing
    · exact ⟨e', side, hfirst⟩

/-! ## Search times that are known -/

/-- A finite limit above zero is accepted. -/
theorem not_badLimit (hfinite : limit.isFinite = true) (hpos : limit.isPositive = true) :
    ¬ BadLimit limit := by
  obtain ⟨hzero, hnan, hbelow⟩ := Binary.lt_eq_true_iff.1 hpos
  rw [← badLimit_iff, hfinite, Binary.le, hnan, hzero, decide_eq_false (by omega)]
  exact Bool.false_ne_true

theorem isFinite_of_not_badLimit (h : ¬ BadLimit limit) : limit.isFinite = true := by
  by_contra hfinite
  have hcases := Binary.isFinite_eq_false_iff.1 (Bool.not_eq_true _ ▸ hfinite)
  exact h (hcases.imp_right .inl)

/-- The comparisons of a verdict on different engines follow from their search times. -/
theorem Judges.comparisons_eq {times : List SearchTimes} {v : Verdict}
    (h : Judges baseline current (times.map (·.engine)) limit v)
    (hdistinct : (times.map (·.engine)).Nodup)
    (hbase : ∀ t ∈ times, baseline.SearchTime t.engine t.baseline)
    (hcurr : ∀ t ∈ times, current.SearchTime t.engine t.current) :
    v.comparisons = times.map (SearchTimes.compare limit) := by
  have hengines : v.comparisons.map (·.engine) =
      (times.map (SearchTimes.compare limit)).map (·.engine) := by
    rw [List.map_map]
    exact h.engines.unique (.self hdistinct)
  refine eq_of_map_eq hengines fun c hc d hd he => ?_
  obtain ⟨t, ht, rfl⟩ := List.mem_map.1 hd
  exact (h.comparisons c hc).unique (compares_compare (hbase t ht) (hcurr t ht)) he

/-- Different engines that both records have are compared, each by its search times. -/
theorem checkRegression_of_times {times : List SearchTimes} (hgood : ¬ BadLimit limit)
    (hdistinct : (times.map (·.engine)).Nodup)
    (hbase : ∀ t ∈ times, baseline.SearchTime t.engine t.baseline)
    (hcurr : ∀ t ∈ times, current.SearchTime t.engine t.current) :
    ∃ v, checkRegression baseline current (times.map (·.engine)) limit = .ok v ∧
      v.comparisons = times.map (SearchTimes.compare limit) := by
  have hall : ∀ e ∈ times.map (·.engine), InBoth baseline current e := by
    rw [List.forall_mem_map]
    exact fun t ht => ⟨(hbase t ht).mem_engineNames, (hcurr t ht).mem_engineNames⟩
  obtain ⟨v, hcheck, hv⟩ := exists_judges hgood hall
  exact ⟨v, hcheck, hv.comparisons_eq hdistinct hbase hcurr⟩

/-! ## The outcome of a check -/

/-- A check refuses the limit exactly when it is bad; of all other checks those lack an engine that
name one which a record lacks, the first such name being reported, and all others have the one
verdict that judges the engines. -/
theorem checkRegression_outcome (baseline current : Record) (engines : List String)
    (limit : Binary64) :
    (∀ x, checkRegression baseline current engines limit = .error (.invalidLimit x) ↔
      BadLimit limit ∧ x = limit) ∧
    (∀ e side, checkRegression baseline current engines limit = .error (.missingEngine e side) ↔
      ¬ BadLimit limit ∧ FirstMissing baseline current engines e side) ∧
    ((∃ e side, FirstMissing baseline current engines e side) ↔
      ∃ e ∈ engines, ¬ InBoth baseline current e) ∧
    (∀ v, checkRegression baseline current engines limit = .ok v ↔
      ¬ BadLimit limit ∧ (∀ e ∈ engines, InBoth baseline current e) ∧
        Judges baseline current engines limit v) ∧
    ((∃ v, checkRegression baseline current engines limit = .ok v) ↔
      ¬ BadLimit limit ∧ ∀ e ∈ engines, InBoth baseline current e) := by
  rcases checkRegression_cases baseline current engines limit with
    ⟨hbad, hcheck⟩ | ⟨hgood, e, side, hfirst, hcheck⟩ | ⟨hgood, hall, v, hv, hcheck⟩
  · rw [hcheck]
    refine ⟨fun x => ?_, fun e side => ?_, exists_firstMissing_iff, fun v => ?_, ?_⟩
    · simp [hbad, eq_comm]
    · simp [hbad]
    · simp [hbad]
    · simp [hbad]
  · rw [hcheck]
    refine ⟨fun x => ?_, fun e' side' => ?_, exists_firstMissing_iff, fun v => ?_, ?_⟩
    · simp [hgood]
    · simp only [Except.error.injEq, CheckError.missingEngine.injEq]
      constructor
      · rintro ⟨rfl, rfl⟩
        exact ⟨hgood, hfirst⟩
      · rintro ⟨-, hfirst'⟩
        exact hfirst.unique hfirst'
    · simp [hfirst.not_inBoth]
    · simp [hfirst.not_inBoth]
  · rw [hcheck]
    refine ⟨fun x => ?_, fun e side => ?_, exists_firstMissing_iff, fun w => ?_, ?_⟩
    · simp [hgood]
    · refine iff_of_false (by simp) ?_
      rintro ⟨-, hfirst⟩
      exact hfirst.not_inBoth hall
    · rw [Except.ok.injEq]
      constructor
      · rintro rfl
        exact ⟨hgood, hall, hv⟩
      · rintro ⟨-, -, hw⟩
        exact hv.unique hw
    · exact iff_of_true ⟨v, rfl⟩ ⟨hgood, hall⟩

end VectorBench
