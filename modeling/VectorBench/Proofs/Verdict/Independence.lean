import VectorBench.Proofs.Binary.Quotient
import VectorBench.Proofs.Verdict.Outcome

/-!
# What a check depends on

Two checks come to the same when they ask for the same engines and the records agree on these: on
which of them are there and on their search times.  The order of the names, how often a name is
repeated, configurations, build times, the order of the measurements and all other engines do not
matter.  Search times that agree bit by bit give the same numbers bit by bit, and search times that
agree in value, where the two zeros are one, give the same values.

    engines and engines' hold the same names → (∀ e ∈ engines, AgreeOn a baseline baseline' e) →
      (∀ e ∈ engines, AgreeOn a current current' e) →
        SameOutcome a (checkRegression baseline current engines limit)
          (checkRegression baseline' current' engines' limit)          (checkRegression_independent)
-/

namespace VectorBench

/-- How closely two numbers agree: in every bit, or in value. -/
inductive Agreement where
  | bits
  | value

def Agreement.Between (a : Agreement) (x y : Binary64) : Prop :=
  match a with
  | bits => x = y
  | value => x.Equal y

/-- Two records agree on whether an engine is there and on its search time. -/
structure AgreeOn (a : Agreement) (r s : Record) (engine : String) : Prop where
  forth : ∀ x, r.SearchTime engine x → ∃ y, s.SearchTime engine y ∧ a.Between x y
  back : ∀ y, s.SearchTime engine y → ∃ x, r.SearchTime engine x ∧ a.Between x y

/-- Two comparisons say the same of one engine. -/
structure Comparison.Same (a : Agreement) (c d : Comparison) : Prop where
  engine : c.engine = d.engine
  baseline : a.Between c.baseline d.baseline
  current : a.Between c.current d.current
  ratio : a.Between c.ratio d.ratio
  exceeded : c.exceeded = d.exceeded

/-- The same comparisons, in any order. -/
structure SameComparisons (a : Agreement) (l k : List Comparison) : Prop where
  forth : ∀ c ∈ l, ∃ d ∈ k, c.Same a d
  back : ∀ d ∈ k, ∃ c ∈ l, c.Same a d

def CheckError.SameKind : CheckError → CheckError → Prop
  | .missingEngine _ _, .missingEngine _ _ => True
  | .invalidLimit x, .invalidLimit y => x = y
  | _, _ => False

/-- Two checks fail for the same kind of reason, or both succeed with the same comparisons, of which
the same ones are regressions. -/
def SameOutcome (a : Agreement) : Except CheckError Verdict → Except CheckError Verdict → Prop
  | .error e, .error e' => e.SameKind e'
  | .ok v, .ok w => v.passed = w.passed ∧ SameComparisons a v.comparisons w.comparisons ∧
      SameComparisons a v.regressions w.regressions
  | _, _ => False

variable {a : Agreement} {baseline baseline' current current' : Record}
  {engines engines' : List String} {limit : Binary64}

/-! ## Agreement -/

theorem Agreement.Between.symm {x y : Binary64} (h : a.Between x y) : a.Between y x := by
  cases a with
  | bits => exact Eq.symm h
  | value => exact Binary.Equal.symm h

theorem AgreeOn.symm {r s : Record} {engine : String} (h : AgreeOn a r s engine) :
    AgreeOn a s r engine := by
  constructor
  · intro y hy
    obtain ⟨x, hx, hxy⟩ := h.back y hy
    exact ⟨x, hx, hxy.symm⟩
  · intro x hx
    obtain ⟨y, hy, hxy⟩ := h.forth x hx
    exact ⟨y, hy, hxy.symm⟩

theorem AgreeOn.mem_engineNames {r s : Record} {engine : String} (h : AgreeOn a r s engine)
    (he : engine ∈ r.engineNames) : engine ∈ s.engineNames := by
  obtain ⟨x, hx⟩ := Record.exists_searchTime_iff.2 he
  obtain ⟨y, hy, -⟩ := h.forth x hx
  exact hy.mem_engineNames

/-- Records agree on an engine of which they find search times that agree. -/
theorem agreeOn_of_metric? {r s : Record} {engine : String} {m n : Measurement}
    (hr : r.metric? engine = some m) (hs : s.metric? engine = some n)
    (h : a.Between m.searchSeconds n.searchSeconds) : AgreeOn a r s engine := by
  have hm := Record.searchTime_of_metric? hr
  have hn := Record.searchTime_of_metric? hs
  constructor
  · intro x hx
    rw [hx.unique hm]
    exact ⟨_, hn, h⟩
  · intro y hy
    rw [hy.unique hn]
    exact ⟨_, hm, h⟩

theorem Comparison.Same.symm {c d : Comparison} (h : c.Same a d) : d.Same a c :=
  ⟨h.engine.symm, h.baseline.symm, h.current.symm, h.ratio.symm, h.exceeded.symm⟩

/-! ## One comparison -/

/-- Ratios of times that agree in value agree in value. -/
theorem searchRatio_equal {b b' c c' : Binary64} (hb : IsSeconds b) (hc : IsSeconds c)
    (hc' : IsSeconds c') (hbb : b.Equal b') (hcc : c.Equal c') :
    (searchRatio b c).Equal (searchRatio b' c') := by
  have hpositive : b.isPositive = b'.isPositive := Binary.lt_congr_right hbb
  unfold searchRatio
  rw [← hpositive]
  cases hpos : b.isPositive with
  | false =>
    rw [if_neg Bool.false_ne_true, if_neg Bool.false_ne_true]
    exact Binary.equal_self (Binary.infinity_isNaN false)
  | true =>
    have hzero := Binary.isZero_eq_false_of_isPositive hpos
    obtain rfl : b = b' := hbb.eq_or_zeros.resolve_right fun h => by simp [hzero] at h
    rw [if_pos rfl, if_pos rfl]
    refine ⟨Binary.div_isNaN hc.finite hb.finite hzero, Binary.div_isNaN hc'.finite hb.finite hzero,
      ?_⟩
    rcases hcc.eq_or_zeros with rfl | ⟨hz, hz'⟩
    · rfl
    · rw [Binary.zero_div_signedMagnitude hz hb.finite hzero,
        Binary.zero_div_signedMagnitude hz' hb.finite hzero]

theorem Agreement.between_searchRatio {b b' c c' : Binary64} (hb : IsSeconds b) (hc : IsSeconds c)
    (hc' : IsSeconds c') (hbb : a.Between b b') (hcc : a.Between c c') :
    a.Between (searchRatio b c) (searchRatio b' c') := by
  cases a with
  | bits =>
    have hb' : b = b' := hbb
    have hc' : c = c' := hcc
    rw [hb', hc']
    rfl
  | value => exact searchRatio_equal hb hc hc' hbb hcc

theorem Agreement.Between.lt_congr {x y : Binary64} (h : a.Between x y) :
    limit.lt x = limit.lt y := by
  cases a with
  | bits => exact congrArg limit.lt h
  | value => exact Binary.lt_congr_right h

/-- Comparisons of one engine say the same when the records agree on it. -/
theorem Compares.same {c d : Comparison} (hc : Compares baseline current limit c)
    (hd : Compares baseline' current' limit d) (he : c.engine = d.engine)
    (hbase : AgreeOn a baseline baseline' c.engine) (hcurr : AgreeOn a current current' c.engine) :
    c.Same a d := by
  obtain ⟨y, hy, hbaseline⟩ := hbase.forth _ hc.baseline
  obtain ⟨z, hz, hcurrent⟩ := hcurr.forth _ hc.current
  rw [he] at hy hz
  obtain rfl := hy.unique hd.baseline
  obtain rfl := hz.unique hd.current
  have hratio : a.Between c.ratio d.ratio := by
    rw [hc.ratio_eq, hd.ratio_eq]
    exact Agreement.between_searchRatio hc.baseline.isSeconds hc.current.isSeconds
      hd.current.isSeconds hbaseline hcurrent
  have hexceeded : c.exceeded = d.exceeded := by
    rw [Bool.eq_iff_iff, hc.exceeded, hd.exceeded, hratio.lt_congr]
  exact ⟨he, hbaseline, hcurrent, hratio, hexceeded⟩

/-! ## Two checks -/

theorem inBoth_of_agreeOn {e : String} (hbase : AgreeOn a baseline baseline' e)
    (hcurr : AgreeOn a current current' e) (h : InBoth baseline current e) :
    InBoth baseline' current' e :=
  ⟨hbase.mem_engineNames h.1, hcurr.mem_engineNames h.2⟩

/-- A comparison of one verdict is in the other one as well. -/
theorem Judges.exists_same {v w : Verdict} (hv : Judges baseline current engines limit v)
    (hw : Judges baseline' current' engines' limit w) (hnames : ∀ e ∈ engines, e ∈ engines')
    (hbase : ∀ e ∈ engines, AgreeOn a baseline baseline' e)
    (hcurr : ∀ e ∈ engines, AgreeOn a current current' e) {c : Comparison}
    (hc : c ∈ v.comparisons) : ∃ d ∈ w.comparisons, c.Same a d := by
  have he : c.engine ∈ engines :=
    (hv.engines.mem_iff _).1 (List.mem_map_of_mem hc)
  obtain ⟨d, hd, hde⟩ := List.mem_map.1 ((hw.engines.mem_iff _).2 (hnames _ he))
  exact ⟨d, hd, (hv.comparisons c hc).same (hw.comparisons d hd) hde.symm (hbase _ he) (hcurr _ he)⟩

/-- Verdicts with the same comparisons have the same regressions. -/
theorem SameComparisons.regressions {v w : Verdict}
    (h : SameComparisons a v.comparisons w.comparisons) :
    SameComparisons a v.regressions w.regressions := by
  constructor
  · intro c hc
    obtain ⟨hmem, hexceeded⟩ := List.mem_filter.1 hc
    obtain ⟨d, hd, hsame⟩ := h.forth c hmem
    exact ⟨d, List.mem_filter.2 ⟨hd, hsame.exceeded ▸ hexceeded⟩, hsame⟩
  · intro d hd
    obtain ⟨hmem, hexceeded⟩ := List.mem_filter.1 hd
    obtain ⟨c, hc, hsame⟩ := h.back d hmem
    exact ⟨c, List.mem_filter.2 ⟨hc, hsame.exceeded ▸ hexceeded⟩, hsame⟩

theorem SameComparisons.eq_nil_iff {l k : List Comparison} (h : SameComparisons a l k) :
    l = [] ↔ k = [] := by
  constructor
  · rintro rfl
    refine List.eq_nil_iff_forall_not_mem.2 fun d hd => ?_
    obtain ⟨c, hc, -⟩ := h.back d hd
    cases hc
  · rintro rfl
    refine List.eq_nil_iff_forall_not_mem.2 fun c hc => ?_
    obtain ⟨d, hd, -⟩ := h.forth c hc
    cases hd

theorem Judges.sameOutcome {v w : Verdict} (hv : Judges baseline current engines limit v)
    (hw : Judges baseline' current' engines' limit w) (hnames : ∀ e, e ∈ engines ↔ e ∈ engines')
    (hbase : ∀ e ∈ engines, AgreeOn a baseline baseline' e)
    (hcurr : ∀ e ∈ engines, AgreeOn a current current' e) : SameOutcome a (.ok v) (.ok w) := by
  have hcomparisons : SameComparisons a v.comparisons w.comparisons := by
    constructor
    · intro c hc
      exact hv.exists_same hw (fun e => (hnames e).1) hbase hcurr hc
    · intro d hd
      obtain ⟨c, hc, hsame⟩ := hw.exists_same hv (fun e => (hnames e).2)
        (fun e he => (hbase e ((hnames e).2 he)).symm)
        (fun e he => (hcurr e ((hnames e).2 he)).symm) hd
      exact ⟨c, hc, hsame.symm⟩
  refine ⟨?_, hcomparisons, hcomparisons.regressions⟩
  rw [Bool.eq_iff_iff, hv.passed, hw.passed, hcomparisons.regressions.eq_nil_iff]

/-- Checks that ask for the same engines in records that agree on these come to the same. -/
theorem checkRegression_independent (hnames : ∀ e, e ∈ engines ↔ e ∈ engines')
    (hbase : ∀ e ∈ engines, AgreeOn a baseline baseline' e)
    (hcurr : ∀ e ∈ engines, AgreeOn a current current' e) (limit : Binary64) :
    SameOutcome a (checkRegression baseline current engines limit)
      (checkRegression baseline' current' engines' limit) := by
  have hinBoth : (∀ e ∈ engines, InBoth baseline current e) ↔
      ∀ e ∈ engines', InBoth baseline' current' e := by
    constructor
    · intro h e he
      have he' := (hnames e).2 he
      exact inBoth_of_agreeOn (hbase e he') (hcurr e he') (h e he')
    · intro h e he
      exact inBoth_of_agreeOn (hbase e he).symm (hcurr e he).symm (h e ((hnames e).1 he))
  rcases checkRegression_cases baseline current engines limit with
    ⟨hbad, hcheck⟩ | ⟨hgood, e, side, hfirst, hcheck⟩ | ⟨hgood, hall, v, hv, hcheck⟩ <;>
  rcases checkRegression_cases baseline' current' engines' limit with
    ⟨hbad', hcheck'⟩ | ⟨hgood', e', side', hfirst', hcheck'⟩ | ⟨hgood', hall', w, hw, hcheck'⟩ <;>
  rw [hcheck, hcheck']
  · exact rfl
  · exact absurd hbad hgood'
  · exact absurd hbad hgood'
  · exact absurd hbad' hgood
  · exact trivial
  · exact absurd (hinBoth.2 hall') hfirst.not_inBoth
  · exact absurd hbad' hgood
  · exact absurd (hinBoth.1 hall) hfirst'.not_inBoth
  · exact hv.sameOutcome hw hnames hbase hcurr

/-- Two engines, of which the first takes no time to search. -/
def shortRecord (zero : Bool) : Record :=
  ⟨⟨1, 1, 1, 1, 0⟩, [⟨"flat", .zero false, .zero zero⟩, ⟨"graph", .zero false, defaultLimit⟩], by
    cases zero <;> decide⟩

/-- The same search times among others, in another order and of another benchmark. -/
def longRecord (zero : Bool) : Record :=
  ⟨⟨9, 8, 7, 6, 5⟩, [⟨"other", defaultLimit, defaultLimit⟩, ⟨"graph", defaultLimit, defaultLimit⟩,
    ⟨"flat", defaultLimit, .zero zero⟩], by cases zero <;> decide⟩

theorem shortRecord_agreeOn (zero zero' : Bool) {e : String} (he : e ∈ ["flat", "graph", "flat"]) :
    AgreeOn .value (shortRecord zero) (longRecord zero') e := by
  have hflat : AgreeOn .value (shortRecord zero) (longRecord zero') "flat" :=
    agreeOn_of_metric? rfl rfl (by cases zero <;> cases zero' <;> exact ⟨rfl, rfl, rfl⟩)
  have hgraph : AgreeOn .value (shortRecord zero) (longRecord zero') "graph" :=
    agreeOn_of_metric? rfl rfl (Binary.equal_self (by decide))
  simp only [List.mem_cons, List.not_mem_nil, or_false] at he
  rcases he with rfl | rfl | rfl
  · exact hflat
  · exact hgraph
  · exact hflat

/-- A zero may change its sign. -/
theorem checkRegression_independent_reordered :
    (∀ e, e ∈ ["flat", "graph", "flat"] ↔ e ∈ ["graph", "flat"]) ∧
    (∀ e ∈ ["flat", "graph", "flat"], AgreeOn .value (shortRecord false) (longRecord true) e) ∧
    (∀ e ∈ ["flat", "graph", "flat"], AgreeOn .value (shortRecord true) (longRecord false) e) ∧
    SameOutcome .value
      (checkRegression (shortRecord false) (shortRecord true) ["flat", "graph", "flat"] defaultLimit)
      (checkRegression (longRecord true) (longRecord false) ["graph", "flat"] defaultLimit) := by
  have hnames : ∀ e, e ∈ ["flat", "graph", "flat"] ↔ e ∈ ["graph", "flat"] := by
    intro e
    simp only [List.mem_cons, List.not_mem_nil]
    tauto
  have hbase := fun e he => shortRecord_agreeOn false true (e := e) he
  have hcurr := fun e he => shortRecord_agreeOn true false (e := e) he
  exact ⟨hnames, hbase, hcurr, checkRegression_independent hnames hbase hcurr defaultLimit⟩

end VectorBench
