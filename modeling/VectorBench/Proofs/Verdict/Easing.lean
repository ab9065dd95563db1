import VectorBench.Proofs.Verdict.Boundary

/-!
# Easing a check

A check is eased by a larger limit, by a baseline that took longer and by a current run that took
less.  A quotient of two times does not grow by that: rounding keeps the order, and where the old
baseline was nothing its ratio was the largest there is.  So an engine that exceeds the limit of the
eased check exceeded the limit before, and a check that was passed stays passed.

    b.le b' → c'.le c → (searchRatio b' c').le (searchRatio b c)                  (searchRatio_le)
    each comparison of the eased check has one of the same engine in the old check, with a ratio
    that is no smaller and exceeded if the eased one is                     (checkRegression_eased)
-/

namespace VectorBench

variable {b b' c c' limit limit' : Binary64}

/-! ## Ratios -/

/-- A negative zero is the only ratio with a sign, so the magnitude says all of its place. -/
theorem searchRatio_signedMagnitude (hb : IsSeconds b) (hc : IsSeconds c) :
    (searchRatio b c).signedMagnitude = (searchRatio b c).magnitude := by
  have hbelow := searchRatio_not_below hb hc
  unfold Binary.signedMagnitude at hbelow ⊢
  split
  · rename_i hsign
    rw [if_pos hsign] at hbelow
    omega
  · rfl

/-- A longer baseline and a shorter current time do not make the ratio larger. -/
theorem searchRatio_le (hb : IsSeconds b) (hb' : IsSeconds b') (hc : IsSeconds c)
    (hc' : IsSeconds c') (hslower : b.le b' = true) (hfaster : c'.le c = true) :
    (searchRatio b' c').le (searchRatio b c) = true := by
  have hnan := searchRatio_isNaN hb hc
  have hnan' := searchRatio_isNaN hb' hc'
  rw [Binary.le_eq_true_iff, searchRatio_signedMagnitude hb hc, searchRatio_signedMagnitude hb' hc']
  refine ⟨hnan', hnan, Int.ofNat_le.2 ?_⟩
  cases hpos : b.isPositive with
  | false =>
    -- against nothing the ratio was infinite
    rw [searchRatio_of_zero (c := c) (isZero_of_not_isPositive hb hpos)]
    exact Binary.isNaN_eq_false_iff.1 hnan'
  | true =>
    have hpos' : b'.isPositive = true := Binary.lt_of_lt_of_le hpos hslower
    have hquotient : c'.value / b'.value ≤ c.value / b.value :=
      div_le_div₀ hc.value_nonneg (Binary.value_mono hfaster) (value_pos hb.finite hpos)
        (Binary.value_mono hslower)
    exact (searchRatio_of_positive hb' hc' hpos').2.mono (searchRatio_of_positive hb hc hpos).2
      (mul_le_mul_of_nonneg_right hquotient (by positivity))

/-! ## Checks -/

/-- Where both records have the engine, its search time in `r` is at most the one in `s`. -/
def AtMost (r s : Record) (engine : String) : Prop :=
  ∀ x y, r.SearchTime engine x → s.SearchTime engine y → x.le y = true

variable {baseline baseline' current current' : Record} {engines : List String}

theorem Compares.eased {x y : Comparison} (hx : Compares baseline' current' limit' x)
    (hy : Compares baseline current limit y) (he : y.engine = x.engine)
    (hle : limit.le limit' = true) (hslower : AtMost baseline baseline' x.engine)
    (hfaster : AtMost current' current x.engine) :
    x.ratio.le y.ratio = true ∧ (x.exceeded = true → y.exceeded = true) := by
  have hbase := he ▸ hy.baseline
  have hcurr := he ▸ hy.current
  have hratio : x.ratio.le y.ratio = true := by
    rw [hx.ratio_eq, hy.ratio_eq]
    exact searchRatio_le hbase.isSeconds hx.baseline.isSeconds hcurr.isSeconds hx.current.isSeconds
      (hslower _ _ hbase hx.baseline) (hfaster _ _ hx.current hcurr)
  refine ⟨hratio, fun hexceeded => hy.exceeded.2 ?_⟩
  have hlt : limit'.lt x.ratio = true := hx.exceeded.1 hexceeded
  exact Binary.lt_of_lt_of_le (Binary.lt_of_le_of_lt hle hlt) hratio

/-- Two checks on records with the same engines, of which the second has the larger limit, the longer
baselines and the shorter current times.  Both have a verdict or neither has, and whatever exceeds
the limit in the second exceeds it in the first. -/
theorem checkRegression_eased
    (hbase : ∀ e, e ∈ baseline.engineNames ↔ e ∈ baseline'.engineNames)
    (hcurr : ∀ e, e ∈ current.engineNames ↔ e ∈ current'.engineNames)
    (hgood : ¬ BadLimit limit) (hgood' : ¬ BadLimit limit') (hle : limit.le limit' = true)
    (hslower : ∀ e ∈ engines, AtMost baseline baseline' e)
    (hfaster : ∀ e ∈ engines, AtMost current' current e) :
    ((∃ v, checkRegression baseline current engines limit = .ok v) ↔
      ∃ w, checkRegression baseline' current' engines limit' = .ok w) ∧
    ∀ v w, checkRegression baseline current engines limit = .ok v →
      checkRegression baseline' current' engines limit' = .ok w →
      (∀ x ∈ w.comparisons, ∃ y ∈ v.comparisons, y.engine = x.engine ∧
        x.ratio.le y.ratio = true ∧ (x.exceeded = true → y.exceeded = true)) ∧
      (v.passed = true → w.passed = true) := by
  have hboth : ∀ e, InBoth baseline current e ↔ InBoth baseline' current' e :=
    fun e => and_congr (hbase e) (hcurr e)
  constructor
  · rw [exists_verdict_iff, exists_verdict_iff]
    simp only [hgood, hgood', hboth]
  · intro v w hcheck hcheck'
    obtain ⟨-, -, hv⟩ := checkRegression_eq_ok_iff.1 hcheck
    obtain ⟨-, -, hw⟩ := checkRegression_eq_ok_iff.1 hcheck'
    have hcompared : ∀ x ∈ w.comparisons, ∃ y ∈ v.comparisons, y.engine = x.engine ∧
        x.ratio.le y.ratio = true ∧ (x.exceeded = true → y.exceeded = true) := by
      intro x hx
      have he : x.engine ∈ engines := (hw.engines.mem_iff _).1 (List.mem_map_of_mem hx)
      obtain ⟨y, hy, hye⟩ := List.mem_map.1 ((hv.engines.mem_iff _).2 he)
      exact ⟨y, hy, hye, (hw.comparisons x hx).eased (hv.comparisons y hy) hye hle (hslower _ he)
        (hfaster _ he)⟩
    refine ⟨hcompared, fun hpassed => hw.passed.2 (List.eq_nil_iff_forall_not_mem.2 fun x hx => ?_)⟩
    obtain ⟨hmem, hexceeded⟩ := (hw.regressions.2 x).1 hx
    obtain ⟨y, hy, -, -, himp⟩ := hcompared x hmem
    have hregressed := (hv.regressions.2 y).2 ⟨hy, himp hexceeded⟩
    rw [hv.passed.1 hpassed] at hregressed
    cases hregressed

theorem searchTime_timedRecord {bits : Nat} {fit} {engine : String} {x : Binary64}
    (h : (timedRecord bits fit).SearchTime engine x) : x = .ofBits .double bits := by
  obtain ⟨m, hm, -, rfl⟩ := h
  rw [List.mem_singleton.1 hm]

/-- The largest time against the least one overflows, and the other way round nothing is left. -/
theorem checkRegression_eased_extremes :
    let least := timedRecord 1 (by decide)
    let largest := timedRecord 0x7fefffffffffffff (by decide)
    let two : Binary64 := .ofBits .double 0x4000000000000000
    (∀ e, e ∈ least.engineNames ↔ e ∈ largest.engineNames) ∧
      ¬ BadLimit defaultLimit ∧ ¬ BadLimit two ∧ defaultLimit.le two = true ∧
      (∀ e ∈ ["flat"], AtMost least largest e) ∧
      ∃ v w, checkRegression least largest ["flat"] defaultLimit = .ok v ∧
        checkRegression largest least ["flat"] two = .ok w ∧
        (∀ x ∈ w.comparisons, ∃ y ∈ v.comparisons, y.engine = x.engine ∧
          x.ratio.le y.ratio = true ∧ (x.exceeded = true → y.exceeded = true)) ∧
        v.passed = false ∧ w.passed = true := by
  intro least largest two
  have hnames : ∀ e, e ∈ least.engineNames ↔ e ∈ largest.engineNames := fun _ => Iff.rfl
  have hdefault : ¬ BadLimit defaultLimit := not_badLimit (by decide) (by decide)
  have htwo : ¬ BadLimit two := not_badLimit (by decide) (by decide)
  have hle : defaultLimit.le two = true := by decide
  have hmost : ∀ e ∈ ["flat"], AtMost least largest e := by
    intro e _ x y hx hy
    rw [searchTime_timedRecord hx, searchTime_timedRecord hy]
    decide
  refine ⟨hnames, hdefault, htwo, hle, hmost, _, _, rfl, rfl, ?_, by decide +kernel, by decide +kernel⟩
  exact ((checkRegression_eased hnames (fun e => (hnames e).symm) hdefault htwo hle hmost hmost).2
    _ _ rfl rfl).1

end VectorBench
