import VectorBench.Proofs.Decimal.Fixed
import VectorBench.Proofs.Report.Lines
import VectorBench.Proofs.Verdict.Boundary

/-!
# The numbers of a report

Every number in a report is the nearest decimal with its places, or infinity.  An engine has regressed
by the numbers before they are rounded; the numbers that are printed never say the opposite, because
rounding keeps the order.  They may be equal, and then the line of a regression shows a ratio that is
not larger than the limit beside it.

    c.Printed limit (c.baseline.fixed 6) (c.current.fixed 6) (c.ratio.fixed 3) (limit.fixed 3)
                                                                                 (Compares.printed)
    exceeded → printed limit ≤ printed ratio, and otherwise the other way round      (report_numbers)
-/

namespace VectorBench

variable {baseline current : Record} {engines : List String} {limit : Binary64} {v : Verdict}
  {c : Comparison}

/-! ## Lines -/

theorem Verdict.comparison_mem (h : c ∈ v.comparisons) : (.out, comparisonLine c) ∈ v.lines :=
  List.mem_append_left _ (List.mem_map.2 ⟨c, h, rfl⟩)

theorem Judges.regression_mem (hv : Judges baseline current engines limit v)
    (h : c ∈ v.comparisons) (hexceeded : c.exceeded = true) :
    (.err, regressionLine c v.limit) ∈ v.lines := by
  have hmem := (hv.regressions.2 c).2 ⟨h, hexceeded⟩
  have hfailed : v.passed = false := by
    rw [← Bool.not_eq_true, hv.passed]
    exact List.ne_nil_of_mem hmem
  rw [Verdict.lines, hfailed, if_neg Bool.false_ne_true]
  exact List.mem_append_right _ (List.mem_map.2 ⟨c, hmem, rfl⟩)

/-! ## Numbers -/

/-- The texts of the numbers in the line of a measurement. -/
structure Measurement.Printed (m : Measurement) (build search : String) : Prop where
  line : summaryLine m = m.engine ++ ": build=" ++ build ++ "s search=" ++ search ++ "s"
  prints_build : Prints 4 m.buildSeconds build
  prints_search : Prints 4 m.searchSeconds search

/-- The texts of the numbers in the lines of a comparison, of which the ratio and the limit agree with
what the comparison says. -/
structure Comparison.Printed (c : Comparison) (limit : Binary64)
    (baseline current ratio bound : String) : Prop where
  line : comparisonLine c =
    c.engine ++ ": baseline=" ++ baseline ++ "s current=" ++ current ++ "s ratio=" ++ ratio
  regression : regressionLine c limit =
    "ERROR: " ++ c.engine ++ " search regression ratio " ++ ratio ++ " > " ++ bound
  prints_baseline : Prints 6 c.baseline baseline
  prints_current : Prints 6 c.current current
  prints_ratio : Prints 3 c.ratio ratio
  prints_limit : Prints 3 limit bound
  agrees : ∃ r l, readShown? ratio = some r ∧ readShown? bound = some l ∧
    (c.exceeded = true → l.value ≤ r.value) ∧ (c.exceeded = false → r.value ≤ l.value)

theorem Measurement.printed {m : Measurement} (hbuild : IsSeconds m.buildSeconds)
    (hsearch : IsSeconds m.searchSeconds) :
    m.Printed (m.buildSeconds.fixed 4) (m.searchSeconds.fixed 4) where
  line := rfl
  prints_build := prints_fixed (by decide) hbuild.finite
  prints_search := prints_fixed (by decide) hsearch.finite

/-- A ratio is never a NaN, so that it is not above the limit exactly when it is at most the limit. -/
theorem Compares.ratio_le (hc : Compares baseline current limit c) (hlimit : limit.isNaN = false)
    (hexceeded : c.exceeded = false) : c.ratio.le limit = true := by
  have hnan : c.ratio.isNaN = false := by
    rw [hc.ratio_eq]
    exact searchRatio_isNaN hc.baseline.isSeconds hc.current.isSeconds
  have hnot := hc.exceeded.not.1 (Bool.not_eq_true _ ▸ hexceeded)
  rw [Binary.lt_eq_true_iff] at hnot
  exact Binary.le_eq_true_iff.2 ⟨hnan, hlimit, Int.not_lt.1 fun hlt => hnot ⟨hlimit, hnan, hlt⟩⟩

theorem Compares.prints_ratio (hc : Compares baseline current limit c) :
    Prints 3 c.ratio (c.ratio.fixed 3) := by
  have hnan := searchRatio_isNaN hc.baseline.isSeconds hc.current.isSeconds
  have hbelow := searchRatio_not_below hc.baseline.isSeconds hc.current.isSeconds
  rw [hc.ratio_eq]
  rcases Binary.finite_or_infinity hnan with hfinite | ⟨_ | _, hinfinite⟩
  · exact prints_fixed (by decide) hfinite
  · rw [hinfinite]
    exact prints_fixed_infinity 3
  · rw [hinfinite] at hbelow
    exact absurd hbelow (by decide)

theorem Compares.printed (hc : Compares baseline current limit c) (hlimit : limit.isFinite = true) :
    c.Printed limit (c.baseline.fixed 6) (c.current.fixed 6) (c.ratio.fixed 3) (limit.fixed 3) where
  line := rfl
  regression := rfl
  prints_baseline := prints_fixed (by decide) hc.baseline.isSeconds.finite
  prints_current := prints_fixed (by decide) hc.current.isSeconds.finite
  prints_ratio := hc.prints_ratio
  prints_limit := prints_fixed (by decide) hlimit
  agrees := by
    have hratio := hc.prints_ratio
    have hbound : Prints 3 limit (limit.fixed 3) := prints_fixed (by decide) hlimit
    cases hexceeded : c.exceeded with
    | true =>
      have hlt := hc.exceeded.1 hexceeded
      obtain ⟨l, r, hl, hr, hle⟩ := hbound.value_mono hratio (Binary.le_of_lt hlt)
      exact ⟨r, l, hr, hl, fun _ => hle, nofun⟩
    | false =>
      have hnan := Binary.isNaN_eq_false_of_isFinite hlimit
      obtain ⟨r, l, hr, hl, hle⟩ := hratio.value_mono hbound (hc.ratio_le hnan hexceeded)
      exact ⟨r, l, hr, hl, nofun, fun _ => hle⟩

/-! ## Reports -/

/-- Every finite number is printed as its nearest decimal, and so are those in the summary of a record
and in the report of a check, where what is read agrees with what was decided. -/
theorem report_numbers :
    (∀ places, 0 < places → ∀ x : Binary64, x.isFinite = true → Prints places x (x.fixed places)) ∧
    (∀ r : Record, ∀ m ∈ r.metrics, (.out, summaryLine m) ∈ r.summaryLines ∧
      ∃ build search, m.Printed build search) ∧
    ∀ baseline current engines limit v, checkRegression baseline current engines limit = .ok v →
      ∀ c ∈ v.comparisons, (.out, comparisonLine c) ∈ v.lines ∧
        (c.exceeded = true → (.err, regressionLine c v.limit) ∈ v.lines) ∧
        ∃ base now ratio bound, c.Printed v.limit base now ratio bound := by
  refine ⟨fun places hplaces x hx => prints_fixed hplaces hx, fun r m hm => ?_, ?_⟩
  · have hfit := checkParts_eq_ok_iff.1 r.fit
    exact ⟨List.mem_cons_of_mem _ (List.mem_map.2 ⟨m, hm, rfl⟩), _, _,
      Measurement.printed (hfit.build m hm) (hfit.search m hm)⟩
  · intro baseline current engines limit v hcheck c hc
    obtain ⟨hgood, -, hv⟩ := checkRegression_eq_ok_iff.1 hcheck
    refine ⟨v.comparison_mem hc, hv.regression_mem hc, ?_⟩
    rw [hv.limit]
    exact ⟨_, _, _, _, (hv.comparisons c hc).printed (isFinite_of_not_badLimit hgood)⟩

/-- The least time above one and a half is printed like the limit and regresses. -/
theorem report_numbers_equal :
    ∃ v c, checkRegression (timedRecord 0x3ff0000000000000 (by decide))
        (timedRecord 0x3ff8000000000001 (by decide)) ["flat"] defaultLimit = .ok v ∧
      c ∈ v.comparisons ∧ c.exceeded = true ∧
      comparisonLine c = "flat: baseline=1.000000s current=1.500000s ratio=1.500" ∧
      regressionLine c v.limit = "ERROR: flat search regression ratio 1.500 > 1.500" ∧
      ∃ base now ratio bound, c.Printed v.limit base now ratio bound := by
  let one : Binary64 := .ofBits .double 0x3ff0000000000000
  let more : Binary64 := .ofBits .double 0x3ff8000000000001
  have hcheck : checkRegression (timedRecord 0x3ff0000000000000 (by decide))
      (timedRecord 0x3ff8000000000001 (by decide)) ["flat"] defaultLimit =
      .ok ⟨[⟨"flat", one, more, more, true⟩], defaultLimit, false⟩ := by
    decide +kernel
  exact ⟨_, _, hcheck, List.mem_singleton_self _, rfl, by decide +kernel, by decide +kernel,
    (report_numbers.2.2 _ _ _ _ _ hcheck _ (List.mem_singleton_self _)).2.2⟩

end VectorBench
