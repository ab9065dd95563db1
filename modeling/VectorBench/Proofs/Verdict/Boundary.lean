import VectorBench.Proofs.Record.Seconds
import VectorBench.Proofs.Verdict.Outcome

/-!
# At the boundary of the limit

A check flags an engine by a quotient that was rounded, and yet it is right at the boundary.  Rounding
keeps the order and leaves every number as it is, so that a time of at most the limit times the
baseline is never flagged.  One that comes up to the next number above the limit is always flagged,
whether the quotient overflows or not, and against a baseline of zero every time is.

    c.value ≤ limit.value * b.value → limit.lt (searchRatio b c) = false      (lt_searchRatio_of_le)
    NextAbove limit q → q * b.value ≤ c.value → limit.lt (searchRatio b c) = true
                                                                              (lt_searchRatio_of_next)
-/

namespace VectorBench

open Binary (unitsOf NextAbove)

variable {b c limit : Binary64}

/-! ## Ratios -/

theorem searchRatio_of_zero (h : b.isZero = true) : searchRatio b c = .infinity false := by
  rw [searchRatio, Binary.not_isPositive_of_isZero h, if_neg Bool.false_ne_true]

/-- The ratio against a positive baseline has the sign of the current time, and is nearest to the
quotient of the values. -/
theorem searchRatio_of_positive (hb : IsSeconds b) (hc : IsSeconds c) (hpos : b.isPositive = true) :
    (searchRatio b c).negative = c.negative ∧
      Nearest .double .even (c.value / b.value * 2 ^ 1074) (searchRatio b c).magnitude := by
  have hratio : searchRatio b c = c / b := if_pos hpos
  rw [hratio]
  exact ⟨hb.div_negative hc hpos, hb.div_nearest hc hpos⟩

theorem searchRatio_isNaN (hb : IsSeconds b) (hc : IsSeconds c) : (searchRatio b c).isNaN = false := by
  cases hpos : b.isPositive with
  | false =>
    rw [searchRatio_of_zero (isZero_of_not_isPositive hb hpos)]
    exact Binary.infinity_isNaN false
  | true => exact Binary.isNaN_eq_false_iff.2 (searchRatio_of_positive hb hc hpos).2.le_infinity

/-- A negative zero is the only ratio that has a sign. -/
theorem searchRatio_not_below (hb : IsSeconds b) (hc : IsSeconds c) :
    0 ≤ (searchRatio b c).signedMagnitude := by
  cases hpos : b.isPositive with
  | false =>
    rw [searchRatio_of_zero (isZero_of_not_isPositive hb hpos)]
    decide
  | true =>
    have hratio : searchRatio b c = c / b := if_pos hpos
    rw [hratio]
    exact hb.div_not_below hc hpos

/-- What is at most the limit is not rounded to something above it. -/
theorem lt_searchRatio_of_le (hb : IsSeconds b) (hc : IsSeconds c) (hfinite : limit.isFinite = true)
    (hlimit : limit.isPositive = true) (hpos : b.isPositive = true)
    (h : c.value ≤ limit.value * b.value) : limit.lt (searchRatio b c) = false := by
  have hsign := ((Binary.isPositive_iff hfinite).1 hlimit).1
  have hmagnitude : limit.magnitude < Format.double.infinity := decide_eq_true_iff.1 hfinite
  have hquotient : c.value / b.value * 2 ^ 1074 ≤ unitsOf .double limit.magnitude := by
    have hle : c.value / b.value ≤ limit.value := (div_le_iff₀ (value_pos hb.finite hpos)).2 h
    rw [Binary.value_of_positive hsign, le_div_iff₀ (by positivity)] at hle
    exact hle
  have hround := (searchRatio_of_positive hb hc hpos).2.mono
    (nearest_unitsOf .even hmagnitude.le) hquotient
  rw [← Bool.not_eq_true, Binary.lt_iff_of_positive hfinite hlimit (searchRatio_isNaN hb hc)]
  exact fun hlt => Nat.lt_irrefl _ (Nat.lt_of_lt_of_le hlt.2 hround)

/-- What comes up to the next number is not rounded to the limit. -/
theorem lt_searchRatio_of_next (hb : IsSeconds b) (hc : IsSeconds c) (hfinite : limit.isFinite = true)
    (hlimit : limit.isPositive = true) (hpos : b.isPositive = true) {next : ℚ}
    (hnext : NextAbove limit next) (h : next * b.value ≤ c.value) :
    limit.lt (searchRatio b c) = true := by
  have hmagnitude : limit.magnitude < Format.double.infinity := decide_eq_true_iff.1 hfinite
  obtain ⟨hsign, hnearest⟩ := searchRatio_of_positive hb hc hpos
  rw [Binary.nextAbove_iff hfinite hlimit] at hnext
  have hquotient : (unitsOf .double (limit.magnitude + 1) : ℚ) ≤ c.value / b.value * 2 ^ 1074 := by
    have hle : next ≤ c.value / b.value := (le_div_iff₀ (value_pos hb.finite hpos)).2 h
    rwa [hnext, div_le_iff₀ (by positivity)] at hle
  have hround := (nearest_unitsOf .even hmagnitude).mono hnearest hquotient
  rw [Binary.lt_iff_of_positive hfinite hlimit (searchRatio_isNaN hb hc), hsign]
  refine ⟨?_, hround⟩
  -- a ratio that comes up to anything is not the negative zero
  by_contra hneg
  have hbelow : (searchRatio b c).signedMagnitude < 0 := by
    rw [Binary.signedMagnitude, hsign, Bool.eq_true_of_not_eq_false hneg, if_pos rfl]
    omega
  exact Int.not_lt.2 (searchRatio_not_below hb hc) hbelow

theorem lt_searchRatio_of_zero (hfinite : limit.isFinite = true) (hlimit : limit.isPositive = true)
    (h : b.isZero = true) : limit.lt (searchRatio b c) = true := by
  rw [searchRatio_of_zero h,
    Binary.lt_iff_of_positive hfinite hlimit (Binary.infinity_isNaN false)]
  exact ⟨rfl, decide_eq_true_iff.1 hfinite⟩

/-! ## Verdicts -/

def Verdict.Flags (v : Verdict) (engine : String) : Prop := ∃ x ∈ v.regressions, x.engine = engine

/-- An engine that was asked for is flagged exactly when its ratio is above the limit. -/
theorem Judges.flags_iff {baseline current : Record} {engines : List String} {v : Verdict}
    {engine : String} (hv : Judges baseline current engines limit v)
    (hb : baseline.SearchTime engine b) (hc : current.SearchTime engine c)
    (hengine : engine ∈ engines) : v.Flags engine ↔ limit.lt (searchRatio b c) = true := by
  have hexceeded : ∀ x ∈ v.comparisons, x.engine = engine →
      (x.exceeded = true ↔ limit.lt (searchRatio b c) = true) := by
    intro x hx hname
    have h := hv.comparisons x hx
    have hbase : x.baseline = b := (hname ▸ h.baseline).unique hb
    have hcurr : x.current = c := (hname ▸ h.current).unique hc
    rw [h.exceeded, h.ratio_eq, hbase, hcurr]
  constructor
  · rintro ⟨x, hx, hname⟩
    obtain ⟨hmem, hflag⟩ := (hv.regressions.2 x).1 hx
    exact (hexceeded x hmem hname).1 hflag
  · intro h
    obtain ⟨x, hx, hname⟩ := List.mem_map.1 ((hv.engines.mem_iff engine).2 hengine)
    exact ⟨x, (hv.regressions.2 x).2 ⟨hx, (hexceeded x hx hname).2 h⟩, hname⟩

/-- The ratio of two times is a number that is not below zero.  An engine is not flagged when its
current time is at most the limit times its baseline time, exactly; it is flagged when it comes up
to the next number above the limit, and whenever its baseline is zero. -/
theorem checkRegression_boundary (hb : IsSeconds b) (hc : IsSeconds c)
    (hfinite : limit.isFinite = true) (hlimit : limit.isPositive = true) :
    ((searchRatio b c).isNaN = false ∧ (searchRatio b c).lt (.zero false) = false) ∧
    ∀ (baseline current : Record) (engines : List String) (engine : String),
      baseline.SearchTime engine b → current.SearchTime engine c → engine ∈ engines →
      (∀ e ∈ engines, InBoth baseline current e) →
      ∃ v, checkRegression baseline current engines limit = .ok v ∧
        (b.isPositive = true → c.value ≤ limit.value * b.value → ¬ v.Flags engine) ∧
        (b.isPositive = true → ∀ next, NextAbove limit next → next * b.value ≤ c.value →
          v.Flags engine) ∧
        (b.isZero = true → v.Flags engine) := by
  refine ⟨⟨searchRatio_isNaN hb hc, ?_⟩, ?_⟩
  · rw [← Bool.not_eq_true, Binary.lt_eq_true_iff]
    exact fun hlt => Int.not_lt.2 (searchRatio_not_below hb hc) hlt.2.2
  · intro baseline current engines engine hbase hcurr hengine hall
    have hgood := not_badLimit hfinite hlimit
    rcases checkRegression_cases baseline current engines limit with
      ⟨hbad, -⟩ | ⟨-, e, side, hfirst, -⟩ | ⟨-, -, v, hv, hcheck⟩
    · exact absurd hbad hgood
    · exact absurd hall hfirst.not_inBoth
    · have hflags := hv.flags_iff hbase hcurr hengine
      refine ⟨v, hcheck, fun hpos hle => ?_, fun hpos next hnext hle => ?_, fun hzero => ?_⟩
      · rw [hflags, lt_searchRatio_of_le hb hc hfinite hlimit hpos hle]
        exact Bool.false_ne_true
      · exact hflags.2 (lt_searchRatio_of_next hb hc hfinite hlimit hpos hnext hle)
      · exact hflags.2 (lt_searchRatio_of_zero hfinite hlimit hzero)

/-- A record of one engine, which took as many seconds to search as the given bits say. -/
def timedRecord (bits : Nat)
    (fit : checkParts ⟨1, 1, 1, 1, 0⟩ [⟨"flat", .zero false, .ofBits .double bits⟩] = .ok ()) : Record :=
  ⟨⟨1, 1, 1, 1, 0⟩, [⟨"flat", .zero false, .ofBits .double bits⟩], fit⟩

/-- The value of a positive number of which the significand and the exponent are known. -/
theorem value_ofBits {bits m e : Nat} (hsign : (Binary.ofBits .double bits).negative = false)
    (hm : Binary.significandOf .double (Binary.ofBits .double bits).magnitude = m)
    (he : Binary.exponentOf .double (Binary.ofBits .double bits).magnitude = e) :
    (Binary.ofBits .double bits).value = m * 2 ^ e / 2 ^ 1074 := by
  rw [Binary.value_of_positive hsign, Binary.units, Binary.unitsOf_eq, hm, he, Nat.cast_mul,
    Nat.cast_pow, Nat.cast_ofNat]
  rfl

/-- The largest limit times the least time is a number, which passes.  The next number is flagged:
its quotient overflows. -/
theorem checkRegression_boundary_overflow :
    (∃ v, checkRegression (timedRecord 1 (by decide)) (timedRecord 0x3ccfffffffffffff (by decide))
      ["flat"] (.ofBits .double 0x7fefffffffffffff) = .ok v ∧ ¬ v.Flags "flat") ∧
    ∃ v, checkRegression (timedRecord 1 (by decide)) (timedRecord 0x3cd0000000000000 (by decide))
      ["flat"] (.ofBits .double 0x7fefffffffffffff) = .ok v ∧ v.Flags "flat" := by
  have hfinite : (Binary.ofBits .double 0x7fefffffffffffff).isFinite = true := by decide
  have hlimit : (Binary.ofBits .double 0x7fefffffffffffff).isPositive = true := by decide
  have hleast : (Binary.ofBits .double 1).value = 1 * 2 ^ 0 / 2 ^ 1074 :=
    value_ofBits (by decide) (by decide) (by decide)
  have hlargest : (Binary.ofBits .double 0x7fefffffffffffff).value =
      (2 ^ 53 - 1 : Nat) * 2 ^ 2045 / 2 ^ 1074 :=
    value_ofBits (by decide) (by decide) (by decide)
  have hat : (Binary.ofBits .double 0x3ccfffffffffffff).value =
      (2 ^ 53 - 1 : Nat) * 2 ^ 971 / 2 ^ 1074 :=
    value_ofBits (by decide) (by decide) (by decide)
  have habove : (Binary.ofBits .double 0x3cd0000000000000).value =
      (2 ^ 52 : Nat) * 2 ^ 972 / 2 ^ 1074 :=
    value_ofBits (by decide) (by decide) (by decide)
  have hboth : ∀ current : Record, current.engineNames = ["flat"] →
      ∀ e ∈ ["flat"], InBoth (timedRecord 1 (by decide)) current e := by
    intro current hnames e he
    exact ⟨he, hnames ▸ he⟩
  constructor
  · obtain ⟨v, hv, hpasses, -⟩ := (checkRegression_boundary (b := .ofBits .double 1)
      (c := .ofBits .double 0x3ccfffffffffffff)
      ⟨by decide, by decide⟩ ⟨by decide, by decide⟩ hfinite hlimit).2
      (timedRecord 1 (by decide)) (timedRecord 0x3ccfffffffffffff (by decide)) ["flat"] "flat"
      ⟨_, List.mem_singleton_self _, rfl, rfl⟩ ⟨_, List.mem_singleton_self _, rfl, rfl⟩
      (List.mem_singleton_self _) (hboth _ rfl)
    refine ⟨v, hv, hpasses (by decide) (le_of_eq ?_)⟩
    have hpow : (2 : ℚ) ^ 2045 = 2 ^ 971 * 2 ^ 1074 := pow_add 2 971 1074
    rw [hat, hlargest, hleast, hpow]
    field_simp
  · obtain ⟨v, hv, -, hflagged, -⟩ := (checkRegression_boundary (b := .ofBits .double 1)
      (c := .ofBits .double 0x3cd0000000000000)
      ⟨by decide, by decide⟩ ⟨by decide, by decide⟩ hfinite hlimit).2
      (timedRecord 1 (by decide)) (timedRecord 0x3cd0000000000000 (by decide)) ["flat"] "flat"
      ⟨_, List.mem_singleton_self _, rfl, rfl⟩ ⟨_, List.mem_singleton_self _, rfl, rfl⟩
      (List.mem_singleton_self _) (hboth _ rfl)
    have hnext : NextAbove (.ofBits .double 0x7fefffffffffffff) (2 ^ 1024) :=
      (Binary.nextAbove_iff hfinite hlimit).2 Binary.value_infinity.symm
    refine ⟨v, hv, hflagged (by decide) _ hnext (le_of_eq ?_)⟩
    have hpow : (2 : ℚ) ^ 1024 = (2 ^ 52 : Nat) * 2 ^ 972 := by
      rw [Nat.cast_pow, Nat.cast_ofNat]
      exact pow_add 2 52 972
    rw [habove, hleast, hpow, pow_zero, mul_one, mul_one_div]

end VectorBench
