import Mathlib.Data.Rat.Floor
import VectorBench.Proofs.Binary.Sum

/-!
# Exact values

The rational number that a finite number is.  The numeric order is that of the values, a quotient is
the number nearest to the quotient of the values, and of all numbers above a positive one the least
has the value of the next magnitude.  Behind the largest number stands the power of two that comes
next, which is also the place of infinity in rounding.

    Nearest f .even (|x.value / y.value| * 2 ^ f.unitBits) (x / y).magnitude        (div_nearest)
    NextAbove x q ↔ q = unitsOf .double (x.magnitude + 1) / 2 ^ 1074                (nextAbove_iff)
-/

namespace VectorBench.Binary

variable {f : Format} {x y : Binary f}

def value (x : Binary f) : ℚ := x.signedUnits / 2 ^ f.unitBits

theorem value_eq_zero_iff : x.value = 0 ↔ x.units = 0 := by
  have hunit : (2 : ℚ) ^ f.unitBits ≠ 0 := by positivity
  rw [value, div_eq_zero_iff, or_iff_left hunit, Int.cast_eq_zero, signedUnits]
  split <;> omega

theorem zero_value (negative : Bool) : (zero negative : Binary f).value = 0 :=
  value_eq_zero_iff.2 (unitsOf_zero f)

theorem value_of_positive (h : x.negative = false) : x.value = x.units / 2 ^ f.unitBits := by
  rw [value, signedUnits, h, if_neg Bool.false_ne_true, Int.cast_natCast]

theorem negative_eq_false_of_pos (h : 0 < x.value) : x.negative = false := by
  by_contra hsign
  have hnegative : x.negative = true := by simpa using hsign
  have hvalue : x.value ≤ 0 := by
    rw [value, signedUnits, if_pos hnegative]
    push_cast
    exact div_nonpos_of_nonpos_of_nonneg (neg_nonpos.2 (Nat.cast_nonneg _)) (by positivity)
  linarith

theorem isZero_eq_false_of_pos (h : 0 < x.value) : x.isZero = false := by
  rw [isZero, beq_eq_false_iff_ne]
  intro hmagnitude
  have hunits : x.units = 0 := by rw [units, hmagnitude, unitsOf_zero]
  rw [value_eq_zero_iff.2 hunits] at h
  exact lt_irrefl _ h

/-- The numeric order is that of the values. -/
theorem value_mono (h : x.le y = true) : x.value ≤ y.value := by
  have hunits : (x.signedUnits : ℚ) ≤ y.signedUnits := by
    exact_mod_cast signedUnits_le (le_eq_true_iff.1 h).2.2
  exact div_le_div_of_nonneg_right hunits (by positivity)

theorem value_nonneg_of_signedMagnitude (h : 0 ≤ x.signedMagnitude) : 0 ≤ x.value := by
  have hunits : (0 : ℤ) ≤ x.signedUnits := by
    have hzero : (zero false : Binary f).signedUnits = 0 := by
      cases f <;> rfl
    rw [← hzero]
    exact signedUnits_le h
  exact div_nonneg (by exact_mod_cast hunits) (by positivity)

theorem value_strictMono (h : x.lt y = true) : x.value < y.value := by
  have hunits : (x.signedUnits : ℚ) < y.signedUnits := by
    exact_mod_cast signedUnits_lt (lt_eq_true_iff.1 h).2.2
  exact div_lt_div_of_pos_right hunits (by positivity)

theorem value_le_of_not_lt (hx : x.isNaN = false) (hy : y.isNaN = false) (h : ¬ x.lt y = true) :
    y.value ≤ x.value := by
  rw [lt_eq_true_iff, not_and, not_and] at h
  exact value_mono (le_eq_true_iff.2 ⟨hy, hx, Int.not_lt.1 (h hx hy)⟩)

theorem le_iff_value_le (hx : x.isNaN = false) (hy : y.isNaN = false) :
    x.le y = true ↔ x.value ≤ y.value := by
  constructor
  · exact value_mono
  · intro h
    by_contra hle
    have hlt : y.lt x = true := by
      rw [le_eq_true_iff, not_and, not_and] at hle
      exact lt_eq_true_iff.2 ⟨hy, hx, Int.not_le.1 (hle hx hy)⟩
    exact absurd (value_strictMono hlt) (not_lt.2 h)

/-- Of two numbers without a sign the one with the larger magnitude has the larger value. -/
theorem value_le_of_magnitude_le (hx : x.negative = false) (hy : y.negative = false)
    (h : x.magnitude ≤ y.magnitude) : x.value ≤ y.value := by
  have hunits : (x.units : ℚ) ≤ y.units := by
    exact_mod_cast (unitsOf_strictMono f).monotone h
  rw [value_of_positive hx, value_of_positive hy]
  exact div_le_div_of_nonneg_right hunits (by positivity)

theorem abs_value (x : Binary f) : |x.value| = x.units / 2 ^ f.unitBits := by
  have hunit : (0 : ℚ) < 2 ^ f.unitBits := by positivity
  have habs : |(x.signedUnits : ℚ)| = x.units := by
    rw [signedUnits]
    split <;> simp
  rw [value, abs_div, habs, abs_of_pos hunit]

/-- Rounding keeps the order of absolute values. -/
theorem abs_value_mono {tie : Tie} {q r : ℚ} (hx : Nearest f tie q x.magnitude)
    (hy : Nearest f tie r y.magnitude) (h : q ≤ r) : |x.value| ≤ |y.value| := by
  have hunits : (x.units : ℚ) ≤ y.units := by
    exact_mod_cast (unitsOf_strictMono f).monotone (hx.mono hy h)
  rw [abs_value, abs_value]
  exact div_le_div_of_nonneg_right hunits (by positivity)

/-- A value of at most one is not rounded beyond one. -/
theorem abs_value_le_one {tie : Tie} {v : ℚ}
    (h : Nearest f tie (v * 2 ^ f.unitBits) x.magnitude) (hv : v ≤ 1) :
    x.isFinite = true ∧ |x.value| ≤ 1 := by
  have hunit : (0 : ℚ) < 2 ^ f.unitBits := by positivity
  have hle : v * 2 ^ f.unitBits ≤ 2 ^ f.unitBits := mul_le_of_le_one_left hunit.le hv
  obtain ⟨hfinite, hunits⟩ := h.le_pow hle (by cases f <;> decide)
  refine ⟨decide_eq_true hfinite, ?_⟩
  rw [abs_value, div_le_one hunit]
  exact_mod_cast hunits

/-! ## Quotients -/

theorem units_eq (x : Binary f) : x.units = x.significand * 2 ^ x.exponent :=
  unitsOf_eq f x.magnitude

/-- The value of a number of which significand and exponent are known, as a fraction of its own. -/
theorem value_of_parts {s e : Nat} (hsign : x.negative = false) (hs : x.significand = s)
    (he : x.exponent = e) (hsmall : e ≤ f.unitBits) : x.value = s / 2 ^ (f.unitBits - e) := by
  have hpow : (2 : ℚ) ^ f.unitBits = 2 ^ (f.unitBits - e) * 2 ^ e := by
    rw [← pow_add, Nat.sub_add_cancel hsmall]
  rw [value_of_positive hsign, units_eq, hs, he, hpow, Nat.cast_mul, Nat.cast_pow, Nat.cast_ofNat,
    mul_div_mul_right _ _ (by positivity)]

theorem units_ne_zero (h : x.isZero = false) : x.units ≠ 0 := by
  have hmagnitude : 0 < x.magnitude := Nat.pos_of_ne_zero (beq_eq_false_iff_ne.1 h)
  have hlt := unitsOf_strictMono f hmagnitude
  rw [unitsOf_zero] at hlt
  exact Nat.ne_of_gt hlt

/-- The two operands are scaled by powers of two that make up for each other. -/
theorem scaled_quotient (x y : Binary f) :
    x.significand * 2 ^ (x.exponent + f.unitBits - y.exponent) * y.units =
      x.units * 2 ^ f.unitBits *
        (y.significand * 2 ^ (y.exponent - (x.exponent + f.unitBits))) := by
  have hpow : 2 ^ (x.exponent + f.unitBits - y.exponent) * 2 ^ y.exponent =
      2 ^ x.exponent * 2 ^ f.unitBits * 2 ^ (y.exponent - (x.exponent + f.unitBits)) := by
    rw [← Nat.pow_add, ← Nat.pow_add, ← Nat.pow_add]
    congr 1
    omega
  calc x.significand * 2 ^ (x.exponent + f.unitBits - y.exponent) * y.units
      = x.significand * y.significand *
          (2 ^ (x.exponent + f.unitBits - y.exponent) * 2 ^ y.exponent) := by
        rw [units_eq y]
        ring
    _ = x.units * 2 ^ f.unitBits *
          (y.significand * 2 ^ (y.exponent - (x.exponent + f.unitBits))) := by
        rw [hpow, units_eq x]
        ring

/-- The quotient of finite numbers, the divisor not being zero, is the number nearest to the quotient
of their values. -/
theorem div_nearest (hx : x.isFinite = true) (hy : y.isFinite = true) (hzero : y.isZero = false) :
    Nearest f .even (|x.value / y.value| * 2 ^ f.unitBits) (x / y).magnitude := by
  have hunits := units_ne_zero hzero
  have hd : 0 < y.significand * 2 ^ (y.exponent - (x.exponent + f.unitBits)) := by
    refine Nat.mul_pos (Nat.pos_of_ne_zero fun h0 => hunits ?_) (Nat.two_pow_pos _)
    rw [units_eq, h0, Nat.zero_mul]
  have hnearest := f.magnitudeOfRatio_nearest
    (n := x.significand * 2 ^ (x.exponent + f.unitBits - y.exponent)) hd
  have hvalue : ((x.significand * 2 ^ (x.exponent + f.unitBits - y.exponent) : Nat) : ℚ) /
      (y.significand * 2 ^ (y.exponent - (x.exponent + f.unitBits)) : Nat) =
      |x.value / y.value| * 2 ^ f.unitBits := by
    have hdq : ((y.significand * 2 ^ (y.exponent - (x.exponent + f.unitBits)) : Nat) : ℚ) ≠ 0 := by
      exact_mod_cast hd.ne'
    have hyq : (y.units : ℚ) ≠ 0 := by exact_mod_cast hunits
    have hunit : (2 : ℚ) ^ f.unitBits ≠ 0 := by positivity
    rw [abs_div, abs_value, abs_value, div_div_div_cancel_right₀ hunit, div_mul_eq_mul_div,
      div_eq_div_iff hdq hyq]
    exact_mod_cast scaled_quotient x y
  rw [hvalue] at hnearest
  rw [div_eq_divFinite hx hy hzero, divFinite, ofRatio, ofMagnitude]
  simp only [twoPower_eq_pow]
  rwa [Nat.min_eq_left hnearest.le_infinity]

theorem div_negative (hx : x.isFinite = true) (hy : y.isFinite = true) (hzero : y.isZero = false) :
    (x / y).negative = (x.negative != y.negative) := by
  rw [div_eq_divFinite hx hy hzero]
  rfl

/-! ## Integer parts -/

/-- The quotient that is rounded is the absolute value. -/
theorem ratio_eq_abs_value (x : Binary f) : (x.ratio.1 : ℚ) / x.ratio.2 = |x.value| := by
  have hpow : 2 ^ (x.exponent - f.unitBits) * 2 ^ f.unitBits =
      2 ^ x.exponent * 2 ^ (f.unitBits - x.exponent) := by
    rw [← Nat.pow_add, ← Nat.pow_add]
    congr 1
    omega
  have hpowq : (2 : ℚ) ^ (x.exponent - f.unitBits) * 2 ^ f.unitBits =
      2 ^ x.exponent * 2 ^ (f.unitBits - x.exponent) := by exact_mod_cast hpow
  rw [abs_value, ratio, units_eq, div_eq_div_iff (by simp [twoPower_eq_pow]) (by positivity)]
  simp only [twoPower_eq_pow, Nat.cast_mul, Nat.cast_pow, Nat.cast_ofNat]
  rw [mul_assoc, hpowq, mul_assoc]

theorem ratio_snd_pos (x : Binary f) : 0 < x.ratio.2 := by
  show 0 < twoPower _
  rw [twoPower_eq_pow]
  exact Nat.two_pow_pos _

/-- A number from zero up to a whole number is not rounded to one beyond these. -/
theorem roundInt_mem {m : Nat} (hsign : x.negative = false)
    (hm : x.value ≤ m) : 0 ≤ x.roundInt ∧ x.roundInt ≤ m := by
  have hpos := x.ratio_snd_pos
  have hratio := x.ratio_eq_abs_value
  rw [abs_value, ← value_of_positive hsign] at hratio
  rw [← hratio, div_le_iff₀ (by exact_mod_cast hpos)] at hm
  have hle : x.ratio.1 ≤ m * x.ratio.2 := by exact_mod_cast hm
  have hround : x.roundInt = ((2 * x.ratio.1 + x.ratio.2) / (2 * x.ratio.2) : Nat) := by
    rw [roundInt, hsign]
    rfl
  rw [hround]
  refine ⟨Int.natCast_nonneg _, Int.ofNat_le.2 (Nat.lt_succ_iff.1 ?_)⟩
  have hbound : (m + 1) * (2 * x.ratio.2) = 2 * (m * x.ratio.2) + 2 * x.ratio.2 := by ring
  rw [Nat.div_lt_iff_lt_mul (by omega), hbound]
  omega

theorem neg_value (x : Binary f) : x.neg.value = -x.value := by
  rw [value, value, signedUnits_neg, Int.cast_neg, neg_div]

/-- Rounding down is the floor of the value. -/
theorem floorInt_eq (x : Binary f) : x.floorInt = ⌊x.value⌋ := by
  have hpos := x.ratio_snd_pos
  have hposq : (0 : ℚ) < x.ratio.2 := by exact_mod_cast hpos
  have hratio := x.ratio_eq_abs_value
  cases hsign : x.negative with
  | false =>
    have hfloor : x.floorInt = (x.ratio.1 / x.ratio.2 : Nat) := by
      rw [floorInt, hsign]
      rfl
    rw [abs_value, ← value_of_positive hsign] at hratio
    rw [hfloor, ← hratio, Int.natCast_ediv]
    exact (Rat.floor_intCast_div_natCast x.ratio.1 x.ratio.2).symm
  | true =>
    have hfloor : x.floorInt = -((x.ratio.1 + (x.ratio.2 - 1)) / x.ratio.2 : Nat) := by
      rw [floorInt, hsign]
      rfl
    have hneg : x.neg.negative = false := by rw [neg, hsign, Bool.not_true]
    have hvalue : x.value = -(x.ratio.1 / x.ratio.2 : ℚ) := by
      rw [hratio, ← neg_neg x.value, ← neg_value, value_of_positive hneg, abs_neg, abs_of_nonneg (by positivity)]
    -- the quotient rounded up is the least number that is not below it
    have hlow := Nat.div_mul_le_self (x.ratio.1 + (x.ratio.2 - 1)) x.ratio.2
    have hhigh := Nat.lt_div_mul_add (a := x.ratio.1 + (x.ratio.2 - 1)) hpos
    generalize (x.ratio.1 + (x.ratio.2 - 1)) / x.ratio.2 = up at *
    have hlow' : (up * x.ratio.2 : ℚ) < x.ratio.1 + x.ratio.2 := by
      exact_mod_cast (by omega : up * x.ratio.2 < x.ratio.1 + x.ratio.2)
    have hhigh' : (x.ratio.1 : ℚ) ≤ up * x.ratio.2 := by
      exact_mod_cast (by omega : x.ratio.1 ≤ up * x.ratio.2)
    rw [hfloor, eq_comm, Int.floor_eq_iff, hvalue]
    push_cast
    constructor
    · rw [neg_le_neg_iff, div_le_iff₀ hposq]
      exact hhigh'
    · rw [neg_lt, neg_add, neg_neg, ← sub_eq_add_neg, lt_div_iff₀ hposq]
      linarith

theorem ceilInt_eq (x : Binary f) : x.ceilInt = ⌈x.value⌉ := by
  rw [ceilInt, floorInt_eq, neg_value, Int.floor_neg, neg_neg]

/-- Rounding up keeps the order of ranks. -/
theorem ceilInt_mono (h : x.rank ≤ y.rank) : x.ceilInt ≤ y.ceilInt := by
  have hunits : (x.signedUnits : ℚ) ≤ y.signedUnits := by
    exact_mod_cast signedUnits_le (signedMagnitude_le_of_rank_le h)
  rw [ceilInt_eq, ceilInt_eq]
  exact Int.ceil_mono (div_le_div_of_nonneg_right hunits (by positivity))

/-! ## The next number -/

/-- What comes next above a number: the value of the least larger number or, if there is none, the
power of two behind all finite numbers. -/
inductive NextAbove (x : Binary64) : ℚ → Prop
  | number {y : Binary64} : y.isFinite = true → x.lt y = true →
    (∀ z : Binary64, z.isFinite = true → x.lt z = true → y.le z = true) → NextAbove x y.value
  | power : (∀ z : Binary64, z.isFinite = true → x.lt z = false) → NextAbove x (2 ^ 1024)

/-- A finite number above zero has no sign, and its magnitude is not that of zero. -/
theorem isPositive_iff (hx : x.isFinite = true) :
    x.isPositive = true ↔ x.negative = false ∧ 0 < x.magnitude := by
  have hnan := isNaN_eq_false_of_isFinite hx
  have hzero : (zero false : Binary f).isNaN = false := isNaN_eq_false_iff.2 (Nat.zero_le _)
  have hsigned : (zero false : Binary f).signedMagnitude = 0 := rfl
  rw [isPositive, lt_eq_true_iff, hsigned, signedMagnitude]
  cases x.negative with
  | true =>
    simp only [if_true, Bool.true_eq_false, false_and, iff_false]
    omega
  | false => simp [hnan, hzero]

/-- A number is above a positive one when its magnitude is larger and it has no sign. -/
theorem lt_iff_of_positive (hx : x.isFinite = true) (hpos : x.isPositive = true)
    (hy : y.isNaN = false) :
    x.lt y = true ↔ y.negative = false ∧ x.magnitude < y.magnitude := by
  obtain ⟨hsign, hmagnitude⟩ := (isPositive_iff hx).1 hpos
  have hnan := isNaN_eq_false_of_isFinite hx
  rw [lt_eq_true_iff, signedMagnitude, signedMagnitude, hsign]
  cases hs : y.negative with
  | true =>
    simp only [if_true, Bool.false_eq_true, if_false, hnan, hy, true_and, Bool.true_eq_false,
      false_and, iff_false, not_lt]
    omega
  | false => simp [hnan, hy]

theorem value_infinity : (unitsOf .double Format.double.infinity : ℚ) / 2 ^ 1074 = 2 ^ 1024 := by
  have hs : significandOf .double Format.double.infinity = 2 ^ 52 := by decide
  have he : exponentOf .double Format.double.infinity = 2046 := by decide
  have hpow : ∀ a b c d : Nat, a + b = c + d → (2 : ℚ) ^ a * 2 ^ b = 2 ^ c * 2 ^ d := by
    intro a b c d h
    rw [← pow_add, ← pow_add, h]
  rw [div_eq_iff (by positivity), unitsOf_eq, hs, he, Nat.cast_mul, Nat.cast_pow, Nat.cast_pow]
  exact hpow 52 2046 1024 1074 rfl

def successor (x : Binary64) (h : x.magnitude + 1 < Format.double.infinity) : Binary64 :=
  ⟨false, x.magnitude + 1, Nat.lt_trans h (by decide)⟩

theorem successor_isFinite {x : Binary64} (h : x.magnitude + 1 < Format.double.infinity) :
    (x.successor h).isFinite = true := decide_eq_true h

theorem lt_successor {x : Binary64} (hx : x.isFinite = true) (hpos : x.isPositive = true)
    (h : x.magnitude + 1 < Format.double.infinity) : x.lt (x.successor h) = true :=
  (lt_iff_of_positive hx hpos (isNaN_eq_false_of_isFinite (successor_isFinite h))).2
    ⟨rfl, Nat.lt_succ_self _⟩

/-- The next value above a positive number is that of the next magnitude. -/
theorem nextAbove_iff {x : Binary64} (hx : x.isFinite = true) (hpos : x.isPositive = true) {q : ℚ} :
    NextAbove x q ↔ q = unitsOf .double (x.magnitude + 1) / 2 ^ 1074 := by
  have hlt : x.magnitude < Format.double.infinity := decide_eq_true_iff.1 hx
  constructor
  · intro h
    cases h with
    | @number y hy hxy hleast =>
      have hynan := isNaN_eq_false_of_isFinite hy
      obtain ⟨hsign, hmagnitude⟩ := (lt_iff_of_positive hx hpos hynan).1 hxy
      have hylt : y.magnitude < Format.double.infinity := decide_eq_true_iff.1 hy
      have hnext : x.magnitude + 1 < Format.double.infinity := by omega
      have hle := hleast _ (successor_isFinite hnext) (lt_successor hx hpos hnext)
      have hmagnitude' : y.magnitude = x.magnitude + 1 := by
        have hle := (le_eq_true_iff.1 hle).2.2
        simp only [signedMagnitude, hsign, successor, Bool.false_eq_true, if_false] at hle
        omega
      rw [value_of_positive hsign, units, hmagnitude']
      rfl
    | power hnone =>
      have hlast : x.magnitude + 1 = Format.double.infinity := by
        by_contra hne
        have hnext : x.magnitude + 1 < Format.double.infinity := by omega
        have hnot := hnone _ (successor_isFinite hnext)
        rw [lt_successor hx hpos hnext] at hnot
        cases hnot
      rw [hlast, value_infinity]
  · rintro rfl
    rcases Nat.lt_or_ge (x.magnitude + 1) Format.double.infinity with hnext | hlast
    · refine NextAbove.number (y := x.successor hnext) (successor_isFinite hnext)
        (lt_successor hx hpos hnext) fun z hz hxz => ?_
      have hznan := isNaN_eq_false_of_isFinite hz
      obtain ⟨hsign, hmagnitude⟩ := (lt_iff_of_positive hx hpos hznan).1 hxz
      refine le_eq_true_iff.2 ⟨isNaN_eq_false_of_isFinite (successor_isFinite hnext), hznan, ?_⟩
      simp only [signedMagnitude, hsign, successor, Bool.false_eq_true, if_false]
      omega
    · have heq : x.magnitude + 1 = Format.double.infinity := by omega
      rw [heq, value_infinity]
      refine NextAbove.power fun z hz => Bool.eq_false_iff.2 fun hxz => ?_
      have hmagnitude := ((lt_iff_of_positive hx hpos (isNaN_eq_false_of_isFinite hz)).1 hxz).2
      have hzlt : z.magnitude < Format.double.infinity := decide_eq_true_iff.1 hz
      omega

end VectorBench.Binary
