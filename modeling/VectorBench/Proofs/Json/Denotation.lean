import VectorBench.Proofs.Decimal.Digits
import VectorBench.Proofs.Decimal.ReadBack
import VectorBench.Proofs.Json.Numbers

/-!
# What numbers denote

A number that is written in a document is read as the 64-bit number nearest to its exact value.  The
reader looks at no more than `Numeral.maxDigits` digits one by one.  Of a longer number it knows
only that there is more, and this is enough: no two neighbouring 64-bit numbers have a midpoint with
so many digits.  Only when the number is itself such a midpoint, followed by zeros, does the reader
take for more what is nothing, and go to the larger neighbour where the even one is due.  Exponents
of more than 32 bits are not looked at: a large one is refused, and a small one makes a zero.

    n.ReadAs x → ¬ n.exponentTooSmall → n.RoundsTo n.tie x ∧ ¬ n.exponentTooLarge
    n.binary? = some x ↔ n.ReadAs x                                         (binary?_eq_some_iff)
-/

namespace VectorBench.Json

open Binary (unitsOf exponentOf significandOf)

def Number.binary : Number → Binary64
  | .natural value => .ofNat .double value
  | .negative value => (Binary.ofNat .double value).neg
  | .float value => value

namespace NumberLiteral

/-- The digits from the first that is not zero to the last of the whole part or, where the fraction
has one that is not zero, to the last such digit of the fraction. -/
def significantDigits (n : NumberLiteral) : List Char :=
  (n.whole.chars ++ (n.fractionChars.reverse.dropWhile (· == '0')).reverse).dropWhile (· == '0')

/-- Where the midpoint of two 64-bit numbers goes: to the even one of them, but to the larger one
when it is written with more digits than are looked at one by one. -/
def tie (n : NumberLiteral) : Tie :=
  if Numeral.maxDigits < n.significantDigits.length then .away else .even

/-- `x` is finite, has the sign of the number and is nearest to it, with ties as `tie` says. -/
structure RoundsTo (n : NumberLiteral) (tie : Tie) (x : Binary64) : Prop where
  sign : x.negative = n.negative
  nearest : Nearest .double tie (n.decimal.value * 2 ^ Format.double.unitBits) x.magnitude
  finite : x.isFinite = true

/-- An exponent that is refused whatever stands before it, unless these are zeros only. -/
def exponentTooLarge (n : NumberLiteral) : Prop :=
  2147483647 < n.exponentValue ∧ n.decimal.coefficient ≠ 0

/-- An exponent for which zero is read whatever stands before it. -/
def exponentTooSmall (n : NumberLiteral) : Prop := n.exponentValue < -2147483647

/-- The literal is read as `x`. -/
structure ReadAs (n : NumberLiteral) (x : Binary64) : Prop where
  inRange : ¬ n.exponentTooLarge
  zero : n.exponentTooSmall → x = .zero n.negative
  rounds : ¬ n.exponentTooSmall → n.RoundsTo n.tie x

/-- The 64-bit number that the literal is read as, if it is in range. -/
def binary? (n : NumberLiteral) : Option Binary64 := n.number?.map Number.binary

/-! ## The parts of the value -/

theorem chars_isDigit (n : NumberLiteral) :
    ∀ c ∈ n.whole.chars ++ n.fractionChars, c.isDigit = true := by
  intro c hc
  rcases List.mem_append.1 hc with h | h
  · exact n.whole.all_digits c h
  · unfold fractionChars at h
    split at h
    · cases h
    · rename_i digits _
      exact digits.all_digits c h

theorem numeral_fraction_getD (n : NumberLiteral) :
    n.numeral.fraction.getD [] = n.fractionChars := by
  unfold numeral fractionChars
  cases n.fraction <;> rfl

theorem numeral_exponentValue (n : NumberLiteral) :
    n.numeral.exponentValue = n.exponentValue := by
  unfold numeral exponentValue Numeral.exponentValue ExponentPart.value Digits.value
  cases n.exponent with
  | none => rfl
  | some e => simp

theorem numeral_decimals (n : NumberLiteral) :
    n.numeral.decimals = (n.fractionChars.reverse.dropWhile (· == '0')).reverse := by
  unfold Numeral.decimals
  rw [numeral_fraction_getD]

/-- Zeros at the end of the fraction do not change the value. -/
theorem value_decimals (n : NumberLiteral) :
    (Decimal.ofDigits n.whole.chars n.numeral.decimals n.exponentValue).value = n.decimal.value := by
  obtain ⟨k, hk⟩ := exists_trailing_zeros n.fractionChars
  rw [← numeral_decimals] at hk
  unfold decimal
  rw [Decimal.value_ofDigits, Decimal.value_ofDigits, hk, ← List.append_assoc,
    ofDigitChars_append_eq _ (List.replicate k '0'), Nat.ofDigitChars_replicate_zero]
  simp only [List.length_append, List.length_replicate, Nat.mul_zero, Nat.add_zero]
  push_cast
  rw [← sub_sub, zpow_sub₀ (by norm_num : (10 : ℚ) ≠ 0) _ (k : Int), zpow_natCast]
  field_simp

end NumberLiteral

/-! ## Midpoints have few digits -/

/-- A power of ten below a number with few digits is small. -/
theorem exponent_lt_of_pow_lt {a : Int} {b : Nat} {q : ℚ} (h : (10 : ℚ) ^ a < q)
    (hq : q < 10 ^ b) : a < b := by
  have hlt : (10 : ℚ) ^ a < 10 ^ (b : Int) := by
    rw [zpow_natCast]
    exact lt_trans h hq
  exact (zpow_lt_zpow_iff_right₀ (by norm_num)).1 hlt

/-- A midpoint beyond a power of ten that is 767 places above `k` is a multiple of `10 ^ k`. -/
theorem midpoint_multiple {m e : Nat} {k : Int} (hm : m < 2 ^ 54) (he : e ≤ 2045)
    (h : (10 : ℚ) ^ (767 + k) < m * 2 ^ e / 2 ^ 1075) :
    ∃ a : Nat, (m : ℚ) * 2 ^ e / 2 ^ 1075 = a * 10 ^ k := by
  rcases Nat.lt_or_ge e 1075 with hlt | hge
  · -- behind the point there are `j` digits
    obtain ⟨j, hj⟩ : ∃ j, 1075 = e + j := ⟨1075 - e, by omega⟩
    have hval : (m : ℚ) * 2 ^ e / 2 ^ 1075 = (m * 5 ^ j : Nat) * 10 ^ (-(j : Int)) := by
      rw [hj, zpow_neg, zpow_natCast, show (10 : ℚ) = 5 * 2 by norm_num, mul_pow, pow_add]
      push_cast
      field_simp
    have hsmall : m * 5 ^ j < 10 ^ 768 := by
      have hp := Nat.pow_le_pow_right (show 0 < 5 by decide) (show j ≤ 1075 by omega)
      exact Nat.lt_of_le_of_lt (Nat.mul_le_mul (Nat.le_of_lt hm) hp) (by decide +kernel)
    have hpow : (10 : ℚ) ^ (767 + k + j) < (m * 5 ^ j : Nat) := by
      have hj0 : (0 : ℚ) < 10 ^ (j : Int) := zpow_pos (by norm_num) _
      rw [hval, zpow_neg, ← div_eq_mul_inv, lt_div_iff₀ hj0] at h
      rwa [zpow_add₀ (by norm_num)]
    have hk := exponent_lt_of_pow_lt hpow (by exact_mod_cast hsmall)
    obtain ⟨i, hi⟩ : ∃ i : Nat, -(j : Int) = i + k := ⟨(-(j : Int) - k).toNat, by omega⟩
    refine ⟨m * 5 ^ j * 10 ^ i, ?_⟩
    rw [hval, hi, zpow_add₀ (by norm_num), zpow_natCast]
    push_cast
    ring
  · -- the midpoint is an integer
    obtain ⟨j, hj⟩ : ∃ j, e = j + 1075 := ⟨e - 1075, by omega⟩
    have hval : (m : ℚ) * 2 ^ e / 2 ^ 1075 = (m * 2 ^ j : Nat) := by
      rw [hj, pow_add]
      push_cast
      field_simp
    have hsmall : m * 2 ^ j < 10 ^ 309 := by
      have hp := Nat.pow_le_pow_right (show 0 < 2 by decide) (show j ≤ 970 by omega)
      exact Nat.lt_of_le_of_lt (Nat.mul_le_mul (Nat.le_of_lt hm) hp) (by decide +kernel)
    rw [hval] at h
    have hk := exponent_lt_of_pow_lt h (by exact_mod_cast hsmall)
    obtain ⟨i, hi⟩ : ∃ i : Nat, k = -(i : Int) := ⟨(-k).toNat, by omega⟩
    refine ⟨m * 2 ^ j * 10 ^ i, ?_⟩
    rw [hval, hi, zpow_neg, zpow_natCast]
    push_cast
    field_simp

/-- A midpoint beyond `t * 10 ^ k`, where `t` has all digits that are looked at, is not below the
next multiple of `10 ^ k`. -/
theorem midpoint_on_grid {t m e : Nat} {k : Int} (ht : 10 ^ 767 ≤ t) (hm : m < 2 ^ 54)
    (he : e ≤ 2045) (h : (t : ℚ) * 10 ^ k < m * 2 ^ e / 2 ^ 1075) :
    ((t : ℚ) + 1) * 10 ^ k ≤ m * 2 ^ e / 2 ^ 1075 := by
  have hten : (0 : ℚ) < 10 ^ k := zpow_pos (by norm_num) k
  have ht' : (10 : ℚ) ^ (767 : Nat) ≤ t := by exact_mod_cast ht
  have hbig : (10 : ℚ) ^ (767 + k) < m * 2 ^ e / 2 ^ 1075 := by
    rw [zpow_add₀ (by norm_num), show ((10 : ℚ) ^ (767 : Int)) = 10 ^ (767 : Nat) from
      zpow_natCast 10 767]
    exact lt_of_le_of_lt (mul_le_mul_of_nonneg_right ht' hten.le) h
  obtain ⟨a, ha⟩ := midpoint_multiple hm he hbig
  rw [ha] at h ⊢
  have hta : (t : ℚ) < a := lt_of_mul_lt_mul_right h hten.le
  have hta' : (t : ℚ) + 1 ≤ a := by exact_mod_cast hta
  exact mul_le_mul_of_nonneg_right hta' hten.le

/-- The midpoint of a magnitude and the next one. -/
def midpoint (g : Nat) : ℚ :=
  ((unitsOf .double g : ℚ) + unitsOf .double (g + 1)) / 2 / 2 ^ Format.double.unitBits

theorem midpoint_eq (g : Nat) :
    midpoint g =
      ((2 * significandOf .double g + 1 : Nat) : ℚ) * 2 ^ exponentOf .double g / 2 ^ 1075 := by
  unfold midpoint
  have hp : (2 : ℚ) ^ 1075 = 2 * 2 ^ Format.double.unitBits := pow_succ' 2 1074
  rw [Binary.unitsOf_succ, Binary.unitsOf_eq, hp]
  push_cast
  field_simp
  ring

/-- No midpoint is between two points of the grid. -/
theorem midpoint_le_or_le {t g : Nat} (k : Int) (ht : 10 ^ 767 ≤ t)
    (hg : g < Format.double.infinity) :
    midpoint g ≤ (t : ℚ) * 10 ^ k ∨ ((t : ℚ) + 1) * 10 ^ k ≤ midpoint g := by
  have hs : significandOf .double g < 2 * 2 ^ 52 := Binary.significandOf_lt .double g
  have he : exponentOf .double g ≤ 2045 := Binary.exponentOf_le hg
  rw [midpoint_eq]
  exact (le_or_gt _ _).imp_right fun hgt => midpoint_on_grid ht (by omega) he hgt

/-- A value with more digits than are looked at, of which something is known to follow, is rounded
as the value `q` between two points of the grid, but for a midpoint on the lower one. -/
theorem nearest_away_of_sticky {t g : Nat} {k : Int} {q : ℚ} (ht : 10 ^ 767 ≤ t)
    (hlow : (t : ℚ) * 10 ^ k ≤ q) (hhigh : q < ((t : ℚ) + 1) * 10 ^ k)
    (h : Nearest .double .even
      (((t : ℚ) + 1 / 10) * 10 ^ k * 2 ^ Format.double.unitBits) g) :
    Nearest .double .away (q * 2 ^ Format.double.unitBits) g := by
  have hunit : (0 : ℚ) < 2 ^ Format.double.unitBits := by positivity
  obtain ⟨hi, hbelow, habove⟩ := nearest_iff.1 h
  apply nearest_of_neighbours hi
  · intro j hj
    subst hj
    refine ⟨?_, fun _ => Nat.lt_succ_self j⟩
    have hb := (hbelow j (Nat.lt_succ_self j)).1
    rcases midpoint_le_or_le k ht (show j < Format.double.infinity by omega) with hg | hg
    · rw [midpoint, div_le_iff₀ hunit] at hg
      have := mul_le_mul_of_nonneg_right hlow hunit.le
      linarith
    · rw [midpoint, le_div_iff₀ hunit] at hg
      have : 0 < (9 / 10 : ℚ) * 10 ^ k * 2 ^ Format.double.unitBits := by positivity
      linarith
  · intro hlt
    have ha := (habove (g + 1) hlt (Nat.lt_succ_self g)).1
    rcases midpoint_le_or_le k ht hlt with hg | hg
    · rw [midpoint, div_le_iff₀ hunit] at hg
      have : 0 < (1 / 10 : ℚ) * 10 ^ k * 2 ^ Format.double.unitBits := by positivity
      linarith
    · rw [midpoint, le_div_iff₀ hunit] at hg
      have := mul_lt_mul_of_pos_right hhigh hunit
      exact ⟨by linarith, fun he => by linarith⟩

/-! ## Rounding -/

namespace NumberLiteral

theorem significantDigits_eq (n : NumberLiteral) :
    (n.whole.chars ++ n.numeral.decimals).dropWhile (· == '0') = n.significantDigits := by
  rw [numeral_decimals]
  rfl

theorem significantDigits_isDigit (n : NumberLiteral) :
    ∀ c ∈ n.significantDigits, c.isDigit = true := by
  intro c hc
  have hc := (List.dropWhile_suffix _).mem hc
  apply n.chars_isDigit
  rw [List.mem_append] at hc ⊢
  refine hc.imp_right fun h => ?_
  exact List.mem_reverse.1 ((List.dropWhile_suffix _).mem (List.mem_reverse.1 h))

/-- The first of more digits than are looked at is not zero. -/
theorem significantDigits_cons {n : NumberLiteral}
    (h : Numeral.maxDigits < n.significantDigits.length) :
    ∃ c tail, n.significantDigits = c :: tail ∧ c.isDigit = true ∧ c ≠ '0' ∧
      Numeral.maxDigits ≤ tail.length := by
  obtain ⟨c, tail, hc⟩ : ∃ c tail, n.significantDigits = c :: tail := by
    cases hd : n.significantDigits with
    | nil => rw [hd] at h; cases h
    | cons c tail => exact ⟨c, tail, rfl⟩
  refine ⟨c, tail, hc, ?_, ?_, ?_⟩
  · exact n.significantDigits_isDigit c (by rw [hc]; exact List.mem_cons_self)
  · have := List.head?_dropWhile_not (· == '0') (n.whole.chars ++ n.numeral.decimals)
    rw [significantDigits_eq, hc] at this
    simpa using this
  · rw [hc, List.length_cons] at h
    exact Nat.le_of_lt_succ h

/-- The first digits of a number that has more digits than are looked at make a large number. -/
theorem pow_le_firstDigits {n : NumberLiteral} (h : Numeral.maxDigits < n.significantDigits.length) :
    10 ^ 767 ≤ Nat.ofDigitChars 10 (n.significantDigits.take Numeral.maxDigits) 0 := by
  obtain ⟨c, tail, hc, hdigit, hne, hlen⟩ := significantDigits_cons h
  have hlen : (tail.take 767).length = 767 := by
    have : Numeral.maxDigits = 768 := rfl
    rw [List.length_take]
    omega
  have hle := pow_le_ofDigitChars (l := tail.take 767) hdigit hne
  rw [hlen] at hle
  rw [hc]
  exact hle

/-- The digits of a number that has no more than are looked at do not make ties go away. -/
theorem tie_of_coefficient_lt {n : NumberLiteral}
    (h : n.decimal.coefficient < 10 ^ Numeral.maxDigits) : n.tie = .even := by
  refine if_neg fun hlong => ?_
  obtain ⟨c, tail, hc, hdigit, hne, hlen⟩ := significantDigits_cons hlong
  obtain ⟨k, hk⟩ := exists_trailing_zeros n.fractionChars
  rw [← numeral_decimals] at hk
  have hcoefficient : n.decimal.coefficient =
      10 ^ k * Nat.ofDigitChars 10 n.significantDigits 0 := by
    unfold decimal Decimal.ofDigits
    rw [← significantDigits_eq, ofDigitChars_dropWhile]
    conv_lhs => rw [hk, ← List.append_assoc, ofDigitChars_append_eq _ (List.replicate k '0')]
    rw [Nat.ofDigitChars_replicate_zero, List.length_replicate, Nat.mul_zero, Nat.add_zero]
  have hlow : 10 ^ tail.length ≤ Nat.ofDigitChars 10 n.significantDigits 0 := by
    rw [hc]
    exact pow_le_ofDigitChars hdigit hne
  have hle := Nat.le_mul_of_pos_left (Nat.ofDigitChars 10 n.significantDigits 0)
    (Nat.pow_pos (n := k) (show 0 < 10 by decide))
  have hpow := Nat.pow_le_pow_right (show 0 < 10 by decide) hlen
  omega

/-- The value of a number by its significant digits. -/
theorem value_eq_significantDigits (n : NumberLiteral) :
    n.decimal.value = Nat.ofDigitChars 10 n.significantDigits 0 *
      10 ^ (n.exponentValue - n.numeral.decimals.length) := by
  rw [← value_decimals, Decimal.value_ofDigits, ← significantDigits_eq, ofDigitChars_dropWhile]

/-- The first digits of a literal are its value but for less than one of their last place. -/
theorem value_firstDigits (n : NumberLiteral) (most : Nat) {others : Nat} {k : Int}
    (hothers : n.significantDigits.length - most = others)
    (hk : n.exponentValue - n.numeral.decimals.length + (others : Int) = k) :
    (Nat.ofDigitChars 10 (n.significantDigits.take most) 0 : ℚ) * 10 ^ k ≤ n.decimal.value ∧
      n.decimal.value < (Nat.ofDigitChars 10 (n.significantDigits.take most) 0 + 1) * 10 ^ k := by
  generalize ht : Nat.ofDigitChars 10 (n.significantDigits.take most) 0 = t
  generalize hs : Nat.ofDigitChars 10 (n.significantDigits.drop most) 0 = s
  have hslt : s < 10 ^ others := by
    have := ofDigitChars_lt fun c hc =>
      n.significantDigits_isDigit c (List.drop_subset most _ hc)
    rwa [hs, List.length_drop, hothers] at this
  have hall : Nat.ofDigitChars 10 n.significantDigits 0 = 10 ^ others * t + s := by
    conv_lhs => rw [← List.take_append_drop most n.significantDigits]
    rw [ofDigitChars_append_eq, ht, hs, List.length_drop, hothers]
  have hplace : (10 : ℚ) ^ (n.exponentValue - n.numeral.decimals.length) * 10 ^ others = 10 ^ k := by
    rw [← hk, zpow_add₀ (by norm_num), zpow_natCast]
  have hpos : (0 : ℚ) < 10 ^ (n.exponentValue - n.numeral.decimals.length) :=
    zpow_pos (by norm_num) _
  have hvalue : n.decimal.value =
      t * 10 ^ k + s * 10 ^ (n.exponentValue - n.numeral.decimals.length) := by
    rw [value_eq_significantDigits, hall, ← hplace]
    push_cast
    ring
  constructor
  · rw [hvalue]
    exact le_add_of_nonneg_right (mul_nonneg (Nat.cast_nonneg s) hpos.le)
  · have hs' : (s : ℚ) < 10 ^ others := by exact_mod_cast hslt
    rw [hvalue, add_mul, one_mul, ← hplace]
    linarith [mul_lt_mul_of_pos_right hs' hpos]

/-- A digit behind some others stands for a tenth of their last place. -/
theorem value_stickyDigit (digits : List Char) (k : Int) :
    (Decimal.ofDigits (digits ++ ['1']) [] (k - 1)).value =
      ((Nat.ofDigitChars 10 digits 0 : ℚ) + 1 / 10) * 10 ^ k := by
  have hone : Nat.ofDigitChars 10 ['1'] 0 = 1 := rfl
  rw [Decimal.value_ofDigits, List.append_nil, ofDigitChars_append_eq, hone, List.length_nil,
    Nat.cast_zero, sub_zero, zpow_sub₀ (by norm_num)]
  push_cast [List.length_cons, List.length_nil]
  ring

theorem exponentTooSmall_numeral (n : NumberLiteral) :
    n.numeral.exponentTooSmall = true ↔ n.exponentTooSmall := by
  rw [Numeral.exponentTooSmall, decide_eq_true_eq, numeral_exponentValue, exponentTooSmall]

theorem float_of_exponentTooSmall {n : NumberLiteral} (h : n.exponentTooSmall) :
    n.numeral.float = .zero n.negative := if_pos (n.exponentTooSmall_numeral.2 h)

/-- The number that a literal is rounded to is nearest to its exact value. -/
theorem float_nearest {n : NumberLiteral} (hsmall : ¬ n.exponentTooSmall) :
    Nearest .double n.tie (n.decimal.value * 2 ^ Format.double.unitBits)
      n.numeral.float.magnitude := by
  rw [Numeral.float, if_neg (mt n.exponentTooSmall_numeral.1 hsmall)]
  have hnear := Decimal.toBinary_nearest (f := .double) n.numeral.decimal n.numeral.negative
  have hdecimal : n.numeral.decimal =
      if n.significantDigits.length - Numeral.maxDigits = 0 then
        Decimal.ofDigits n.whole.chars n.numeral.decimals n.exponentValue
      else .ofDigits (n.significantDigits.take Numeral.maxDigits ++ ['1']) []
        (n.exponentValue - n.numeral.decimals.length +
          (n.significantDigits.length - Numeral.maxDigits : Nat) - 1) := by
    rw [← significantDigits_eq, ← numeral_exponentValue]
    rfl
  rcases Nat.lt_or_ge Numeral.maxDigits n.significantDigits.length with hlong | hshort
  · have htie : n.tie = .away := if_pos hlong
    rw [htie]
    rw [if_neg (by omega)] at hdecimal
    obtain ⟨hlow, hhigh⟩ := value_firstDigits n Numeral.maxDigits rfl rfl
    refine nearest_away_of_sticky (pow_le_firstDigits hlong) hlow hhigh ?_
    rwa [hdecimal, value_stickyDigit, ← hdecimal] at hnear
  · have htie : n.tie = .even := if_neg (Nat.not_lt.2 hshort)
    rw [hdecimal, if_pos (by omega)] at hnear ⊢
    rw [htie]
    rwa [value_decimals] at hnear

/-! ## Integers -/

/-- A value that is small enough is finite. -/
theorem lt_infinity_of_nearest {tie : Tie} {q : ℚ} {g : Nat} (h : Nearest .double tie q g)
    (hq : 2 * q < unitsOf .double Format.double.infinity) : g < Format.double.infinity := by
  obtain ⟨hi, hbelow, -⟩ := nearest_iff.1 h
  refine Nat.lt_of_le_of_ne hi fun he => ?_
  subst he
  have h0 := (hbelow 0 (by decide)).1
  have : (0 : ℚ) ≤ unitsOf .double 0 := Nat.cast_nonneg _
  linarith

theorem ofNat_negative (f : Format) (v : Nat) : (Binary.ofNat f v).negative = false := rfl

theorem ofNat_nearest (v : Nat) :
    Nearest .double .even (v * 2 ^ Format.double.unitBits)
      (Binary.ofNat .double v).magnitude := by
  have h : Nearest .double .even _
      (Format.double.magnitudeOfRatio (v * 2 ^ Format.double.unitBits) (2 ^ 0)) :=
    Format.magnitudeOfRatio_nearest .double (by decide)
  rw [← Format.magnitudeOfScaled_eq_ratio] at h
  have hm : (Binary.ofNat .double v).magnitude =
      Format.double.magnitudeOfScaled v Format.double.unitBits 0 :=
    Binary.ofMagnitude_magnitude h.le_infinity
  rw [hm]
  rw [pow_zero, Nat.cast_one, div_one] at h
  exact_mod_cast h

theorem ofNat_isFinite {v : Nat} (h : v < 2 ^ 64) : (Binary.ofNat .double v).isFinite = true := by
  have hlt : 2 * v * 2 ^ Format.double.unitBits < unitsOf .double Format.double.infinity :=
    Binary.pow_lt_unitsOf_infinity (show 2 * v < 2 ^ 65 by omega) le_rfl (by decide)
  refine decide_eq_true (lt_infinity_of_nearest (ofNat_nearest v) ?_)
  rw [Nat.mul_assoc] at hlt
  exact_mod_cast hlt

variable {n : NumberLiteral}

theorem isInteger_numeral : n.numeral.isInteger = true ↔ n.fraction = none ∧ n.exponent = none := by
  simp [Numeral.isInteger, numeral]

/-- The value of an integer. -/
theorem value_of_isInteger (h : n.numeral.isInteger = true) : n.decimal.value = n.whole.value := by
  obtain ⟨hf, he⟩ := isInteger_numeral.1 h
  have hchars : n.fractionChars = [] := by simp [fractionChars, hf]
  have hexp : n.exponentValue = 0 := by simp [exponentValue, he]
  simp [decimal, Decimal.value_ofDigits, hchars, hexp, Digits.value]

/-- An integer that is not huge has no more digits than are looked at. -/
theorem tie_of_isInteger (h : n.numeral.isInteger = true) (hv : n.whole.value < 2 ^ 64) :
    n.tie = .even := by
  obtain ⟨hf, -⟩ := isInteger_numeral.1 h
  have hcoefficient : n.decimal.coefficient = n.whole.value := by
    simp [decimal, Decimal.ofDigits, fractionChars, hf, Digits.value]
  refine tie_of_coefficient_lt ?_
  rw [hcoefficient]
  calc n.whole.value < 2 ^ 64 := hv
    _ < 10 ^ 20 := by decide
    _ < 10 ^ Numeral.maxDigits := Nat.pow_lt_pow_right (by decide) (by decide)

/-! ## What a literal is read as -/

theorem number_cases (n : NumberLiteral) :
    n.numeral.number = .float n.numeral.float ∨
      n.numeral.isInteger = true ∧ n.whole.value < 2 ^ 64 ∧
        (n.negative = false ∧ n.numeral.number = .natural n.whole.value ∨
          n.negative = true ∧ n.numeral.number = .negative n.whole.value) := by
  have hvalue : Nat.ofDigitChars 10 n.numeral.whole 0 = n.whole.value := rfl
  have hsign : n.numeral.negative = n.negative := rfl
  unfold Numeral.number
  rw [hvalue, hsign]
  simp only [Bool.and_eq_true, Bool.not_eq_true', decide_eq_true_eq]
  split
  · exact Or.inl rfl
  · rename_i hint
    have hint : n.numeral.isInteger = true := by simpa using hint
    split
    · rename_i h
      exact Or.inr ⟨hint, h.2, Or.inl ⟨h.1, rfl⟩⟩
    · split
      · rename_i h
        exact Or.inr ⟨hint, by omega, Or.inr ⟨h.1.1, rfl⟩⟩
      · exact Or.inl rfl

/-- A number with an exponent is no integer. -/
theorem isInteger_of_exponentTooSmall (h : n.exponentTooSmall) : n.numeral.isInteger = false := by
  rw [← Bool.not_eq_true, isInteger_numeral]
  rintro ⟨-, he⟩
  rw [exponentTooSmall, exponentValue, he] at h
  exact absurd h (by decide)

theorem number_binary_of_exponentTooSmall (h : n.exponentTooSmall) :
    n.numeral.number.binary = .zero n.negative := by
  rw [Numeral.number, isInteger_of_exponentTooSmall h, Bool.not_false, if_pos rfl]
  exact float_of_exponentTooSmall h

theorem number_binary_sign (n : NumberLiteral) :
    n.numeral.number.binary.negative = n.negative := by
  rcases n.number_cases with h | ⟨-, -, ⟨hs, h⟩ | ⟨hs, h⟩⟩
  · rw [h, Number.binary, Numeral.float]
    split
    · rfl
    · exact Decimal.toBinary_negative n.numeral.decimal n.numeral.negative
  · rw [h, hs, Number.binary, ofNat_negative]
  · rw [h, hs, Number.binary, Binary.neg, ofNat_negative, Bool.not_false]

theorem number_binary_nearest (hsmall : ¬ n.exponentTooSmall) :
    Nearest .double n.tie (n.decimal.value * 2 ^ Format.double.unitBits)
      n.numeral.number.binary.magnitude := by
  rcases n.number_cases with h | ⟨hint, hv, hcase⟩
  · rw [h]
    exact float_nearest hsmall
  · rw [value_of_isInteger hint, tie_of_isInteger hint hv]
    rcases hcase with ⟨-, h⟩ | ⟨-, h⟩
    · rw [h]
      exact ofNat_nearest _
    · rw [h]
      exact ofNat_nearest _

theorem number_binary_isFinite (n : NumberLiteral) :
    n.numeral.number.binary.isFinite = n.numeral.number.inRange := by
  rcases n.number_cases with h | ⟨-, hv, ⟨-, h⟩ | ⟨-, h⟩⟩
  · rw [h]
    rfl
  · rw [h]
    exact ofNat_isFinite hv
  · rw [h]
    exact ofNat_isFinite hv

/-- The digits of an exponent are at fault as soon as they make it too large. -/
theorem digitsPastExponent_eq_none_iff {digits : List Char} {value count : Nat}
    (hv : value ≤ 2147483647) :
    digitsPastExponent value count digits = none ↔ Nat.ofDigitChars 10 digits value ≤ 2147483647 := by
  induction digits generalizing value count with
  | nil => simpa [digitsPastExponent] using hv
  | cons c digits ih =>
    rw [Nat.ofDigitChars_cons, Nat.mul_comm 10 value]
    simp only [digitsPastExponent]
    split
    · rename_i hlarge
      have hle : value * 10 + (c.toNat - '0'.toNat) ≤
          Nat.ofDigitChars 10 digits (value * 10 + (c.toNat - '0'.toNat)) := by
        rw [Nat.ofDigitChars_eq_ofDigitChars_zero]
        exact Nat.le_add_right_of_le (Nat.le_mul_of_pos_left _ (Nat.pow_pos (by decide)))
      constructor
      · intro h
        cases h
      · intro h
        omega
    · rename_i hsmall
      exact ih (Nat.le_of_not_lt hsmall)

theorem isZero_numeral : n.numeral.isZero = true ↔ n.decimal.coefficient = 0 := by
  unfold Numeral.isZero
  rw [numeral_fraction_getD]
  exact (ofDigitChars_eq_zero_iff n.chars_isDigit).symm

theorem exponentTooLarge?_eq_none_iff :
    n.numeral.exponentTooLarge? = none ↔ ¬ n.exponentTooLarge := by
  unfold Numeral.exponentTooLarge? exponentTooLarge
  rw [not_and_or, not_ne_iff, ← isZero_numeral]
  cases he : n.exponent with
  | none => simp [numeral, exponentValue, he]
  | some e =>
    simp only [numeral, exponentValue, he, Option.map_some]
    by_cases hsign : e.sign = .minus
    · simp only [ExponentPart.value, hsign, decide_true, if_true, true_iff]
      left
      omega
    · simp only [ExponentPart.value, hsign, decide_false, if_false]
      split
      · rename_i hzero
        exact iff_of_true rfl (Or.inr hzero)
      · rename_i hzero
        rw [digitsPastExponent_eq_none_iff (by decide)]
        have : Nat.ofDigitChars 10 e.digits.chars 0 = e.digits.value := rfl
        constructor
        · intro h
          left
          omega
        · rintro (h | h)
          · omega
          · exact absurd h hzero

/-- What a literal is read as, if its exponent is not too large. -/
theorem binary?_of_inRange (h : ¬ n.exponentTooLarge) : n.binary? =
    if n.numeral.number.binary.isFinite then some n.numeral.number.binary else none := by
  rw [binary?, number?, exponentTooLarge?_eq_none_iff.2 h, number_binary_isFinite]
  simp only [Option.isSome_none, Bool.false_eq_true, if_false]
  split
  · rfl
  · rfl

/-- What a literal is read as is what it is rounded to. -/
theorem binary?_eq_some_iff {x : Binary64} : n.binary? = some x ↔ n.ReadAs x := by
  constructor
  · intro h
    have hrange : ¬ n.exponentTooLarge := by
      rw [← exponentTooLarge?_eq_none_iff]
      cases hlarge : n.numeral.exponentTooLarge? with
      | none => rfl
      | some count =>
        rw [binary?, number?, hlarge] at h
        cases h
    rw [binary?_of_inRange hrange] at h
    split at h
    · rename_i hfinite
      cases h
      exact ⟨hrange, number_binary_of_exponentTooSmall, fun hsmall =>
        ⟨n.number_binary_sign, number_binary_nearest hsmall, hfinite⟩⟩
    · cases h
  · intro h
    have hx : n.numeral.number.binary = x ∧ x.isFinite = true := by
      by_cases hsmall : n.exponentTooSmall
      · rw [number_binary_of_exponentTooSmall hsmall, h.zero hsmall]
        exact ⟨rfl, rfl⟩
      · have hrounds := h.rounds hsmall
        exact ⟨Binary.eq_of_parts (n.number_binary_sign.trans hrounds.sign.symm)
          ((number_binary_nearest hsmall).unique hrounds.nearest), hrounds.finite⟩
    rw [binary?_of_inRange h.inRange, hx.1, if_pos hx.2]

/-- Natural numbers below `2 ^ 64` are the only ones that are read as such. -/
theorem number?_eq_natural_iff {v : Nat} :
    n.number? = some (.natural v) ↔ n.natural? = some v ∧ v < UInt64.size := by
  constructor
  · intro h
    have hnumber : n.numeral.number = .natural v := by
      unfold number? at h
      split at h
      · cases h
      · split at h
        · exact Option.some.inj h
        · cases h
    rcases n.number_cases with h' | ⟨hint, hv, ⟨hs, h'⟩ | ⟨hs, h'⟩⟩
    · rw [hnumber] at h'
      cases h'
    · rw [hnumber] at h'
      cases h'
      obtain ⟨hf, he⟩ := isInteger_numeral.1 hint
      exact ⟨by simp [natural?, hs, hf, he], hv⟩
    · rw [hnumber] at h'
      cases h'
  · rintro ⟨h, hv⟩
    unfold natural? at h
    split at h
    · cases h
    · rename_i hparts
      cases h
      simp only [Bool.or_eq_true, not_or, Bool.not_eq_true, Option.isSome_eq_false_iff,
        Option.isNone_iff_eq_none] at hparts
      obtain ⟨⟨hs, hf⟩, he⟩ := hparts
      have hlarge : n.numeral.exponentTooLarge? = none := by
        simp [Numeral.exponentTooLarge?, numeral, he]
      have hnumber : n.numeral.number = .natural n.whole.value := by
        have hint := isInteger_numeral.2 ⟨hf, he⟩
        have hsign : n.numeral.negative = false := hs
        have hvalue : Nat.ofDigitChars 10 n.numeral.whole 0 = n.whole.value := rfl
        unfold Numeral.number
        simp only [hint, hsign, hvalue, hv, Bool.not_true, Bool.false_eq_true, if_false,
          Bool.not_false, decide_true, Bool.and_self, if_true]
      simp [number?, hlarge, hnumber, Number.inRange]

end NumberLiteral

end VectorBench.Json
