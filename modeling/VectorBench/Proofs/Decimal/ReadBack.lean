import VectorBench.Proofs.Decimal.Nearest

/-!
# Shortest digits read back

The decimal chosen for a number reads back as that number, whichever way the search for it ends, and
it has few digits: those of a grid with at most seventeen, or those of the exact value.

    (shortest tie x).toBinary f x.negative = x                         (shortest_toBinary)
    (shortest tie x).coefficient < 10 ^ 768, for finite 64-bit x       (shortest_coefficient_lt)
-/

namespace VectorBench

variable {f : Format}

/-! ## The search -/

theorem shortest_eq (tie : Tie) (x : Binary f) :
    shortest tie x = ((List.range maxDigits).findSome? fun i =>
      (neighbours tie x.ratio.1 x.ratio.2
        (decimalPoint x.ratio.1 x.ratio.2 - ((i + 1 : Nat) : Int))).find?
          fun c => c.toBinary f x.negative == x).getD (.ofBinary x) := rfl

/-- The decimal is one of a grid that reads back, or the exact value. -/
theorem shortest_cases (tie : Tie) (x : Binary f) :
    shortest tie x = .ofBinary x ∨
      ∃ digits ≤ maxDigits,
        shortest tie x ∈
          neighbours tie x.ratio.1 x.ratio.2 (decimalPoint x.ratio.1 x.ratio.2 - (digits : Nat)) ∧
        (shortest tie x).toBinary f x.negative = x := by
  rw [shortest_eq]
  generalize hs : (List.range maxDigits).findSome? _ = found
  cases found with
  | none => exact Or.inl rfl
  | some c =>
    obtain ⟨i, hi, hc⟩ := List.exists_of_findSome?_eq_some hs
    have hb := List.find?_some hc
    exact Or.inr ⟨i + 1, List.mem_range.1 hi, List.mem_of_find?_eq_some hc, eq_of_beq hb⟩

/-- The chosen decimal reads back. -/
theorem shortest_toBinary (tie : Tie) {x : Binary f} (hx : x.magnitude ≤ f.infinity) :
    (shortest tie x).toBinary f x.negative = x := by
  rcases shortest_cases tie x with h | ⟨digits, -, -, h⟩
  · rw [h]
    exact Decimal.toBinary_ofBinary hx
  · exact h

/-! ## How many digits there are -/

/-- All of the quotient is behind the position of its first digit. -/
theorem lt_pow_decimalPoint {n d : Nat} (hn : n ≠ 0) (hd : 0 < d) :
    (n : ℚ) < 10 ^ decimalPoint n d * d := by
  unfold decimalPoint
  split
  · have h := (Nat.div_lt_iff_lt_mul hd).1 (lt_pow_digitCount (n / d))
    rw [zpow_natCast]
    exact_mod_cast h
  · rename_i hlt
    have hq : (d - 1) / n ≠ 0 := by
      have := (Nat.le_div_iff_mul_le (x := 1) (y := d - 1) (Nat.pos_of_ne_zero hn)).2 (by omega)
      omega
    have hpow := pow_digitCount_le hq
    rw [Nat.le_div_iff_mul_le (Nat.pos_of_ne_zero hn)] at hpow
    have hpos := digitCount_pos ((d - 1) / n)
    generalize digitCount ((d - 1) / n) = k at hpow hpos
    have hexp : (1 - (k : Int)) = -((k - 1 : Nat) : Int) := by omega
    have hlt' : (n : ℚ) * 10 ^ (k - 1) < d := by
      have : n * 10 ^ (k - 1) < d := by
        rw [Nat.mul_comm]
        omega
      exact_mod_cast this
    rw [hexp, zpow_neg, zpow_natCast, inv_mul_eq_div, lt_div_iff₀ (by positivity)]
    exact hlt'

theorem mem_neighbours {tie : Tie} {n d : Nat} {place : Int} {c : Decimal}
    (hc : c ∈ neighbours tie n d place) :
    c.coefficient = n * tenPower (-place).toNat / (d * tenPower place.toNat) ∨
      c.coefficient = n * tenPower (-place).toNat / (d * tenPower place.toNat) + 1 := by
  have either : ∀ (first : Bool) (a b : Decimal),
      c ∈ (if first then [a, b] else [b, a]) → c = a ∨ c = b := by
    intro first a b h
    cases first <;> simp at h <;> tauto
  rcases either _ _ _ hc with rfl | rfl
  · exact Or.inl rfl
  · exact Or.inr rfl

/-- The coefficients of the neighbours of a quotient on a grid of `digits` digits. -/
theorem neighbours_coefficient_le {tie : Tie} {n d digits : Nat} {c : Decimal} (hn : n ≠ 0)
    (hd : 0 < d) (hc : c ∈ neighbours tie n d (decimalPoint n d - digits)) :
    c.coefficient ≤ 10 ^ digits := by
  have hpoint := lt_pow_decimalPoint hn hd
  generalize hp : decimalPoint n d - (digits : Int) = place at hc
  have hden : 0 < d * 10 ^ place.toNat := Nat.mul_pos hd (Nat.pow_pos (by decide))
  have hbelow : n * 10 ^ (-place).toNat / (d * 10 ^ place.toNat) < 10 ^ digits := by
    rw [Nat.div_lt_iff_lt_mul hden]
    have hsplit : decimalPoint n d = digits + place := by omega
    rw [hsplit, zpow_add₀ (by norm_num), zpow_natCast, zpow_eq_div] at hpoint
    have hq : (n : ℚ) * 10 ^ (-place).toNat < 10 ^ digits * (d * 10 ^ place.toNat) := by
      rw [mul_div_assoc', div_mul_eq_mul_div, lt_div_iff₀ (by positivity)] at hpoint
      linarith
    exact_mod_cast hq
  rcases mem_neighbours hc with h | h <;> rw [h] <;> simp only [tenPower_eq_pow] <;> omega

/-- The exact value of a 64-bit number needs no more digits than are looked at in reading. -/
theorem ofBinary_coefficient_lt {x : Binary64} (hx : x.magnitude < Format.double.infinity) :
    (Decimal.ofBinary x).coefficient < 10 ^ 768 := by
  have hs : x.significand < 2 ^ 53 := Binary.significandOf_lt .double x.magnitude
  have he : x.exponent ≤ 2045 := Binary.exponentOf_le hx
  unfold Decimal.ofBinary
  split
  · have he' : x.exponent - Format.double.unitBits ≤ 971 := by
      simp only [Format.unitBits]
      omega
    have hp := Nat.pow_le_pow_right (show 0 < 2 by decide) he'
    rw [twoPower_eq_pow]
    exact Nat.lt_of_le_of_lt (Nat.mul_le_mul (Nat.le_of_lt hs) hp) (by decide +kernel)
  · have he' : Format.double.unitBits - x.exponent ≤ 1074 := Nat.sub_le _ _
    have hp := Nat.pow_le_pow_right (show 0 < 5 by decide) he'
    exact Nat.lt_of_le_of_lt (Nat.mul_le_mul (Nat.le_of_lt hs) hp) (by decide +kernel)

theorem significand_ne_zero {x : Binary f} (hx : x.magnitude ≠ 0) : x.significand ≠ 0 := by
  intro h
  have hu : Binary.unitsOf f x.magnitude = 0 := by
    rw [Binary.unitsOf_eq]
    exact Nat.mul_eq_zero.2 (Or.inl h)
  have hlt := Binary.unitsOf_strictMono f (Nat.pos_of_ne_zero hx)
  omega

/-- The chosen decimal has no more digits than are looked at in reading. -/
theorem shortest_coefficient_lt (tie : Tie) {x : Binary64} (h0 : x.magnitude ≠ 0)
    (hx : x.magnitude < Format.double.infinity) : (shortest tie x).coefficient < 10 ^ 768 := by
  rcases shortest_cases tie x with h | ⟨digits, hd, hmem, -⟩
  · rw [h]
    exact ofBinary_coefficient_lt hx
  · have hn : x.ratio.1 ≠ 0 := by
      simp only [Binary.ratio, twoPower_eq_pow]
      exact Nat.mul_ne_zero (significand_ne_zero h0) (by positivity)
    have hpos : 0 < x.ratio.2 := by
      simp only [Binary.ratio, twoPower_eq_pow]
      positivity
    calc (shortest tie x).coefficient ≤ 10 ^ digits := neighbours_coefficient_le hn hpos hmem
      _ ≤ 10 ^ 17 := Nat.pow_le_pow_right (by decide) hd
      _ < 10 ^ 768 := pow_lt_pow_right₀ (by decide) (by decide)

end VectorBench
