import Mathlib.Data.List.TakeWhile
import Mathlib.Tactic.Ring
import VectorBench.Decimal.Basic

/-!
# Digits

Natural numbers by their decimal digits: how large they are, and which zeros do not count.
-/

namespace VectorBench

theorem isDigit_iff {c : Char} : c.isDigit = true ↔ 48 ≤ c.toNat ∧ c.toNat ≤ 57 := by
  simp only [Char.isDigit, Bool.and_eq_true, decide_eq_true_eq, ge_iff_le, UInt32.le_iff_toNat_le]
  exact Iff.rfl

theorem toNat_ne_of_ne_zero {c : Char} (h : c ≠ '0') : c.toNat ≠ 48 := by
  intro hc
  exact h (Char.toNat_inj.1 hc)

theorem replicate_isDigit (zeros : Nat) : ∀ c ∈ List.replicate zeros '0', c.isDigit = true := by
  intro c hc
  rw [List.eq_of_mem_replicate hc]
  rfl

/-- Digits in front count with the power of ten of the digits behind them. -/
theorem ofDigitChars_append_eq (l m : List Char) :
    Nat.ofDigitChars 10 (l ++ m) 0 =
      10 ^ m.length * Nat.ofDigitChars 10 l 0 + Nat.ofDigitChars 10 m 0 := by
  rw [Nat.ofDigitChars_append, Nat.ofDigitChars_eq_ofDigitChars_zero]

theorem ofDigitChars_cons_eq (c : Char) (l : List Char) :
    Nat.ofDigitChars 10 (c :: l) 0 =
      10 ^ l.length * (c.toNat - 48) + Nat.ofDigitChars 10 l 0 := by
  rw [Nat.ofDigitChars_cons, Nat.ofDigitChars_eq_ofDigitChars_zero]
  simp

theorem ofDigitChars_lt {l : List Char} (h : ∀ c ∈ l, c.isDigit = true) :
    Nat.ofDigitChars 10 l 0 < 10 ^ l.length := by
  induction l with
  | nil => simp
  | cons c l ih =>
    have hc := (isDigit_iff.1 (h c List.mem_cons_self)).2
    have hl := ih fun x hx => h x (List.mem_cons_of_mem c hx)
    rw [ofDigitChars_cons_eq, List.length_cons, Nat.pow_succ]
    have : 10 ^ l.length * (c.toNat - 48) ≤ 10 ^ l.length * 9 :=
      Nat.mul_le_mul_left _ (by omega)
    omega

/-- A first digit other than zero makes a number large. -/
theorem pow_le_ofDigitChars {c : Char} {l : List Char} (hd : c.isDigit = true) (hc : c ≠ '0') :
    10 ^ l.length ≤ Nat.ofDigitChars 10 (c :: l) 0 := by
  have h1 := (isDigit_iff.1 hd).1
  have h2 := toNat_ne_of_ne_zero hc
  rw [ofDigitChars_cons_eq]
  have : 10 ^ l.length * 1 ≤ 10 ^ l.length * (c.toNat - 48) := Nat.mul_le_mul_left _ (by omega)
  omega

/-- Zeros in front do not count. -/
theorem ofDigitChars_dropWhile (l : List Char) :
    Nat.ofDigitChars 10 (l.dropWhile (· == '0')) 0 = Nat.ofDigitChars 10 l 0 := by
  induction l with
  | nil => rfl
  | cons c l ih =>
    rw [List.dropWhile_cons]
    split
    · rename_i hc
      obtain rfl : c = '0' := by simpa using hc
      rw [ih, ofDigitChars_cons_eq]
      simp
    · rfl

theorem ofDigitChars_eq_zero_iff {l : List Char} (h : ∀ c ∈ l, c.isDigit = true) :
    Nat.ofDigitChars 10 l 0 = 0 ↔ l.all (· == '0') = true := by
  rw [← ofDigitChars_dropWhile]
  cases hl : l.dropWhile (· == '0') with
  | nil =>
    have := List.dropWhile_eq_nil_iff.1 hl
    simpa using this
  | cons c rest =>
    have hmem : c ∈ l := (List.dropWhile_suffix (· == '0')).mem (by rw [hl]; exact List.mem_cons_self)
    have hc : (c == '0') = false := by
      have := List.head?_dropWhile_not (· == '0') l
      rw [hl] at this
      simpa using this
    have hpos := pow_le_ofDigitChars (l := rest) (h c hmem) (by simpa using hc)
    have hp : 0 < 10 ^ rest.length := Nat.pow_pos (by decide)
    constructor
    · intro h0
      omega
    · intro hall
      rw [List.all_eq_true] at hall
      rw [hall c hmem] at hc
      cases hc

/-- The zeros at the end of some digits, and the digits before them. -/
theorem exists_trailing_zeros (l : List Char) :
    ∃ k, l = (l.reverse.dropWhile (· == '0')).reverse ++ List.replicate k '0' := by
  refine ⟨(l.reverse.takeWhile (· == '0')).length, ?_⟩
  have hz : l.reverse.takeWhile (· == '0') =
      List.replicate (l.reverse.takeWhile (· == '0')).length '0' := by
    rw [List.eq_replicate_iff]
    refine ⟨rfl, fun c hc => ?_⟩
    have := List.mem_takeWhile_imp hc
    simpa using this
  have hsplit := List.takeWhile_append_dropWhile (p := (· == '0')) (l := l.reverse)
  have hrev := congrArg List.reverse hsplit
  rw [List.reverse_append, List.reverse_reverse] at hrev
  conv_lhs => rw [← hrev]
  rw [← List.reverse_replicate, ← hz]

end VectorBench
