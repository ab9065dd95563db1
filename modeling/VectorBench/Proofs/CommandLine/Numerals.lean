import VectorBench.CommandLine.Literal
import VectorBench.Proofs.Decimal.Digits

/-!
# Whole numbers on the command line

A text is read as a whole number exactly when it is a row of decimal digits, possibly behind a plus
sign, that stands for a number of 64 bits.  Digits are added up from the left, and the first sum that
is too large ends the reading; the digits behind it would only make it larger.

    readWhole text = .ok v ↔ IsNumeral text v.toNat                          (readWhole_eq_ok_iff)
-/

namespace VectorBench.CommandLine

/-- The text is a row of digits, possibly behind a plus sign, and these stand for a number. -/
def IsNumeral (text : String) (n : Nat) : Prop :=
  ∃ digits : List Char, (text.toList = digits ∨ text.toList = '+' :: digits) ∧ digits ≠ [] ∧
    (∀ c ∈ digits, c.isDigit = true) ∧ Nat.ofDigitChars 10 digits 0 = n

/-- A text that begins with no plus sign, or with one that is left out. -/
theorem isNumeral_iff {text : String} {digits : List Char} {n : Nat}
    (h : text.toList = digits ∧ digits.head? ≠ some '+' ∨ text.toList = '+' :: digits) :
    IsNumeral text n ↔
      digits ≠ [] ∧ (∀ c ∈ digits, c.isDigit = true) ∧ Nat.ofDigitChars 10 digits 0 = n := by
  constructor
  · rintro ⟨digits', htext, hne, hdigits, hvalue⟩
    obtain rfl : digits' = digits := by
      rcases h with ⟨h, hhead⟩ | h <;> rcases htext with htext | htext
      · exact htext.symm.trans h
      · exact absurd (congrArg List.head? (h.symm.trans htext)) hhead
      · have hplus : '+' ∈ digits' := by
          rw [← htext, h]
          exact List.mem_cons_self
        exact absurd (hdigits '+' hplus) (by decide)
      · exact List.tail_eq_of_cons_eq (htext.symm.trans h)
    exact ⟨hne, hdigits, hvalue⟩
  · rintro ⟨hne, hdigits, hvalue⟩
    exact ⟨digits, h.imp_left And.left, hne, hdigits, hvalue⟩

/-- A text stands for one number at most. -/
theorem IsNumeral.unique {text : String} {m n : Nat} (hm : IsNumeral text m)
    (hn : IsNumeral text n) : m = n := by
  obtain ⟨digits, htext, hne, hdigits, rfl⟩ := hm
  have hhead : digits.head? ≠ some '+' := fun hplus =>
    absurd (hdigits '+' (List.mem_of_head? hplus)) (by decide)
  exact ((isNumeral_iff (htext.imp_left fun htext => ⟨htext, hhead⟩)).1 hn).2.2

/-! ## Reading -/

/-- Further digits never make a number smaller. -/
theorem le_ofDigitChars (digits : List Char) (value : Nat) :
    value ≤ Nat.ofDigitChars 10 digits value := by
  rw [Nat.ofDigitChars_eq_ofDigitChars_zero]
  exact Nat.le_add_right_of_le (Nat.le_mul_of_pos_left value (Nat.pow_pos (by decide)))

theorem readDigits_eq_ok_iff {digits : List Char} {value n : Nat} (h : value < UInt64.size) :
    readDigits value digits = .ok n ↔
      (∀ c ∈ digits, c.isDigit = true) ∧ Nat.ofDigitChars 10 digits value = n ∧
        n < UInt64.size := by
  induction digits generalizing value with
  | nil =>
    rw [readDigits, Nat.ofDigitChars_nil, Except.ok.injEq]
    constructor
    · rintro rfl
      exact ⟨List.forall_mem_nil _, rfl, h⟩
    · exact fun ⟨_, hvalue, _⟩ => hvalue
  | cons c rest ih =>
    rw [readDigits, Nat.ofDigitChars_cons, List.forall_mem_cons, Nat.mul_comm 10 value]
    cases hc : c.isDigit with
    | false => exact iff_of_false nofun fun ⟨⟨hdigit, _⟩, _⟩ => Bool.false_ne_true hdigit
    | true =>
      dsimp only
      rw [Bool.not_true, if_neg Bool.false_ne_true]
      split
      · rename_i hfit
        rw [ih hfit, eq_self, true_and]
      · -- the number is too large already, and stays so with the digits to come
        rename_i hover
        refine iff_of_false nofun ?_
        rintro ⟨-, rfl, hfit⟩
        exact hover (Nat.lt_of_le_of_lt (le_ofDigitChars rest _) hfit)

theorem map_readDigits_eq_ok_iff {digits : List Char} {v : UInt64} :
    (readDigits 0 digits).map Nat.toUInt64 = .ok v ↔
      (∀ c ∈ digits, c.isDigit = true) ∧ Nat.ofDigitChars 10 digits 0 = v.toNat := by
  have hread : ∀ n, readDigits 0 digits = .ok n ↔ (∀ c ∈ digits, c.isDigit = true) ∧
      Nat.ofDigitChars 10 digits 0 = n ∧ n < UInt64.size :=
    fun n => readDigits_eq_ok_iff (by decide)
  cases hresult : readDigits 0 digits with
  | error fault =>
    refine iff_of_false nofun fun ⟨hdigits, hvalue⟩ => ?_
    have := (hread v.toNat).2 ⟨hdigits, hvalue, v.toNat_lt⟩
    rw [hresult] at this
    cases this
  | ok n =>
    obtain ⟨hdigits, hvalue, hfit⟩ := (hread n).1 hresult
    rw [Except.map, Except.ok.injEq, hvalue, ← UInt64.toNat_inj, Nat.toUInt64_eq,
      UInt64.toNat_ofNat_of_lt' hfit, iff_and_self]
    exact fun _ => hdigits

/-- A number is read exactly from the texts that stand for it. -/
theorem readWhole_eq_ok_iff {text : String} {v : UInt64} :
    readWhole text = .ok v ↔ IsNumeral text v.toNat := by
  rw [readWhole]
  cases htext : text.toList with
  | nil =>
    rw [isNumeral_iff (.inl ⟨htext, nofun⟩)]
    exact iff_of_false nofun fun ⟨hne, _⟩ => hne rfl
  | cons first rest =>
    have hcases : ∀ digits : List Char, (if digits.isEmpty then .error .invalidDigit
        else (readDigits 0 digits).map Nat.toUInt64) = .ok v ↔ digits ≠ [] ∧
          (∀ c ∈ digits, c.isDigit = true) ∧ Nat.ofDigitChars 10 digits 0 = v.toNat := by
      rintro (_ | ⟨c, digits⟩)
      · exact iff_of_false nofun fun ⟨hne, _⟩ => hne rfl
      · rw [List.isEmpty_cons, if_neg Bool.false_ne_true, map_readDigits_eq_ok_iff, ne_eq,
          eq_false (List.cons_ne_nil c digits), not_false_eq_true, true_and]
    dsimp only
    rw [hcases]
    split
    · rename_i hplus
      exact (isNumeral_iff (.inr (by rw [htext, hplus]))).symm
    · rename_i hplus
      exact (isNumeral_iff (.inl ⟨htext, fun hhead => hplus (Option.some.inj hhead)⟩)).symm

end VectorBench.CommandLine
