import VectorBench.Json.Shape
import VectorBench.Proofs.Json.Reading

/-!
# Reading numbers as they are written

The parts that a number is read into are the parts that it is written with, up to what the spelling
of its exponent leaves open.  What the number then stands for is a matter of these parts alone.

    readNumeral atEnd s c = .ok ((n.numeral, _), c'), for c at the digits of n      (readNumeral_text)
    Yields (readNumber n.negative c) n.number? rest                                  (readNumber_text)
-/

namespace VectorBench.Json

/-! ## Digits -/

/-- Digits end where the text behind them does not start with a digit. -/
theorem digitsOf_append {digits rest : List Char} (hd : ∀ c ∈ digits, c.isDigit = true)
    (hr : ∀ x ∈ rest.head?, x.isDigit = false) : digitsOf (digits ++ rest) = digits := by
  unfold digitsOf
  rw [List.takeWhile_append_of_pos hd]
  cases rest with
  | nil => simp
  | cons x rest => simp [hr x rfl]

theorem dropWhile_digits_append {digits rest : List Char} (hd : ∀ c ∈ digits, c.isDigit = true)
    (hr : ∀ x ∈ rest.head?, x.isDigit = false) :
    (digits ++ rest).dropWhile Char.isDigit = rest := by
  rw [List.dropWhile_append_of_pos hd]
  cases rest with
  | nil => rfl
  | cons x rest => simp [hr x rfl]

theorem skipDigits_rest {c : Cursor} {digits : Digits} {rest : List Char}
    (h : c.rest = digits.chars ++ rest) (hr : ∀ x ∈ rest.head?, x.isDigit = false) :
    c.skipDigits.rest = rest := by
  simp only [Cursor.skipDigits, h]
  exact dropWhile_digits_append digits.all_digits hr

theorem Digits.exists_cons (d : Digits) :
    ∃ x tail, d.chars = x :: tail ∧ x.isDigit = true := by
  cases h : d.chars with
  | nil => exact absurd h d.ne_nil
  | cons x tail => exact ⟨x, tail, rfl, d.all_digits x (by rw [h]; exact List.mem_cons_self)⟩

/-! ## The parts of a literal -/

namespace NumberLiteral

/-- The parts that a number is read into. -/
def numeral (n : NumberLiteral) : Numeral where
  negative := n.negative
  whole := n.whole.chars
  fraction := n.fraction.map Digits.chars
  exponent := n.exponent.map fun e => (decide (e.sign = .minus), e.digits.chars)

def fractionText (n : NumberLiteral) : List Char :=
  if n.fraction.isSome then '.' :: n.fractionChars else []

def exponentText (n : NumberLiteral) : List Char :=
  match n.exponent with
  | none => []
  | some e => e.text

/-- The text behind the sign. -/
def unsignedText (n : NumberLiteral) : List Char :=
  n.whole.chars ++ (n.fractionText ++ n.exponentText)

theorem text_eq (n : NumberLiteral) :
    n.text = (if n.negative then ['-'] else []) ++ n.unsignedText := rfl

end NumberLiteral

variable {n : NumberLiteral} {rest : List Char}

theorem exponentText_append_head (hr : Ends rest) :
    ∀ x ∈ (n.exponentText ++ rest).head?, x.isDigit = false ∧ x ≠ '.' := by
  unfold NumberLiteral.exponentText
  split
  · intro x hx
    exact ⟨(hr x hx).1, (hr x hx).2.1⟩
  · rename_i e he
    intro x hx
    obtain rfl : (if e.upper then 'E' else 'e') = x := by simpa [ExponentPart.text] using hx
    cases e.upper <;> decide

theorem fractionText_append_head (hr : Ends rest) :
    ∀ x ∈ (n.fractionText ++ (n.exponentText ++ rest)).head?, x.isDigit = false := by
  unfold NumberLiteral.fractionText
  split
  · intro x hx
    obtain rfl : '.' = x := by simpa using hx
    decide
  · intro x hx
    exact (exponentText_append_head hr x hx).1

theorem readWhole_text (atEnd : Fault) {c : Cursor} {tail : List Char}
    (h : c.rest = n.whole.chars ++ tail) (ht : ∀ x ∈ tail.head?, x.isDigit = false) :
    Yields (readWhole atEnd c) (some n.whole.chars) tail := by
  have hskip := skipDigits_rest h ht
  have hdigits := digitsOf_append n.whole.all_digits ht
  rcases n.whole_canonical with h0 | hcanon
  · rw [h0] at h ⊢
    have hnone : digitsOf tail = [] := by
      have : digitsOf ([] ++ tail) = [] := digitsOf_append (by simp) ht
      exact this
    refine ⟨c.advance, ?_, advance_rest h⟩
    unfold readWhole
    rw [h]
    simp [hnone]
  · obtain ⟨x, digits, hx, hdigit⟩ := n.whole.exists_cons
    have hne : x ≠ '0' := by
      rintro rfl
      exact hcanon (by rw [hx]; rfl)
    refine ⟨c.skipDigits, ?_, hskip⟩
    unfold readWhole
    rw [← h] at hdigits
    rw [hdigits, h, hx]
    simp [hne, hdigit]

theorem readFraction_text (atEnd : Fault) {c : Cursor} (hr : Ends rest)
    (h : c.rest = n.fractionText ++ (n.exponentText ++ rest)) :
    Yields (readFraction atEnd c) (some n.numeral.fraction) (n.exponentText ++ rest) := by
  have hhead := exponentText_append_head (n := n) hr
  unfold NumberLiteral.fractionText NumberLiteral.fractionChars at h
  cases hf : n.fraction with
  | none =>
    simp only [hf, Option.isSome_none, Bool.false_eq_true, if_false, List.nil_append] at h
    refine ⟨c, ?_, h⟩
    unfold readFraction
    split
    · rename_i t ht
      rw [h] at ht
      exact absurd rfl (hhead '.' (by rw [ht]; rfl)).2
    · simp [NumberLiteral.numeral, hf]
  | some digits =>
    simp only [hf, Option.isSome_some, if_true, List.cons_append] at h
    obtain ⟨x, tail, hx, hdigit⟩ := digits.exists_cons
    have hdot := advance_rest h
    refine ⟨c.advance.skipDigits, ?_, skipDigits_rest hdot fun y hy => (hhead y hy).1⟩
    have hd := digitsOf_append digits.all_digits fun y hy => (hhead y hy).1
    rw [hx] at h hd
    rw [List.cons_append] at h hd
    unfold readFraction
    rw [h]
    simp [hdigit, hd, NumberLiteral.numeral, hf, hx]

theorem readExponentSign_text {c : Cursor} {e : ExponentPart}
    (h : c.rest = e.sign.text ++ (e.digits.chars ++ rest)) :
    (readExponentSign c).1 = decide (e.sign = .minus) ∧
      (readExponentSign c).2.rest = e.digits.chars ++ rest := by
  unfold readExponentSign
  cases hs : e.sign with
  | none =>
    obtain ⟨x, tail, hx, hdigit⟩ := e.digits.exists_cons
    simp only [hs, ExponentSign.text, List.nil_append] at h
    split
    · rename_i t ht
      rw [h, hx] at ht
      cases ht
      cases hdigit
    · rename_i t ht
      rw [h, hx] at ht
      cases ht
      cases hdigit
    · exact ⟨rfl, h⟩
  | plus =>
    simp only [hs, ExponentSign.text, List.cons_append, List.nil_append] at h
    rw [h]
    exact ⟨rfl, advance_rest h⟩
  | minus =>
    simp only [hs, ExponentSign.text, List.cons_append, List.nil_append] at h
    rw [h]
    exact ⟨rfl, advance_rest h⟩

theorem readExponent_text (atEnd : Fault) {c : Cursor} (hr : Ends rest)
    (h : c.rest = n.exponentText ++ rest) :
    ∃ start c', readExponent atEnd c = .ok ((n.numeral.exponent, start), c') ∧ c'.rest = rest := by
  unfold NumberLiteral.exponentText at h
  cases he : n.exponent with
  | none =>
    simp only [he, List.nil_append] at h
    refine ⟨c.position, c, ?_, h⟩
    unfold readExponent
    split
    · simp [NumberLiteral.numeral, he]
    · rename_i letter t ht
      rw [h] at ht
      have hx := hr letter (by rw [ht]; rfl)
      simp [hx.2.2.1, hx.2.2.2, NumberLiteral.numeral, he]
  | some e =>
    simp only [he, ExponentPart.text, List.cons_append, List.append_assoc] at h
    obtain ⟨hneg, hrest⟩ := readExponentSign_text (advance_rest h)
    have hd := digitsOf_append e.digits.all_digits fun y hy => (hr y hy).1
    obtain ⟨x, tail, hx, hdigit⟩ := e.digits.exists_cons
    refine ⟨(readExponentSign c.advance).2.position, (readExponentSign c.advance).2.skipDigits, ?_,
      skipDigits_rest hrest fun y hy => (hr y hy).1⟩
    have hletter : ((if e.upper then 'E' else 'e') = 'e' || (if e.upper then 'E' else 'e') = 'E')
        = true := by
      cases e.upper <;> decide
    rw [hx] at hrest hd
    rw [List.cons_append] at hrest hd
    unfold readExponent
    rw [h]
    simp only [hletter, if_true, hrest, hdigit, hd, hneg]
    simp [NumberLiteral.numeral, he, hx]

/-- A number is read into the parts that it is written with. -/
theorem readNumeral_text (atEnd : Fault) (s : Bool) {c : Cursor} (hr : Ends rest)
    (h : c.rest = n.unsignedText ++ rest) :
    ∃ start c', readNumeral atEnd s c = .ok (({ n.numeral with negative := s }, start), c') ∧
      c'.rest = rest := by
  simp only [NumberLiteral.unsignedText, List.append_assoc] at h
  obtain ⟨c1, h1, hc1⟩ := readWhole_text atEnd h (fractionText_append_head hr)
  obtain ⟨c2, h2, hc2⟩ := readFraction_text atEnd hr hc1
  obtain ⟨start, c3, h3, hc3⟩ := readExponent_text atEnd hr hc2
  refine ⟨start, c3, ?_, hc3⟩
  unfold readNumeral
  simp only [h1, h2, h3]
  rfl

/-! ## What a number stands for -/

/-- What the literal stands for, if that is in range. -/
def NumberLiteral.number? (n : NumberLiteral) : Option Number :=
  if n.numeral.exponentTooLarge?.isSome then none
  else if n.numeral.number.inRange then some n.numeral.number
  else none

theorem readNumber_text {c : Cursor} (hr : Ends rest) (h : c.rest = n.unsignedText ++ rest) :
    Yields (readNumber n.negative c) n.number? rest := by
  obtain ⟨start, c', hc, hrest⟩ := readNumeral_text .endInValue n.negative hr h
  have hn : { n.numeral with negative := n.negative } = n.numeral := rfl
  rw [hn] at hc
  unfold readNumber NumberLiteral.number?
  simp only [hc]
  cases n.numeral.exponentTooLarge? with
  | some digits => exact ⟨_, rfl⟩
  | none =>
    simp only [Option.isSome_none, Bool.false_eq_true, if_false]
    split
    · exact ⟨c', rfl, hrest⟩
    · exact ⟨_, rfl⟩

/-! ## Values of known types -/

theorem isJsonBlank_of_isDigit {x : Char} (h : x.isDigit = true) : isJsonBlank x = false := by
  rw [Bool.eq_false_iff]
  intro hb
  simp only [isJsonBlank, Bool.or_eq_true, beq_iff_eq] at hb
  rcases hb with ((rfl | rfl) | rfl) | rfl <;> cases h

/-- The first character of a number. -/
theorem text_number_head (n : NumberLiteral) (rest : List Char) :
    ∃ x tail, n.text ++ rest = x :: tail ∧ isJsonBlank x = false ∧
      (n.negative = true ∧ x = '-' ∧ tail = n.unsignedText ++ rest ∨
        n.negative = false ∧ x.isDigit = true ∧ x :: tail = n.unsignedText ++ rest) := by
  rw [NumberLiteral.text_eq]
  cases hs : n.negative with
  | true => exact ⟨'-', n.unsignedText ++ rest, rfl, rfl, Or.inl ⟨rfl, rfl, rfl⟩⟩
  | false =>
    obtain ⟨x, tail, hx, hdigit⟩ := n.whole.exists_cons
    refine ⟨x, tail ++ (n.fractionText ++ n.exponentText) ++ rest, ?_, ?_, Or.inr ⟨rfl, hdigit, ?_⟩⟩
    · simp [NumberLiteral.unsignedText, hx]
    · exact isJsonBlank_of_isDigit hdigit
    · simp [NumberLiteral.unsignedText, hx]

theorem readNumberValue_text (expected : String) {c : Cursor} {blanks : List Blank}
    (hr : Ends rest) (h : c.rest = blankText blanks ++ (n.text ++ rest)) :
    Yields (readNumberValue expected c) n.number? rest := by
  obtain ⟨x, tail, hx, hblank, hcase⟩ := text_number_head n rest
  rw [hx] at h
  have hskip := skipBlanks_rest_eq h hblank
  unfold readNumberValue
  simp only [hskip]
  rcases hcase with ⟨hs, rfl, htail⟩ | ⟨hs, hdigit, htail⟩
  · rw [if_pos rfl]
    have hnum := readNumber_text (n := n) hr ((advance_rest hskip).trans htail)
    rw [hs] at hnum
    exact hnum
  · have hne : x ≠ '-' := by
      rintro rfl
      cases hdigit
    rw [if_neg hne, if_pos hdigit]
    have hnum := readNumber_text (n := n) hr (hskip.trans htail)
    rw [hs] at hnum
    exact hnum

end VectorBench.Json
