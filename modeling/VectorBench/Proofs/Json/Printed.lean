import VectorBench.Json.Tree
import VectorBench.Proofs.Decimal.ReadBack
import VectorBench.Proofs.Json.Denotation

/-!
# What printed strings and numbers are

Every string, natural number and 64-bit number that is printed is one of the grammar, and it stands
for what was printed: the string denotes its text, the natural number has neither sign nor fraction
nor exponent, and the shortest digits of a finite number are read as this number.

    stringLiteral (textPieces text) = stringText text                          (stringLiteral_eq)
    denoted (textPieces text) = some text.toList                               (denoted_textPieces)
    (NumberLiteral.ofNatural v).text = Nat.toDigits 10 v                       (ofNatural_text)
    (NumberLiteral.ofNatural v).natural? = some v                          (ofNatural_natural?)
    x.isFinite → ∃ n : NumberLiteral,
      n.text = NumberStyle.file.text x ∧ n.ReadAs x ∧ n.RoundsTo .even x               (exists_binary)
-/

namespace VectorBench.Json

/-! ## Strings -/

theorem div_sixteen_lt {n : Nat} (h : n < 0x20) : n / 16 < 16 := by omega

theorem mod_sixteen_lt (n : Nat) : n % 16 < 16 := by omega

def StringPiece.control (c : Char) (h : c.toNat < 0x20) : StringPiece :=
  .code ⟨⟨0, by decide⟩, false⟩ ⟨⟨0, by decide⟩, false⟩
    ⟨⟨c.toNat / 16, div_sixteen_lt h⟩, false⟩ ⟨⟨c.toNat % 16, mod_sixteen_lt c.toNat⟩, false⟩

/-- The piece that a character is printed as. -/
def StringPiece.ofChar (c : Char) : StringPiece :=
  if hq : c = '"' then .escape .quote
  else if hb : c = '\\' then .escape .backslash
  else if c = '\x08' then .escape .backspace
  else if c = '\x0c' then .escape .formFeed
  else if c = '\n' then .escape .lineFeed
  else if c = '\r' then .escape .carriageReturn
  else if c = '\t' then .escape .tab
  else if h : c.toNat < 0x20 then .control c h
  else .plain c ⟨Nat.le_of_not_lt h, hq, hb⟩

def textPieces (text : String) : List StringPiece := text.toList.map StringPiece.ofChar

theorem ofChar_text (c : Char) : (StringPiece.ofChar c).text = stringChar c := by
  unfold StringPiece.ofChar stringChar
  split
  · rfl
  · split
    · rfl
    · split
      · rfl
      · split
        · rfl
        · split
          · rfl
          · split
            · rfl
            · split
              · rfl
              · split
                · rfl
                · rfl

theorem stringLiteral_eq (text : String) : stringLiteral (textPieces text) = stringText text := by
  unfold stringLiteral stringText textPieces
  rw [List.flatMap_map]
  simp only [ofChar_text]

theorem denoted_code {a b c d : HexDigit} {rest : List StringPiece}
    (h : unitValue a b c d < 0xd800) :
    denoted (.code a b c d :: rest) =
      (denoted rest).map (Char.ofNat (unitValue a b c d) :: ·) := by
  rw [denoted.eq_def]
  exact if_pos (Or.inl h)

theorem denoted_control_cons {c : Char} (h : c.toNat < 0x20) (rest : List StringPiece) :
    denoted (.control c h :: rest) = (denoted rest).map (c :: ·) := by
  have hunit : unitValue ⟨⟨0, by decide⟩, false⟩ ⟨⟨0, by decide⟩, false⟩
      ⟨⟨c.toNat / 16, div_sixteen_lt h⟩, false⟩ ⟨⟨c.toNat % 16, mod_sixteen_lt c.toNat⟩, false⟩ =
      c.toNat := by
    simp only [unitValue]
    omega
  unfold StringPiece.control
  rw [denoted_code (by rw [hunit]; omega), hunit, Char.ofNat_toNat]

theorem denoted_ofChar_cons (c : Char) (rest : List StringPiece) :
    denoted (.ofChar c :: rest) = (denoted rest).map (c :: ·) := by
  unfold StringPiece.ofChar
  split
  · rename_i h
    rw [h]
    rfl
  · split
    · rename_i h
      rw [h]
      rfl
    · split
      · rename_i h
        rw [h]
        rfl
      · split
        · rename_i h
          rw [h]
          rfl
        · split
          · rename_i h
            rw [h]
            rfl
          · split
            · rename_i h
              rw [h]
              rfl
            · split
              · rename_i h
                rw [h]
                rfl
              · split
                · rename_i h
                  exact denoted_control_cons h rest
                · rfl

theorem denoted_map_ofChar (text : List Char) :
    denoted (text.map StringPiece.ofChar) = some text := by
  induction text with
  | nil => rfl
  | cons c text ih => rw [List.map_cons, denoted_ofChar_cons, ih, Option.map_some]

/-- A printed string denotes its text. -/
theorem denoted_textPieces (text : String) : denoted (textPieces text) = some text.toList :=
  denoted_map_ofChar text.toList

/-! ## Natural numbers -/

def Digits.ofNat (v : Nat) : Digits where
  chars := Nat.toDigits 10 v
  ne_nil := Nat.toDigits_ne_nil
  all_digits _ hc := Nat.isDigit_of_mem_toDigits (by decide) (by decide) hc

theorem Digits.ofNat_value (v : Nat) : (ofNat v).value = v := Nat.ofDigitChars_ten_toDigits

/-- The first digit of a number other than zero is not zero. -/
theorem toDigits_head {v : Nat} (h : v ≠ 0) : (Nat.toDigits 10 v).head? ≠ some '0' := by
  intro h0
  obtain ⟨tail, htail⟩ : ∃ tail, Nat.toDigits 10 v = '0' :: tail := by
    cases hd : Nat.toDigits 10 v with
    | nil => rw [hd] at h0; cases h0
    | cons c tail =>
      rw [hd] at h0
      cases h0
      exact ⟨tail, rfl⟩
  have hvalue : Nat.ofDigitChars 10 (Nat.toDigits 10 v) 0 = v := Nat.ofDigitChars_ten_toDigits
  have hlow := pow_digitCount_le h
  have hlt := ofDigitChars_lt (l := tail) fun c hc =>
    (Digits.ofNat v).all_digits c (by
      change c ∈ Nat.toDigits 10 v
      rw [htail]
      exact List.mem_cons_of_mem _ hc)
  unfold digitCount at hlow
  rw [htail, List.length_cons, Nat.add_sub_cancel] at hlow
  rw [htail, ofDigitChars_cons_eq] at hvalue
  simp at hvalue
  omega

def NumberLiteral.ofNatural (v : Nat) : NumberLiteral where
  negative := false
  whole := .ofNat v
  fraction := none
  exponent := none
  whole_canonical := by
    by_cases h : v = 0
    · rw [h]
      exact Or.inl rfl
    · exact Or.inr (toDigits_head h)

theorem ofNatural_text (v : Nat) : (NumberLiteral.ofNatural v).text = Nat.toDigits 10 v := by
  simp [NumberLiteral.text, NumberLiteral.ofNatural, Digits.ofNat]

theorem ofNatural_natural? (v : Nat) : (NumberLiteral.ofNatural v).natural? = some v := by
  simp [NumberLiteral.natural?, NumberLiteral.ofNatural, Digits.ofNat_value]

/-! ## Digits with a point or an exponent -/

/-- A literal with the given sign and text, of which the value is `0.digits * 10 ^ (lead + 1)`. -/
structure Writes (n : NumberLiteral) (negative : Bool) (text : List Char) (digits : Digits)
    (lead : Int) : Prop where
  sign : n.negative = negative
  text : n.text = (if negative then ['-'] else []) ++ text
  value : n.decimal.value = digits.value * 10 ^ (lead + 1 - digits.chars.length)
  coefficient : n.decimal.coefficient < 10 ^ Numeral.maxDigits
  exponent : n.exponentValue.natAbs ≤ 2147483647

def ExponentPart.ofInt (lead : Int) : ExponentPart where
  upper := false
  sign := if lead < 0 then .minus else .plus
  digits := .ofNat lead.natAbs

theorem ExponentPart.ofInt_value (lead : Int) : (ofInt lead).value = lead := by
  by_cases hneg : lead < 0
  · simp [ofInt, ExponentPart.value, hneg, Digits.ofNat_value, abs_of_neg]
  · simp [ofInt, ExponentPart.value, hneg, Digits.ofNat_value]
    omega

theorem ExponentPart.ofInt_text (lead : Int) :
    (ofInt lead).text =
      'e' :: (if lead < 0 then '-' else '+') :: Nat.toDigits 10 lead.natAbs := by
  by_cases hneg : lead < 0
  · simp [ofInt, ExponentPart.text, ExponentSign.text, hneg, Digits.ofNat]
  · simp [ofInt, ExponentPart.text, ExponentSign.text, hneg, Digits.ofNat]

section Digits

variable {digits : Digits} {lead : Int} (negative : Bool)
  (hhead : digits.chars.head? ≠ some '0') (hlen : digits.chars.length ≤ Numeral.maxDigits)

theorem value_lt_of_length_le (digits : Digits) (hlen : digits.chars.length ≤ Numeral.maxDigits) :
    Nat.ofDigitChars 10 digits.chars 0 < 10 ^ Numeral.maxDigits :=
  Nat.lt_of_lt_of_le (ofDigitChars_lt digits.all_digits) (Nat.pow_le_pow_right (by decide) hlen)

include hlen in
/-- Digits behind the point. -/
theorem exists_small (hlead : lead < 0) :
    ∃ n, Writes n negative (NumberStyle.positionalText true digits.chars lead) digits lead := by
  obtain ⟨zeros, hzeros⟩ : ∃ z : Nat, -lead - 1 = z := ⟨(-lead - 1).toNat, by omega⟩
  have hall : ∀ c ∈ List.replicate zeros '0' ++ digits.chars, c.isDigit = true :=
    List.forall_mem_append.2 ⟨replicate_isDigit zeros, digits.all_digits⟩
  have hchars : Nat.ofDigitChars 10 (['0'] ++ (List.replicate zeros '0' ++ digits.chars)) 0 =
      digits.value := by
    have hzero : Nat.ofDigitChars 10 ['0'] 0 = 0 := rfl
    rw [← List.append_assoc, ofDigitChars_append_eq, ofDigitChars_append_eq,
      Nat.ofDigitChars_replicate_zero, hzero]
    simp [Digits.value]
  refine ⟨⟨negative, ⟨['0'], by simp, by simp⟩,
    some ⟨List.replicate zeros '0' ++ digits.chars, by simp [digits.ne_nil], hall⟩, none,
    Or.inl rfl⟩, rfl, ?_, ?_, ?_, by simp [NumberLiteral.exponentValue]⟩
  · simp [NumberLiteral.text, NumberLiteral.fractionChars, NumberStyle.positionalText, hlead, hzeros]
  · rw [NumberLiteral.decimal, Decimal.value_ofDigits]
    simp only [NumberLiteral.fractionChars, NumberLiteral.exponentValue, hchars]
    congr 2
    rw [List.length_append, List.length_replicate]
    omega
  · rw [NumberLiteral.decimal, Decimal.ofDigits]
    simp only [NumberLiteral.fractionChars, hchars]
    exact value_lt_of_length_le digits hlen

include hhead hlen in
/-- Digits on both sides of the point. -/
theorem exists_mixed (hlead : 0 ≤ lead) (hmixed : lead + 1 < digits.chars.length) :
    ∃ n, Writes n negative (NumberStyle.positionalText true digits.chars lead) digits lead := by
  obtain ⟨whole, hwhole⟩ : ∃ w : Nat, lead + 1 = w := ⟨(lead + 1).toNat, by omega⟩
  have hpos : 0 < whole := by omega
  have hlt : whole < digits.chars.length := by omega
  refine ⟨⟨negative, ⟨digits.chars.take whole, ?_, ?_⟩, some ⟨digits.chars.drop whole, ?_, ?_⟩, none,
    Or.inr ?_⟩, rfl, ?_, ?_, ?_, by simp [NumberLiteral.exponentValue]⟩
  · rw [Ne, List.take_eq_nil_iff]
    have := digits.ne_nil
    simp [this]
    omega
  · exact fun c hc => digits.all_digits c (List.mem_of_mem_take hc)
  · rw [Ne, List.drop_eq_nil_iff]
    omega
  · exact fun c hc => digits.all_digits c (List.mem_of_mem_drop hc)
  · rw [List.head?_take, if_neg (by omega)]
    exact hhead
  · have hnot : ¬ lead < 0 := by omega
    have hnat : (lead + 1).toNat = whole := by omega
    simp [NumberLiteral.text, NumberLiteral.fractionChars, NumberStyle.positionalText, hnot, hnat, hlt]
  · rw [NumberLiteral.decimal, Decimal.value_ofDigits]
    simp only [NumberLiteral.fractionChars, NumberLiteral.exponentValue, List.take_append_drop,
      Digits.value]
    congr 2
    rw [List.length_drop]
    omega
  · rw [NumberLiteral.decimal, Decimal.ofDigits]
    simp only [NumberLiteral.fractionChars, List.take_append_drop]
    exact value_lt_of_length_le digits hlen

include hhead in
/-- Digits before the point. -/
theorem exists_whole (hlead : 0 ≤ lead) (hwhole : digits.chars.length ≤ lead + 1)
    (hmost : lead ≤ 15) :
    ∃ n, Writes n negative (NumberStyle.positionalText true digits.chars lead) digits lead := by
  obtain ⟨zeros, hzeros⟩ : ∃ z : Nat, lead + 1 - digits.chars.length = z :=
    ⟨(lead + 1 - digits.chars.length).toNat, by omega⟩
  have hall : ∀ c ∈ digits.chars ++ List.replicate zeros '0', c.isDigit = true :=
    List.forall_mem_append.2 ⟨digits.all_digits, replicate_isDigit zeros⟩
  have hchars : Nat.ofDigitChars 10 (digits.chars ++ List.replicate zeros '0' ++ ['0']) 0 =
      10 ^ (zeros + 1) * digits.value := by
    have hzero : Nat.ofDigitChars 10 ['0'] 0 = 0 := rfl
    rw [ofDigitChars_append_eq, ofDigitChars_append_eq _ (List.replicate zeros '0'),
      Nat.ofDigitChars_replicate_zero, hzero]
    simp [Digits.value, Nat.pow_succ]
    ring
  refine ⟨⟨negative, ⟨digits.chars ++ List.replicate zeros '0', by simp [digits.ne_nil], hall⟩,
    some ⟨['0'], by simp, by simp⟩, none, Or.inr ?_⟩, rfl, ?_, ?_, ?_,
    by simp [NumberLiteral.exponentValue]⟩
  · rw [List.head?_append_of_ne_nil _ digits.ne_nil]
    exact hhead
  · have hnot : ¬ lead < 0 := by omega
    have hnot' : ¬ (lead + 1).toNat < digits.chars.length := by omega
    simp [NumberLiteral.text, NumberLiteral.fractionChars, NumberStyle.positionalText, hnot, hnot',
      hzeros]
  · rw [NumberLiteral.decimal, Decimal.value_ofDigits]
    simp only [NumberLiteral.fractionChars, NumberLiteral.exponentValue, hchars, hzeros]
    push_cast
    rw [List.length_singleton, zero_sub, Nat.cast_one, zpow_neg_one, zpow_natCast]
    field_simp
    ring
  · rw [NumberLiteral.decimal, Decimal.ofDigits]
    simp only [NumberLiteral.fractionChars]
    refine value_lt_of_length_le ⟨digits.chars ++ List.replicate zeros '0' ++ ['0'], by simp, ?_⟩ ?_
    · exact List.forall_mem_append.2 ⟨hall, replicate_isDigit 1⟩
    · have : Numeral.maxDigits = 768 := rfl
      simp only [List.length_append, List.length_replicate, List.length_singleton]
      omega

include hhead hlen in
/-- Digits with an exponent. -/
theorem exists_exponent (hmost : lead.natAbs ≤ 2147483647) :
    ∃ n, Writes n negative (NumberStyle.exponentText digits.chars lead) digits lead := by
  obtain ⟨first, more, hchars, hdigit⟩ := digits.exists_cons
  have hvalue := ExponentPart.ofInt_value lead
  have htext := ExponentPart.ofInt_text lead
  have hcanonical : [first].head? ≠ some '0' := by
    rw [hchars] at hhead
    exact hhead
  have hlt := value_lt_of_length_le digits hlen
  cases more with
  | nil =>
    refine ⟨⟨negative, ⟨[first], by simp, by simp [hdigit]⟩, none, some (.ofInt lead), Or.inr hcanonical⟩,
      rfl, ?_, ?_, ?_, ?_⟩
    · simp [NumberLiteral.text, NumberStyle.exponentText, hchars, htext]
    · rw [NumberLiteral.decimal, Decimal.value_ofDigits]
      simp [NumberLiteral.fractionChars, NumberLiteral.exponentValue, hvalue, Digits.value, hchars]
    · rw [NumberLiteral.decimal, Decimal.ofDigits]
      rw [hchars] at hlt
      exact hlt
    · simpa [NumberLiteral.exponentValue, hvalue] using hmost
  | cons second more =>
    have hall : ∀ c ∈ second :: more, c.isDigit = true := by
      intro c hc
      exact digits.all_digits c (by rw [hchars]; exact List.mem_cons_of_mem first hc)
    refine ⟨⟨negative, ⟨[first], by simp, by simp [hdigit]⟩, some ⟨second :: more, by simp, hall⟩,
      some (.ofInt lead), Or.inr hcanonical⟩, rfl, ?_, ?_, ?_, ?_⟩
    · simp [NumberLiteral.text, NumberLiteral.fractionChars, NumberStyle.exponentText, hchars, htext]
    · rw [NumberLiteral.decimal, Decimal.value_ofDigits]
      simp only [NumberLiteral.fractionChars, NumberLiteral.exponentValue, hvalue, Digits.value,
        hchars, List.singleton_append]
      congr 2
      rw [List.length_cons, List.length_cons, List.length_cons]
      push_cast
      ring
    · rw [NumberLiteral.decimal, Decimal.ofDigits]
      rw [hchars] at hlt
      exact hlt
    · simpa [NumberLiteral.exponentValue, hvalue] using hmost

end Digits

/-! ## 64-bit numbers -/

/-- The significant digits of a decimal. -/
theorem exists_significant {d : Decimal} {most : Nat} (h0 : d.coefficient ≠ 0)
    (hmost : most ≤ Numeral.maxDigits) (hlt : d.coefficient < 10 ^ most) :
    ∃ digits : Digits, digits.chars = NumberStyle.significant (Nat.toDigits 10 d.coefficient) ∧
      digits.chars.head? ≠ some '0' ∧ digits.chars.length ≤ Numeral.maxDigits ∧
      d.value = digits.value * 10 ^ (d.leading + 1 - digits.chars.length) := by
  obtain ⟨zeros, hzeros⟩ := exists_trailing_zeros (Nat.toDigits 10 d.coefficient)
  have hsignificant : NumberStyle.significant (Nat.toDigits 10 d.coefficient) =
      ((Nat.toDigits 10 d.coefficient).reverse.dropWhile (· == '0')).reverse := rfl
  rw [← hsignificant] at hzeros
  generalize NumberStyle.significant (Nat.toDigits 10 d.coefficient) = chars at hzeros
  have hvalue : d.coefficient = 10 ^ zeros * Nat.ofDigitChars 10 chars 0 := by
    have h := Nat.ofDigitChars_ten_toDigits (n := d.coefficient)
    rw [hzeros, ofDigitChars_append_eq, Nat.ofDigitChars_replicate_zero, List.length_replicate] at h
    simpa using h.symm
  have hne : chars ≠ [] := by
    rintro rfl
    exact h0 (by simpa using hvalue)
  have hcount : digitCount d.coefficient = chars.length + zeros := by
    unfold digitCount
    rw [hzeros, List.length_append, List.length_replicate]
  have hdigits : ∀ c ∈ chars, c.isDigit = true := by
    intro c hc
    refine (Digits.ofNat d.coefficient).all_digits c ?_
    change c ∈ Nat.toDigits 10 d.coefficient
    rw [hzeros]
    exact List.mem_append_left _ hc
  refine ⟨⟨chars, hne, hdigits⟩, rfl, ?_, ?_, ?_⟩
  · have hhead := toDigits_head h0
    rw [hzeros, List.head?_append_of_ne_nil _ hne] at hhead
    exact hhead
  · have hlt := Nat.lt_of_lt_of_le hlt (Nat.pow_le_pow_right (show 0 < 10 by decide) hmost)
    have hle : digitCount d.coefficient ≤ Numeral.maxDigits :=
      (Nat.length_toDigits_le_iff (by decide) (by decide)).2 hlt
    change chars.length ≤ Numeral.maxDigits
    omega
  · change d.value = Nat.ofDigitChars 10 chars 0 * 10 ^ (d.leading + 1 - chars.length)
    have hexponent : d.leading + 1 - chars.length = zeros + d.exponent := by
      unfold Decimal.leading
      rw [hcount]
      push_cast
      ring
    rw [hexponent, zpow_add₀ (by norm_num), zpow_natCast]
    unfold Decimal.value
    rw [hvalue]
    push_cast
    ring

/-- A literal whose digits are all looked at, with a small exponent, is read as its nearest number. -/
theorem NumberLiteral.RoundsTo.readAs {n : NumberLiteral} {x : Binary64} (h : n.RoundsTo .even x)
    (hcoefficient : n.decimal.coefficient < 10 ^ Numeral.maxDigits)
    (hexponent : n.exponentValue.natAbs ≤ 2147483647) : n.ReadAs x ∧ n.RoundsTo .even x := by
  have hsmall : ¬ n.exponentTooSmall := by
    rw [NumberLiteral.exponentTooSmall]
    omega
  refine ⟨⟨fun hlarge => ?_, fun htoo => absurd htoo hsmall, fun _ => ?_⟩, h⟩
  · have := hlarge.1
    omega
  · rwa [NumberLiteral.tie_of_coefficient_lt hcoefficient]

theorem Writes.readAs {n : NumberLiteral} {x : Binary64} {text : List Char} {digits : Digits}
    {d : Decimal} (h : Writes n x.negative text digits d.leading) (hx : x.isFinite = true)
    (hd : d.toBinary .double x.negative = x)
    (hvalue : d.value = digits.value * 10 ^ (d.leading + 1 - digits.chars.length)) :
    n.ReadAs x ∧ n.RoundsTo .even x := by
  refine NumberLiteral.RoundsTo.readAs ⟨h.sign.symm, ?_, hx⟩ h.coefficient h.exponent
  have hnear := Decimal.toBinary_nearest (f := .double) d x.negative
  rwa [hd, hvalue, ← h.value] at hnear

/-- Zero is printed with its sign. -/
theorem exists_zero {x : Binary64} (hx : x.isFinite = true) (h0 : x.magnitude = 0) :
    ∃ n : NumberLiteral, n.text = (if x.negative then ['-'] else []) ++
      NumberStyle.file.magnitudeText x ∧ n.ReadAs x ∧ n.RoundsTo .even x := by
  have hzero : x.isZero = true := by simp [Binary.isZero, h0]
  have hcoefficient : Nat.ofDigitChars 10 ['0', '0'] 0 = 0 := rfl
  refine ⟨⟨x.negative, ⟨['0'], by simp, by simp⟩, some ⟨['0'], by simp, by simp⟩, none,
    Or.inl rfl⟩, ?_, NumberLiteral.RoundsTo.readAs ⟨rfl, ?_, hx⟩ ?_ ?_⟩
  · simp [NumberLiteral.text, NumberLiteral.fractionChars, NumberStyle.magnitudeText, hzero,
      NumberStyle.file]
  · rw [h0]
    apply nearest_zero
    simp [NumberLiteral.decimal, NumberLiteral.fractionChars, Decimal.value_ofDigits, hcoefficient]
  · change Nat.ofDigitChars 10 ['0', '0'] 0 < _
    rw [hcoefficient]
    exact Nat.pow_pos (by decide)
  · simp [NumberLiteral.exponentValue]

/-- Other digits are printed with a point where it is not too far away, else with an exponent. -/
theorem exists_magnitudeText {x : Binary64} {d : Decimal} {digits : Digits} (h0 : x.magnitude ≠ 0)
    (hd : shortest .even x = d)
    (hchars : digits.chars = NumberStyle.significant (Nat.toDigits 10 d.coefficient))
    (hhead : digits.chars.head? ≠ some '0') (hlen : digits.chars.length ≤ Numeral.maxDigits)
    (hlead : d.leading.natAbs ≤ 2147483647) :
    ∃ n, Writes n x.negative (NumberStyle.file.magnitudeText x) digits d.leading := by
  have hzero : x.isZero = false := by simp [Binary.isZero, h0]
  have hmagnitude : NumberStyle.file.magnitudeText x =
      if -5 ≤ d.leading ∧ d.leading ≤ 15 then
        NumberStyle.positionalText true digits.chars d.leading
      else NumberStyle.exponentText digits.chars d.leading := by
    rw [hchars]
    simp [NumberStyle.magnitudeText, hzero, hd, NumberStyle.file]
  rw [hmagnitude]
  split
  · rename_i hpositional
    rcases lt_or_ge d.leading 0 with hsmall | hlarge
    · exact exists_small x.negative hlen hsmall
    · rcases lt_or_ge (d.leading + 1) digits.chars.length with hmixed | hwhole
      · exact exists_mixed x.negative hhead hlen hlarge hmixed
      · exact exists_whole x.negative hhead hlarge hwhole hpositional.2
  · exact exists_exponent x.negative hhead hlen hlead

/-- A decimal that is read as a finite number other than zero is neither zero nor beyond all
numbers, nor below them. -/
theorem of_toBinary_eq {d : Decimal} {x : Binary64} (h : d.toBinary .double x.negative = x)
    (h0 : x.magnitude ≠ 0) (hlt : x.magnitude < Format.double.infinity) :
    d.coefficient ≠ 0 ∧ d.leading.natAbs ≤ 1074 := by
  have hne : d.coefficient ≠ 0 := by
    intro hc
    rw [Decimal.toBinary, if_pos hc] at h
    rw [← h] at h0
    exact h0 rfl
  have hunit : (Format.double.unitBits : Int) = 1074 := rfl
  have hhigh : ¬ (Format.double.unitBits : Int) < d.leading := by
    intro hlarge
    rw [Decimal.toBinary, if_neg hne, if_pos hlarge] at h
    rw [← h] at hlt
    exact Nat.lt_irrefl _ hlt
  have hlow : ¬ d.leading < -(Format.double.unitBits : Int) := by
    intro hsmall
    rw [Decimal.toBinary, if_neg hne, if_neg hhigh, if_pos hsmall] at h
    rw [← h] at h0
    exact h0 rfl
  rw [hunit] at hhigh hlow
  exact ⟨hne, by omega⟩

/-- Every finite number is printed as a number of the grammar to which it is the nearest, and which
is read as this number. -/
theorem exists_binary {x : Binary64} (hx : x.isFinite = true) :
    ∃ n : NumberLiteral, n.text = NumberStyle.file.text x ∧ n.ReadAs x ∧ n.RoundsTo .even x := by
  have hlt : x.magnitude < Format.double.infinity := by
    simpa [Binary.isFinite] using hx
  have htext : NumberStyle.file.text x =
      (if x.negative then ['-'] else []) ++ NumberStyle.file.magnitudeText x := by
    have hnan : x.isNaN = false := by
      simp [Binary.isNaN]
      omega
    have hinfinite : x.isInfinite = false := by
      simp [Binary.isInfinite]
      omega
    simp [NumberStyle.text, hnan, hinfinite]
  rw [htext]
  by_cases h0 : x.magnitude = 0
  · exact exists_zero hx h0
  · obtain ⟨d, hd⟩ : ∃ d, shortest .even x = d := ⟨_, rfl⟩
    have hback := shortest_toBinary .even (Nat.le_of_lt hlt)
    have hbound := shortest_coefficient_lt .even h0 hlt
    rw [hd] at hback hbound
    obtain ⟨hne, hlead⟩ := of_toBinary_eq hback h0 hlt
    obtain ⟨digits, hchars, hhead, hlen, hvalue⟩ := exists_significant hne (Nat.le_refl 768) hbound
    obtain ⟨n, hn⟩ := exists_magnitudeText h0 hd hchars hhead hlen (by omega)
    exact ⟨n, hn.text, hn.readAs hx hback hvalue⟩

end VectorBench.Json
