import VectorBench.Decimal.Fixed
import VectorBench.Proofs.Binary.Value
import VectorBench.Proofs.Decimal.Digits
import VectorBench.Proofs.Decimal.Nearest

/-!
# Fixed places read back

A number with a fixed count of places is written as its nearest decimal.  The text is read without the
number it came from: a sign, digits, a point and as many digits as there are places.  What is read is
the integer nearest to the exact value in units of the last place, a half going to the even one, so
that rounding keeps the order and a carry, a tie or an infinity cannot turn a comparison round.

    NearestInt q d → NearestInt r e → q ≤ r → d ≤ e                                (NearestInt.mono)
    Prints places x (x.fixed places), for all finite x                               (prints_fixed)
    x ≤ y → what is read for x ≤ what is read for y                              (Prints.value_mono)
-/

namespace VectorBench

/-! ## Nearest integers -/

/-- No integer is nearer to `q` than `d`, and `d` is even if another one is as near. -/
structure NearestInt (q : ℚ) (d : ℤ) : Prop where
  near : ∀ k : ℤ, |(d : ℚ) - q| ≤ |(k : ℚ) - q|
  even : ∀ k : ℤ, k ≠ d → |(d : ℚ) - q| = |(k : ℚ) - q| → d % 2 = 0

variable {q r : ℚ} {d e : ℤ}

/-- Being nearest is a matter of the midpoints with the two neighbours. -/
theorem nearestInt_iff : NearestInt q d ↔
    (2 * (d : ℚ) - 1 ≤ 2 * q ∧ (2 * q = 2 * d - 1 → d % 2 = 0)) ∧
      2 * q ≤ 2 * d + 1 ∧ (2 * q = 2 * d + 1 → d % 2 = 0) := by
  have hcast {j k : ℤ} (h : j < k) : (j : ℚ) < k := Int.cast_lt.2 h
  have hbelow := hcast (Int.sub_one_lt_of_le (le_refl d))
  have habove := hcast (Int.lt_succ d)
  constructor
  · intro h
    have hlow := (abs_sub_le_iff_of_lt hbelow).1 (h.near (d - 1))
    have hhigh := (abs_sub_le_iff_of_gt habove).1 (h.near (d + 1))
    push_cast at hlow hhigh
    refine ⟨⟨by linarith, fun htie => h.even (d - 1) (by omega) ?_⟩,
      by linarith, fun htie => h.even (d + 1) (by omega) ?_⟩
    · exact (abs_sub_eq_iff hbelow).2 (by push_cast; linarith)
    · exact ((abs_sub_eq_iff habove).2 (by push_cast; linarith)).symm
  · rintro ⟨⟨hlow, hlowTie⟩, hhigh, hhighTie⟩
    -- an integer further away than a neighbour is no nearer, and as near only if it is the neighbour
    have hless : ∀ k : ℤ, k < d → (k : ℚ) ≤ d - 1 := fun k hk => by
      exact_mod_cast Int.le_sub_one_of_lt hk
    have hmore : ∀ k : ℤ, d < k → (d : ℚ) + 1 ≤ k := fun k hk => by exact_mod_cast hk
    refine ⟨fun k => ?_, fun k hne htie => ?_⟩
    · rcases lt_trichotomy k d with hk | rfl | hk
      · exact (abs_sub_le_iff_of_lt (hcast hk)).2 (by linarith [hless k hk])
      · exact le_rfl
      · exact (abs_sub_le_iff_of_gt (hcast hk)).2 (by linarith [hmore k hk])
    · rcases lt_or_gt_of_ne hne with hk | hk
      · have hmid := (abs_sub_eq_iff (hcast hk)).1 htie
        exact hlowTie (by linarith [hless k hk])
      · have hmid := (abs_sub_eq_iff (hcast hk)).1 htie.symm
        exact hhighTie (by linarith [hmore k hk])

/-- Rounding keeps the order. -/
theorem NearestInt.mono (hd : NearestInt q d) (he : NearestInt r e) (h : q ≤ r) : d ≤ e := by
  obtain ⟨⟨hlow, hlowTie⟩, -⟩ := nearestInt_iff.1 hd
  obtain ⟨-, hhigh, hhighTie⟩ := nearestInt_iff.1 he
  by_contra hlt
  -- two neighbours with one midpoint, which would both be even
  have hstep : (e : ℚ) + 1 ≤ d := by exact_mod_cast Int.not_le.1 hlt
  have hnext : (d : ℚ) = e + 1 := by linarith
  have hdeven := hlowTie (by linarith)
  have heeven := hhighTie (by linarith)
  have hnext' : d = e + 1 := by exact_mod_cast hnext
  omega

theorem NearestInt.neg (h : NearestInt q d) : NearestInt (-q) (-d) := by
  obtain ⟨⟨hlow, hlowTie⟩, hhigh, hhighTie⟩ := nearestInt_iff.1 h
  refine nearestInt_iff.2 ?_
  push_cast
  refine ⟨⟨by linarith, fun htie => ?_⟩, by linarith, fun htie => ?_⟩
  · have := hhighTie (by linarith)
    omega
  · have := hlowTie (by linarith)
    omega

theorem roundHalfEven_nearestInt (n : Nat) {m : Nat} (hm : 0 < m) :
    NearestInt (n / m) (roundHalfEven n m) := by
  obtain ⟨hhigh, hlow⟩ := roundHalfEven_near n m hm
  have heven := roundHalfEven_even (n := n) hm
  have hmq : (0 : ℚ) < m := by exact_mod_cast hm
  generalize roundHalfEven n m = g at *
  have hhigh' : 2 * (n : ℚ) ≤ 2 * (g * m) + m := by exact_mod_cast hhigh
  have hlow' : 2 * ((g : ℚ) * m) ≤ 2 * n + m := by exact_mod_cast hlow
  have hvalue : 2 * ((n : ℚ) / m) = 2 * n / m := by rw [mul_div_assoc]
  rw [nearestInt_iff, hvalue, Int.cast_natCast, le_div_iff₀ hmq, div_le_iff₀ hmq,
    div_eq_iff hmq.ne', div_eq_iff hmq.ne']
  refine ⟨⟨by linarith, fun htie => ?_⟩, by linarith, fun htie => ?_⟩
  · have hhalf : 2 * (g * m) = 2 * n + m := by
      have : 2 * ((g : ℚ) * m) = 2 * n + m := by linarith
      exact_mod_cast this
    have := heven (.inr hhalf)
    omega
  · have hhalf : 2 * n = 2 * (g * m) + m := by
      have : 2 * (n : ℚ) = 2 * (g * m) + m := by linarith
      exact_mod_cast this
    have := heven (.inl hhalf)
    omega

/-! ## The last places -/

/-- The last places of a number with its sign. -/
def signedFixedUnits (places : Nat) (x : Binary64) : ℤ :=
  if x.negative then -(fixedUnits places x : ℤ) else fixedUnits places x

theorem signedFixedUnits_nearestInt (places : Nat) (x : Binary64) :
    NearestInt (x.value * 10 ^ places) (signedFixedUnits places x) := by
  have habs : NearestInt (|x.value| * 10 ^ places) (fixedUnits places x) := by
    have hround := roundHalfEven_nearestInt (x.ratio.1 * tenPower places) x.ratio_snd_pos
    rwa [tenPower_eq_pow, Nat.cast_mul, mul_div_right_comm, x.ratio_eq_abs_value, Nat.cast_pow,
      Nat.cast_ofNat] at hround
  unfold signedFixedUnits
  cases hsign : x.negative with
  | false =>
    have hvalue : |x.value| = x.value := by
      rw [Binary.abs_value, Binary.value_of_positive hsign]
    rw [if_neg Bool.false_ne_true, ← hvalue]
    exact habs
  | true =>
    have hvalue : x.value = -|x.value| := by
      rw [Binary.abs_value, Binary.value, Binary.signedUnits, if_pos hsign]
      push_cast
      rw [neg_div]
    rw [if_pos rfl, hvalue, neg_mul]
    exact habs.neg

/-! ## Reading -/

/-- A number as it is printed. -/
inductive Shown where
  | decimal (negative : Bool) (d : Decimal)
  | infinite

/-- The number that is shown; infinity is larger than all others. -/
def Shown.value : Shown → WithTop ℚ
  | decimal negative d => ((if negative then -d.value else d.value : ℚ) : WithTop ℚ)
  | infinite => ⊤

/-- Digits, a point and digits; an exponent is not read. -/
def readPlaces? (text : List Char) : Option Decimal :=
  let whole := text.takeWhile Char.isDigit
  match text.dropWhile Char.isDigit with
  | '.' :: fraction =>
    if whole.isEmpty || fraction.isEmpty || !fraction.all Char.isDigit then none
    else some (.ofDigits whole fraction 0)
  | _ => none

/-- What a printed number shows. -/
def readShown? (text : String) : Option Shown :=
  match text.toList with
  | ['i', 'n', 'f'] => some .infinite
  | '-' :: digits => (readPlaces? digits).map (.decimal true)
  | digits => (readPlaces? digits).map (.decimal false)

theorem readPlaces?_append {whole fraction : List Char} (hwhole : ∀ c ∈ whole, c.isDigit = true)
    (hfraction : ∀ c ∈ fraction, c.isDigit = true) (hw : whole ≠ []) (hf : fraction ≠ []) :
    readPlaces? (whole ++ '.' :: fraction) = some (.ofDigits whole fraction 0) := by
  have hpoint : ¬ ('.'.isDigit = true) := by decide
  simp only [readPlaces?, List.takeWhile_append_of_pos hwhole, List.dropWhile_append_of_pos hwhole,
    List.takeWhile_cons_of_neg hpoint, List.dropWhile_cons_of_neg hpoint, List.append_nil]
  rw [if_neg]
  simpa [hw, hf] using hfraction

/-- No other reading starts with a digit, so the sign is what tells the cases apart. -/
theorem readShown?_places {negative : Bool} {c : Char} {rest : List Char} {d : Decimal}
    (hc : c.isDigit = true) (h : readPlaces? (c :: rest) = some d) :
    readShown? (String.ofList ((if negative then ['-'] else []) ++ c :: rest)) =
      some (.decimal negative d) := by
  rw [readShown?, String.toList_ofList]
  cases negative with
  | true =>
    show (readPlaces? (c :: rest)).map _ = _
    rw [h]
    rfl
  | false =>
    rw [if_neg Bool.false_ne_true, List.nil_append]
    split
    · rename_i hinf
      rw [(List.cons.inj hinf).1] at hc
      cases hc
    · rename_i hminus
      rw [(List.cons.inj hminus).1] at hc
      cases hc
    · rw [h]
      rfl

/-! ## The digits that are written -/

theorem padLeft_isDigit {width : Nat} {digits : List Char} (h : ∀ c ∈ digits, c.isDigit = true) :
    ∀ c ∈ padLeft width digits, c.isDigit = true := by
  intro c hc
  rcases List.mem_append.1 hc with hc | hc
  · exact replicate_isDigit _ c hc
  · exact h c hc

theorem padLeft_length {width : Nat} {digits : List Char} (h : digits.length ≤ width) :
    (padLeft width digits).length = width := by
  rw [padLeft, List.length_append, List.length_replicate]
  omega

theorem ofDigitChars_padLeft (width : Nat) (digits : List Char) :
    Nat.ofDigitChars 10 (padLeft width digits) 0 = Nat.ofDigitChars 10 digits 0 := by
  rw [padLeft, Nat.ofDigitChars_append, Nat.ofDigitChars_replicate_zero]
  simp

/-- The whole part and the places behind the point, read as one number. -/
theorem ofDigits_fixed {places : Nat} (hplaces : 0 < places) (units : Nat) :
    Decimal.ofDigits (Nat.toDigits 10 (units / tenPower places))
        (padLeft places (Nat.toDigits 10 (units % tenPower places))) 0 =
      ⟨units, -places⟩ := by
  have hlt : units % 10 ^ places < 10 ^ places := Nat.mod_lt _ (Nat.pow_pos (by decide))
  have hlength := padLeft_length ((Nat.length_toDigits_le_iff (by decide) hplaces).2 hlt)
  rw [tenPower_eq_pow, Decimal.ofDigits, ofDigitChars_append_eq, hlength, ofDigitChars_padLeft,
    Nat.ofDigitChars_ten_toDigits, Nat.ofDigitChars_ten_toDigits, Nat.div_add_mod]
  simp

/-! ## What is printed -/

/-- A text shows a number of the report to the given places: the nearest decimal with as many digits
behind the point and the sign of the number, or infinity. -/
inductive Prints (places : Nat) (x : Binary64) (text : String) : Prop
  | decimal {units : Nat} : x.isFinite = true →
    readShown? text = some (.decimal x.negative ⟨units, -places⟩) →
    NearestInt (x.value * 10 ^ places) (if x.negative then -(units : ℤ) else units) →
    Prints places x text
  | infinite : x = .infinity false → readShown? text = some .infinite → Prints places x text

variable {places : Nat} {x y : Binary64} {text : String}

theorem prints_fixed (hplaces : 0 < places) (hx : x.isFinite = true) :
    Prints places x (x.fixed places) := by
  refine .decimal hx ?_ (signedFixedUnits_nearestInt places x)
  have hdigit : ∀ n, ∀ c ∈ Nat.toDigits 10 n, c.isDigit = true := fun n c hc =>
    Nat.isDigit_of_mem_toDigits (by decide) (by decide) hc
  have hunits := ofDigits_fixed hplaces (fixedUnits places x)
  simp only [Binary.fixed, fixedText, Binary.isNaN_eq_false_of_isFinite hx,
    Binary.isInfinite_eq_false_of_isFinite hx, Bool.false_eq_true, if_false]
  generalize hwhole : Nat.toDigits 10 (fixedUnits places x / tenPower places) = whole at *
  generalize hfraction : padLeft places (Nat.toDigits 10 (fixedUnits places x % tenPower places)) =
    fraction at *
  have hw : ∀ c ∈ whole, c.isDigit = true := hwhole ▸ hdigit _
  have hf : ∀ c ∈ fraction, c.isDigit = true := hfraction ▸ padLeft_isDigit (hdigit _)
  have hne : fraction ≠ [] := by
    rintro rfl
    exact absurd (congrArg Decimal.exponent hunits) (by simp [Decimal.ofDigits]; omega)
  cases whole with
  | nil => exact absurd hwhole Nat.toDigits_ne_nil
  | cons c rest =>
    have hread := readPlaces?_append hw hf (List.cons_ne_nil c rest) hne
    rw [hunits] at hread
    exact readShown?_places (hw c List.mem_cons_self) hread

/-- A carry through the point, and a tie. -/
example : Binary.fixed 3 (.ofBits .double 0x3feffbe76c8b4396) = "1.000" ∧
    Binary.fixed 3 (.ofBits .double 0x3fb0000000000000) = "0.062" := by decide +kernel

theorem prints_fixed_infinity (places : Nat) :
    Prints places (.infinity false) (Binary.fixed places (.infinity false)) := by
  have htext : fixedText places (.infinity false) = ['i', 'n', 'f'] := rfl
  refine .infinite rfl ?_
  rw [Binary.fixed, htext]
  rfl

theorem Shown.value_decimal (negative : Bool) (units places : Nat) :
    (Shown.decimal negative ⟨units, -places⟩).value =
      (((if negative then -(units : ℤ) else units : ℤ) / 10 ^ places : ℚ) : WithTop ℚ) := by
  have hvalue : Decimal.value ⟨units, -places⟩ = units / 10 ^ places := by
    rw [Decimal.value, zpow_neg, zpow_natCast, div_eq_mul_inv]
  rw [value, hvalue]
  cases negative with
  | false => simp
  | true => simp [neg_div]

/-- Numbers in order are shown in order. -/
theorem Prints.value_mono {text' : String} (hx : Prints places x text) (hy : Prints places y text')
    (h : x.le y = true) : ∃ a b, readShown? text = some a ∧ readShown? text' = some b ∧
      a.value ≤ b.value := by
  cases hx with
  | @decimal m hxf hread hnear =>
    cases hy with
    | @decimal n hyf hread' hnear' =>
      refine ⟨_, _, hread, hread', ?_⟩
      have hscale : (0 : ℚ) < 10 ^ places := by positivity
      have hle := hnear.mono hnear'
        (mul_le_mul_of_nonneg_right (Binary.value_mono h) hscale.le)
      rw [Shown.value_decimal, Shown.value_decimal, WithTop.coe_le_coe]
      exact div_le_div_of_nonneg_right (by exact_mod_cast hle) hscale.le
    | infinite _ hread' => exact ⟨_, _, hread, hread', le_top⟩
  | infinite hxi hread =>
    subst hxi
    cases hy with
    | decimal hyf _ _ =>
      -- no finite number has the place of infinity or one above it
      have hle := (Binary.le_eq_true_iff.1 h).2.2
      have hlt : y.magnitude < Format.double.infinity := decide_eq_true_iff.1 hyf
      have hinf : (Binary.infinity false : Binary64).signedMagnitude = Format.double.infinity := rfl
      rw [hinf, Binary.signedMagnitude] at hle
      split at hle <;> omega
    | infinite _ hread' => exact ⟨_, _, hread, hread', le_rfl⟩

end VectorBench
