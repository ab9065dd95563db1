import VectorBench.Proofs.Json.Printed
import VectorBench.Proofs.Record.Decode
import VectorBench.Proofs.Record.Layout
import VectorBench.Store

/-!
# The language of records

Which texts hold which records: the ones of the documents that describe them, and no others.  A
number of seconds is read as the nearest 64-bit number, but for three kinds of literal.  One is a tie
that is written with more digits than are looked at one by one, zeros included; it goes to the
larger neighbour.  The others have an exponent of more than 32 bits, whatever their value is: with a
large one they are refused, with a small one they are zero.

    Record.decode d.text = .ok r ↔
      Describes ReadAs d.value r.config r.metrics ∧ Fit r.config r.metrics       (decode_text_iff)
-/

namespace VectorBench

open Json (NumberLiteral Digits Document Name Member Value)

/-! ## Literals with many zeros -/

section Literals

open Binary (unitsOf exponentOf significandOf)

variable {zeros : Nat}

theorem ofNat_chars_isDigit (v : Nat) : ∀ c ∈ Nat.toDigits 10 v, c.isDigit = true :=
  (Digits.ofNat v).all_digits

/-- The value of a magnitude of which significand and exponent are known. -/
theorem unitsOf_double {g s e : Nat} (hs : significandOf .double g = s)
    (he : exponentOf .double g = e + Format.double.unitBits) :
    (unitsOf .double g : ℚ) = s * 2 ^ e * 2 ^ Format.double.unitBits := by
  rw [Binary.unitsOf_eq, hs, he, pow_add]
  push_cast
  rw [mul_assoc]

/-- A number with zeros behind it and the exponent that takes them away. -/
def padded (v : Nat) (hv : v ≠ 0) (zeros : Nat) : NumberLiteral where
  negative := false
  whole := ⟨Nat.toDigits 10 v ++ List.replicate zeros '0', by simp [Nat.toDigits_ne_nil],
    fun c hc => (List.mem_append.1 hc).elim (ofNat_chars_isDigit _ c) (replicate_isDigit _ c)⟩
  fraction := none
  exponent := some ⟨false, .minus, .ofNat zeros⟩
  whole_canonical := by
    right
    rw [List.head?_append_of_ne_nil _ Nat.toDigits_ne_nil]
    exact Json.toDigits_head hv

theorem padded_exponentValue (v : Nat) (hv : v ≠ 0) : (padded v hv zeros).exponentValue = -zeros := by
  simp [padded, NumberLiteral.exponentValue, Json.ExponentPart.value, Digits.ofNat_value]

theorem padded_value (v : Nat) (hv : v ≠ 0) : (padded v hv zeros).decimal.value = v := by
  rw [NumberLiteral.decimal, Decimal.value_ofDigits, padded_exponentValue]
  simp only [padded, NumberLiteral.fractionChars]
  rw [List.append_nil, ofDigitChars_append_eq, Nat.ofDigitChars_replicate_zero,
    Nat.ofDigitChars_ten_toDigits, List.length_replicate, List.length_nil, Nat.cast_zero, sub_zero,
    zpow_neg, zpow_natCast, Nat.mul_zero, Nat.add_zero]
  push_cast
  field_simp

/-- The number `9007199254740993`, midway between two 64-bit numbers. -/
def paddedTie : Nat → NumberLiteral := padded 9007199254740993 (by decide)

theorem paddedTie_value : (paddedTie zeros).decimal.value = 9007199254740993 := by
  rw [paddedTie, padded_value]
  rfl

theorem paddedTie_tie (h : 752 < zeros) : (paddedTie zeros).tie = .away := by
  have hfirst : Nat.toDigits 10 9007199254740993 = '9' :: "007199254740993".toList := by decide
  have hdigits : (paddedTie zeros).significantDigits =
      Nat.toDigits 10 9007199254740993 ++ List.replicate zeros '0' := by
    simp [NumberLiteral.significantDigits, paddedTie, padded, NumberLiteral.fractionChars, hfirst]
  have hlen : (paddedTie zeros).significantDigits.length = 16 + zeros := by
    rw [hdigits, List.length_append, List.length_replicate, hfirst]
    rfl
  refine if_pos ?_
  rw [hlen]
  change 768 < 16 + zeros
  omega

/-- The even neighbour is the nearest number. -/
theorem paddedTie_even :
    Nearest .double .even
      ((paddedTie zeros).decimal.value * 2 ^ Format.double.unitBits) 0x4340000000000000 := by
  have hbelow : (unitsOf .double 0x433fffffffffffff : ℚ) =
      (0x1fffffffffffff : Nat) * 2 ^ 0 * 2 ^ Format.double.unitBits :=
    unitsOf_double (by decide) (by decide)
  have heven : (unitsOf .double 0x4340000000000000 : ℚ) =
      (0x10000000000000 : Nat) * 2 ^ 1 * 2 ^ Format.double.unitBits :=
    unitsOf_double (by decide) (by decide)
  have habove : (unitsOf .double 0x4340000000000001 : ℚ) =
      (0x10000000000001 : Nat) * 2 ^ 1 * 2 ^ Format.double.unitBits :=
    unitsOf_double (by decide) (by decide)
  have hunit : (0 : ℚ) < 2 ^ Format.double.unitBits := by positivity
  rw [paddedTie_value]
  refine nearest_of_neighbours (by decide) (fun k hk => ?_) fun _ => ?_
  · obtain rfl : k = 0x433fffffffffffff := by omega
    rw [hbelow, heven]
    push_cast
    exact ⟨by linarith, fun he => by linarith⟩
  · rw [heven, habove]
    push_cast
    exact ⟨by linarith, fun _ => rfl⟩

/-- With zeros enough the other neighbour is the one that is taken. -/
theorem paddedTie_away :
    Nearest .double .away
      ((paddedTie zeros).decimal.value * 2 ^ Format.double.unitBits) 0x4340000000000001 := by
  have heven : (unitsOf .double 0x4340000000000000 : ℚ) =
      (0x10000000000000 : Nat) * 2 ^ 1 * 2 ^ Format.double.unitBits :=
    unitsOf_double (by decide) (by decide)
  have habove : (unitsOf .double 0x4340000000000001 : ℚ) =
      (0x10000000000001 : Nat) * 2 ^ 1 * 2 ^ Format.double.unitBits :=
    unitsOf_double (by decide) (by decide)
  have hnext : (unitsOf .double 0x4340000000000002 : ℚ) =
      (0x10000000000002 : Nat) * 2 ^ 1 * 2 ^ Format.double.unitBits :=
    unitsOf_double (by decide) (by decide)
  have hunit : (0 : ℚ) < 2 ^ Format.double.unitBits := by positivity
  rw [paddedTie_value]
  refine nearest_of_neighbours (by decide) (fun k hk => ?_) fun _ => ?_
  · obtain rfl : k = 0x4340000000000000 := by omega
    rw [heven, habove]
    push_cast
    exact ⟨by linarith, fun _ => Nat.lt_succ_self _⟩
  · rw [habove, hnext]
    push_cast
    exact ⟨by linarith, fun he => by linarith⟩

/-- The number one as a fraction with zeros behind the point and an exponent that takes them away. -/
def paddedOne (zeros : Nat) : NumberLiteral where
  negative := false
  whole := ⟨['0'], by simp, by simp⟩
  fraction := some ⟨List.replicate zeros '0' ++ ['1'], by simp, by
    intro c hc
    rcases List.mem_append.1 hc with hc | hc
    · exact replicate_isDigit zeros c hc
    · rw [List.mem_singleton.1 hc]
      rfl⟩
  exponent := some ⟨false, .none, .ofNat (zeros + 1)⟩
  whole_canonical := Or.inl rfl

theorem paddedOne_exponentValue : (paddedOne zeros).exponentValue = (zeros + 1 : Nat) := by
  simp [paddedOne, NumberLiteral.exponentValue, Json.ExponentPart.value, Digits.ofNat_value]

theorem paddedOne_coefficient : (paddedOne zeros).decimal.coefficient = 1 := by
  have hzero : Nat.ofDigitChars 10 ['0'] 0 = 0 := rfl
  have hone : Nat.ofDigitChars 10 ['1'] 0 = 1 := rfl
  rw [NumberLiteral.decimal, Decimal.ofDigits]
  simp only [paddedOne, NumberLiteral.fractionChars]
  rw [← List.append_assoc, ofDigitChars_append_eq, ofDigitChars_append_eq, hzero, hone,
    Nat.ofDigitChars_replicate_zero, Nat.mul_zero, Nat.mul_zero, Nat.add_zero, Nat.mul_zero]

theorem paddedOne_value : (paddedOne zeros).decimal.value = 1 := by
  have hexponent : (paddedOne zeros).decimal.exponent = 0 := by
    rw [NumberLiteral.decimal, Decimal.ofDigits, paddedOne_exponentValue]
    simp [paddedOne, NumberLiteral.fractionChars]
  rw [Decimal.value, paddedOne_coefficient, hexponent]
  simp

def one : Binary64 := .ofBits .double 0x3ff0000000000000

theorem one_nearest (tie : Tie) :
    Nearest .double tie (1 * 2 ^ Format.double.unitBits) one.magnitude := by
  have hs : significandOf .double one.magnitude = 2 ^ 52 := by decide
  have he : exponentOf .double one.magnitude = 1022 := by decide
  have hunits : (unitsOf .double one.magnitude : ℚ) = 2 ^ Format.double.unitBits := by
    have hsum : 52 + 1022 = Format.double.unitBits := rfl
    rw [Binary.unitsOf_eq, hs, he, ← pow_add, hsum, Nat.cast_pow, Nat.cast_ofNat]
  rw [one_mul, ← hunits]
  exact nearest_unitsOf tie (by decide)

theorem roundsTo_one {n : NumberLiteral} (hsign : n.negative = false) (hvalue : n.decimal.value = 1)
    (tie : Tie) : n.RoundsTo tie one := by
  refine ⟨hsign.symm, ?_, rfl⟩
  rw [hvalue]
  exact one_nearest tie

theorem zero_roundsTo (tie : Tie) : (NumberLiteral.ofNatural 0).RoundsTo tie (Binary.zero false) := by
  refine ⟨rfl, ?_, rfl⟩
  have hvalue : (NumberLiteral.ofNatural 0).decimal.value = 0 := by
    have hcoefficient : (NumberLiteral.ofNatural 0).decimal.coefficient = 0 := by decide
    rw [Decimal.value, hcoefficient, Nat.cast_zero, zero_mul]
  rw [hvalue]
  exact nearest_zero (by norm_num)

theorem zero_readAs : (NumberLiteral.ofNatural 0).ReadAs (.zero false) where
  inRange hlarge := absurd hlarge.1 (by decide)
  zero _ := rfl
  rounds _ := zero_roundsTo _

/-- With few zeros it is read. -/
theorem paddedOne_readAs (h : zeros < 2147483647) : (paddedOne zeros).ReadAs one := by
  have hexponent : (paddedOne zeros).exponentValue = (zeros + 1 : Nat) := paddedOne_exponentValue
  refine ⟨fun hlarge => ?_, fun hsmall => ?_, fun _ => roundsTo_one rfl paddedOne_value _⟩
  · have := hlarge.1
    omega
  · rw [NumberLiteral.exponentTooSmall] at hsmall
    omega

end Literals

/-! ## The language -/

/-- A text is read as the record that its document describes, and as no other.  If it describes none
that is fit, the text is refused as malformed. -/
theorem decode_text_iff (d : Document) (hd : HasObjects d.value) :
    (∀ config metrics,
      (∃ r, Record.decode (String.ofList d.text) = .ok r ∧ r.config = config ∧ r.metrics = metrics) ↔
        Describes NumberLiteral.ReadAs d.value config metrics ∧ Fit config metrics) ∧
    ((¬ ∃ config metrics,
        Describes NumberLiteral.ReadAs d.value config metrics ∧ Fit config metrics) →
      ∃ e, (Record.decode (String.ofList d.text)).mapError StoreError.malformed =
        .error (.malformed e)) := by
  constructor
  · intro config metrics
    constructor
    · rintro ⟨r, hr, rfl, rfl⟩
      exact ⟨describes_of_decode hd hr, checkParts_eq_ok_iff.1 r.fit⟩
    · rintro ⟨hdescribes, hfit⟩
      exact ⟨_, decode_of_describes hd hdescribes hfit, rfl, rfl⟩
  · intro hnone
    cases hdecode : Record.decode (String.ofList d.text) with
    | error e => exact ⟨e, rfl⟩
    | ok r =>
      have hdescribes := describes_of_decode hd hdecode
      exact absurd ⟨_, _, hdescribes, checkParts_eq_ok_iff.1 r.fit⟩ hnone

/-- The name `flat` with a code for its third letter. -/
def codedFlat : Name where
  pieces := Json.textPieces "fl" ++
    .code ⟨⟨0, Nat.zero_lt_succ 15⟩, false⟩ ⟨⟨0, Nat.zero_lt_succ 15⟩, false⟩
      ⟨⟨6, by decide⟩, false⟩ ⟨⟨1, by decide⟩, false⟩ :: Json.textPieces "t"
  text := "flat"
  denotes := rfl

/-- A member with some blanks around its parts. -/
def spacedMember (name : Name) (value : Value) : Member Value :=
  ⟨[.lineFeed], name, [.tab], [], value, [.space]⟩

/-- Two engines before the configuration, the members in an order of their own, some of them with
names that say nothing here, and one name with a code in it. -/
def mixedDocument : Document where
  before := [.carriageReturn]
  value := .object [] [
    spacedMember (.ofText "note") (.array [] []),
    spacedMember (.ofText "metrics") (.object [] [
      spacedMember codedFlat (.object [] [
        spacedMember (.ofText "search_sec") (.number (.ofNatural 0)),
        spacedMember (.ofText "unit") .null,
        spacedMember (.ofText "build_sec") (.number (paddedOne 2))]),
      spacedMember (.ofText "graph") (.object [] [
        spacedMember (.ofText "build_sec") (.number (.ofNatural 0)),
        spacedMember (.ofText "search_sec") (.number (paddedOne 0))])]),
    spacedMember (.ofText "config") (.object [] [
      spacedMember (.ofText "seed") (.number (.ofNatural 7)),
      spacedMember (.ofText "top_k") (.number (.ofNatural 4)),
      spacedMember (.ofText "n_queries") (.number (.ofNatural 3)),
      spacedMember (.ofText "config") (.bool true),
      spacedMember (.ofText "n_dims") (.number (.ofNatural 2)),
      spacedMember (.ofText "n_samples") (.number (.ofNatural 1))])]
  after := []

def mixedMetrics : List Measurement := [⟨"flat", one, .zero false⟩, ⟨"graph", .zero false, one⟩]

theorem mixedDocument_hasObjects : HasObjects mixedDocument.value := by
  refine ⟨trivial, ?_, ?_⟩
  · exact List.forall_mem_cons.2 ⟨fun h => absurd h (by decide), List.forall_mem_cons.2
      ⟨fun h => absurd h (by decide), List.forall_mem_singleton.2 fun _ => trivial⟩⟩
  · refine List.forall_mem_cons.2 ⟨fun h => absurd h (by decide), List.forall_mem_cons.2
      ⟨fun _ => ⟨trivial, ?_⟩, List.forall_mem_singleton.2 fun h => absurd h (by decide)⟩⟩
    exact List.forall_mem_cons.2 ⟨trivial, List.forall_mem_singleton.2 trivial⟩

theorem mixedDocument_describes :
    Describes NumberLiteral.ReadAs mixedDocument.value ⟨1, 2, 3, 4, 7⟩ mixedMetrics where
  config := ⟨_, rfl, {
    samples := ⟨_, rfl, Json.ofNatural_natural? 1⟩
    dims := ⟨_, rfl, Json.ofNatural_natural? 2⟩
    queries := ⟨_, rfl, Json.ofNatural_natural? 3⟩
    topK := ⟨_, rfl, Json.ofNatural_natural? 4⟩
    seed := ⟨_, rfl, Json.ofNatural_natural? 7⟩ }⟩
  metrics := ⟨_, rfl,
    .cons ⟨rfl, ⟨_, rfl, paddedOne_readAs (by decide)⟩, ⟨_, rfl, zero_readAs⟩⟩
      (.cons ⟨rfl, ⟨_, rfl, zero_readAs⟩, ⟨_, rfl, paddedOne_readAs (by decide)⟩⟩ .nil)⟩

/-- None of this keeps the text from being read as the record that it describes. -/
theorem decode_text_mixed :
    HasObjects mixedDocument.value ∧
      ∃ r, Record.decode (String.ofList mixedDocument.text) = .ok r ∧
        r.config = ⟨1, 2, 3, 4, 7⟩ ∧ r.metrics = mixedMetrics :=
  ⟨mixedDocument_hasObjects, ((decode_text_iff _ mixedDocument_hasObjects).1 _ _).2
    ⟨mixedDocument_describes, checkParts_eq_ok_iff.1 rfl⟩⟩

/-! ## Literals that are not read as the nearest number -/

/-- The document of one engine that took `build` and no time to search. -/
def oneEngine (build : NumberLiteral) : Document :=
  recordDocument ⟨1, 1, 1, 1, 0⟩ [⟨"flat", build, .ofNatural 0⟩]

def oneMeasurement (build : Binary64) : List Measurement := [⟨"flat", build, .zero false⟩]

/-- The text of the engine is read with the time `x` exactly if the document says so, where a number
of seconds says the nearest 64-bit number. -/
def ReadsNearest (build : NumberLiteral) (x : Binary64) : Prop :=
  (∃ r, Record.decode (String.ofList (oneEngine build).text) = .ok r ∧
      r.config = ⟨1, 1, 1, 1, 0⟩ ∧ r.metrics = oneMeasurement x) ↔
    Describes (fun n x => n.RoundsTo .even x) (oneEngine build).value ⟨1, 1, 1, 1, 0⟩
        (oneMeasurement x) ∧
      Fit ⟨1, 1, 1, 1, 0⟩ (oneMeasurement x)

theorem oneEngine_hasObjects (build : NumberLiteral) : HasObjects (oneEngine build).value :=
  recordDocument_hasObjects _ _

theorem readAs_of_decode {n : NumberLiteral} {x : Binary64} {r : Record}
    (h : Record.decode (String.ofList (oneEngine n).text) = .ok r)
    (hm : r.metrics = oneMeasurement x) : n.ReadAs x := by
  have hdescribes := describes_of_decode (oneEngine_hasObjects n) h
  rw [hm] at hdescribes
  obtain ⟨hspells, -⟩ := List.forall₂_cons.1 (spells_of_describes hdescribes)
  exact hspells.build

/-- A literal that is not read as its nearest number makes a text that is not read as it should be. -/
theorem not_readsNearest {n : NumberLiteral} {x : Binary64} (hrounds : n.RoundsTo .even x)
    (hread : ¬ n.ReadAs x) (hfit : Fit ⟨1, 1, 1, 1, 0⟩ (oneMeasurement x)) :
    ¬ ReadsNearest n x := by
  intro h
  have hdescribes : Describes (fun n x => n.RoundsTo .even x) (oneEngine n).value ⟨1, 1, 1, 1, 0⟩
      (oneMeasurement x) := recordDocument_describes (.cons ⟨rfl, hrounds, zero_roundsTo _⟩ .nil)
  obtain ⟨r, hr, -, hm⟩ := h.2 ⟨hdescribes, hfit⟩
  exact hread (readAs_of_decode hr hm)

def evenNeighbour : Binary64 := .ofBits .double 0x4340000000000000

theorem not_paddedTie_readAs : ¬ (paddedTie 753).ReadAs evenNeighbour := by
  intro hread
  have hsmall : ¬ (paddedTie 753).exponentTooSmall := by
    rw [NumberLiteral.exponentTooSmall, paddedTie, padded_exponentValue]
    decide
  have hnear := (hread.rounds hsmall).nearest
  rw [paddedTie_tie (by decide)] at hnear
  exact absurd (hnear.unique paddedTie_away) (by decide)

theorem not_paddedOne_readAs : ¬ (paddedOne 2147483647).ReadAs one := by
  intro hread
  apply hread.inRange
  rw [NumberLiteral.exponentTooLarge, paddedOne_exponentValue, paddedOne_coefficient]
  decide

/-- The number one as a natural number with zeros. -/
def longOne : Nat → NumberLiteral := padded 1 (by decide)

theorem not_longOne_readAs : ¬ (longOne 2147483648).ReadAs one := by
  intro hread
  have hsmall : (longOne 2147483648).exponentTooSmall := by
    rw [NumberLiteral.exponentTooSmall, longOne, padded_exponentValue]
    decide
  have hzero : one = .zero false := hread.zero hsmall
  exact absurd hzero (by decide)

/-- Not every number of seconds is read as the nearest 64-bit number: not a tie with many digits, not
a number with a large exponent, and not one with a small exponent, which is zero. -/
theorem decode_not_nearest :
    (HasObjects (oneEngine (paddedTie 753)).value ∧
      ¬ ReadsNearest (paddedTie 753) evenNeighbour) ∧
    (HasObjects (oneEngine (paddedOne 2147483647)).value ∧
      ¬ ReadsNearest (paddedOne 2147483647) one) ∧
    HasObjects (oneEngine (longOne 2147483648)).value ∧
      ¬ ReadsNearest (longOne 2147483648) one := by
  have heven : Fit ⟨1, 1, 1, 1, 0⟩ (oneMeasurement evenNeighbour) := checkParts_eq_ok_iff.1 rfl
  have hone : Fit ⟨1, 1, 1, 1, 0⟩ (oneMeasurement one) := checkParts_eq_ok_iff.1 rfl
  refine ⟨⟨oneEngine_hasObjects _, ?_⟩, ⟨oneEngine_hasObjects _, ?_⟩, oneEngine_hasObjects _, ?_⟩
  · exact not_readsNearest ⟨rfl, paddedTie_even, rfl⟩ not_paddedTie_readAs heven
  · exact not_readsNearest (roundsTo_one rfl paddedOne_value _) not_paddedOne_readAs hone
  · refine not_readsNearest (roundsTo_one rfl ?_ _) not_longOne_readAs hone
    rw [longOne, padded_value, Nat.cast_one]

end VectorBench
