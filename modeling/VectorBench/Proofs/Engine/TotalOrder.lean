import VectorBench.Proofs.Binary.Value
import VectorBench.Proofs.Engine.Ranking

/-!
# The order of hits

Comparing hits is a total order on all row numbers and all bit patterns of scores.  The place of a
score is its bit pattern as a signed word, with the bits below the sign bit turned over if that is
set.  As no two hits are equal in the order, hits can be put in order in one way only, whichever way
that is done and in whichever order they come in.

    (orderWord x.word).toInt = x.rank                                            (toInt_orderWord)
    Std.TransCmp Hit.compare, Std.LawfulEqCmp Hit.compare
    BestFirst hits sorted ↔ sorted = ranked hits                                     (bestFirst_iff)
    ranked hits = ranked hits' ↔ hits.Perm hits'                              (ranked_eq_ranked_iff)
-/

namespace VectorBench

/-! ## Bit patterns -/

/-- A word with the bits below its sign bit turned over if that is set. -/
def orderWord (bits : BitVec 32) : BitVec 32 := bits ^^^ bits.sshiftRight 31 >>> 1

/-- The sign bit, copied to all bits below it. -/
theorem sshiftRight_ushiftRight (bits : BitVec 32) :
    bits.sshiftRight 31 >>> 1 = if bits.msb then 0x7fffffff#32 else 0#32 := by
  cases hmsb : bits.msb with
  | false =>
    have hlow := BitVec.msb_eq_false_iff_two_mul_lt.1 hmsb
    rw [BitVec.sshiftRight_eq_of_msb_false hmsb, if_neg Bool.false_ne_true]
    refine BitVec.eq_of_toNat_eq ?_
    simp only [BitVec.toNat_ushiftRight, Nat.shiftRight_eq_div_pow, BitVec.toNat_ofNat]
    omega
  | true =>
    have hhigh := BitVec.msb_eq_true_iff_two_mul_ge.1 hmsb
    have hnone : ~~~bits >>> 31 = 0#32 := by
      refine BitVec.eq_of_toNat_eq ?_
      simp only [BitVec.toNat_ushiftRight, Nat.shiftRight_eq_div_pow, BitVec.toNat_ofNat,
        BitVec.toNat_not]
      omega
    rw [BitVec.sshiftRight_eq_of_msb_true hmsb, hnone, if_pos rfl]
    decide

/-- A number with its high bit set keeps it when the bits below are turned over. -/
theorem xor_low_bits {m : Nat} (h : m < 2 ^ 31) :
    (2 ^ 31 + m) ^^^ (2 ^ 31 - 1) = 2 ^ 31 + (2 ^ 31 - 1 - m) := by
  have hlow : m ^^^ (2 ^ 31 - 1) = 2 ^ 31 - 1 - m := by
    have hnot := BitVec.toNat_not (x := BitVec.ofNat 31 m)
    rwa [← BitVec.xor_allOnes, BitVec.toNat_xor, BitVec.toNat_allOnes, BitVec.toNat_ofNat,
      Nat.mod_eq_of_lt h] at hnot
  have hdiv : ((2 ^ 31 + m) ^^^ (2 ^ 31 - 1)) / 2 ^ 31 = 1 := by
    rw [Nat.xor_div_two_pow, Nat.add_div_left _ (by decide), Nat.div_eq_of_lt h]
    rfl
  have hmod : ((2 ^ 31 + m) ^^^ (2 ^ 31 - 1)) % 2 ^ 31 = 2 ^ 31 - 1 - m := by
    rw [Nat.xor_mod_two_pow, Nat.add_mod_left, Nat.mod_eq_of_lt h, Nat.mod_eq_of_lt (by decide), hlow]
  have hsplit := Nat.div_add_mod ((2 ^ 31 + m) ^^^ (2 ^ 31 - 1)) (2 ^ 31)
  rw [hdiv, hmod] at hsplit
  omega

namespace Binary

def word (x : Binary32) : BitVec 32 := BitVec.ofNat 32 x.toBits

theorem toNat_word (x : Binary32) : x.word.toNat = x.toBits := by
  have hmagnitude : x.magnitude < 2 ^ 31 := x.magnitude_lt
  have hlimit : Format.single.magnitudeLimit = 2 ^ 31 := rfl
  refine (BitVec.toNat_ofNat _ _).trans (Nat.mod_eq_of_lt ?_)
  unfold toBits
  split <;> omega

theorem toBits_injective {f : Format} {x y : Binary f} (h : x.toBits = y.toBits) : x = y := by
  rw [← ofBits_toBits x, ← ofBits_toBits y, h]

/-- The place of a number in the total order, from its bit pattern. -/
theorem toInt_orderWord (x : Binary32) : (orderWord x.word).toInt = x.rank := by
  have hmagnitude : x.magnitude < 2 ^ 31 := x.magnitude_lt
  have hword := x.toNat_word
  cases hsign : x.negative with
  | false =>
    rw [toBits, hsign, if_neg Bool.false_ne_true] at hword
    have hmsb : x.word.msb = false := BitVec.msb_eq_false_iff_two_mul_lt.2 (by omega)
    rw [orderWord, sshiftRight_ushiftRight, hmsb, if_neg Bool.false_ne_true, BitVec.xor_zero,
      BitVec.toInt_eq_toNat_of_msb hmsb, hword, rank_of_positive hsign]
  | true =>
    have hlimit : Format.single.magnitudeLimit = 2 ^ 31 := rfl
    rw [toBits, hsign, if_pos rfl, hlimit] at hword
    have hmsb : x.word.msb = true := BitVec.msb_eq_true_iff_two_mul_ge.2 (by omega)
    have hturned : (x.word ^^^ 0x7fffffff#32).toNat = 2 ^ 31 + (2 ^ 31 - 1 - x.magnitude) := by
      rw [BitVec.toNat_xor, hword]
      exact xor_low_bits hmagnitude
    rw [orderWord, sshiftRight_ushiftRight, hmsb, if_pos rfl, BitVec.toInt_eq_toNat_cond, hturned,
      rank_of_negative hsign]
    split <;> omega

/-- Numbers that differ in value are in the order of their values; infinity has that of the power of
two behind all finite numbers. -/
theorem compare_rank_eq {f : Format} {x y : Binary f} (hx : x.isNaN = false) (hy : y.isNaN = false)
    (h : x.value ≠ y.value) : Ord.compare x.rank y.rank = Ord.compare x.value y.value := by
  have hlt : ∀ {x y : Binary f}, x.isNaN = false → y.isNaN = false → x.value < y.value →
      x.rank < y.rank := by
    intro x y hx hy hvalue
    refine rank_lt_of_signedMagnitude_lt (Int.not_le.1 fun hle => ?_)
    exact absurd (value_mono (le_eq_true_iff.2 ⟨hy, hx, hle⟩)) (not_le.2 hvalue)
  rcases lt_or_gt_of_ne h with hless | hgreater
  · rw [compare_lt_iff_lt.2 hless, compare_lt_iff_lt.2 (hlt hx hy hless)]
  · rw [compare_gt_iff_gt.2 hgreater, compare_gt_iff_gt.2 (hlt hy hx hgreater)]

end Binary

namespace Hit

variable {a b c : Hit}

/-! ## A total order -/

theorem isLE_compare_iff : (a.compare b).isLE = true ↔ a ≤ b := by
  rw [← not_lt, ← compare_eq_gt_iff]
  cases a.compare b <;> simp

theorem compare_swap (a b : Hit) : a.compare b = (b.compare a).swap := by
  rcases lt_trichotomy a b with h | rfl | h
  · rw [compare_eq_lt_iff.2 h, compare_eq_gt_iff.2 h]
    rfl
  · rw [compare_eq_eq_iff.2 rfl]
    rfl
  · rw [compare_eq_gt_iff.2 h, compare_eq_lt_iff.2 h]
    rfl

instance : Std.TransCmp compare where
  eq_swap := compare_swap _ _
  isLE_trans hab hbc := by
    rw [isLE_compare_iff] at hab hbc ⊢
    exact hab.trans hbc

instance : Std.LawfulEqCmp compare where
  compare_self := compare_eq_eq_iff.2 rfl
  eq_of_compare := compare_eq_eq_iff.1

/-- Hits are equal in the order when their bits are. -/
theorem compare_eq_eq_iff_bits :
    a.compare b = .eq ↔ a.id = b.id ∧ a.score.toBits = b.score.toBits := by
  rw [compare_eq_eq_iff]
  constructor
  · rintro rfl
    exact ⟨rfl, rfl⟩
  · obtain ⟨i, x⟩ := a
    obtain ⟨j, y⟩ := b
    rintro ⟨hid, hbits⟩
    exact congrArg₂ Hit.mk hid (Binary.toBits_injective hbits)

/-! ## Putting hits in order -/

/-- All of the hits of a list, with none behind one that it is better than. -/
structure BestFirst (hits sorted : List Hit) : Prop where
  perm : sorted.Perm hits
  ordered : sorted.Pairwise fun a b => (b.compare a).isLE

theorem bestFirst_iff {hits sorted : List Hit} : BestFirst hits sorted ↔ sorted = ranked hits := by
  constructor
  · intro h
    exact eq_ranked h.perm (h.ordered.imp fun hle => isLE_compare_iff.1 hle)
  · rintro rfl
    exact ⟨ranked_perm hits, (ranked_pairwise hits).imp fun hle => isLE_compare_iff.2 hle⟩

theorem ranked_eq_ranked_iff {hits hits' : List Hit} :
    ranked hits = ranked hits' ↔ hits.Perm hits' := by
  constructor
  · intro h
    have hperm := ranked_perm hits'
    rw [← h] at hperm
    exact (ranked_perm hits).symm.trans hperm
  · exact ranked_eq_of_perm

/-- Hits are compared by the words of their scores and then by their rows, the other way round.  That
is a total order, for NaNs and zeros of either sign as well, in which only a hit itself is equal to it.
Scores of different values are in the order of these, the negative zero is below the positive one, and
of equal scores the lower row is above.  So hits can be put in order in one way, which depends on
which hits there are and how often, and not on the order in which they come. -/
theorem compare_totalOrder :
    (∀ a b : Hit, a.compare b =
      (Ord.compare (orderWord a.score.word).toInt (orderWord b.score.word).toInt).then
        (Ord.compare b.id a.id)) ∧
    (∀ a : Hit, (a.compare a).isLE) ∧
    (∀ a b : Hit, (a.compare b).isLE → (b.compare a).isLE → a = b) ∧
    (∀ a b c : Hit, (a.compare b).isLE → (b.compare c).isLE → (a.compare c).isLE) ∧
    (∀ a b : Hit, (a.compare b).isLE ∨ (b.compare a).isLE) ∧
    (∀ a b : Hit, a.compare b = (b.compare a).swap) ∧
    (∀ a b : Hit, a.compare b = .eq ↔ a.id = b.id ∧ a.score.toBits = b.score.toBits) ∧
    (∀ a b : Hit, a.score.isNaN = false → b.score.isNaN = false → a.score.value ≠ b.score.value →
      a.compare b = Ord.compare a.score.value b.score.value) ∧
    (∀ i j, compare ⟨i, .zero true⟩ ⟨j, .zero false⟩ = .lt) ∧
    (∀ a b : Hit, a.score.toBits = b.score.toBits → a.id < b.id → a.compare b = .gt) ∧
    (∀ hits sorted, BestFirst hits sorted ↔ sorted = ranked hits) ∧
    ∀ hits hits', ranked hits = ranked hits' ↔ hits.Perm hits' := by
  refine ⟨fun a b => ?_, fun _ => Std.ReflCmp.isLE_rfl, fun a b hab hba => ?_,
    fun _ _ _ => Std.TransCmp.isLE_trans, fun a b => ?_, fun _ _ => Std.OrientedCmp.eq_swap,
    fun _ _ => compare_eq_eq_iff_bits, fun a b ha hb hvalue => ?_, fun i j => ?_,
    fun a b hbits hid => ?_, fun _ _ => bestFirst_iff, fun _ _ => ranked_eq_ranked_iff⟩
  · rw [Binary.toInt_orderWord, Binary.toInt_orderWord, compare]
  · exact Std.LawfulEqCmp.eq_of_compare (Std.OrientedCmp.isLE_antisymm hab hba)
  · rw [isLE_compare_iff, isLE_compare_iff]
    exact le_total a b
  · rw [compare, Binary.compare_rank_eq ha hb hvalue]
    rcases lt_or_gt_of_ne hvalue with hless | hgreater
    · rw [compare_lt_iff_lt.2 hless]
      rfl
    · rw [compare_gt_iff_gt.2 hgreater]
      rfl
  · exact compare_eq_lt_iff.2 (lt_iff.2 (.inl (by decide : (-1 : ℤ) < 0)))
  · rw [compare_eq_gt_iff, lt_iff, Binary.toBits_injective hbits]
    exact .inr ⟨rfl, hid⟩

/-- Zeros and NaNs of either sign; the positive zero comes twice with one row and once with another. -/
def specialHits : List Hit :=
  [⟨2, .zero false⟩, ⟨3, .zero true⟩, ⟨4, .ofBits .single 0xffc00000⟩, ⟨1, .zero false⟩,
    ⟨5, .ofBits .single 0x7fc00000⟩, ⟨2, .zero false⟩]

/-- The same hits from the best to the worst. -/
def specialRanking : List Hit :=
  [⟨5, .ofBits .single 0x7fc00000⟩, ⟨1, .zero false⟩, ⟨2, .zero false⟩, ⟨2, .zero false⟩,
    ⟨3, .zero true⟩, ⟨4, .ofBits .single 0xffc00000⟩]

theorem compare_totalOrder_special :
    ((Binary.infinity true : Binary32).isNaN = false ∧ (Binary.zero true : Binary32).isNaN = false ∧
      compare ⟨0, .infinity true⟩ ⟨0, .zero true⟩ = .lt) ∧
    BestFirst specialHits.reverse specialRanking ∧
    specialHits.reverse.Perm specialHits ∧
    ranked specialHits = specialRanking := by
  obtain ⟨-, -, -, -, -, -, -, hvalues, -, -, hbest, hranked⟩ := compare_totalOrder
  have hlow : (Binary.infinity true : Binary32).isNaN = false := Binary.infinity_isNaN true
  have hzero : (Binary.zero true : Binary32).isNaN = false := rfl
  have hless : (Binary.infinity true : Binary32).value < (Binary.zero true : Binary32).value :=
    Binary.value_strictMono (by decide)
  have hsorted : BestFirst specialHits.reverse specialRanking := ⟨by decide, by decide⟩
  have hperm : specialHits.reverse.Perm specialHits := List.reverse_perm _
  refine ⟨⟨hlow, hzero, ?_⟩, hsorted, hperm, ?_⟩
  · rw [hvalues ⟨0, .infinity true⟩ ⟨0, .zero true⟩ hlow hzero hless.ne, compare_lt_iff_lt.2 hless]
  · exact ((hranked _ _).2 hperm).symm.trans ((hbest _ _).1 hsorted).symm

end Hit

end VectorBench
