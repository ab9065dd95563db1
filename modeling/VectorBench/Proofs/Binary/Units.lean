import Mathlib.Tactic.Ring
import VectorBench.Binary.Round

/-!
# Magnitudes in units

The exact value of a magnitude in units of its format, as a function on all naturals.  From one
magnitude to the next it grows by the power of two of the binade, so it is strictly increasing, and
a significand with a carry out of its binade still has the value that its bits say.

    unitsOf f (g + 1) = unitsOf f g + 2 ^ exponentOf f g                         (unitsOf_succ)
    unitsOf f (e * hiddenBit + m) = m * 2 ^ e, also for m = 2 * hiddenBit        (unitsOf_binade)
-/

namespace VectorBench

theorem twoPower_eq_pow (n : Nat) : twoPower n = 2 ^ n := twoPower_eq n

theorem Format.hiddenBit_eq_pow (f : Format) : f.hiddenBit = 2 ^ f.fractionBits := by
  rw [f.hiddenBit_eq, twoPower_eq_pow]

theorem Format.hiddenBit_even (f : Format) : f.hiddenBit % 2 = 0 := by
  cases f <;> decide

theorem Format.infinity_even (f : Format) : f.infinity % 2 = 0 := by
  cases f <;> decide

namespace Binary

/-! ## Numbers by their parts -/

theorem eq_of_parts {f : Format} {x y : Binary f} (hs : x.negative = y.negative)
    (hg : x.magnitude = y.magnitude) : x = y := by
  obtain ⟨s, g, _⟩ := x
  obtain ⟨t, k, _⟩ := y
  cases hs
  cases hg
  rfl

theorem ofMagnitude_magnitude {f : Format} {s : Bool} {g : Nat} (h : g ≤ f.infinity) :
    (ofMagnitude f s g).magnitude = g := Nat.min_eq_left h

/-! ## One magnitude after the other -/

/-- From one magnitude to the next the quotient by the hidden bit stays, or both it and the
magnitude step over a multiple of the hidden bit. -/
theorem div_hiddenBit_succ (f : Format) (g : Nat) :
    (g + 1) / f.hiddenBit = g / f.hiddenBit ∨
      (g + 1) / f.hiddenBit = g / f.hiddenBit + 1 ∧ g + 1 = (g / f.hiddenBit + 1) * f.hiddenBit := by
  have hp := f.hiddenBit_pos
  generalize f.hiddenBit = h at hp
  have hg := Nat.div_add_mod g h
  have hr := Nat.mod_lt g hp
  rcases Nat.lt_or_ge (g % h + 1) h with hlt | hge
  · left
    exact Nat.div_eq_of_lt_le (by rw [Nat.mul_comm]; omega) (by rw [Nat.succ_mul, Nat.mul_comm]; omega)
  · right
    have hm : g + 1 = (g / h + 1) * h := by rw [Nat.succ_mul, Nat.mul_comm]; omega
    exact ⟨by conv_lhs => rw [hm]
              exact Nat.mul_div_cancel _ hp, hm⟩

theorem unitsOf_eq (f : Format) (g : Nat) :
    unitsOf f g = significandOf f g * 2 ^ exponentOf f g := by
  rw [unitsOf, twoPower_eq_pow]

theorem exponentOf_mul_le (f : Format) (g : Nat) : exponentOf f g * f.hiddenBit ≤ g :=
  Nat.le_trans (Nat.mul_le_mul_right _ (Nat.sub_le _ _)) (Nat.div_mul_le_self g f.hiddenBit)

/-- The value grows by the power of two of the binade. -/
theorem unitsOf_succ (f : Format) (g : Nat) :
    unitsOf f (g + 1) = unitsOf f g + 2 ^ exponentOf f g := by
  have hle := exponentOf_mul_le f g
  have same : exponentOf f (g + 1) = exponentOf f g →
      unitsOf f (g + 1) = unitsOf f g + 2 ^ exponentOf f g := by
    intro he
    have hs : significandOf f (g + 1) = significandOf f g + 1 := by
      unfold significandOf
      rw [he]
      omega
    rw [unitsOf_eq, unitsOf_eq, he, hs, Nat.succ_mul]
  rcases div_hiddenBit_succ f g with hd | ⟨hd, hg⟩
  · exact same (by unfold exponentOf; rw [hd])
  · cases hk : g / f.hiddenBit with
    | zero => exact same (by unfold exponentOf; rw [hd, hk])
    | succ k =>
      -- the carry: the significand falls back to the hidden bit, the exponent takes it up
      rw [hk] at hd hg
      have he : exponentOf f g = k := by unfold exponentOf; omega
      have he' : exponentOf f (g + 1) = k + 1 := by unfold exponentOf; omega
      have hs' : significandOf f (g + 1) = f.hiddenBit := by
        unfold significandOf
        rw [he', hg, Nat.succ_mul (k + 1)]
        omega
      have hs : significandOf f g + 1 = 2 * f.hiddenBit := by
        unfold significandOf
        rw [he] at hle ⊢
        rw [Nat.succ_mul, Nat.succ_mul] at hg
        omega
      calc unitsOf f (g + 1) = f.hiddenBit * 2 ^ (k + 1) := by rw [unitsOf_eq, hs', he']
        _ = (significandOf f g + 1) * 2 ^ k := by rw [hs]; ring
        _ = unitsOf f g + 2 ^ exponentOf f g := by rw [unitsOf_eq, he]; ring

/-! ## Significands and exponents -/

theorem significandOf_lt (f : Format) (g : Nat) : significandOf f g < 2 * f.hiddenBit := by
  have hg := Nat.div_add_mod' g f.hiddenBit
  have hr := Nat.mod_lt g f.hiddenBit_pos
  unfold significandOf exponentOf
  rw [Nat.sub_mul]
  omega

theorem exponentOf_le {f : Format} {g : Nat} (hg : g < f.infinity) :
    exponentOf f g ≤ f.infinity / f.hiddenBit - 2 := by
  have hlt : g / f.hiddenBit < f.infinity / f.hiddenBit := by
    rw [Nat.div_lt_iff_lt_mul f.hiddenBit_pos]
    have : f.infinity / f.hiddenBit * f.hiddenBit = f.infinity := by cases f <;> decide
    omega
  unfold exponentOf
  omega

/-- A significand has its leading bit, but with the least exponent. -/
theorem hiddenBit_le_significandOf {f : Format} {g : Nat} (h : exponentOf f g ≠ 0) :
    f.hiddenBit ≤ significandOf f g := by
  have hg := Nat.div_mul_le_self g f.hiddenBit
  have hone : 1 ≤ g / f.hiddenBit := by
    unfold exponentOf at h
    omega
  have hmul : (g / f.hiddenBit - 1) * f.hiddenBit + f.hiddenBit = g / f.hiddenBit * f.hiddenBit := by
    rw [← Nat.succ_mul, Nat.succ_eq_add_one, Nat.sub_add_cancel hone]
  unfold significandOf exponentOf
  omega

/-! ## The order of values -/

theorem unitsOf_lt_succ (f : Format) (g : Nat) : unitsOf f g < unitsOf f (g + 1) := by
  rw [unitsOf_succ]
  have := Nat.two_pow_pos (exponentOf f g)
  omega

theorem unitsOf_strictMono (f : Format) : StrictMono (unitsOf f) :=
  strictMono_nat_of_lt_succ (unitsOf_lt_succ f)

theorem unitsOf_zero (f : Format) : unitsOf f 0 = 0 := by
  cases f <;> decide

theorem unitsOf_one (f : Format) : unitsOf f 1 = 1 := by
  cases f <;> decide

/-! ## Binades -/

/-- Which exponent the sum of an exponent and a significand has. -/
theorem exponentOf_binade (f : Format) (e m : Nat) (h : e = 0 ∨ f.hiddenBit ≤ m)
    (hm : m < 2 * f.hiddenBit) : exponentOf f (e * f.hiddenBit + m) = e := by
  have hp := f.hiddenBit_pos
  unfold exponentOf
  rw [Nat.add_comm, Nat.add_mul_div_right _ _ hp]
  rcases Nat.lt_or_ge m f.hiddenBit with hlt | hge
  · rw [Nat.div_eq_of_lt hlt]
    omega
  · have : m / f.hiddenBit = 1 := Nat.div_eq_of_lt_le (by omega) (by omega)
    omega

theorem exponentOf_carry (f : Format) (e : Nat) :
    exponentOf f (e * f.hiddenBit + 2 * f.hiddenBit) = e + 1 := by
  unfold exponentOf
  rw [← Nat.add_mul, Nat.mul_div_cancel _ f.hiddenBit_pos]
  omega

/-- The value of an exponent and a significand, a carry included. -/
theorem unitsOf_binade (f : Format) (e m : Nat) (h : e = 0 ∨ f.hiddenBit ≤ m)
    (hm : m ≤ 2 * f.hiddenBit) : unitsOf f (e * f.hiddenBit + m) = m * 2 ^ e := by
  rw [unitsOf_eq]
  rcases Nat.lt_or_ge m (2 * f.hiddenBit) with hlt | hge
  · have he := exponentOf_binade f e m h hlt
    unfold significandOf
    rw [he, Nat.add_sub_cancel_left]
  · obtain rfl : m = 2 * f.hiddenBit := by omega
    have he := exponentOf_carry f e
    unfold significandOf
    have hs : e * f.hiddenBit + 2 * f.hiddenBit - (e + 1) * f.hiddenBit = f.hiddenBit := by
      rw [Nat.add_mul e 1]
      omega
    rw [he, hs]
    ring

/-- Whatever a significand and an exponent stand for is the value of a magnitude. -/
theorem exists_unitsOf (f : Format) (e : Nat) {m : Nat} (hm : m ≤ 2 * f.hiddenBit) :
    ∃ g, unitsOf f g = m * 2 ^ e := by
  induction e generalizing m with
  | zero => exact ⟨0 * f.hiddenBit + m, unitsOf_binade f 0 m (.inl rfl) hm⟩
  | succ e ih =>
    rcases Nat.lt_or_ge m f.hiddenBit with hlt | hge
    · -- without the leading bit a significand of twice the size does
      obtain ⟨g, hg⟩ := ih (m := 2 * m) (by omega)
      exact ⟨g, by rw [hg]; ring⟩
    · exact ⟨_, unitsOf_binade f (e + 1) m (.inr hge) hm⟩

/-! ## The power of two behind all finite numbers -/

/-- The exponent of the power of two that comes next to the finite numbers, in units. -/
def limitBits (f : Format) : Nat := f.fractionBits + (f.infinity / f.hiddenBit - 1)

theorem unitsOf_infinity (f : Format) : unitsOf f f.infinity = 2 ^ limitBits f := by
  have hsignificand : significandOf f f.infinity = f.hiddenBit := by cases f <;> decide
  rw [unitsOf_eq, hsignificand, exponentOf, limitBits, Nat.pow_add, ← f.hiddenBit_eq_pow]

/-- What has few digits and a small exponent comes before infinity. -/
theorem pow_lt_unitsOf_infinity {f : Format} {m e a b : Nat} (hm : m < 2 ^ a) (he : e ≤ b)
    (h : a + b ≤ limitBits f) : m * 2 ^ e < unitsOf f f.infinity := by
  have hexponent : a + e ≤ limitBits f := Nat.le_trans (Nat.add_le_add_left he a) h
  calc m * 2 ^ e < 2 ^ a * 2 ^ e := Nat.mul_lt_mul_of_pos_right hm (Nat.two_pow_pos e)
    _ = 2 ^ (a + e) := (Nat.pow_add 2 a e).symm
    _ ≤ 2 ^ limitBits f := Nat.pow_le_pow_right Nat.two_pos hexponent
    _ = unitsOf f f.infinity := (unitsOf_infinity f).symm

end Binary

end VectorBench
