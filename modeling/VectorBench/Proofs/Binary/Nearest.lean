import Mathlib.Algebra.Order.Field.Rat
import Mathlib.Algebra.Order.Ring.Abs
import Mathlib.Tactic.FieldSimp
import Mathlib.Tactic.Linarith
import Mathlib.Tactic.Positivity
import Mathlib.Tactic.Qify
import VectorBench.Decimal.Shortest
import VectorBench.Proofs.Binary.Units

/-!
# Nearest magnitudes

What rounding means, said without the algorithm: of all magnitudes up to infinity the nearest one is
taken, where infinity counts as the power of two behind the largest finite number.  Of two that are
equally near it is the even one, or the larger one, as the rule for ties says.  There is at most one
such magnitude, and the two rounding functions yield it.

    Nearest f tie q g → Nearest f tie q k → g = k                          (Nearest.unique)
    Nearest f .even (n / d) (f.magnitudeOfRatio n d)                       (magnitudeOfRatio_nearest)
    f.magnitudeOfScaled m a b = f.magnitudeOfRatio (m * 2 ^ a) (2 ^ b)     (magnitudeOfScaled_eq_ratio)
-/

namespace VectorBench

open Binary (unitsOf unitsOf_succ unitsOf_strictMono exponentOf)

/-- Whether a tie between the magnitudes `g` and `k` goes to `g`. -/
def Tie.keeps (tie : Tie) (g k : Nat) : Prop :=
  match tie with
  | .away => k < g
  | .even => g % 2 = 0

/-- No magnitude is nearer to `q` units than `g`, and the ties of `g` go to `g`. -/
structure Nearest (f : Format) (tie : Tie) (q : ℚ) (g : Nat) : Prop where
  le_infinity : g ≤ f.infinity
  near : ∀ k ≤ f.infinity, |(unitsOf f g : ℚ) - q| ≤ |(unitsOf f k : ℚ) - q|
  keeps : ∀ k ≤ f.infinity, k ≠ g → |(unitsOf f g : ℚ) - q| = |(unitsOf f k : ℚ) - q| →
    tie.keeps g k

/-! ## Midpoints -/

theorem abs_sub_le_iff_of_lt {a b q : ℚ} (h : a < b) : |b - q| ≤ |a - q| ↔ a + b ≤ 2 * q := by
  rw [← sq_le_sq]
  constructor <;> intro hq <;> nlinarith

theorem abs_sub_le_iff_of_gt {a b q : ℚ} (h : a < b) : |a - q| ≤ |b - q| ↔ 2 * q ≤ a + b := by
  rw [← sq_le_sq]
  constructor <;> intro hq <;> nlinarith

theorem abs_sub_eq_iff {a b q : ℚ} (h : a < b) : |b - q| = |a - q| ↔ a + b = 2 * q := by
  rw [le_antisymm_iff, abs_sub_le_iff_of_lt h, abs_sub_le_iff_of_gt h, ← le_antisymm_iff]

variable {f : Format} {tie : Tie} {q : ℚ} {g k : Nat}

theorem unitsOf_lt_cast (h : g < k) : (unitsOf f g : ℚ) < unitsOf f k := by
  exact_mod_cast unitsOf_strictMono f h

/-- Being nearest is a matter of the midpoints with the magnitudes below and above. -/
theorem nearest_iff : Nearest f tie q g ↔ g ≤ f.infinity ∧
    (∀ k < g, (unitsOf f k : ℚ) + unitsOf f g ≤ 2 * q ∧
      ((unitsOf f k : ℚ) + unitsOf f g = 2 * q → tie.keeps g k)) ∧
    ∀ k ≤ f.infinity, g < k → 2 * q ≤ (unitsOf f g : ℚ) + unitsOf f k ∧
      ((unitsOf f g : ℚ) + unitsOf f k = 2 * q → tie.keeps g k) := by
  constructor
  · intro h
    refine ⟨h.le_infinity, fun k hk => ?_, fun k hi hk => ?_⟩
    · have hi : k ≤ f.infinity := Nat.le_trans (Nat.le_of_lt hk) h.le_infinity
      have hu := unitsOf_lt_cast (f := f) hk
      exact ⟨(abs_sub_le_iff_of_lt hu).1 (h.near k hi),
        fun he => h.keeps k hi (Nat.ne_of_lt hk) ((abs_sub_eq_iff hu).2 he)⟩
    · have hu := unitsOf_lt_cast (f := f) hk
      exact ⟨(abs_sub_le_iff_of_gt hu).1 (h.near k hi),
        fun he => h.keeps k hi (Nat.ne_of_gt hk) ((abs_sub_eq_iff hu).2 he).symm⟩
  · rintro ⟨hi, hlow, hhigh⟩
    refine ⟨hi, fun k hk => ?_, fun k hk hne he => ?_⟩
    · rcases Nat.lt_trichotomy k g with hlt | rfl | hgt
      · exact (abs_sub_le_iff_of_lt (unitsOf_lt_cast hlt)).2 (hlow k hlt).1
      · exact le_rfl
      · exact (abs_sub_le_iff_of_gt (unitsOf_lt_cast hgt)).2 (hhigh k hk hgt).1
    · rcases Nat.lt_or_gt_of_ne hne with hlt | hgt
      · exact (hlow k hlt).2 ((abs_sub_eq_iff (unitsOf_lt_cast hlt)).1 he)
      · exact (hhigh k hk hgt).2 ((abs_sub_eq_iff (unitsOf_lt_cast hgt)).1 he.symm)

/-- Only the two neighbours of a magnitude have to be looked at. -/
theorem nearest_of_neighbours (hi : g ≤ f.infinity)
    (hlow : ∀ k, g = k + 1 → (unitsOf f k : ℚ) + unitsOf f g ≤ 2 * q ∧
      ((unitsOf f k : ℚ) + unitsOf f g = 2 * q → tie.keeps g k))
    (hhigh : g < f.infinity → 2 * q ≤ (unitsOf f g : ℚ) + unitsOf f (g + 1) ∧
      ((unitsOf f g : ℚ) + unitsOf f (g + 1) = 2 * q → tie.keeps g (g + 1))) :
    Nearest f tie q g := by
  rw [nearest_iff]
  refine ⟨hi, fun k hk => ?_, fun k hki hk => ?_⟩
  · obtain ⟨j, rfl⟩ : ∃ j, g = j + 1 := ⟨g - 1, by omega⟩
    obtain ⟨h1, h2⟩ := hlow j rfl
    rcases Nat.lt_or_eq_of_le (Nat.le_of_lt_succ hk) with hlt | rfl
    · have := unitsOf_lt_cast (f := f) hlt
      exact ⟨by linarith, fun he => by linarith⟩
    · exact ⟨h1, h2⟩
  · obtain ⟨h1, h2⟩ := hhigh (by omega)
    rcases Nat.lt_or_eq_of_le (Nat.succ_le_of_lt hk) with hlt | rfl
    · have := unitsOf_lt_cast (f := f) hlt
      exact ⟨by linarith, fun he => by linarith⟩
    · exact ⟨h1, h2⟩

/-- Two magnitudes cannot both be the nearest one. -/
theorem Nearest.not_lt (hg : Nearest f tie q g) (hk : Nearest f tie q k) : ¬ g < k := by
  intro hlt
  obtain ⟨hgi, -, hhigh⟩ := nearest_iff.1 hg
  obtain ⟨hki, hlow, -⟩ := nearest_iff.1 hk
  obtain ⟨h1, t1⟩ := hhigh k hki hlt
  obtain ⟨h2, t2⟩ := hlow g hlt
  have he : (unitsOf f g : ℚ) + unitsOf f k = 2 * q := le_antisymm h2 h1
  cases tie with
  | away => exact Nat.lt_asymm hlt (t1 he)
  | even =>
    -- both are even, so that there is a magnitude between them, which is nearer than either
    have hge : g % 2 = 0 := t1 he
    have hke : k % 2 = 0 := t2 he
    have hmid := (hlow (g + 1) (by omega)).1
    have := unitsOf_lt_cast (f := f) (Nat.lt_succ_self g)
    linarith

theorem Nearest.unique (hg : Nearest f tie q g) (hk : Nearest f tie q k) : g = k :=
  Nat.le_antisymm (Nat.le_of_not_lt (Nearest.not_lt hk hg)) (Nat.le_of_not_lt (Nearest.not_lt hg hk))

/-- A value that a magnitude has is nearest to that magnitude, whatever the rule for ties. -/
theorem nearest_unitsOf (tie : Tie) (h : g ≤ f.infinity) : Nearest f tie (unitsOf f g) g := by
  rw [nearest_iff]
  refine ⟨h, fun k hk => ?_, fun k _ hk => ?_⟩
  · have := unitsOf_lt_cast (f := f) hk
    exact ⟨by linarith, fun he => by linarith⟩
  · have := unitsOf_lt_cast (f := f) hk
    exact ⟨by linarith, fun he => by linarith⟩

/-- Less than half a unit is nearest to zero. -/
theorem nearest_zero (h : 2 * q < 1) : Nearest f tie q 0 := by
  rw [nearest_iff]
  refine ⟨Nat.zero_le _, fun k hk => by omega, fun k _ hk => ?_⟩
  have h0 : (unitsOf f 0 : ℚ) = 0 := by exact_mod_cast Binary.unitsOf_zero f
  have h1 : (1 : ℚ) ≤ unitsOf f k := by
    have hle := (unitsOf_strictMono f).monotone (show 1 ≤ k from hk)
    rw [Binary.unitsOf_one] at hle
    exact_mod_cast hle
  exact ⟨by linarith, fun he => by linarith⟩

/-- Whatever is not below infinity's place is nearest to infinity. -/
theorem nearest_infinity (h : (unitsOf f f.infinity : ℚ) ≤ q) : Nearest f tie q f.infinity := by
  rw [nearest_iff]
  refine ⟨le_rfl, fun k hk => ?_, fun k hi hk => by omega⟩
  have := unitsOf_lt_cast (f := f) hk
  exact ⟨by linarith, fun he => by linarith⟩

/-! ## Rounding a quotient -/

/-- Rounding down or up, with what the remainder is then. -/
theorem roundHalfEven_cases (n d : Nat) :
    (roundHalfEven n d = n / d ∧ (2 * (n % d) < d ∨ 2 * (n % d) = d ∧ n / d % 2 = 0)) ∨
      roundHalfEven n d = n / d + 1 ∧ (d < 2 * (n % d) ∨ 2 * (n % d) = d ∧ n / d % 2 = 1) := by
  simp only [roundHalfEven, Bool.or_eq_true, decide_eq_true_eq, Bool.and_eq_true, beq_iff_eq]
  split <;> omega

/-- A quotient that lies halfway is rounded to an even number. -/
theorem roundHalfEven_even {n d : Nat} (hd : 0 < d)
    (h : 2 * n = 2 * (roundHalfEven n d * d) + d ∨ 2 * (roundHalfEven n d * d) = 2 * n + d) :
    roundHalfEven n d % 2 = 0 := by
  have hn : n / d * d + n % d = n := Nat.div_add_mod' n d
  have hr := Nat.mod_lt n hd
  have hq : (n / d + 1) * d = n / d * d + d := Nat.succ_mul _ _
  rcases roundHalfEven_cases n d with ⟨he, ht⟩ | ⟨he, ht⟩ <;> rw [he] at h ⊢
  · omega
  · rw [hq] at h
    omega

/-- The rounded quotient is between any two integers that the quotient is between. -/
theorem roundHalfEven_mem {n d a b : Nat} (hd : 0 < d) (ha : a * d ≤ n) (hb : n < b * d) :
    a ≤ roundHalfEven n d ∧ roundHalfEven n d ≤ b := by
  have hlo : a ≤ n / d := (Nat.le_div_iff_mul_le hd).2 ha
  have hhi : n / d < b := (Nat.div_lt_iff_lt_mul hd).2 hb
  simp only [roundHalfEven]
  split <;> omega

theorem roundHalfEven_mul_right (n d c : Nat) (hc : 0 < c) :
    roundHalfEven (n * c) (d * c) = roundHalfEven n d := by
  have h2 : 2 * (n % d * c) = 2 * (n % d) * c := by ring
  have he : (2 * (n % d) * c == d * c) = (2 * (n % d) == d) := by
    rw [Bool.eq_iff_iff, beq_iff_eq, beq_iff_eq, Nat.mul_left_inj (Nat.ne_of_gt hc)]
  simp only [roundHalfEven, Nat.mul_div_mul_right _ _ hc, Nat.mul_mod_mul_right, h2,
    Nat.mul_lt_mul_right hc, he]

/-! ## The magnitude nearest to a quotient -/

/-- A magnitude without a bound: the neighbours on both sides are no nearer to `n / d`, and a tie
with one of them means that the magnitude is even. -/
structure Settled (f : Format) (n d g : Nat) : Prop where
  below : ∀ k < g, (unitsOf f k + unitsOf f g) * d ≤ 2 * n ∧
    ((unitsOf f k + unitsOf f g) * d = 2 * n → g % 2 = 0)
  above : ∀ k, g < k → 2 * n ≤ (unitsOf f g + unitsOf f k) * d ∧
    ((unitsOf f g + unitsOf f k) * d = 2 * n → g % 2 = 0)

/-- Only the two neighbours have to be looked at. -/
theorem settled_of_neighbours {n d : Nat} (hd : 0 < d)
    (hlow : ∀ k, g = k + 1 → (unitsOf f k + unitsOf f g) * d ≤ 2 * n ∧
      ((unitsOf f k + unitsOf f g) * d = 2 * n → g % 2 = 0))
    (hhigh : 2 * n ≤ (unitsOf f g + unitsOf f (g + 1)) * d ∧
      ((unitsOf f g + unitsOf f (g + 1)) * d = 2 * n → g % 2 = 0)) : Settled f n d g := by
  have hmono := unitsOf_strictMono f
  constructor
  · intro k hk
    obtain ⟨j, rfl⟩ : ∃ j, g = j + 1 := ⟨g - 1, by omega⟩
    obtain ⟨h1, h2⟩ := hlow j rfl
    rcases Nat.lt_or_eq_of_le (Nat.le_of_lt_succ hk) with hlt | rfl
    · have hu : unitsOf f k + unitsOf f (j + 1) < unitsOf f j + unitsOf f (j + 1) :=
        Nat.add_lt_add_right (hmono hlt) _
      have := Nat.mul_lt_mul_of_pos_right hu hd
      omega
    · exact ⟨h1, h2⟩
  · intro k hk
    obtain ⟨h1, h2⟩ := hhigh
    rcases Nat.lt_or_eq_of_le (Nat.succ_le_of_lt hk) with hlt | rfl
    · have hu : unitsOf f g + unitsOf f (g + 1) < unitsOf f g + unitsOf f k :=
        Nat.add_lt_add_left (hmono hlt) _
      have := Nat.mul_lt_mul_of_pos_right hu hd
      omega
    · exact ⟨h1, h2⟩

/-- A settled magnitude, cut at infinity, is the nearest one. -/
theorem Settled.nearest {n d : Nat} (hd : 0 < d) (h : Settled f n d g) :
    Nearest f .even (n / d) (min f.infinity g) := by
  have hdq : (0 : ℚ) < d := by exact_mod_cast hd
  have cast_le : ∀ a b : Nat, (a + b) * d ≤ 2 * n → (a : ℚ) + b ≤ 2 * (n / d) := by
    intro a b hab
    have hab' : ((a : ℚ) + b) * d ≤ 2 * n := by exact_mod_cast hab
    rw [← mul_div_assoc, le_div_iff₀ hdq]
    exact hab'
  have cast_ge : ∀ a b : Nat, 2 * n ≤ (a + b) * d → 2 * ((n : ℚ) / d) ≤ a + b := by
    intro a b hab
    have hab' : 2 * (n : ℚ) ≤ ((a : ℚ) + b) * d := by exact_mod_cast hab
    rw [← mul_div_assoc, div_le_iff₀ hdq]
    exact hab'
  have cast_eq : ∀ a b : Nat, (a : ℚ) + b = 2 * (n / d) → (a + b) * d = 2 * n := by
    intro a b hab
    rw [← mul_div_assoc, eq_div_iff (ne_of_gt hdq)] at hab
    exact_mod_cast hab
  rw [nearest_iff]
  refine ⟨Nat.min_le_left _ _, fun k hk => ?_, fun k hi hk => ?_⟩
  · rcases Nat.le_total g f.infinity with hg | hg
    · rw [Nat.min_eq_right hg] at hk ⊢
      obtain ⟨h1, h2⟩ := h.below k hk
      exact ⟨cast_le _ _ h1, fun he => h2 (cast_eq _ _ he)⟩
    · rw [Nat.min_eq_left hg] at hk ⊢
      obtain ⟨h1, -⟩ := h.below k (Nat.lt_of_lt_of_le hk hg)
      refine ⟨cast_le _ _ ?_, fun _ => f.infinity_even⟩
      have hu := (unitsOf_strictMono f).monotone hg
      exact Nat.le_trans (Nat.mul_le_mul_right d (Nat.add_le_add_left hu _)) h1
  · have hg : g ≤ f.infinity := by omega
    rw [Nat.min_eq_right hg] at hk ⊢
    obtain ⟨h1, h2⟩ := h.above k hk
    exact ⟨cast_ge _ _ h1, fun he => h2 (cast_eq _ _ he)⟩

namespace Format

/-- How far the rounded quotient of `magnitudeOfRatio` is from the edges of its binade. -/
theorem roundHalfEven_binade (f : Format) {n d : Nat} (hd : 0 < d) :
    ((n / d).log2 - f.fractionBits = 0 ∨
        f.hiddenBit * (d * 2 ^ ((n / d).log2 - f.fractionBits)) ≤ n) ∧
      n < 2 * f.hiddenBit * (d * 2 ^ ((n / d).log2 - f.fractionBits)) := by
  rw [f.hiddenBit_eq_pow]
  constructor
  · rcases Nat.eq_zero_or_pos ((n / d).log2 - f.fractionBits) with h0 | hpos
    · exact Or.inl h0
    · right
      have hne : n / d ≠ 0 := by
        intro h0
        rw [h0, Nat.log2_zero] at hpos
        omega
      have hlog := Nat.log2_self_le hne
      have hsum : (n / d).log2 = f.fractionBits + ((n / d).log2 - f.fractionBits) := by omega
      rw [hsum, Nat.pow_add, Nat.le_div_iff_mul_le hd] at hlog
      calc 2 ^ f.fractionBits * (d * 2 ^ ((n / d).log2 - f.fractionBits))
          = 2 ^ f.fractionBits * 2 ^ ((n / d).log2 - f.fractionBits) * d := by ring
        _ ≤ n := hlog
  · have hlog : n / d < 2 ^ ((n / d).log2 + 1) := Nat.lt_log2_self
    have hpow : 2 ^ ((n / d).log2 + 1) ≤
        2 * 2 ^ f.fractionBits * 2 ^ ((n / d).log2 - f.fractionBits) := by
      rw [← Nat.pow_succ', ← Nat.pow_add]
      exact Nat.pow_le_pow_right (by decide) (by omega)
    have hlt := (Nat.div_lt_iff_lt_mul hd).1 (Nat.lt_of_lt_of_le hlog hpow)
    calc n < 2 * 2 ^ f.fractionBits * 2 ^ ((n / d).log2 - f.fractionBits) * d := hlt
      _ = 2 * 2 ^ f.fractionBits * (d * 2 ^ ((n / d).log2 - f.fractionBits)) := by ring

/-- The magnitude below one of a binade is of the same precision, but at its lower edge. -/
theorem exponentOf_below {f : Format} {e m k : Nat} (hk : e * f.hiddenBit + m = k + 1)
    (hm : m ≤ 2 * f.hiddenBit) (hedge : e = 0 ∨ f.hiddenBit < m) : exponentOf f k = e := by
  have hpos := f.hiddenBit_pos
  obtain ⟨j, rfl⟩ : ∃ j, m = j + 1 := by
    refine ⟨m - 1, ?_⟩
    rcases hedge with rfl | h
    · rw [Nat.zero_mul] at hk
      omega
    · omega
  have hkj : k = e * f.hiddenBit + j := by omega
  rw [hkj]
  exact Binary.exponentOf_binade f e j (by omega) (by omega)

theorem binade_even (f : Format) (e : Nat) {m : Nat} (h : m % 2 = 0) :
    (e * f.hiddenBit + m) % 2 = 0 := by
  rw [Nat.add_mod, Nat.mul_mod, f.hiddenBit_even, h, Nat.mul_zero]

/-- Rounding to the precision of a binade settles on a magnitude. -/
theorem settled_binade (f : Format) {n d e : Nat} (hd : 0 < d)
    (hlow : e = 0 ∨ f.hiddenBit * (d * 2 ^ e) ≤ n) (hhigh : n < 2 * f.hiddenBit * (d * 2 ^ e)) :
    Settled f n d (e * f.hiddenBit + roundHalfEven n (d * 2 ^ e)) := by
  have hD : 0 < d * 2 ^ e := Nat.mul_pos hd (Nat.two_pow_pos e)
  have hnear := roundHalfEven_near n (d * 2 ^ e) hD
  have heven := roundHalfEven_even (n := n) hD
  have hm : roundHalfEven n (d * 2 ^ e) ≤ 2 * f.hiddenBit :=
    (roundHalfEven_mem hD (Nat.le_trans (Nat.le_of_eq (Nat.zero_mul _)) (Nat.zero_le n)) hhigh).2
  have hm' : e = 0 ∨ f.hiddenBit ≤ roundHalfEven n (d * 2 ^ e) :=
    hlow.imp_right fun h => (roundHalfEven_mem hD h hhigh).1
  -- `m` is the rounded quotient, `R` its value in units times `d`
  generalize hmdef : roundHalfEven n (d * 2 ^ e) = m at *
  have hunits := Binary.unitsOf_binade f e m hm' hm
  have hR : unitsOf f (e * f.hiddenBit + m) * d = m * (d * 2 ^ e) := by
    rw [hunits]
    ring
  refine settled_of_neighbours hd (fun k hk => ?_) ?_
  · have hstep := unitsOf_succ f k
    rw [← hk] at hstep
    have hsum : (unitsOf f k + unitsOf f (e * f.hiddenBit + m)) * d + d * 2 ^ exponentOf f k =
        2 * (m * (d * 2 ^ e)) := by
      rw [← hR, hstep]
      ring
    by_cases hedge : e = 0 ∨ f.hiddenBit < m
    · rw [exponentOf_below hk hm hedge] at hsum
      exact ⟨by omega, fun he => binade_even f e (heven (by omega))⟩
    · -- at the lower edge of a binade the value is on this side of the magnitude
      have hle : m * (d * 2 ^ e) ≤ n := by
        have hmh : m = f.hiddenBit := by omega
        rw [hmh]
        exact hlow.resolve_left (by omega)
      have hpos : 0 < d * 2 ^ exponentOf f k := Nat.mul_pos hd (Nat.two_pow_pos _)
      exact ⟨by omega, fun he => by omega⟩
  · have hstep := unitsOf_succ f (e * f.hiddenBit + m)
    have hsum : (unitsOf f (e * f.hiddenBit + m) + unitsOf f (e * f.hiddenBit + m + 1)) * d =
        2 * (m * (d * 2 ^ e)) + d * 2 ^ exponentOf f (e * f.hiddenBit + m) := by
      rw [← hR, hstep]
      ring
    rcases Nat.lt_or_eq_of_le hm with hlt | heq
    · rw [Binary.exponentOf_binade f e m hm' hlt] at hsum
      exact ⟨by omega, fun he => binade_even f e (heven (by omega))⟩
    · -- a carry: the next magnitude is twice as far away
      have hex : exponentOf f (e * f.hiddenBit + m) = e + 1 := by
        rw [heq]
        exact Binary.exponentOf_carry f e
      have hdouble : d * 2 ^ (e + 1) = 2 * (d * 2 ^ e) := by ring
      rw [hex, hdouble] at hsum
      exact ⟨by omega, fun he => by omega⟩

/-- Rounding a quotient yields the magnitude nearest to it. -/
theorem magnitudeOfRatio_nearest (f : Format) {n d : Nat} (hd : 0 < d) :
    Nearest f .even (n / d) (f.magnitudeOfRatio n d) := by
  obtain ⟨hlow, hhigh⟩ := roundHalfEven_binade f (n := n) hd
  simp only [magnitudeOfRatio, twoPower_eq_pow]
  exact (settled_binade f hd hlow hhigh).nearest hd

theorem log2_scaled {m up down : Nat} (hm : m ≠ 0) :
    (m * 2 ^ up / 2 ^ down).log2 = m.log2 + up - down := by
  have hlow : 2 ^ (m.log2 + up) ≤ m * 2 ^ up := by
    rw [Nat.pow_add]
    exact Nat.mul_le_mul_right _ (Nat.log2_self_le hm)
  have hhigh : m * 2 ^ up < 2 ^ (m.log2 + up + 1) := by
    rw [Nat.add_right_comm, Nat.pow_add]
    exact Nat.mul_lt_mul_of_pos_right Nat.lt_log2_self (Nat.two_pow_pos up)
  rcases Nat.lt_or_ge (m.log2 + up) down with hlt | hge
  · have hpow : 2 ^ (m.log2 + up + 1) ≤ 2 ^ down := Nat.pow_le_pow_right (by decide) hlt
    rw [Nat.div_eq_of_lt (Nat.lt_of_lt_of_le hhigh hpow), Nat.log2_zero]
    omega
  · obtain ⟨k, hk⟩ : ∃ k, m.log2 + up = k + down := ⟨m.log2 + up - down, by omega⟩
    have hq : 2 ^ k ≤ m * 2 ^ up / 2 ^ down := by
      rw [Nat.le_div_iff_mul_le (Nat.two_pow_pos down), ← Nat.pow_add, ← hk]
      exact hlow
    have hq' : m * 2 ^ up / 2 ^ down < 2 ^ (k + 1) := by
      rw [Nat.div_lt_iff_lt_mul (Nat.two_pow_pos down), ← Nat.pow_add, Nat.add_right_comm, ← hk]
      exact hhigh
    have hne : m * 2 ^ up / 2 ^ down ≠ 0 := by
      have := Nat.two_pow_pos k
      omega
    rw [(Nat.log2_eq_iff hne).2 ⟨hq, hq'⟩]
    omega

/-- Scaling by powers of two, with none of them computed but the ones that are needed. -/
theorem magnitudeOfScaled_eq_ratio (f : Format) (m up down : Nat) :
    f.magnitudeOfScaled m up down = f.magnitudeOfRatio (m * 2 ^ up) (2 ^ down) := by
  simp only [magnitudeOfScaled, magnitudeOfRatio, twoPower_eq_pow]
  split
  · rename_i h0
    subst h0
    simp [roundHalfEven]
  · rename_i h0
    rw [log2_scaled h0]
    generalize m.log2 + up - down - f.fractionBits = drop
    -- what both powers share is cancelled
    have hn : m * 2 ^ up = m * 2 ^ (up - (down + drop)) * 2 ^ min up (down + drop) := by
      rw [Nat.mul_assoc, ← Nat.pow_add]
      congr 2
      omega
    have hd : 2 ^ down * 2 ^ drop = 2 ^ (down + drop - up) * 2 ^ min up (down + drop) := by
      rw [← Nat.pow_add, ← Nat.pow_add]
      congr 1
      omega
    rw [hn, hd, roundHalfEven_mul_right _ _ _ (Nat.two_pow_pos _)]

end Format

end VectorBench
