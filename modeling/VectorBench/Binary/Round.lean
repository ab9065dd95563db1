import VectorBench.Binary.Basic

/-!
# Rounding to the nearest number

One rule serves every operation: an exact nonnegative value, given in units of the format as a
quotient of naturals, goes to the nearest magnitude, and a value halfway between two magnitudes goes
to the even one.  Values of at least `2 ^ fractionBits` units lose as many low bits as their size
exceeds that of a significand; what remains is rounded, and a carry out of the significand lands on
the next binade by itself, because magnitudes are consecutive.  Everything from halfway above the
largest finite magnitude is infinite.
-/

namespace VectorBench

/-- The natural nearest to `n / d`, the even one of two that are equally near. -/
def roundHalfEven (n d : Nat) : Nat :=
  let q := n / d
  let r := n % d
  if 2 * r < d || (2 * r == d && q % 2 == 0) then q else q + 1

namespace Format

/-- The magnitude nearest to `n / d` units. -/
def magnitudeOfRatio (f : Format) (n d : Nat) : Nat :=
  let drop := (n / d).log2 - f.fractionBits
  min f.infinity (drop * f.hiddenBit + roundHalfEven n (d * twoPower drop))

/-- The magnitude nearest to `m * 2 ^ up / 2 ^ down` units. -/
def magnitudeOfScaled (f : Format) (m up down : Nat) : Nat :=
  if m = 0 then 0
  else
    let drop := m.log2 + up - down - f.fractionBits
    let lift := up - (down + drop)
    let shift := down + drop - up
    min f.infinity (drop * f.hiddenBit + roundHalfEven (m * twoPower lift) (twoPower shift))

end Format

namespace Binary

variable {f : Format}

/-- The number nearest to `± n / d` units. -/
def ofRatio (f : Format) (negative : Bool) (n d : Nat) : Binary f :=
  ofMagnitude f negative (f.magnitudeOfRatio n d)

/-- The number nearest to `± m * 2 ^ up / 2 ^ down` units. -/
def ofScaled (f : Format) (negative : Bool) (m up down : Nat) : Binary f :=
  ofMagnitude f negative (f.magnitudeOfScaled m up down)

def ofNat (f : Format) (n : Nat) : Binary f := ofScaled f false n f.unitBits 0

end Binary

/-! ## Lemmas -/

/-- The rounded quotient is within half a unit of the exact one. -/
theorem roundHalfEven_near (n d : Nat) (hd : 0 < d) :
    2 * n ≤ 2 * (roundHalfEven n d * d) + d ∧ 2 * (roundHalfEven n d * d) ≤ 2 * n + d := by
  have hn : d * (n / d) + n % d = n := Nat.div_add_mod n d
  have hr := Nat.mod_lt n hd
  have hq : n / d * d = d * (n / d) := Nat.mul_comm _ _
  have hq1 : (n / d + 1) * d = d * (n / d) + d := by rw [Nat.add_mul, hq, Nat.one_mul]
  simp only [roundHalfEven]
  split
  · rename_i h
    simp at h
    omega
  · rename_i h
    simp at h
    omega

end VectorBench
