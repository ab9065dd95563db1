import VectorBench.Binary.Basic

/-!
# Comparing numbers

Two orders are in use.  The numeric order is that of the real values: both zeros are equal, and a
NaN is not comparable to anything.  The total order puts every bit pattern in its place, from the
negative NaNs over the numbers, with `-0` right below `+0`, to the positive NaNs; it is the order of
the integers `rank`.
-/

namespace VectorBench.Binary

variable {f : Format}

/-- The magnitude with its sign; both zeros have signed magnitude zero. -/
def signedMagnitude (x : Binary f) : Int :=
  if x.negative then -(x.magnitude : Int) else x.magnitude

/-- The place of a bit pattern in the total order. -/
def rank (x : Binary f) : Int :=
  if x.negative then -(x.magnitude : Int) - 1 else x.magnitude

def lt (x y : Binary f) : Bool :=
  !x.isNaN && !y.isNaN && x.signedMagnitude < y.signedMagnitude

def le (x y : Binary f) : Bool :=
  !x.isNaN && !y.isNaN && x.signedMagnitude ≤ y.signedMagnitude

/-- The larger of two numbers; a NaN gives way to the other operand. -/
def max (x y : Binary f) : Binary f :=
  if x.isNaN then y
  else if x.lt y then y
  else x

def isPositive (x : Binary f) : Bool := (zero false).lt x

/-! ## Lemmas -/

theorem rank_injective {x y : Binary f} (h : x.rank = y.rank) : x = y := by
  obtain ⟨s, g, hg⟩ := x
  obtain ⟨t, k, hk⟩ := y
  cases s <;> cases t <;> simp [rank] at h <;> first | omega | skip
  all_goals
    have : g = k := by omega
    subst this
    rfl

end VectorBench.Binary
