import VectorBench.Binary.Order
import VectorBench.Binary.Round

/-!
# Conversions

Between the two formats and between numbers and integers.  A finite number is exactly
`significand * 2 ^ exponent / 2 ^ unitBits`, of which the integer parts below are the quotients.
-/

namespace VectorBench.Binary

variable {f : Format}

/-- The nearest number of another format. -/
def toFormat (g : Format) (x : Binary f) : Binary g :=
  if x.isNaN then nan
  else if x.isInfinite then infinity x.negative
  else ofScaled g x.negative x.significand (x.exponent + g.unitBits) f.unitBits

def widen (x : Binary32) : Binary64 := x.toFormat .double

def narrow (x : Binary64) : Binary32 := x.toFormat .single

def ofInt (f : Format) (i : Int) : Binary f :=
  ofScaled f (i < 0) i.natAbs f.unitBits 0

/-! ## Integer parts -/

/-- The absolute value as a quotient of naturals. -/
def ratio (x : Binary f) : Nat × Nat :=
  (x.significand * twoPower (x.exponent - f.unitBits), twoPower (f.unitBits - x.exponent))

/-- The greatest integer that is not above a finite number. -/
def floorInt (x : Binary f) : Int :=
  let (n, d) := x.ratio
  if x.negative then -((n + (d - 1)) / d : Nat) else (n / d : Nat)

/-- The least integer that is not below a finite number. -/
def ceilInt (x : Binary f) : Int := -x.neg.floorInt

/-- The nearest integer, a half going away from zero. -/
def roundInt (x : Binary f) : Int :=
  let (n, d) := x.ratio
  let away : Nat := (2 * n + d) / (2 * d)
  if x.negative then -(away : Int) else away

/-- An integer part as a number again; it keeps the sign, and an infinity or a NaN is its own. -/
def integral (part : Binary f → Int) (x : Binary f) : Binary f :=
  if x.isFinite then { ofInt f (part x) with negative := x.negative } else x

def floor (x : Binary f) : Binary f := integral floorInt x

def ceil (x : Binary f) : Binary f := integral ceilInt x

end VectorBench.Binary
