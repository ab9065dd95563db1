import VectorBench.Binary.Round

/-!
# Arithmetic

Each operation forms its exact result as an integer or a quotient of integers and rounds it once.
A sum whose exact value is zero is positive unless both operands are negative; a product and a
quotient have the product of the signs.
-/

namespace VectorBench.Binary

variable {f : Format}

/-- The exact sum of two finite numbers, both scaled to the smaller exponent, rounded. -/
def addFinite (x y : Binary f) : Binary f :=
  let low := min x.exponent y.exponent
  let a := x.significand * twoPower (x.exponent - low)
  let b := y.significand * twoPower (y.exponent - low)
  if x.negative = y.negative then ofScaled f x.negative (a + b) low 0
  else if b < a then ofScaled f x.negative (a - b) low 0
  else if a < b then ofScaled f y.negative (b - a) low 0
  else zero false

def add (x y : Binary f) : Binary f :=
  if x.isNaN || y.isNaN then nan
  else if x.isInfinite then
    if y.isInfinite && x.negative != y.negative then nan else x
  else if y.isInfinite then y
  else addFinite x y

def sub (x y : Binary f) : Binary f := add x y.neg

def mul (x y : Binary f) : Binary f :=
  let negative := x.negative != y.negative
  if x.isNaN || y.isNaN then nan
  else if x.isInfinite || y.isInfinite then
    if x.isZero || y.isZero then nan else infinity negative
  else ofScaled f negative (x.significand * y.significand) (x.exponent + y.exponent) f.unitBits

/-- The quotient of two finite numbers, in units `x * 2 ^ unitBits / y`. -/
def divFinite (negative : Bool) (x y : Binary f) : Binary f :=
  let up := x.exponent + f.unitBits
  ofRatio f negative (x.significand * twoPower (up - y.exponent))
    (y.significand * twoPower (y.exponent - up))

def div (x y : Binary f) : Binary f :=
  let negative := x.negative != y.negative
  if x.isNaN || y.isNaN then nan
  else if x.isInfinite then if y.isInfinite then nan else infinity negative
  else if y.isInfinite then zero negative
  else if y.isZero then if x.isZero then nan else infinity negative
  else divFinite negative x y

/-- The square root.  The root of a natural number of units lies between two consecutive naturals,
and no number halfway between two magnitudes lies strictly between those, so that half a unit may
stand for whatever is beyond the integer part. -/
def sqrt (x : Binary f) : Binary f :=
  if x.isNaN then nan
  else if x.isZero then x
  else if x.negative then nan
  else if x.isInfinite then x
  else
    let n := x.significand * twoPower (x.exponent + f.unitBits)
    let root := n.sqrt
    ofRatio f false (if root * root = n then 2 * root else 2 * root + 1) 2

instance : Add (Binary f) := ⟨add⟩
instance : Sub (Binary f) := ⟨sub⟩
instance : Mul (Binary f) := ⟨mul⟩
instance : Div (Binary f) := ⟨div⟩
instance : Neg (Binary f) := ⟨neg⟩

/-- The sum from left to right, from negative zero, which is neutral. -/
def sum (xs : List (Binary f)) : Binary f := xs.foldl (· + ·) (zero true)

/-! ## Lemmas -/

theorem mul_comm (x y : Binary f) : x * y = y * x := by
  change mul x y = mul y x
  have h : (x.negative != y.negative) = (y.negative != x.negative) := by
    cases x.negative <;> cases y.negative <;> rfl
  unfold mul
  rw [h, Bool.or_comm x.isNaN, Bool.or_comm x.isInfinite, Bool.or_comm x.isZero,
    Nat.mul_comm x.significand, Nat.add_comm x.exponent]

end VectorBench.Binary
