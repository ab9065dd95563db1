import VectorBench.Binary.Arith
import VectorBench.Binary.Log
import VectorBench.Decimal.Fixed

/-!
# Axis ticks

The marks of an axis from zero up to a bound, at most eleven of them wherever the bound leaves a
choice.  Their distance is a power of ten, or a half, a fifth or a tenth of one: starting from the
power of ten that the bound is a few times of, ever smaller distances are tried until one would give
too many marks.  On an axis without a finite bound none does, and the search does not end.
The labels show as few decimals as come within `1e-5` of a mark.
-/

namespace VectorBench

/-- The 64-bit number nearest to `coefficient * 10 ^ exponent`. -/
def decimal64 (coefficient : Nat) (exponent : Int) : Binary64 :=
  (Decimal.mk coefficient exponent).toBinary .double false

def whole64 (n : Nat) : Binary64 := .ofNat .double n

/-- The distance up to which two numbers of an axis count as equal: `2 ^ (-52)`. -/
def axisEpsilon : Binary64 := .ofBits .double 0x3cb0000000000000

def maxTicks : Nat := 11

/-- What is left of `a` above a multiple of `b`; nothing, if it is as good as `b`. -/
def remainderOf (a b : Binary64) : Binary64 :=
  let rest := a - (a / b).floor * b
  let gap := rest - b
  if Binary.lt { gap with negative := false } axisEpsilon then .zero false else rest

/-- The largest multiple of `step` up to `bound`. -/
def lastTick (bound step : Binary64) : Binary64 := bound - remainderOf bound step

/-- The exponents of the powers of ten that are taken from above although the number below is as
near or nearer.  The exact powers lie halfway between two numbers or all but halfway. -/
def roundedUp : List Int := [23, 210]

/-- The number for a power of ten: the nearest one, but for the powers in `roundedUp`. -/
def powerOfTen (exponent : Int) : Binary64 :=
  let nearest := decimal64 1 exponent
  if roundedUp.contains exponent then .ofMagnitude .double false (nearest.magnitude + 1)
  else nearest

/-- An integer part as a count; what is not a number counts nothing. -/
def countOf (part : Binary64 → Int) (x : Binary64) : Nat :=
  if x.isNaN then 0 else (part x).toNat

/-- The power of ten that the search for a distance starts from. -/
def firstStep (bound : Binary64) : Binary64 :=
  let step := powerOfTen (bound.log / (whole64 10).log).floorInt
  if maxTicks < 1 + countOf Binary.floorInt (bound / step) then step * whole64 10 else step

/-- Tries the parts of the distance `old`: the smallest that does not give too many marks, and
whether all of them do not. -/
def refineStep (bound old : Binary64) : (parts : List Nat) → (step : Binary64) → Binary64 × Bool
  | [], step => (step, true)
  | part :: rest, step =>
    let next := old / whole64 part
    let marks := whole64 1 + lastTick bound next / old * whole64 part
    if maxTicks < countOf Binary.roundInt marks then (step, false) else refineStep bound old rest next

/-- One round of the search: the distance to go on with, or the one that is found. -/
def searchRound (bound old : Binary64) : Id (Binary64 ⊕ Binary64) :=
  match refineStep bound old [2, 5, 10] old with
  | (step, false) => .inr step
  | (_, true) => .inl (old / whole64 10)

/-- Makes the distance smaller, a tenth in every round, as long as the marks stay few. -/
def searchStep (bound step : Binary64) : Binary64 := Id.run (repeatM (searchRound bound) step)

/-- The marks from `value` on, up to `last`, at most `count` of them. -/
def ticksFrom (step last : Binary64) : (count : Nat) → (value : Binary64) → List Binary64
  | 0, _ => []
  | count + 1, value =>
    if axisEpsilon.neg.le (last - value) then
      value :: ticksFrom step last count (value + step)
    else []

/-- The marks of an axis up to a positive bound. -/
def tickValues (bound : Binary64) : List Binary64 :=
  if bound.lt axisEpsilon then [.zero false]
  else
    let step := searchStep bound (firstStep bound)
    ticksFrom step (lastTick bound step) 64 (.zero false)

/-- The number with the fewest decimals within `tolerance` of `x`, and how many these are.  Every
step moves the point by one place. -/
def fewestDecimals : (steps : Nat) → (x tolerance : Binary64) → Binary64 × Nat
  | 0, x, _ => (x, 0)
  | steps + 1, x, tolerance =>
    if (whole64 1).le tolerance then (x, 0)
    else if (x - x.floor).lt tolerance then (x.floor, 0)
    else if (x.ceil - x).lt tolerance then (x.ceil, 0)
    else
      let (rest, places) :=
        fewestDecimals steps ((x - x.floor) * whole64 10) (tolerance * whole64 10)
      (x.floor + rest / whole64 10, places + 1)

/-- The label of a mark: at least one decimal, and no zeros at the end but that one. -/
def tickText (x : Binary64) : String :=
  let (short, places) := fewestDecimals 8 x (decimal64 1 (-5))
  let decimals := ((short - short.floor) * decimal64 1 places).roundInt.toNat
  let shown :=
    if decimals = 0 || places = 0 then ['0']
    else
      let padded := padLeft places (Nat.toDigits 10 decimals)
      (padded.reverse.dropWhile (· == '0')).reverse
  toString short.floorInt ++ "." ++ String.ofList shown

end VectorBench
