import VectorBench.Binary.Convert

/-!
# Natural logarithm

A positive number is `2 ^ k * m` with `m` in `[1, 2)`, so that its logarithm is
`k * log 2 + log m`.  Both logarithms come from `log m = 2 * artanh ((m - 1) / (m + 1))` and the odd
power series of `artanh`, whose argument is at most one third.  The sum is taken in fixed point with
`logBits` fraction bits, of which the series leaves more than a hundred correct, and rounded once.
-/

namespace VectorBench.Binary

/-- Fraction bits of the fixed-point logarithm. -/
def logBits : Nat := 192

/-- The terms `z, z^3/3, z^5/5, …` of `artanh z` added up, for a fixed-point `z` of at most one
third: `power` is the current odd power, `odd` its exponent. -/
def artanhSeries (square : Nat) : (terms odd power : Nat) → Nat
  | 0, _, _ => 0
  | terms + 1, odd, power =>
    power / odd + artanhSeries square terms (odd + 2) (power * square / twoPower logBits)

/-- Fixed-point `log (n / d)` for `d ≤ n ≤ 2 * d`. -/
def logRatio (n d : Nat) : Nat :=
  let z := (n - d) * twoPower logBits / (n + d)
  2 * artanhSeries (z * z / twoPower logBits) 64 1 z

/-- The natural logarithm: negative infinity of a zero, NaN of a negative number. -/
def log {f : Format} (x : Binary f) : Binary f :=
  if x.isNaN then nan
  else if x.isZero then infinity true
  else if x.negative then nan
  else if x.isInfinite then x
  else
    let width := x.significand.log2
    let twos : Int := (width + x.exponent : Nat) - (f.unitBits : Int)
    let total : Int := twos * logRatio 2 1 + logRatio x.significand (twoPower width)
    ofRatio f (total < 0) (total.natAbs * twoPower f.unitBits) (twoPower logBits)

end VectorBench.Binary
