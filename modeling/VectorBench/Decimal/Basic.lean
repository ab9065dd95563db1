import VectorBench.Binary.Convert

/-!
# Decimal numbers

A decimal is `coefficient * 10 ^ exponent`.  Reading one gives the binary number nearest to its
exact value, however many digits it has.  The bounds in `Decimal.toBinary` only keep the powers of
ten small: beyond them every value is infinite or zero anyway, because a format has no number of
`10 ^ unitBits` or more and none but zero near `10 ^ (-unitBits)`.
-/

namespace VectorBench

/-- The exact value `coefficient * 10 ^ exponent`. -/
structure Decimal where
  coefficient : Nat
  exponent : Int
  deriving DecidableEq, Repr

def tenPower (n : Nat) : Nat := Nat.pow 10 n

def digitCount (n : Nat) : Nat := (Nat.toDigits 10 n).length

namespace Decimal

/-- The decimal with the given digits before and after the point, times a power of ten. -/
def ofDigits (whole fraction : List Char) (exponent : Int) : Decimal where
  coefficient := Nat.ofDigitChars 10 (whole ++ fraction) 0
  exponent := exponent - fraction.length

/-- The exponent of the first digit, for a coefficient other than zero. -/
def leading (d : Decimal) : Int := d.exponent + digitCount d.coefficient - 1

/-- The number of format `f` nearest to `± d`. -/
def toBinary (f : Format) (negative : Bool) (d : Decimal) : Binary f :=
  if d.coefficient = 0 then .zero negative
  else if (f.unitBits : Int) < d.leading then .infinity negative
  else if d.leading < -(f.unitBits : Int) then .zero negative
  else
    .ofRatio f negative (d.coefficient * tenPower d.exponent.toNat * twoPower f.unitBits)
      (tenPower (-d.exponent).toNat)

/-- The exact value of a finite number. -/
def ofBinary {f : Format} (x : Binary f) : Decimal :=
  if f.unitBits ≤ x.exponent then ⟨x.significand * twoPower (x.exponent - f.unitBits), 0⟩
  else
    let places := f.unitBits - x.exponent
    ⟨x.significand * Nat.pow 5 places, -(places : Int)⟩

end Decimal

end VectorBench
