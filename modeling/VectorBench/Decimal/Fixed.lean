import VectorBench.Decimal.Basic

/-!
# Fixed places

A number written with a fixed count of digits behind the point: the exact value rounded to the
nearest multiple of the last place, a half going to the even one, with all digits before the point.
The sign is that of the number, also where nothing but zeros is left.
-/

namespace VectorBench

def padLeft (width : Nat) (digits : List Char) : List Char :=
  List.replicate (width - digits.length) '0' ++ digits

/-- The number of last places in a finite absolute value, rounded. -/
def fixedUnits (places : Nat) (x : Binary64) : Nat :=
  roundHalfEven (x.ratio.1 * tenPower places) x.ratio.2

/-- The text of a number with `places` digits behind the point, for a positive `places`. -/
def fixedText (places : Nat) (x : Binary64) : List Char :=
  if x.isNaN then "NaN".toList
  else
    (if x.negative then ['-'] else []) ++
      if x.isInfinite then "inf".toList
      else
        let units := fixedUnits places x
        Nat.toDigits 10 (units / tenPower places) ++
          '.' :: padLeft places (Nat.toDigits 10 (units % tenPower places))

def Binary.fixed (places : Nat) (x : Binary64) : String := String.ofList (fixedText places x)

end VectorBench
