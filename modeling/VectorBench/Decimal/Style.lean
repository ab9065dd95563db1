import VectorBench.Decimal.Shortest

/-!
# Written numbers

How a 64-bit number is written with its shortest digits.  Two styles are in use: the *message*
style of diagnostics never has an exponent and writes whole numbers without a point; the *file*
style of stored records always has a point or an exponent, and an exponent where the first digit
stands more than five places behind the point or more than sixteen places before it.
-/

namespace VectorBench

/-- The choices that a written form leaves open once the digits are known. -/
structure NumberStyle where
  /-- Which of two equally near decimals is taken. -/
  tie : Tie
  /-- The exponents of the first digit for which the number is written without an exponent. -/
  positional : Int → Bool
  /-- Whether a whole number keeps a zero behind the point. -/
  keepsPoint : Bool

namespace NumberStyle

/-- No exponent ever, no point in whole numbers. -/
def message : NumberStyle := ⟨.away, fun _ => true, false⟩

/-- A point or an exponent always. -/
def file : NumberStyle := ⟨.even, fun lead => -5 ≤ lead && lead ≤ 15, true⟩

/-- Digits without the zeros at the end. -/
def significant (digits : List Char) : List Char :=
  (digits.reverse.dropWhile (· == '0')).reverse

/-- The digits with a point after the first `lead + 1` of them, filled up with zeros. -/
def positionalText (keepsPoint : Bool) (digits : List Char) (lead : Int) : List Char :=
  let zeros := fun (n : Int) => List.replicate n.toNat '0'
  if lead < 0 then '0' :: '.' :: (zeros (-lead - 1) ++ digits)
  else
    let whole := (lead + 1).toNat
    if whole < digits.length then digits.take whole ++ '.' :: digits.drop whole
    else digits ++ zeros (lead + 1 - digits.length) ++ (if keepsPoint then ['.', '0'] else [])

/-- The digits with a point after the first, then the exponent with its sign. -/
def exponentText (digits : List Char) (lead : Int) : List Char :=
  let mantissa := match digits with
    | first :: second :: rest => first :: '.' :: second :: rest
    | short => short
  mantissa ++ 'e' :: (if lead < 0 then '-' else '+') :: Nat.toDigits 10 lead.natAbs

/-- The text of a finite absolute value. -/
def magnitudeText (style : NumberStyle) (x : Binary64) : List Char :=
  if x.isZero then if style.keepsPoint then ['0', '.', '0'] else ['0']
  else
    let decimal := shortest style.tie x
    let digits := significant (Nat.toDigits 10 decimal.coefficient)
    if style.positional decimal.leading then
      positionalText style.keepsPoint digits decimal.leading
    else exponentText digits decimal.leading

/-- The text of a number; a NaN has no sign. -/
def text (style : NumberStyle) (x : Binary64) : List Char :=
  if x.isNaN then "NaN".toList
  else
    (if x.negative then ['-'] else []) ++
      if x.isInfinite then "inf".toList else style.magnitudeText x

end NumberStyle

/-- A number as diagnostics show it. -/
def Binary.messageText (x : Binary64) : String := String.ofList (NumberStyle.message.text x)

end VectorBench
