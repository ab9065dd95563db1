import VectorBench.Decimal.Basic

/-!
# Numbers on the command line

A whole number is a row of decimal digits, possibly behind a plus sign, that stands for less than
`2 ^ 64`.  A decimal number has digits before or behind a point or both, possibly a sign, and
possibly an exponent; the words for infinity and NaN are known in upper and lower case.  Blanks are
nowhere allowed.
-/

namespace VectorBench.CommandLine

inductive WholeFault where
  | empty
  | invalidDigit
  | tooLarge
  deriving DecidableEq, Repr

def WholeFault.text : WholeFault → String
  | empty => "cannot parse integer from empty string"
  | invalidDigit => "invalid digit found in string"
  | tooLarge => "number too large to fit in target type"

/-- Reads digits behind those of `value`.  A digit that cannot follow because the number is too
large already is looked at before that is reported. -/
def readDigits (value : Nat) : List Char → Except WholeFault Nat
  | [] => .ok value
  | c :: rest =>
    if !c.isDigit then .error .invalidDigit
    else
      let value := value * 10 + (c.toNat - '0'.toNat)
      if value < UInt64.size then readDigits value rest else .error .tooLarge

/-- The whole number that a text stands for. -/
def readWhole (text : String) : Except WholeFault UInt64 :=
  match text.toList with
  | [] => .error .empty
  | first :: rest =>
    let digits := if first = '+' then rest else first :: rest
    if digits.isEmpty then .error .invalidDigit
    else (readDigits 0 digits).map Nat.toUInt64

inductive DecimalFault where
  | empty
  | invalid
  deriving DecidableEq, Repr

def DecimalFault.text : DecimalFault → String
  | empty => "cannot parse float from empty string"
  | invalid => "invalid float literal"

/-- The exponent at the end of a decimal number: none at all, or a letter, a sign and digits. -/
def readExponent : List Char → Option Int
  | [] => some 0
  | letter :: rest =>
    if letter = 'e' || letter = 'E' then
      let (negative, digits) := match rest with
        | '-' :: digits => (true, digits)
        | '+' :: digits => (false, digits)
        | digits => (false, digits)
      if digits.isEmpty || !digits.all Char.isDigit then none
      else
        let value : Int := Nat.ofDigitChars 10 digits 0
        some (if negative then -value else value)
    else none

/-- A decimal number without its sign. -/
def readMagnitude (text : List Char) : Option Decimal :=
  let whole := text.takeWhile Char.isDigit
  let rest := text.dropWhile Char.isDigit
  let (fraction, rest) := match rest with
    | '.' :: rest => (rest.takeWhile Char.isDigit, rest.dropWhile Char.isDigit)
    | rest => ([], rest)
  if whole.isEmpty && fraction.isEmpty then none
  else (readExponent rest).map fun exponent => .ofDigits whole fraction exponent

/-- A word that stands for a number that is not finite. -/
def readWord? (negative : Bool) (text : List Char) : Option Binary64 :=
  let word := text.map Char.toLower
  if word = "inf".toList || word = "infinity".toList then some (.infinity negative)
  else if word = "nan".toList then some { (Binary.nan : Binary64) with negative }
  else none

/-- The 64-bit number nearest to what a text stands for. -/
def readDecimal (text : String) : Except DecimalFault Binary64 :=
  match text.toList with
  | [] => .error .empty
  | first :: rest =>
    let negative := first == '-'
    let magnitude := if first = '-' || first = '+' then rest else first :: rest
    match readMagnitude magnitude with
    | some decimal => .ok (decimal.toBinary .double negative)
    | none =>
      match readWord? negative magnitude with
      | some value => .ok value
      | none => .error .invalid

end VectorBench.CommandLine
