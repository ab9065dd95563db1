import VectorBench.Decimal.Basic
import VectorBench.Json.Fault

/-!
# Reading numbers

The literal of a number has a whole part without leading zeros, and possibly a fraction and an
exponent.  Without these two it is an integer: a natural number below `2 ^ 64`, or a negative one of
which the absolute value is at most `2 ^ 63` and not zero.  Every other literal stands for the
nearest 64-bit number, which must be finite, as far as its exponent has 32 bits.
-/

namespace VectorBench.Json

/-- The parts of a number's literal. -/
structure Numeral where
  negative : Bool
  whole : List Char
  fraction : Option (List Char)
  /-- Whether the exponent is negative, and its digits. -/
  exponent : Option (Bool × List Char)
  deriving DecidableEq, Repr

/-- What a literal stands for. -/
inductive Number where
  | natural (value : Nat)
  /-- The negative of a positive natural number. -/
  | negative (value : Nat)
  | float (value : Binary64)

/-! ## Reading the parts -/

def digitsOf (text : List Char) : List Char := text.takeWhile Char.isDigit

def Cursor.skipDigits (c : Cursor) : Cursor :=
  ⟨c.rest.dropWhile Char.isDigit,
    { c.position with column := c.position.column + (digitsOf c.rest).length }⟩

/-- The whole part: a zero alone, or digits that do not start with a zero.  At the end of the text
the fault is `atEnd`. -/
def readWhole (atEnd : Fault) (c : Cursor) : Reading (List Char) :=
  match c.rest with
  | [] => c.fail atEnd
  | first :: rest =>
    if first = '0' then
      if (digitsOf rest).isEmpty then .ok (['0'], c.advance)
      else c.advance.failAhead .invalidNumber
    else if first.isDigit then .ok (digitsOf c.rest, c.skipDigits)
    else .error ⟨.invalidNumber, c.ahead⟩

/-- The fraction, if there is a point. -/
def readFraction (atEnd : Fault) (c : Cursor) : Reading (Option (List Char)) :=
  match c.rest with
  | '.' :: rest =>
    let c := c.advance
    match rest with
    | [] => c.fail atEnd
    | first :: _ =>
      if first.isDigit then .ok (some (digitsOf rest), c.skipDigits)
      else c.failAhead .invalidNumber
  | _ => .ok (none, c)

/-- Behind the sign of an exponent, and whether it is a minus. -/
def readExponentSign (c : Cursor) : Bool × Cursor :=
  match c.rest with
  | '+' :: _ => (false, c.advance)
  | '-' :: _ => (true, c.advance)
  | _ => (false, c)

/-- The exponent, if there is a letter for it, and the position where its digits start. -/
def readExponent (atEnd : Fault) (c : Cursor) : Reading (Option (Bool × List Char) × Position) :=
  match c.rest with
  | [] => .ok ((none, c.position), c)
  | letter :: _ =>
    if letter = 'e' || letter = 'E' then
      let (negative, c) := readExponentSign c.advance
      match c.rest with
      | [] => c.fail atEnd
      | first :: _ =>
        if first.isDigit then
          .ok ((some (negative, digitsOf c.rest), c.position), c.skipDigits)
        else .error ⟨.invalidNumber, c.ahead⟩
    else .ok ((none, c.position), c)

/-- The literal of a number behind its sign, and the position where the digits of its exponent
start. -/
def readNumeral (atEnd : Fault) (negative : Bool) (c : Cursor) : Reading (Numeral × Position) :=
  match readWhole atEnd c with
  | .error e => .error e
  | .ok (whole, c) =>
    match readFraction atEnd c with
    | .error e => .error e
    | .ok (fraction, c) =>
      match readExponent atEnd c with
      | .error e => .error e
      | .ok ((exponent, start), c) => .ok ((⟨negative, whole, fraction, exponent⟩, start), c)

/-! ## What a literal stands for -/

/-- The number of digits after which an exponent is larger than `2 ^ 31 - 1`. -/
def digitsPastExponent (value count : Nat) : List Char → Option Nat
  | [] => none
  | c :: rest =>
    let value := value * 10 + (c.toNat - '0'.toNat)
    if 2147483647 < value then some (count + 1) else digitsPastExponent value (count + 1) rest

namespace Numeral

/-- The most digits that are looked at one by one.  Every value halfway between two 64-bit numbers
has fewer. -/
def maxDigits : Nat := 768

/-- Whether all digits before the exponent are zeros. -/
def isZero (n : Numeral) : Bool := (n.whole ++ n.fraction.getD []).all (· == '0')

def exponentValue (n : Numeral) : Int :=
  match n.exponent with
  | none => 0
  | some (negative, digits) =>
    let value : Int := Nat.ofDigitChars 10 digits 0
    if negative then -value else value

/-- The digits behind the point up to the last one that is not zero. -/
def decimals (n : Numeral) : List Char :=
  ((n.fraction.getD []).reverse.dropWhile (· == '0')).reverse

/-- The value that is rounded, less the sign.  Of more digits than `maxDigits` the others only count
as something above zero, even when all of them are zeros of the whole part. -/
def decimal (n : Numeral) : Decimal :=
  let digits := (n.whole ++ n.decimals).dropWhile (· == '0')
  let others := digits.length - maxDigits
  if others = 0 then .ofDigits n.whole n.decimals n.exponentValue
  else .ofDigits (digits.take maxDigits ++ ['1']) []
    (n.exponentValue - n.decimals.length + others - 1)

/-- Whether the exponent is so far below zero that the digits do not matter. -/
def exponentTooSmall (n : Numeral) : Bool := n.exponentValue < -2147483647

/-- The nearest 64-bit number, or zero when the exponent is too small. -/
def float (n : Numeral) : Binary64 :=
  if n.exponentTooSmall then .zero n.negative else n.decimal.toBinary .double n.negative

/-- Whether the literal has neither a fraction nor an exponent. -/
def isInteger (n : Numeral) : Bool := n.fraction.isNone && n.exponent.isNone

/-- What the literal stands for, without regard to the range. -/
def number (n : Numeral) : Number :=
  let value := Nat.ofDigitChars 10 n.whole 0
  if !n.isInteger then .float n.float
  else if !n.negative && value < UInt64.size then .natural value
  else if n.negative && 0 < value && value ≤ 0x8000000000000000 then .negative value
  else .float n.float

/-- The count of digits of the exponent after which a number that is not zero is out of range. -/
def exponentTooLarge? (n : Numeral) : Option Nat :=
  match n.exponent with
  | some (false, digits) => if n.isZero then none else digitsPastExponent 0 0 digits
  | _ => none

end Numeral

def Number.inRange : Number → Bool
  | .float value => value.isFinite
  | _ => true

/-- The number behind a sign.  One that is out of range is reported behind its last digit, or behind
the digit that makes the exponent too large. -/
def readNumber (negative : Bool) (c : Cursor) : Reading Number :=
  match readNumeral .endInValue negative c with
  | .error e => .error e
  | .ok ((numeral, start), c) =>
    match numeral.exponentTooLarge? with
    | some digits => .error ⟨.numberOutOfRange, { start with column := start.column + digits }⟩
    | none =>
      if numeral.number.inRange then .ok (numeral.number, c) else c.fail .numberOutOfRange

end VectorBench.Json
