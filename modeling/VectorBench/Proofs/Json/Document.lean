import VectorBench.Decimal.Basic

/-!
# JSON documents as they are written

The grammar of JSON as data: a `Document` holds everything that a text may choose, which is blanks
between the parts, the spelling of every character of a string and of every number, the order of
members and how often a name occurs.  `Document.text` is the text with these choices, so the texts
of documents are the well-formed texts.  Nothing here refers to how a text is read.

A string denotes a text unless a surrogate in it stands alone.  The names of members are strings
that denote a text; a string that is a value may be any.
-/

namespace VectorBench.Json

/-! ## Blanks -/

/-- A blank between two parts. -/
inductive Blank where
  | space
  | tab
  | lineFeed
  | carriageReturn

def Blank.char : Blank → Char
  | space => ' '
  | tab => '\t'
  | lineFeed => '\n'
  | carriageReturn => '\r'

def blankText (blanks : List Blank) : List Char := blanks.map Blank.char

/-! ## Numbers -/

/-- One or more decimal digits. -/
structure Digits where
  chars : List Char
  ne_nil : chars ≠ []
  all_digits : ∀ c ∈ chars, c.isDigit = true

def Digits.value (d : Digits) : Nat := Nat.ofDigitChars 10 d.chars 0

/-- What stands in front of the digits of an exponent. -/
inductive ExponentSign where
  | none
  | plus
  | minus
  deriving DecidableEq

def ExponentSign.text : ExponentSign → List Char
  | none => []
  | plus => ['+']
  | minus => ['-']

/-- An exponent: its letter, its sign and its digits. -/
structure ExponentPart where
  upper : Bool
  sign : ExponentSign
  digits : Digits

namespace ExponentPart

def text (e : ExponentPart) : List Char :=
  (if e.upper then 'E' else 'e') :: (e.sign.text ++ e.digits.chars)

def value (e : ExponentPart) : Int :=
  if e.sign = .minus then -(e.digits.value : Int) else e.digits.value

end ExponentPart

/-- A number.  Its whole part is a zero alone or does not start with a zero. -/
structure NumberLiteral where
  negative : Bool
  whole : Digits
  fraction : Option Digits
  exponent : Option ExponentPart
  whole_canonical : whole.chars = ['0'] ∨ whole.chars.head? ≠ some '0'

namespace NumberLiteral

/-- The digits behind the point. -/
def fractionChars (n : NumberLiteral) : List Char :=
  match n.fraction with
  | none => []
  | some digits => digits.chars

/-- The exponent, which is zero when none is written. -/
def exponentValue (n : NumberLiteral) : Int :=
  match n.exponent with
  | none => 0
  | some e => e.value

def text (n : NumberLiteral) : List Char :=
  (if n.negative then ['-'] else []) ++ (n.whole.chars ++
    ((if n.fraction.isSome then '.' :: n.fractionChars else []) ++
      (match n.exponent with
        | none => []
        | some e => e.text)))

/-- The exact absolute value. -/
def decimal (n : NumberLiteral) : Decimal :=
  .ofDigits n.whole.chars n.fractionChars n.exponentValue

/-- The natural number that a number without sign, fraction and exponent is. -/
def natural? (n : NumberLiteral) : Option Nat :=
  if n.negative || n.fraction.isSome || n.exponent.isSome then none else some n.whole.value

end NumberLiteral

/-! ## Strings -/

/-- A hexadecimal digit; an upper-case letter stands for the same value. -/
structure HexDigit where
  value : Fin 16
  upper : Bool

def HexDigit.char (d : HexDigit) : Char :=
  if d.upper then (Nat.digitChar d.value).toUpper else Nat.digitChar d.value

/-- The escapes of one letter. -/
inductive Escape where
  | quote
  | backslash
  | slash
  | backspace
  | formFeed
  | lineFeed
  | carriageReturn
  | tab

namespace Escape

/-- The letter behind the backslash. -/
def letter : Escape → Char
  | quote => '"'
  | backslash => '\\'
  | slash => '/'
  | backspace => 'b'
  | formFeed => 'f'
  | lineFeed => 'n'
  | carriageReturn => 'r'
  | tab => 't'

/-- The character that is meant. -/
def char : Escape → Char
  | quote => '"'
  | backslash => '\\'
  | slash => '/'
  | backspace => '\x08'
  | formFeed => '\x0c'
  | lineFeed => '\n'
  | carriageReturn => '\r'
  | tab => '\t'

end Escape

inductive StringPiece where
  /-- A character that stands for itself: no control, no quotation mark and no backslash. -/
  | plain (c : Char) (fits : 0x20 ≤ c.toNat ∧ c ≠ '"' ∧ c ≠ '\\')
  | escape (e : Escape)
  /-- A code of four hexadecimal digits. -/
  | code (a b c d : HexDigit)

/-- The value of four hexadecimal digits. -/
def unitValue (a b c d : HexDigit) : Nat :=
  ((a.value.val * 16 + b.value.val) * 16 + c.value.val) * 16 + d.value.val

def StringPiece.text : StringPiece → List Char
  | plain c _ => [c]
  | escape e => ['\\', e.letter]
  | code a b c d => ['\\', 'u', a.char, b.char, c.char, d.char]

/-- The text of a string in its quotation marks. -/
def stringLiteral (pieces : List StringPiece) : List Char :=
  '"' :: (pieces.flatMap StringPiece.text ++ ['"'])

/-- The text that a string denotes.  A code from D800 to DBFF must be followed by one from DC00 to
DFFF, with which it makes one character, and none of the latter may stand elsewhere. -/
def denoted : List StringPiece → Option (List Char)
  | [] => some []
  | .plain c _ :: rest => (denoted rest).map (c :: ·)
  | .escape e :: rest => (denoted rest).map (e.char :: ·)
  | .code a b c d :: rest =>
    let unit := unitValue a b c d
    if unit < 0xd800 ∨ 0xdfff < unit then (denoted rest).map (Char.ofNat unit :: ·)
    else if 0xdbff < unit then none
    else
      match rest with
      | .code a b c d :: rest =>
        let low := unitValue a b c d
        if 0xdc00 ≤ low ∧ low ≤ 0xdfff then
          (denoted rest).map
            (Char.ofNat (0x10000 + (unit - 0xd800) * 0x400 + (low - 0xdc00)) :: ·)
        else none
      | _ => none

/-- The name of a member: a string that denotes a text. -/
structure Name where
  pieces : List StringPiece
  text : String
  denotes : denoted pieces = some text.toList

/-! ## Values -/

/-- An element of a list, with the blanks around it. -/
structure Element (α : Type) where
  before : List Blank
  value : α
  after : List Blank

/-- A member of an object, with the blanks around its parts. -/
structure Member (α : Type) where
  before : List Blank
  name : Name
  beforeColon : List Blank
  afterColon : List Blank
  value : α
  after : List Blank

/-- A value.  `inside` are blanks behind the opening bracket, which are all there is when nothing
else is inside. -/
inductive Value where
  | null
  | bool (value : Bool)
  | number (literal : NumberLiteral)
  | string (pieces : List StringPiece)
  | array (inside : List Blank) (elements : List (Element Value))
  | object (inside : List Blank) (members : List (Member Value))

namespace Value

mutual
def text : Value → List Char
  | null => ['n', 'u', 'l', 'l']
  | bool true => ['t', 'r', 'u', 'e']
  | bool false => ['f', 'a', 'l', 's', 'e']
  | number literal => literal.text
  | string pieces => stringLiteral pieces
  | array inside elements => '[' :: (blankText inside ++ (elementsText true elements ++ [']']))
  | object inside members => '{' :: (blankText inside ++ (membersText true members ++ ['}']))

/-- The text of elements, with a comma before each but the `first`. -/
def elementsText (first : Bool) : List (Element Value) → List Char
  | [] => []
  | ⟨before, value, after⟩ :: rest =>
    (if first then [] else [',']) ++
      (blankText before ++ (text value ++ (blankText after ++ elementsText false rest)))

/-- The text of members, with a comma before each but the `first`. -/
def membersText (first : Bool) : List (Member Value) → List Char
  | [] => []
  | ⟨before, name, beforeColon, afterColon, value, after⟩ :: rest =>
    (if first then [] else [',']) ++
      (blankText before ++ (stringLiteral name.pieces ++ (blankText beforeColon ++ (':' ::
        (blankText afterColon ++ (text value ++ (blankText after ++ membersText false rest)))))))
end

def IsObject : Value → Prop
  | object _ _ => True
  | _ => False

/-- The members of an object; no other value has any. -/
def members : Value → List (Member Value)
  | object _ members => members
  | _ => []

end Value

/-- The one value that members have under a name, if there is exactly one member of that name. -/
def only (members : List (Member Value)) (name : String) : Option Value :=
  match members.filter (·.name.text == name) with
  | [member] => some member.value
  | _ => none

/-- A value with blanks around it. -/
structure Document where
  before : List Blank
  value : Value
  after : List Blank

def Document.text (d : Document) : List Char :=
  blankText d.before ++ (d.value.text ++ blankText d.after)

end VectorBench.Json
