import VectorBench.Decimal.Style
import VectorBench.Json.Cursor
import VectorBench.Text

/-!
# Faults in a text

What can be wrong with a text that should hold a value of a given shape, and where.  A fault of the
grammar is known as soon as a character does not fit; a fault of the shape, such as a missing field,
is known only when the value has been read.
-/

namespace VectorBench.Json

/-- What was found where something else was expected. -/
inductive Found where
  | null
  | bool (value : Bool)
  | natural (value : Nat)
  | negative (value : Nat)
  | float (value : Binary64)
  | string (value : String)
  | sequence
  | map

def Found.text : Found → String
  | null => "null"
  | bool value => "boolean `" ++ toString value ++ "`"
  | natural value => "integer `" ++ toString value ++ "`"
  | negative value => "integer `-" ++ toString value ++ "`"
  | float value => "floating point `" ++ String.ofList (NumberStyle.file.text value) ++ "`"
  | string value => "string " ++ quoted value
  | sequence => "sequence"
  | map => "map"

/-- What is wrong with a text. -/
inductive Fault where
  | endInValue
  | endInObject
  | endInList
  | endInString
  | expectedColon
  | expectedListCommaOrEnd
  | expectedObjectCommaOrEnd
  | expectedIdent
  | expectedValue
  | invalidEscape
  | invalidNumber
  | numberOutOfRange
  | keyMustBeString
  | loneSurrogate
  | endOfHexEscape
  | controlCharacter
  | trailingComma
  | trailingCharacters
  | invalidType (found : Found) (expected : String)
  | invalidValue (found : Found) (expected : String)
  | invalidLength (length : Nat) (expected : String)
  | missingField (name : String)
  | duplicateField (name : String)
  | duplicateEngine (name : String)

def Fault.text : Fault → String
  | endInValue => "EOF while parsing a value"
  | endInObject => "EOF while parsing an object"
  | endInList => "EOF while parsing a list"
  | endInString => "EOF while parsing a string"
  | expectedColon => "expected `:`"
  | expectedListCommaOrEnd => "expected `,` or `]`"
  | expectedObjectCommaOrEnd => "expected `,` or `\x7d`"
  | expectedIdent => "expected ident"
  | expectedValue => "expected value"
  | invalidEscape => "invalid escape"
  | invalidNumber => "invalid number"
  | numberOutOfRange => "number out of range"
  | keyMustBeString => "key must be a string"
  | loneSurrogate => "lone leading surrogate in hex escape"
  | endOfHexEscape => "unexpected end of hex escape"
  | controlCharacter => "control character (\\u0000-\\u001F) found while parsing a string"
  | trailingComma => "trailing comma"
  | trailingCharacters => "trailing characters"
  | invalidType found expected => "invalid type: " ++ found.text ++ ", expected " ++ expected
  | invalidValue found expected => "invalid value: " ++ found.text ++ ", expected " ++ expected
  | invalidLength length expected =>
    "invalid length " ++ toString length ++ ", expected " ++ expected
  | missingField name => "missing field `" ++ name ++ "`"
  | duplicateField name => "duplicate field `" ++ name ++ "`"
  | duplicateEngine name => "duplicate engine '" ++ name ++ "' in metrics"

structure ReadError where
  fault : Fault
  position : Position

def ReadError.message (e : ReadError) : String :=
  e.fault.text ++ " at line " ++ toString e.position.line ++ " column " ++
    toString e.position.column

/-- What reading a part of a text yields: a value and the place behind it. -/
abbrev Reading (α : Type) : Type := Except ReadError (α × Cursor)

/-- A fault before the next byte. -/
def Cursor.fail {ε : Type} (c : Cursor) (fault : Fault) : Except ReadError ε :=
  .error ⟨fault, c.position⟩

/-- A fault that includes the next byte. -/
def Cursor.failAhead {ε : Type} (c : Cursor) (fault : Fault) : Except ReadError ε :=
  .error ⟨fault, c.ahead⟩

end VectorBench.Json
