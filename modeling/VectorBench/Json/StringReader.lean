import VectorBench.Json.Fault

/-!
# Reading strings

The characters of a string are read one after the other; what an escape still lacks is the state
between them.  A `kept` string yields its text.  A string that is only passed over follows the same
grammar, but a control character in it is not consumed before it is reported, and its surrogates
need not come in pairs.
-/

namespace VectorBench.Json

/-- Whether the text of a string is wanted. -/
inductive StringUse where
  | kept
  | passed
  deriving DecidableEq, Repr

/-- How far an escape has been read. -/
inductive StringState where
  /-- No escape is open. -/
  | plain
  /-- After a backslash. -/
  | backslash
  /-- In a code: the high surrogate before it, the count of bytes that are left of its four, and its
  value so far, which is none once a byte was no hexadecimal digit. -/
  | code (high : Option Nat) (left : Nat) (value : Option Nat)
  /-- After a high surrogate. -/
  | afterHigh (high : Nat)
  /-- After a high surrogate and a backslash. -/
  | afterHighBackslash (high : Nat)
  deriving DecidableEq, Repr

def hexValue? (c : Char) : Option Nat :=
  if '0' ≤ c && c ≤ '9' then some (c.toNat - '0'.toNat)
  else if 'a' ≤ c && c ≤ 'f' then some (c.toNat - 'a'.toNat + 10)
  else if 'A' ≤ c && c ≤ 'F' then some (c.toNat - 'A'.toNat + 10)
  else none

def escapeChar? (c : Char) : Option Char :=
  if c = '"' || c = '\\' || c = '/' then some c
  else if c = 'b' then some '\x08'
  else if c = 'f' then some '\x0c'
  else if c = 'n' then some '\n'
  else if c = 'r' then some '\r'
  else if c = 't' then some '\t'
  else none

/-- The first half of a pair of surrogates. -/
def isHighSurrogate (code : Nat) : Bool := 0xd800 ≤ code && code ≤ 0xdbff

/-- The second half of a pair of surrogates. -/
def isLowSurrogate (code : Nat) : Bool := 0xdc00 ≤ code && code ≤ 0xdfff

def pairChar (high low : Nat) : Char :=
  Char.ofNat (0x10000 + (high - 0xd800) * 0x400 + (low - 0xdc00))

/-- What a complete code does: it ends with a character, opens the way to a low surrogate, or is at
fault. -/
def codeResult (use : StringUse) (high : Option Nat) (code : Nat) :
    Except Fault (Option Char × StringState) :=
  match use, high with
  | .passed, _ => .ok (none, .plain)
  | .kept, some high =>
    if isLowSurrogate code then .ok (some (pairChar high code), .plain) else .error .loneSurrogate
  | .kept, none =>
    if isLowSurrogate code then .error .loneSurrogate
    else if isHighSurrogate code then .ok (none, .afterHigh code)
    else .ok (some (Char.ofNat code), .plain)

/-- The value of a code after one more character. -/
def codeValue (value : Option Nat) (c : Char) : Option Nat := do
  let value ← value
  let digit ← hexValue? c
  return value * 16 + digit

/-- Reads a string from behind its first quotation mark.  `read` holds the characters so far, the
last one first. -/
def readStringFrom (use : StringUse) : StringState → List Char → Position → List Char →
    Reading String
  | _, _, p, [] => .error ⟨.endInString, p⟩
  | .plain, read, p, c :: rest =>
    if c = '"' then .ok (String.ofList read.reverse, ⟨rest, p.after c⟩)
    else if c = '\\' then readStringFrom use .backslash read (p.after c) rest
    else if c.toNat < 0x20 then
      .error ⟨.controlCharacter, if use = .kept then p.afterByte c else p⟩
    else readStringFrom use .plain (c :: read) (p.after c) rest
  | .backslash, read, p, c :: rest =>
    if c = 'u' then readStringFrom use (.code none 4 (some 0)) read (p.after c) rest
    else
      match escapeChar? c with
      | some char => readStringFrom use .plain (char :: read) (p.after c) rest
      | none => .error ⟨.invalidEscape, p.afterByte c⟩
  | .code high left value, read, p, c :: rest =>
    if left < c.utf8Size then .error ⟨.invalidEscape, { p with column := p.column + left }⟩
    else if c.utf8Size < left then
      readStringFrom use (.code high (left - c.utf8Size) (codeValue value c)) read (p.after c) rest
    else
      match codeValue value c with
      | none => .error ⟨.invalidEscape, p.after c⟩
      | some code =>
        match codeResult use high code with
        | .error fault => .error ⟨fault, p.after c⟩
        | .ok (char, state) => readStringFrom use state (char.toList ++ read) (p.after c) rest
  | .afterHigh high, read, p, c :: rest =>
    if c = '\\' then readStringFrom use (.afterHighBackslash high) read (p.after c) rest
    else .error ⟨.endOfHexEscape, p.afterByte c⟩
  | .afterHighBackslash high, read, p, c :: rest =>
    if c = 'u' then readStringFrom use (.code (some high) 4 (some 0)) read (p.after c) rest
    else .error ⟨.endOfHexEscape, p.afterByte c⟩

/-- Reads a string whose first quotation mark has been consumed. -/
def readString (use : StringUse) (c : Cursor) : Reading String :=
  readStringFrom use .plain [] c.position c.rest

end VectorBench.Json
