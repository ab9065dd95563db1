import VectorBench.Json.Numeral
import VectorBench.Json.StringReader

/-!
# Passing over values

A value that nobody asked for is read for its grammar alone.  Values may be nested to any depth: the
brackets that are open are kept in a list, so that nothing but the length of the text bounds the
reading.  Every step consumes at least one character, and there are as many steps as characters.
-/

namespace VectorBench.Json

/-- Behind the letters of a word, all of which must be there. -/
def readWord (c : Cursor) : List Char → Reading Unit
  | [] => .ok ((), c)
  | letter :: word =>
    match c.rest with
    | [] => c.fail .endInValue
    | next :: _ =>
      if next = letter then readWord c.advance word else .error ⟨.expectedIdent, c.ahead⟩

/-- The word that a letter starts, without the letter. -/
def wordAfter? (c : Char) : Option (List Char) :=
  if c = 'n' then some ['u', 'l', 'l']
  else if c = 't' then some ['r', 'u', 'e']
  else if c = 'f' then some ['a', 'l', 's', 'e']
  else none

/-- What is open around a value. -/
inductive Bracket where
  | list
  | object
  deriving DecidableEq, Repr

/-- Behind a key that is passed over and its colon. -/
def passKey (c : Cursor) : Reading Unit :=
  let c := c.skipBlanks
  match c.rest with
  | [] => c.failAhead .endInObject
  | first :: _ =>
    if first = '"' then
      match readString .passed c.advance with
      | .error e => .error e
      | .ok (_, c) =>
        let c := c.skipBlanks
        match c.rest with
        | [] => c.failAhead .endInObject
        | next :: _ => if next = ':' then .ok ((), c.advance) else c.failAhead .expectedColon
    else c.failAhead .keyMustBeString

/-- What comes next when values are passed over. -/
inductive PassState where
  /-- A value. -/
  | value
  /-- The comma or bracket behind a value. -/
  | behind
  deriving DecidableEq, Repr

/-- Behind a value without parts, of which `first` is the first character. -/
def passScalar (first : Char) (c : Cursor) : Reading Unit :=
  match wordAfter? first with
  | some word => readWord c.advance word
  | none =>
    if first = '"' then (readString .passed c.advance).map fun (_, c) => ((), c)
    else if first = '-' then
      (readNumeral .invalidNumber true c.advance).map fun (_, c) => ((), c)
    else if first.isDigit then
      (readNumeral .invalidNumber false c).map fun (_, c) => ((), c)
    else c.failAhead .expectedValue

/-- Passes over values until no bracket is open. -/
def pass : Nat → PassState → List Bracket → Cursor → Reading Unit
  | _, .behind, [], c => .ok ((), c)
  | 0, _, _, c => c.fail .endInValue
  | steps + 1, .value, brackets, c =>
    let c := c.skipBlanks
    match c.rest with
    | [] => c.failAhead .endInValue
    | first :: _ =>
      if first = '[' then
        let c := c.advance.skipBlanks
        match c.rest with
        | [] => c.failAhead .endInList
        | ']' :: _ => pass steps .behind brackets c.advance
        | _ => pass steps .value (.list :: brackets) c
      else if first = '{' then
        let c := c.advance.skipBlanks
        match c.rest with
        | [] => c.failAhead .endInObject
        | '}' :: _ => pass steps .behind brackets c.advance
        | _ =>
          match passKey c with
          | .error e => .error e
          | .ok (_, c) => pass steps .value (.object :: brackets) c
      else
        match passScalar first c with
        | .error e => .error e
        | .ok (_, c) => pass steps .behind brackets c
  | steps + 1, .behind, .list :: brackets, c =>
    let c := c.skipBlanks
    match c.rest with
    | [] => c.failAhead .endInList
    | ',' :: _ => pass steps .value (.list :: brackets) c.advance
    | ']' :: _ => pass steps .behind brackets c.advance
    | _ => c.failAhead .expectedListCommaOrEnd
  | steps + 1, .behind, .object :: brackets, c =>
    let c := c.skipBlanks
    match c.rest with
    | [] => c.failAhead .endInObject
    | ',' :: _ =>
      match passKey c.advance with
      | .error e => .error e
      | .ok (_, c) => pass steps .value (.object :: brackets) c
    | '}' :: _ => pass steps .behind brackets c.advance
    | _ => c.failAhead .expectedObjectCommaOrEnd

def passValue (c : Cursor) : Reading Unit := pass (2 * c.rest.length + 2) .value [] c

end VectorBench.Json
