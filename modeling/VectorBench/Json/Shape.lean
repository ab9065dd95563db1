import VectorBench.Json.Skip

/-!
# Reading values of a known shape

A shape is a name and the fields of a structure.  Its value is written as an object that names the
fields, in any order and among others, or as a list of all fields in their order.  Other members of
the object are passed over.

A field that is missing, one that is there twice and a list of the wrong length are reported once
the rest of the structure has been looked at for its closing bracket, and behind that bracket if it
comes next.
-/

namespace VectorBench.Json

/-! ## Values of a wrong type -/

/-- What a number is called where something else was expected. -/
def Number.found : Number → Found
  | .natural value => .natural value
  | .negative value => .negative value
  | .float value => .float value

/-- What the word with the given first letter stands for. -/
def wordFound (first : Char) : Found :=
  if first = 'n' then .null else .bool (first = 't')

/-- The fault of a value that starts with `first` where another type was expected.  Words, numbers
and strings are read to their end before. -/
def wrongType {α : Type} (expected : String) (first : Char) (c : Cursor) : Except ReadError α :=
  match wordAfter? first with
  | some word =>
    match readWord c.advance word with
    | .error e => .error e
    | .ok (_, c) => c.fail (.invalidType (wordFound first) expected)
  | none =>
    if first = '"' then
      match readString .kept c.advance with
      | .error e => .error e
      | .ok (text, c) => c.fail (.invalidType (.string text) expected)
    else if first = '-' || first.isDigit then
      match readNumber (first = '-') (if first = '-' then c.advance else c) with
      | .error e => .error e
      | .ok (value, c) => c.fail (.invalidType value.found expected)
    else if first = '[' then c.fail (.invalidType .sequence expected)
    else if first = '{' then c.fail (.invalidType .map expected)
    else c.failAhead .expectedValue

/-! ## Numbers -/

def readNumberValue (expected : String) (c : Cursor) : Reading Number :=
  let c := c.skipBlanks
  match c.rest with
  | [] => c.failAhead .endInValue
  | first :: _ =>
    if first = '-' then readNumber true c.advance
    else if first.isDigit then readNumber false c
    else wrongType expected first c

/-- A natural number below `2 ^ 64`. -/
def readNatural (expected : String) (c : Cursor) : Reading UInt64 :=
  match readNumberValue expected c with
  | .error e => .error e
  | .ok (.natural value, c) => .ok (value.toUInt64, c)
  | .ok (.negative value, c) => c.fail (.invalidValue (.negative value) expected)
  | .ok (.float value, c) => c.fail (.invalidType (.float value) expected)

/-- Any number, as the nearest 64-bit number. -/
def readFloat (expected : String) (c : Cursor) : Reading Binary64 :=
  match readNumberValue expected c with
  | .error e => .error e
  | .ok (.natural value, c) => .ok (.ofNat .double value, c)
  | .ok (.negative value, c) => .ok ((Binary.ofNat .double value).neg, c)
  | .ok (.float value, c) => .ok (value, c)

/-! ## Members -/

/-- The next key of an object, or none before its closing bracket.  A comma stands before every key
but the `first`. -/
def nextKey (first : Bool) (c : Cursor) : Reading (Option String) :=
  let c := c.skipBlanks
  match c.rest with
  | [] => c.failAhead .endInObject
  | next :: _ =>
    if next = '}' then .ok (none, c)
    else if first then
      if next = '"' then (readString .kept c.advance).map fun (key, c) => (some key, c)
      else c.failAhead .keyMustBeString
    else if next = ',' then
      let c := c.advance.skipBlanks
      match c.rest with
      | [] => c.failAhead .endInValue
      | next :: _ =>
        if next = '"' then (readString .kept c.advance).map fun (key, c) => (some key, c)
        else if next = '}' then c.failAhead .trailingComma
        else c.failAhead .keyMustBeString
    else c.failAhead .expectedObjectCommaOrEnd

def readColon (c : Cursor) : Reading Unit :=
  let c := c.skipBlanks
  match c.rest with
  | [] => c.failAhead .endInObject
  | next :: _ => if next = ':' then .ok ((), c.advance) else c.failAhead .expectedColon

/-- A fault of the contents of an object: it is placed behind the closing bracket, if that is next.
-/
def Cursor.failInObject {ε : Type} (c : Cursor) (fault : Fault) : Except ReadError ε :=
  let c := c.skipBlanks
  match c.rest with
  | '}' :: _ => c.advance.fail fault
  | _ => c.fail fault

/-- A fault of the contents of a list: it is placed behind the closing bracket, or behind a comma
and blanks, if one of these is next. -/
def Cursor.failInList {ε : Type} (c : Cursor) (fault : Fault) : Except ReadError ε :=
  let c := c.skipBlanks
  match c.rest with
  | ']' :: _ => c.advance.fail fault
  | ',' :: _ => c.advance.skipBlanks.fail fault
  | _ => c.fail fault

/-! ## Structures -/

/-- A field of a structure `α`: reading it yields the change that sets it. -/
structure Shape.Field (α : Type) where
  name : String
  read : Cursor → Reading (α → α)

/-- A structure by its fields.  `blank` has no field set. -/
structure Shape (α : Type) where
  name : String
  fields : List (Shape.Field α)
  blank : α

namespace Shape

variable {α : Type}

def field? (s : Shape α) (name : String) : Option (Field α) :=
  s.fields.find? fun field => field.name == name

/-- The first field that is not among the ones `seen`. -/
def missing? (s : Shape α) (seen : List String) : Option (Field α) :=
  s.fields.find? fun field => !seen.contains field.name

/-- Reads the members of an object into `value`; `seen` are the fields read before. -/
def readMembers (s : Shape α) :
    Nat → (first : Bool) → (seen : List String) → (value : α) → Cursor → Reading α
  | 0, _, _, _, c => c.fail .endInObject
  | steps + 1, first, seen, value, c =>
    match nextKey first c with
    | .error e => .error e
    | .ok (none, c) =>
      match s.missing? seen with
      | some field => c.failInObject (.missingField field.name)
      | none => .ok (value, c.advance)
    | .ok (some key, c) =>
      match s.field? key with
      | some field =>
        if seen.contains key then c.failInObject (.duplicateField key)
        else
          match readColon c with
          | .error e => .error e
          | .ok (_, c) =>
            match field.read c with
            | .error e => .error e
            | .ok (set, c) => readMembers s steps false (key :: seen) (set value) c
      | none =>
        match readColon c with
        | .error e => .error e
        | .ok (_, c) =>
          match passValue c with
          | .error e => .error e
          | .ok (_, c) => readMembers s steps false seen value c

def lengthText (s : Shape α) : String :=
  "struct " ++ s.name ++ " with " ++ toString s.fields.length ++ " elements"

/-- Behind the closing bracket of a list of all fields. -/
def readListEnd (c : Cursor) : Reading Unit :=
  let c := c.skipBlanks
  match c.rest with
  | [] => c.failAhead .endInList
  | ']' :: _ => .ok ((), c.advance)
  | ',' :: _ =>
    let c := c.advance.skipBlanks
    match c.rest with
    | ']' :: _ => c.failAhead .trailingComma
    | _ => c.failAhead .trailingCharacters
  | _ => c.failAhead .trailingCharacters

/-- Before the next element of a list, or none before its closing bracket. -/
def nextElement (first : Bool) (c : Cursor) : Reading Bool :=
  let c := c.skipBlanks
  match c.rest with
  | [] => c.failAhead .endInList
  | next :: _ =>
    if next = ']' then .ok (false, c)
    else if first then .ok (true, c)
    else if next = ',' then
      let c := c.advance.skipBlanks
      match c.rest with
      | [] => c.failAhead .endInValue
      | next :: _ => if next = ']' then c.failAhead .trailingComma else .ok (true, c)
    else c.failAhead .expectedListCommaOrEnd

/-- Reads the given fields in order from a list of which `read` elements have been read. -/
def readElements (s : Shape α) : List (Field α) → (read : Nat) → (value : α) → Cursor → Reading α
  | [], _, value, c =>
    match readListEnd c with
    | .error e => .error e
    | .ok (_, c) => .ok (value, c)
  | field :: rest, read, value, c =>
    match nextElement (read = 0) c with
    | .error e => .error e
    | .ok (false, c) => c.failInList (.invalidLength read s.lengthText)
    | .ok (true, c) =>
      match field.read c with
      | .error e => .error e
      | .ok (set, c) => readElements s rest (read + 1) (set value) c

/-- Reads the structure as an object or as a list. -/
def read (s : Shape α) (c : Cursor) : Reading α :=
  let c := c.skipBlanks
  match c.rest with
  | [] => c.failAhead .endInValue
  | first :: rest =>
    if first = '{' then s.readMembers (rest.length + 1) true [] s.blank c.advance
    else if first = '[' then s.readElements s.fields 0 s.blank c.advance
    else wrongType ("struct " ++ s.name) first c

end Shape

/-! ## Documents -/

/-- The value that a text holds, with nothing but blanks around it. -/
def readDocument {α : Type} (read : Cursor → Reading α) (text : String) : Except ReadError α :=
  match read (.ofText text) with
  | .error e => .error e
  | .ok (value, c) =>
    let c := c.skipBlanks
    if c.rest.isEmpty then .ok value else c.failAhead .trailingCharacters

end VectorBench.Json
