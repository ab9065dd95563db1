/-!
# Places in a text

A cursor is the rest of a text and the place where it starts.  Lines count from one and columns
count bytes of UTF-8 since the last line feed, so that right after a line feed the column is zero.
-/

namespace VectorBench.Json

/-- A line and a column. -/
structure Position where
  line : Nat
  column : Nat
  deriving DecidableEq, Repr

namespace Position

def start : Position := ⟨1, 0⟩

/-- The position after the first byte of a character. -/
def afterByte (p : Position) (c : Char) : Position :=
  if c = '\n' then ⟨p.line + 1, 0⟩ else ⟨p.line, p.column + 1⟩

/-- The position after a whole character. -/
def after (p : Position) (c : Char) : Position :=
  if c = '\n' then ⟨p.line + 1, 0⟩ else ⟨p.line, p.column + c.utf8Size⟩

end Position

/-- What is left of a text, and its position. -/
structure Cursor where
  rest : List Char
  position : Position
  deriving DecidableEq, Repr

namespace Cursor

def ofText (text : String) : Cursor := ⟨text.toList, .start⟩

/-- The position that includes the next byte, or the end of the text. -/
def ahead (c : Cursor) : Position :=
  match c.rest with
  | [] => c.position
  | next :: _ => c.position.afterByte next

def advance (c : Cursor) : Cursor :=
  match c.rest with
  | [] => c
  | next :: rest => ⟨rest, c.position.after next⟩

end Cursor

/-- The four blank characters: space, tab, line feed and carriage return. -/
def isJsonBlank (c : Char) : Bool := c == ' ' || c == '\t' || c == '\n' || c == '\r'

/-- Behind the blanks in front of `rest`. -/
def skipBlanksFrom (p : Position) : List Char → Cursor
  | [] => ⟨[], p⟩
  | c :: rest => if isJsonBlank c then skipBlanksFrom (p.after c) rest else ⟨c :: rest, p⟩

def Cursor.skipBlanks (c : Cursor) : Cursor := skipBlanksFrom c.position c.rest

end VectorBench.Json
