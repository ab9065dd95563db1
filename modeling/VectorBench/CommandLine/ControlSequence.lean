/-!
# Control sequences

A message is styled with control sequences, and the texts that it quotes may hold more of them.
Where no terminal shows the message the sequences are left out, and with them every control
character but tab, line feed, form feed and carriage return, the *spacing* ones.

A sequence starts with an escape character, wherever that stands, and is given up at a cancel or a
substitute character.  A character beyond ASCII inside a sequence does not change it, but that a
byte of it may end a string.  Spacing characters inside some sequences are printed all the same.
The two ways of leaving out differ in what becomes of such a sequence: in a message it ends there
(`plainText`), while on a stream it goes on behind the next control character (`plainStream`).
-/

namespace VectorBench.CommandLine

/-- How far a control sequence has come. -/
inductive Sequence where
  | outside
  /-- Behind the escape character. -/
  | escape
  /-- In an escape of more than one character. -/
  | escapeRest
  /-- In a control with parameters. -/
  | control
  /-- In front of a string for a device, then in its parameters, then behind them. -/
  | deviceStart
  | deviceParameters
  | deviceRest
  /-- In a string that only its terminator ends. -/
  | payload
  /-- In a string for the operating system, which a bell ends. -/
  | system
  deriving DecidableEq, Repr

/-- A control character that stands for space between words or lines. -/
def isSpacing (c : Char) : Bool := c == '\t' || c == '\n' || c == '\x0c' || c == '\r'

/-- Whether one of the bytes of a character is the string terminator. -/
def hasTerminator (c : Char) : Bool := (String.utf8EncodeChar c).contains 0x9c

def codeIn (low high : Nat) (c : Char) : Bool := low ≤ c.toNat && c.toNat ≤ high

namespace Sequence

/-- How far an escape has come with the character behind it. -/
def afterEscape (c : Char) : Sequence :=
  if codeIn 0x20 0x2f c then escapeRest
  else if c = '[' then control
  else if c = ']' then system
  else if c = 'P' then deviceStart
  else if c = 'X' || c = '^' || c = '_' then payload
  else if codeIn 0x30 0x7e c then outside
  else escape

/-- How far a sequence has come with one more character. -/
def next (s : Sequence) (c : Char) : Sequence :=
  if c = '\x1b' then escape
  else if c = '\x18' || c = '\x1a' then outside
  else
    match s with
    | outside => outside
    | escape => afterEscape c
    | escapeRest => if codeIn 0x30 0x7e c then outside else escapeRest
    | control => if codeIn 0x40 0x7e c then outside else control
    | deviceStart =>
      if codeIn 0x20 0x2f c then deviceRest
      else if codeIn 0x30 0x3f c then deviceParameters
      else if codeIn 0x40 0x7e c then payload
      else deviceStart
    | deviceParameters =>
      if codeIn 0x20 0x2f c then deviceRest
      else if codeIn 0x3c 0x7e c then payload
      else deviceParameters
    | deviceRest => if codeIn 0x30 0x7e c then payload else deviceRest
    | payload => if hasTerminator c then outside else payload
    | system => if c = '\x07' then outside else system

/-- Whether spacing characters are printed in the middle of a sequence. -/
def letsSpacing : Sequence → Bool
  | outside => true
  | escape => true
  | escapeRest => true
  | control => true
  | _ => false

def shows (s : Sequence) (c : Char) : Bool :=
  if c.toNat < 0x20 then isSpacing c && s.letsSpacing else s == outside && c != '\x7f'

end Sequence

/-- What is left of a message from inside a sequence on. -/
def plainFrom : Sequence → List Char → List Char
  | _, [] => []
  | s, c :: rest =>
    if s.shows c then c :: plainFrom .outside rest else plainFrom (s.next c) rest

/-- What is left of a message. -/
def plainText (message : List Char) : List Char := plainFrom .outside message

/-- What is left of a text on a stream, inside a sequence or, while characters are `printed`,
outside of it. -/
def streamFrom : (printed : Bool) → Sequence → List Char → List Char
  | _, _, [] => []
  | printed, s, c :: rest =>
    if (if printed then Sequence.outside else s).shows c then
      c :: streamFrom true (if c.toNat < 0x80 then s else .outside) rest
    else streamFrom false (s.next c) rest

/-- What is left of a text on a stream. -/
def plainStream (text : List Char) : List Char := streamFrom false .outside text

def emphasized (text : String) : String := "\x1b[1m" ++ text ++ "\x1b[0m"

end VectorBench.CommandLine
