/-!
# JSON values

A value as a tree.  The members of an object keep their order and may repeat a name, and a number is
the text of its literal, so that a value says all that its text says but blanks and the spelling of
strings.

Two layouts print a value: on one line without blanks, and with every member and element on a line
of its own, indented by two blanks for each level.  An empty array or object has nothing between its
brackets.  Strings escape the quotation mark, the backslash and the controls, and nothing else.
-/

namespace VectorBench

inductive Json where
  | null
  | bool (value : Bool)
  | number (literal : List Char)
  | string (value : String)
  | array (elements : List Json)
  | object (members : List (String × Json))

namespace Json

def hexDigit (n : Nat) : Char := Nat.digitChar n

def stringChar (c : Char) : List Char :=
  if c = '"' then ['\\', '"']
  else if c = '\\' then ['\\', '\\']
  else if c = '\x08' then ['\\', 'b']
  else if c = '\x0c' then ['\\', 'f']
  else if c = '\n' then ['\\', 'n']
  else if c = '\r' then ['\\', 'r']
  else if c = '\t' then ['\\', 't']
  else if c.toNat < 0x20 then
    ['\\', 'u', '0', '0', hexDigit (c.toNat / 16), hexDigit (c.toNat % 16)]
  else [c]

def stringText (text : String) : List Char := '"' :: (text.toList.flatMap stringChar ++ ['"'])

def ofNat (n : Nat) : Json := number (Nat.toDigits 10 n)

/-- A line end and the blanks of a level. -/
def newLine (level : Nat) : List Char := '\n' :: List.replicate (2 * level) ' '

mutual
/-- The text of a value on one line. -/
def compact : Json → List Char
  | null => ['n', 'u', 'l', 'l']
  | bool true => ['t', 'r', 'u', 'e']
  | bool false => ['f', 'a', 'l', 's', 'e']
  | number literal => literal
  | string value => stringText value
  | array [] => ['[', ']']
  | array (first :: rest) => '[' :: (compact first ++ compactElements rest ++ [']'])
  | object [] => ['{', '}']
  | object ((name, first) :: rest) =>
    '{' :: (stringText name ++ ':' :: compact first ++ compactMembers rest ++ ['}'])

/-- The elements after the first. -/
def compactElements : List Json → List Char
  | [] => []
  | next :: rest => ',' :: (compact next ++ compactElements rest)

/-- The members after the first. -/
def compactMembers : List (String × Json) → List Char
  | [] => []
  | (name, next) :: rest => ',' :: (stringText name ++ ':' :: compact next ++ compactMembers rest)
end

mutual
/-- The text of a value whose first line stands at the given level. -/
def pretty (level : Nat) : Json → List Char
  | null => ['n', 'u', 'l', 'l']
  | bool true => ['t', 'r', 'u', 'e']
  | bool false => ['f', 'a', 'l', 's', 'e']
  | number literal => literal
  | string value => stringText value
  | array [] => ['[', ']']
  | array (first :: rest) =>
    '[' :: (newLine (level + 1) ++ pretty (level + 1) first ++ prettyElements (level + 1) rest ++
      newLine level ++ [']'])
  | object [] => ['{', '}']
  | object ((name, first) :: rest) =>
    '{' :: (newLine (level + 1) ++ stringText name ++ ':' :: ' ' :: pretty (level + 1) first ++
      prettyMembers (level + 1) rest ++ newLine level ++ ['}'])

/-- The elements after the first, each on a line at the given level. -/
def prettyElements (level : Nat) : List Json → List Char
  | [] => []
  | next :: rest => ',' :: (newLine level ++ pretty level next ++ prettyElements level rest)

/-- The members after the first, each on a line at the given level. -/
def prettyMembers (level : Nat) : List (String × Json) → List Char
  | [] => []
  | (name, next) :: rest =>
    ',' :: (newLine level ++ stringText name ++ ':' :: ' ' :: pretty level next ++
      prettyMembers level rest)
end

end Json

end VectorBench
