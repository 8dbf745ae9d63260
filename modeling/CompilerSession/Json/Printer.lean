import CompilerSession.Json.Value

/-
JSON text.

The compact form has no blanks at all; the wide form puts every item and member
on a line of its own, two spaces deeper than its container, and writes an empty
container on one line. Both print members in the order in which the value lists
them, so a record can be printed in the order of its fields while a value that
was read prints in name order.
-/

set_option autoImplicit false

namespace CompilerSession.Json

def hexDigit (n : Nat) : Char :=
  if n < 10 then Char.ofNat (48 + n) else Char.ofNat (87 + n)

/-- One character inside a JSON string: the quotation mark, the backslash and the
controls below U+0020 are escaped, nothing else is. -/
def escapeChar (c : Char) : List Char :=
  if c = '"' then ['\\', '"']
  else if c = '\\' then ['\\', '\\']
  else if c = '\n' then ['\\', 'n']
  else if c = '\r' then ['\\', 'r']
  else if c = '\t' then ['\\', 't']
  else if c.toNat = 8 then ['\\', 'b']
  else if c.toNat = 12 then ['\\', 'f']
  else if c.toNat < 32 then
    ['\\', 'u', '0', '0', hexDigit (c.toNat / 16), hexDigit (c.toNat % 16)]
  else [c]

def stringText (s : String) : List Char :=
  '"' :: (s.toList.flatMap escapeChar ++ ['"'])

def boolText (b : Bool) : List Char :=
  (if b then "true" else "false").toList

mutual

/-- The compact text of a value, as characters. -/
def compactChars : Value → List Char
  | .null => "null".toList
  | .bool b => boolText b
  | .number n => n.text
  | .text s => stringText s
  | .array items => '[' :: (compactItems items ++ [']'])
  | .object members => '\x7b' :: (compactMembers members ++ ['\x7d'])

def compactItems : List Value → List Char
  | [] => []
  | [x] => compactChars x
  | x :: y :: rest => compactChars x ++ ',' :: compactItems (y :: rest)

def compactMembers : List (String × Value) → List Char
  | [] => []
  | [(k, x)] => stringText k ++ ':' :: compactChars x
  | (k, x) :: m :: rest => stringText k ++ ':' :: (compactChars x ++ ',' :: compactMembers (m :: rest))

end

/-- **The compact text** of a value. -/
def Value.compact (v : Value) : String :=
  String.ofList (compactChars v)

/-- A line break and the indentation of a level. -/
def newLine (level : Nat) : List Char :=
  '\n' :: List.replicate (2 * level) ' '

mutual

/-- The wide text of a value inside `level` containers. -/
def wideChars (level : Nat) : Value → List Char
  | .null => "null".toList
  | .bool b => boolText b
  | .number n => n.text
  | .text s => stringText s
  | .array [] => ['[', ']']
  | .array (x :: rest) => '[' :: (wideItems (level + 1) (x :: rest) ++ newLine level ++ [']'])
  | .object [] => ['\x7b', '\x7d']
  | .object (m :: rest) =>
    '\x7b' :: (wideMembers (level + 1) (m :: rest) ++ newLine level ++ ['\x7d'])

def wideItems (level : Nat) : List Value → List Char
  | [] => []
  | [x] => newLine level ++ wideChars level x
  | x :: y :: rest => newLine level ++ wideChars level x ++ ',' :: wideItems level (y :: rest)

def wideMembers (level : Nat) : List (String × Value) → List Char
  | [] => []
  | [(k, x)] => newLine level ++ stringText k ++ ':' :: ' ' :: wideChars level x
  | (k, x) :: m :: rest =>
    newLine level ++ stringText k ++ ':' :: ' ' :: (wideChars level x ++
      ',' :: wideMembers level (m :: rest))

end

/-- **The wide text** of a value. -/
def Value.wide (v : Value) : String :=
  String.ofList (wideChars 0 v)

end CompilerSession.Json
