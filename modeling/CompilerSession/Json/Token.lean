import CompilerSession.Json.Number

/-
JSON text cut into tokens.

The scanner stops at the first thing that is no token and says so with `bad`, so
the list of tokens is always a list, and whatever stands before the fault can
still be looked at. Two kinds of token are well formed and yet have no value: a
number beyond the range of floating point, and a string with half of a surrogate
pair. They may be skipped, but not read, so the scanner keeps them apart from
faults.
-/

set_option autoImplicit false

namespace CompilerSession.Json

/-- **A token.** -/
inductive Token where
  | leftBrace | rightBrace | leftBracket | rightBracket | comma | colon
  | null | bool (b : Bool)
  | number (n : Number)
  /-- A number that is too large to have a value. -/
  | tooLarge
  | text (s : String)
  /-- A string in which an escape names half of a surrogate pair. -/
  | halfPair
  /-- No token; nothing behind it is looked at. -/
  | bad
  deriving DecidableEq, Repr

/-- The blanks of JSON. -/
def isSpace (c : Char) : Bool :=
  c = ' ' || c = '\n' || c = '\t' || c = '\r'

/-! ## Strings -/

/-- What one element of a string stands for: a character, or one UTF-16 unit that an
escape names. -/
inductive Element where
  | char (c : Char)
  | unit (n : Nat)
  deriving DecidableEq, Repr

def hexValue? (c : Char) : Option Nat :=
  if '0' ≤ c ∧ c ≤ '9' then some (c.toNat - 48)
  else if 'a' ≤ c ∧ c ≤ 'f' then some (c.toNat - 87)
  else if 'A' ≤ c ∧ c ≤ 'F' then some (c.toNat - 55)
  else none

/-- The unit that four hexadecimal digits name. -/
def hexUnit? (a b c d : Char) : Option Nat := do
  return (← hexValue? a) * 4096 + (← hexValue? b) * 256 + (← hexValue? c) * 16 + (← hexValue? d)

/-- The character that a one-letter escape stands for. -/
def escapeLetter? (c : Char) : Option Char :=
  if c = '"' ∨ c = '\\' ∨ c = '/' then some c
  else if c = 'b' then some (Char.ofNat 8)
  else if c = 'f' then some (Char.ofNat 12)
  else if c = 'n' then some '\n'
  else if c = 'r' then some '\r'
  else if c = 't' then some '\t'
  else none

/-- The elements of a string behind its opening mark, and the text behind its closing
mark; nothing if the string is not well formed. -/
def scanString : List Char → Option (List Element × List Char)
  | [] => none
  | '"' :: rest => some ([], rest)
  | '\\' :: 'u' :: a :: b :: c :: d :: rest =>
    match hexUnit? a b c d with
    | some n => (scanString rest).map fun (es, left) => (.unit n :: es, left)
    | none => none
  | '\\' :: c :: rest =>
    match escapeLetter? c with
    | some e => (scanString rest).map fun (es, left) => (.char e :: es, left)
    | none => none
  | c :: rest =>
    if c = '\\' ∨ c.toNat < 32 then none
    else (scanString rest).map fun (es, left) => (.char c :: es, left)

/-- The first unit of a surrogate pair. -/
def isHighHalf (n : Nat) : Bool :=
  0xD800 ≤ n && n ≤ 0xDBFF

/-- The second unit of a surrogate pair. -/
def isLowHalf (n : Nat) : Bool :=
  0xDC00 ≤ n && n ≤ 0xDFFF

/-- **The text of a string**: pairs of units are joined, and a half on its own gives no
text. -/
def joinUnits? : List Element → Option (List Char)
  | [] => some []
  | .char c :: rest => (joinUnits? rest).map (c :: ·)
  | .unit n :: rest =>
    if isHighHalf n then
      match rest with
      | .unit m :: rest =>
        if isLowHalf m then
          (joinUnits? rest).map (Char.ofNat (0x10000 + (n - 0xD800) * 1024 + (m - 0xDC00)) :: ·)
        else none
      | _ => none
    else if isLowHalf n then none
    else (joinUnits? rest).map (Char.ofNat n :: ·)

def stringToken (es : List Element) : Token :=
  match joinUnits? es with
  | some cs => .text (String.ofList cs)
  | none => .halfPair

/-! ## Numbers -/

/-- An ASCII digit. -/
def isAsciiDigit (c : Char) : Bool :=
  '0' ≤ c && c ≤ '9'

/-- The values of the digits at the front, and what follows. -/
def scanDigits (s : List Char) : List Nat × List Char :=
  ((s.takeWhile isAsciiDigit).map fun c => c.toNat - 48, s.dropWhile isAsciiDigit)

/-- The whole part: no leading zero unless the zero stands alone. -/
def scanWhole? (s : List Char) : Option (List Nat × List Char) :=
  match scanDigits s with
  | ([], _) => none
  | (0 :: _ :: _, _) => none
  | found => some found

/-- The fraction, if a point follows; the point needs a digit behind it. -/
def scanFraction? (s : List Char) : Option (Option (List Nat) × List Char) :=
  match s with
  | '.' :: rest =>
    match scanDigits rest with
    | ([], _) => none
    | (ds, left) => some (some ds, left)
  | _ => some (none, s)

/-- A sign of an exponent, and whether it is a minus. -/
def scanSign (s : List Char) : Bool × List Char :=
  match s with
  | '-' :: rest => (true, rest)
  | '+' :: rest => (false, rest)
  | _ => (false, s)

/-- The exponent, if its letter follows; the letter needs a digit behind it. -/
def scanExponent? (s : List Char) : Option (Option (Bool × List Nat) × List Char) :=
  match s with
  | c :: rest =>
    if c = 'e' ∨ c = 'E' then
      let (negative, rest) := scanSign rest
      match scanDigits rest with
      | ([], _) => none
      | (ds, left) => some (some (negative, ds), left)
    else some (none, s)
  | [] => some (none, [])

/-- The number at the front of a text. -/
def scanNumber? (s : List Char) : Option (Spelling × List Char) := do
  let (negative, s) := match s with
    | '-' :: rest => (true, rest)
    | _ => (false, s)
  let (whole, s) ← scanWhole? s
  let (fraction, s) ← scanFraction? s
  let (exponent, s) ← scanExponent? s
  return (⟨negative, whole, fraction, exponent⟩, s)

def numberToken (s : Spelling) : Token :=
  match s.value? with
  | some n => .number n
  | none => .tooLarge

/-! ## The scanner -/

/-- The word at the front of a text is the given one; the text behind it. -/
def afterWord? (word : List Char) (s : List Char) : Option (List Char) :=
  if word.isPrefixOf s then some (s.drop word.length) else none

/-- The token at the front of a text without blanks, and the text behind it. -/
def nextToken (c : Char) (rest : List Char) : Token × List Char :=
  if c = '\x7b' then (.leftBrace, rest)
  else if c = '\x7d' then (.rightBrace, rest)
  else if c = '[' then (.leftBracket, rest)
  else if c = ']' then (.rightBracket, rest)
  else if c = ',' then (.comma, rest)
  else if c = ':' then (.colon, rest)
  else if c = '"' then
    match scanString rest with
    | some (es, left) => (stringToken es, left)
    | none => (.bad, [])
  else if c = '-' ∨ isAsciiDigit c = true then
    match scanNumber? (c :: rest) with
    | some (spelling, left) => (numberToken spelling, left)
    | none => (.bad, [])
  else if c = 'n' then
    match afterWord? "ull".toList rest with
    | some left => (.null, left)
    | none => (.bad, [])
  else if c = 't' then
    match afterWord? "rue".toList rest with
    | some left => (.bool true, left)
    | none => (.bad, [])
  else if c = 'f' then
    match afterWord? "alse".toList rest with
    | some left => (.bool false, left)
    | none => (.bad, [])
  else (.bad, [])

/-- Tokens of a text, with as many steps as `fuel` allows. -/
def scan (fuel : Nat) (s : List Char) : List Token :=
  match fuel with
  | 0 => []
  | fuel + 1 =>
    match s.dropWhile isSpace with
    | [] => []
    | c :: rest =>
      match nextToken c rest with
      | (.bad, _) => [.bad]
      | (t, left) => t :: scan fuel left

/-- **The tokens of a text.** Every token takes a character, so the length of the text
is steps enough. -/
def tokens (s : List Char) : List Token :=
  scan (s.length + 1) s

end CompilerSession.Json
