/-
The words of shell scripts.

A script is cut into words and operators before anything is run. A word is a sequence of
parts: text, which may be quoted, and expansions of parameters and of commands. What a
command substitution contains is kept as text and read when it is run.
-/

set_option autoImplicit false

namespace CompilerSession.Shell

/-- **A part of a word.** An empty text marks that something is quoted. -/
inductive Part where
  | text (chars : List Char)
  /-- The value of a parameter; without quotes it is split at blanks. -/
  | parameter (name : String) (quoted : Bool)
  /-- The output of a script; without quotes it is split at blanks. -/
  | output (script : List Char) (quoted : Bool)
  deriving DecidableEq, Repr, Inhabited

/-- What a redirection does. -/
inductive Direction where
  /-- Output goes to a file. -/
  | write
  /-- Input comes from a file. -/
  | read
  /-- Output goes where another descriptor's goes. -/
  | duplicate
  deriving DecidableEq, Repr, Inhabited

/-- **A word or an operator.** -/
inductive Lexeme where
  | word (parts : List Part)
  /-- The end of a command: a semicolon or a line break. -/
  | stop
  | bothOf
  | eitherOf
  | pipe
  | openParen
  | closeParen
  | redirect (descriptor : Nat) (direction : Direction)
  deriving DecidableEq, Repr, Inhabited

/-! ## Expansions -/

def isNameChar (c : Char) : Bool :=
  c.isAlphanum || c = '_'

/-- The text up to the parenthesis that closes a substitution, and what follows. `depth`
parentheses are open; `quote` is the quotation mark that is open. -/
def balanced (depth : Nat) (quote : Option Char) : List Char → List Char × List Char
  | [] => ([], [])
  | c :: rest =>
    let keep (depth : Nat) (quote : Option Char) :=
      let (inside, after) := balanced depth quote rest
      (c :: inside, after)
    match quote with
    | some q => if c = q then keep depth none else keep depth quote
    | none =>
      if c = '\x27' ∨ c = '"' then keep depth (some c)
      else if c = '(' then keep (depth + 1) none
      else if c = ')' then
        match depth with
        | 0 => ([], rest)
        | d + 1 => keep d none
      else keep depth none

/-- The parameters whose names are a single sign. -/
def specialNames : List Char := ['#', '?', '$', '@', '*', '!', '-']

/-- **What a dollar sign stands for**, and what follows. -/
def expansion (quoted : Bool) : List Char → Part × List Char
  | '(' :: rest =>
    let (script, after) := balanced 0 none rest
    (.output script quoted, after)
  | '\x7b' :: rest =>
    (.parameter (String.ofList (rest.takeWhile (· ≠ '\x7d'))) quoted,
      (rest.dropWhile (· ≠ '\x7d')).drop 1)
  | c :: rest =>
    if specialNames.contains c ∨ c.isDigit then (.parameter (String.singleton c) quoted, rest)
    else if isNameChar c then
      (.parameter (String.ofList ((c :: rest).takeWhile isNameChar)) quoted,
        (c :: rest).dropWhile isNameChar)
    else (.text ['$'], c :: rest)
  | [] => (.text ['$'], [])

/-! ## Words -/

/-- The characters that a backslash quotes between double quotation marks. -/
def escapable : List Char := ['$', '\x60', '"', '\\']

/-- The parts up to the closing double quotation mark, and what follows. -/
def doubleQuoted : Nat → List Char → List Part × List Char
  | 0, s => ([], s)
  | _, [] => ([], [])
  | _, '"' :: rest => ([], rest)
  | n + 1, '\\' :: c :: rest =>
    let text := if escapable.contains c then [c] else if c = '\n' then [] else ['\\', c]
    let (parts, after) := doubleQuoted n rest
    (.text text :: parts, after)
  | n + 1, '$' :: rest =>
    let (part, rest) := expansion true rest
    let (parts, after) := doubleQuoted n rest
    (part :: parts, after)
  | n + 1, c :: rest =>
    let (parts, after) := doubleQuoted n rest
    (.text [c] :: parts, after)

/-- The characters that end a word. -/
def wordEnds : List Char := [' ', '\t', '\n', ';', '&', '|', '<', '>', '(', ')']

/-- **The parts of a word** at the front of the text, and what follows. -/
def wordParts : Nat → List Char → List Part × List Char
  | 0, s => ([], s)
  | _, [] => ([], [])
  | n + 1, c :: rest =>
    let more (first : List Part) (rest : List Char) :=
      let (parts, after) := wordParts n rest
      (first ++ parts, after)
    if c = '\x27' then
      more [.text [], .text (rest.takeWhile (· ≠ '\x27'))] ((rest.dropWhile (· ≠ '\x27')).drop 1)
    else if c = '"' then
      let (parts, rest) := doubleQuoted n rest
      more (.text [] :: parts) rest
    else if c = '\\' then
      match rest with
      | [] => ([.text ['\\']], [])
      | '\n' :: rest => more [] rest
      | c :: rest => more [.text [c]] rest
    else if c = '$' then
      let (part, rest) := expansion false rest
      more [part] rest
    else if wordEnds.contains c then ([], c :: rest)
    else more [.text [c]] rest

/-! ## Lexemes -/

/-- A redirection at the front of the text, behind its descriptor. -/
def redirection? (descriptor : Option Nat) : List Char → Option (Lexeme × List Char)
  | '>' :: '&' :: rest => some (.redirect (descriptor.getD 1) .duplicate, rest)
  | '>' :: '>' :: rest => some (.redirect (descriptor.getD 1) .write, rest)
  | '>' :: '|' :: rest => some (.redirect (descriptor.getD 1) .write, rest)
  | '>' :: rest => some (.redirect (descriptor.getD 1) .write, rest)
  | '<' :: '&' :: rest => some (.redirect (descriptor.getD 0) .duplicate, rest)
  | '<' :: rest => some (.redirect (descriptor.getD 0) .read, rest)
  | _ => none

/-- A redirection with or without a descriptor. -/
def redirect? (s : List Char) : Option (Lexeme × List Char) :=
  match s with
  | c :: rest =>
    if c.isDigit then redirection? (some (c.toNat - 48)) rest else redirection? none s
  | [] => none

/-- The lexeme at the front of a text without blanks at its front. -/
def lexeme (s : List Char) : Lexeme × List Char :=
  match s with
  | '\n' :: rest => (.stop, rest)
  | ';' :: rest => (.stop, rest)
  | '&' :: '&' :: rest => (.bothOf, rest)
  | '&' :: rest => (.stop, rest)
  | '|' :: '|' :: rest => (.eitherOf, rest)
  | '|' :: rest => (.pipe, rest)
  | '(' :: rest => (.openParen, rest)
  | ')' :: rest => (.closeParen, rest)
  | s =>
    match redirect? s with
    | some found => found
    | none =>
      let (parts, rest) := wordParts s.length s
      (.word parts, rest)

/-- Lexemes one after the other; a comment ends with its line. -/
def lexWithin : Nat → List Char → List Lexeme
  | 0, _ => []
  | _, [] => []
  | n + 1, c :: rest =>
    if c = ' ' ∨ c = '\t' then lexWithin n rest
    else if c = '#' then lexWithin n (rest.dropWhile (· ≠ '\n'))
    else
      let (lexeme, rest) := lexeme (c :: rest)
      lexeme :: lexWithin n rest

/-- **The lexemes of a script.** -/
def lex (s : List Char) : List Lexeme :=
  lexWithin s.length s

end CompilerSession.Shell
