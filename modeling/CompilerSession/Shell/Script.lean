import CompilerSession.Shell.Word

/-
The structure of shell scripts.

Commands are joined by pipes, then by "and" and "or", then in sequence, and may be put in
brackets to count as one. Conditions and loops are brackets, too, with words of their own.
A word that looks like an assignment is one as long as no other word came before it.
-/

set_option autoImplicit false

namespace CompilerSession.Shell

/-- A word. -/
abbrev Word := List Part

/-- **A redirection.** -/
structure Redirection where
  descriptor : Nat
  direction : Direction
  target : Word
  deriving DecidableEq, Repr, Inhabited

/-- **A simple command.** -/
structure Simple where
  assignments : List (String × Word)
  words : List Word
  redirections : List Redirection
  deriving DecidableEq, Repr, Inhabited

/-- **A script.** -/
inductive Script where
  | empty
  | simple (command : Simple)
  /-- Commands in brackets; with `apart` what they change does not last. -/
  | group (apart : Bool) (body : Script) (redirections : List Redirection)
  | branch (condition first second : Script)
  /-- The body again and again, as long as the condition succeeds, or fails. -/
  | loop (succeeds : Bool) (condition body : Script)
  /-- The body for every field of the words, or for every argument. -/
  | each (name : String) (words : Option (List Word)) (body : Script)
  /-- The opposite status. -/
  | negation (body : Script)
  | pipe (first second : Script)
  | both (first second : Script)
  | either (first second : Script)
  | sequence (first second : Script)
  deriving Repr, Inhabited

/-- The bare text of a word without quotes and expansions. -/
def plain? (w : Word) : Option String :=
  (w.mapM fun
    | Part.text [c] => some c
    | _ => none).map String.ofList

/-- The name and the value of an assignment. -/
def assignment? (w : Word) : Option (String × Word) :=
  let isName : Part → Bool
    | .text [c] => isNameChar c
    | _ => false
  let name := w.takeWhile isName
  match name, w.dropWhile isName with
  | .text [c] :: _, .text ['='] :: value =>
    if c.isDigit then none
    else some (String.ofList (name.flatMap fun
      | .text s => s
      | _ => []), value)
  | _, _ => none

def readRedirections : List Lexeme → List Redirection × List Lexeme
  | .redirect descriptor direction :: .word target :: rest =>
    let (more, after) := readRedirections rest
    (⟨descriptor, direction, target⟩ :: more, after)
  | rest => ([], rest)

def readSimple (c : Simple) : List Lexeme → Simple × List Lexeme
  | .redirect descriptor direction :: .word target :: rest =>
    readSimple { c with redirections := c.redirections ++ [⟨descriptor, direction, target⟩] } rest
  | .word w :: rest =>
    match c.words, assignment? w with
    | [], some a => readSimple { c with assignments := c.assignments ++ [a] } rest
    | _, _ => readSimple { c with words := c.words ++ [w] } rest
  | rest => (c, rest)

def skipStops : List Lexeme → List Lexeme
  | .stop :: rest => skipStops rest
  | rest => rest

/-- The words that end a list of commands. -/
def closingWords : List String := ["\x7d", "then", "elif", "else", "fi", "do", "done"]

/-- The word ends a list of commands. -/
def isClosing (w : Word) : Bool :=
  (plain? w).any closingWords.contains

def expect (text : String) : List Lexeme → Option (List Lexeme)
  | .word w :: rest => if plain? w = some text then some rest else none
  | _ => none

/-- The words up to the next other lexeme. -/
def readWords : List Lexeme → List Word × List Lexeme
  | .word w :: rest =>
    let (more, after) := readWords rest
    (w :: more, after)
  | rest => ([], rest)

/-- The head of a loop over words: the name, the words, and the lexemes behind. -/
def readEach : List Lexeme → Option (String × Option (List Word) × List Lexeme)
  | .word name :: rest => do
    let name ← plain? name
    match expect "in" rest with
    | some rest =>
      let (words, rest) := readWords rest
      return (name, some words, skipStops rest)
    | none => return (name, none, skipStops rest)
  | _ => none

/-- The levels of a script, from loosest to tightest. -/
inductive Level where
  | sequence
  | choice
  | pipeline
  | command

/-- **Read a level of a script**: what it is and the lexemes behind it. The number bounds the
steps. -/
def readLevel : Nat → Level → List Lexeme → Option (Script × List Lexeme)
  | 0, _, _ => none
  | n + 1, .sequence, ls =>
    match skipStops ls with
    | [] => some (.empty, [])
    | .closeParen :: rest => some (.empty, .closeParen :: rest)
    | .word w :: rest =>
      if isClosing w then some (.empty, .word w :: rest)
      else do
        let (first, rest) ← readLevel n .choice (.word w :: rest)
        let (second, rest) ← readLevel n .sequence rest
        return (.sequence first second, rest)
    | ls => do
      let (first, rest) ← readLevel n .choice ls
      let (second, rest) ← readLevel n .sequence rest
      return (.sequence first second, rest)
  | n + 1, .choice, ls => do
    let (first, rest) ← readLevel n .pipeline ls
    readChoices n first rest
  | n + 1, .pipeline, ls => do
    let (first, rest) ← readLevel n .command ls
    match rest with
    | .pipe :: rest =>
      let (second, rest) ← readLevel n .pipeline (skipStops rest)
      return (.pipe first second, rest)
    | rest => return (first, rest)
  | n + 1, .command, ls =>
    match ls with
    | .openParen :: rest => do
      let (body, rest) ← readLevel n .sequence rest
      match rest with
      | .closeParen :: rest =>
        let (redirections, rest) := readRedirections rest
        return (.group true body redirections, rest)
      | _ => none
    | .word w :: rest => do
      match plain? w with
      | some "\x7b" =>
        let (body, rest) ← readLevel n .sequence rest
        close "\x7d" body rest
      | some "if" =>
        let (body, rest) ← readBranch n rest
        close "fi" body rest
      | some "while" => readLoop n true rest
      | some "until" => readLoop n false rest
      | some "for" =>
        let (name, words, rest) ← readEach rest
        let (body, rest) ← readLevel n .sequence (← expect "do" rest)
        close "done" (.each name words body) rest
      | some "!" =>
        let (body, rest) ← readLevel n .pipeline rest
        return (.negation body, rest)
      | _ =>
        let (c, rest) := readSimple ⟨[], [], []⟩ ls
        return (.simple c, rest)
    | .redirect _ _ :: .word _ :: _ =>
      let (c, rest) := readSimple ⟨[], [], []⟩ ls
      some (.simple c, rest)
    | _ => none
where
  /-- The closing word of a bracket, and redirections behind it. -/
  close (word : String) (body : Script) (ls : List Lexeme) : Option (Script × List Lexeme) := do
    let (redirections, rest) := readRedirections (← expect word ls)
    return (.group false body redirections, rest)
  /-- A condition and what depends on it, up to the closing word. -/
  readBranch : Nat → List Lexeme → Option (Script × List Lexeme)
    | 0, _ => none
    | n + 1, ls => do
      let (condition, rest) ← readLevel n .sequence ls
      let (first, rest) ← readLevel n .sequence (← expect "then" rest)
      match expect "elif" rest, expect "else" rest with
      | some rest, _ =>
        let (second, rest) ← readBranch n rest
        return (.branch condition first second, rest)
      | none, some rest =>
        let (second, rest) ← readLevel n .sequence rest
        return (.branch condition first second, rest)
      | none, none => return (.branch condition first .empty, rest)
  /-- A loop, with the word that closes it. -/
  readLoop : Nat → Bool → List Lexeme → Option (Script × List Lexeme)
    | 0, _, _ => none
    | n + 1, succeeds, ls => do
      let (condition, rest) ← readLevel n .sequence ls
      let (body, rest) ← readLevel n .sequence (← expect "do" rest)
      close "done" (.loop succeeds condition body) rest
  /-- Further commands joined by "and" and "or". -/
  readChoices : Nat → Script → List Lexeme → Option (Script × List Lexeme)
    | 0, _, _ => none
    | n + 1, first, .bothOf :: rest => do
      let (second, rest) ← readLevel n .pipeline (skipStops rest)
      readChoices n (.both first second) rest
    | n + 1, first, .eitherOf :: rest => do
      let (second, rest) ← readLevel n .pipeline (skipStops rest)
      readChoices n (.either first second) rest
    | _, first, rest => some (first, rest)

/-- **The script that a text writes**, if it is one. -/
def Script.parse? (s : List Char) : Option Script :=
  match readLevel (4 * s.length + 8) .sequence (lex s) with
  | some (script, []) => some script
  | _ => none

end CompilerSession.Shell
