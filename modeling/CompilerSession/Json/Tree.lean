import CompilerSession.Json.Token
import CompilerSession.Json.Value

/-
What a text holds, up to the first place where it is not JSON.

A record is read from its text in one pass, and the first thing that is wrong is
the one that is reported: a member of the wrong type is found before a bracket
that is missing further right. To keep the grammar and the records apart and
still get that order, the text becomes a `Tree` first. A tree holds everything
in the order of the text, repeated members included, and marks where the text
goes wrong: a value that is none is `broken`, and a container that does not end
as it should is not `closed`. Whoever walks a tree from left to right meets the
marks in the order of the text.
-/

set_option autoImplicit false

namespace CompilerSession.Json

/-- The name of a member; an escape may name half of a surrogate pair, and then the
name has no text. -/
abbrev Name := Option String

/-- **A value as its text gives it.** -/
inductive Tree where
  | null
  | bool (b : Bool)
  | number (n : Number)
  | tooLarge
  | text (s : String)
  | halfPair
  | array (items : List Tree) (closed : Bool)
  | object (members : List (Name × Tree)) (closed : Bool)
  | broken
  deriving Repr, Inhabited

/-! ## From tokens -/

mutual

/-- The tree at the front of a token list, and the tokens behind it. -/
def readTree : Nat → List Token → Tree × List Token
  | 0, ts => (.broken, ts)
  | _ + 1, [] => (.broken, [])
  | fuel + 1, t :: ts =>
    match t with
    | .null => (.null, ts)
    | .bool b => (.bool b, ts)
    | .number n => (.number n, ts)
    | .tooLarge => (.tooLarge, ts)
    | .text s => (.text s, ts)
    | .halfPair => (.halfPair, ts)
    | .leftBracket =>
      match ts with
      | .rightBracket :: rest => (.array [] true, rest)
      | _ =>
        let (items, closed, rest) := readItems fuel ts
        (.array items closed, rest)
    | .leftBrace =>
      match ts with
      | .rightBrace :: rest => (.object [] true, rest)
      | _ =>
        let (members, closed, rest) := readMembers fuel ts
        (.object members closed, rest)
    | _ => (.broken, t :: ts)

/-- The items of an array up to its bracket, and whether the bracket was there. -/
def readItems : Nat → List Token → List Tree × Bool × List Token
  | 0, ts => ([], false, ts)
  | fuel + 1, ts =>
    let (item, rest) := readTree fuel ts
    match rest with
    | .comma :: rest =>
      let (items, closed, rest) := readItems fuel rest
      (item :: items, closed, rest)
    | .rightBracket :: rest => ([item], true, rest)
    | _ => ([item], false, rest)

/-- The members of an object up to its brace, and whether the brace was there. A name
without its colon has no value. -/
def readMembers : Nat → List Token → List (Name × Tree) × Bool × List Token
  | 0, ts => ([], false, ts)
  | fuel + 1, ts =>
    let name? : Option (Name × List Token) := match ts with
      | .text s :: rest => some (some s, rest)
      | .halfPair :: rest => some (none, rest)
      | _ => none
    match name? with
    | none => ([], false, ts)
    | some (name, rest) =>
      match rest with
      | .colon :: rest =>
        let (value, rest) := readTree fuel rest
        match rest with
        | .comma :: rest =>
          let (members, closed, rest) := readMembers fuel rest
          ((name, value) :: members, closed, rest)
        | .rightBrace :: rest => ([(name, value)], true, rest)
        | _ => ([(name, value)], false, rest)
      | _ => ([(name, .broken)], false, rest)

end

/-- A whole text: the tree at its front, and whether anything stands behind it. -/
structure Document where
  tree : Tree
  trailing : Bool
  deriving Repr

/-- **Reading a text.** Every step of the reader either takes a token or opens a part
of the value that begins at the current token, so twice the number of tokens is steps
enough. -/
def Document.ofText (s : List Char) : Document :=
  let ts := tokens s
  let (tree, rest) := readTree (2 * ts.length + 2) ts
  ⟨tree, !rest.isEmpty⟩

/-! ## From values -/

mutual

/-- A value as a tree; its members come in name order. -/
def Tree.ofValue : Value → Tree
  | .null => .null
  | .bool b => .bool b
  | .number n => .number n
  | .text s => .text s
  | .array items => .array (Tree.ofValues items) true
  | .object members => .object (Tree.ofMembers members) true

def Tree.ofValues : List Value → List Tree
  | [] => []
  | x :: rest => Tree.ofValue x :: Tree.ofValues rest

def Tree.ofMembers : List (String × Value) → List (Name × Tree)
  | [] => []
  | (k, x) :: rest => (some k, Tree.ofValue x) :: Tree.ofMembers rest

end

/-! ## Skipping

A member that nobody asked for is skipped. Its text has to be JSON, and that is
all: numbers may be too large, strings may hold half pairs, and there is no limit
on nesting. -/

mutual

/-- A tree without any mark of a fault in the text. -/
def Tree.isSound : Tree → Bool
  | .array items closed => Tree.areSound items && closed
  | .object members closed => Tree.membersSound members && closed
  | .broken => false
  | _ => true

def Tree.areSound : List Tree → Bool
  | [] => true
  | x :: rest => x.isSound && Tree.areSound rest

def Tree.membersSound : List (Name × Tree) → Bool
  | [] => true
  | (_, x) :: rest => x.isSound && Tree.membersSound rest

end

end CompilerSession.Json
