import CompilerSession.Text.Blank
import CompilerSession.Text.Digit

/-
Compiler versions.

A compiler names its version as three numbers joined by dots, somewhere inside a
line of free text. This file fixes what a version is, how versions compare, how
the first one is found in a text, and which abilities of the display protocol
follow from it.

The search looks at one place only. The leftmost position where three runs of
digits joined by single dots begin decides the answer: if those runs are not
numbers below `2^32`, the text has no version, whatever stands further right.
-/

set_option autoImplicit false

namespace CompilerSession

/-- **A version.** Suffixes such as `-rc.1` are not kept. -/
structure Version where
  major : UInt32
  minor : UInt32
  patch : UInt32
  deriving DecidableEq, Repr, Inhabited

namespace Version

/-- The dotted form. -/
def text (v : Version) : String :=
  v.major.toNat.repr ++ "." ++ v.minor.toNat.repr ++ "." ++ v.patch.toNat.repr

/-- The order of versions: the major number decides, then the minor, then the patch. -/
def order (a b : Version) : Ordering :=
  (compare a.major b.major).then ((compare a.minor b.minor).then (compare a.patch b.patch))

/-- The version is the other one or a later one. -/
def atLeast (a b : Version) : Bool :=
  a.order b != .lt

/-! ## Finding a version in a text -/

/-- Three runs of digits joined by dots, as they stand in a text. -/
structure Triple where
  major : List Char
  minor : List Char
  patch : List Char
  deriving DecidableEq, Repr

/-- The digits at the front of the text and what follows them. -/
def splitRun (s : List Char) : List Char × List Char :=
  (s.takeWhile Text.isDigit, s.dropWhile Text.isDigit)

/-- A run followed by a dot, and the text behind the dot. -/
def runDot? (s : List Char) : Option (List Char × List Char) :=
  match splitRun s with
  | (c :: run, '.' :: rest) => some (c :: run, rest)
  | _ => none

/-- The triple at the very front of a text, with the runs as long as they go. -/
def tripleAt? (s : List Char) : Option Triple :=
  match runDot? s with
  | none => none
  | some (major, s₁) =>
    match runDot? s₁ with
    | none => none
    | some (minor, s₂) =>
      match (splitRun s₂).1 with
      | [] => none
      | c :: run => some ⟨major, minor, c :: run⟩

/-- **The leftmost triple** of a text. -/
def firstTriple? : List Char → Option Triple
  | [] => none
  | c :: rest =>
    match tripleAt? (c :: rest) with
    | some t => some t
    | none => firstTriple? rest

/-- A run as a number below `2^32`. -/
def word? (run : List Char) : Option UInt32 :=
  match Text.decimalValue? run with
  | some n => if n < UInt32.size then some (UInt32.ofNat n) else none
  | none => none

/-- The version a triple writes, if its runs are numbers in range. -/
def ofTriple? (t : Triple) : Option Version :=
  match word? t.major, word? t.minor, word? t.patch with
  | some major, some minor, some patch => some ⟨major, minor, patch⟩
  | _, _, _ => none

/-- **The version named in a text.** -/
def findIn? (s : List Char) : Option Version :=
  (firstTriple? s).bind ofTriple?

/-- The version named in a text. -/
def find? (s : String) : Option Version :=
  findIn? s.toList

/-! ## What a version allows -/

/-- The oldest compiler that speaks the display protocol. -/
def minimum : Version := ⟨3, 4, 0⟩

end Version

/-- The abilities of a compiler that callers ask about. -/
structure Capabilities where
  /-- The JSON-RPC form of the display protocol. -/
  jsonRpc : Bool
  /-- File contents may be sent along instead of being read from disk. -/
  displayStdin : Bool
  deriving DecidableEq, Repr

def Capabilities.of (v : Version) : Capabilities where
  jsonRpc := v.atLeast ⟨4, 0, 0⟩
  displayStdin := v.atLeast ⟨3, 4, 0⟩

end CompilerSession
