/-
Bytes to text.

A display process answers in bytes. Where they are well-formed UTF-8 the text is
what they encode; where they are not, every maximal piece that could still have
begun a character, and every byte that could not, becomes one U+FFFD. Reading
never fails on a response, while a settings file or a request line has to be
well-formed, so the same scanner serves both: it reports, piece by piece, either
a character or a fault.
-/

set_option autoImplicit false

namespace CompilerSession.Utf8

abbrev Bytes := List UInt8

/-- What the front of a byte string is: a character, or a piece that is none. -/
inductive Piece where
  | character (c : Char)
  | fault
  deriving DecidableEq, Repr

/-- A continuation byte. -/
def isContinuation (b : UInt8) : Bool :=
  0x80 ≤ b && b ≤ 0xBF

/-- **The second byte admitted after a lead byte**, and how many continuation
bytes follow in all. The narrow intervals keep out overlong forms, surrogates
and numbers above U+10FFFF. -/
def lead? (b : UInt8) : Option (Nat × UInt8 × UInt8) :=
  if 0xC2 ≤ b ∧ b ≤ 0xDF then some (1, 0x80, 0xBF)
  else if b = 0xE0 then some (2, 0xA0, 0xBF)
  else if b = 0xED then some (2, 0x80, 0x9F)
  else if 0xE1 ≤ b ∧ b ≤ 0xEF then some (2, 0x80, 0xBF)
  else if b = 0xF0 then some (3, 0x90, 0xBF)
  else if 0xF1 ≤ b ∧ b ≤ 0xF3 then some (3, 0x80, 0xBF)
  else if b = 0xF4 then some (3, 0x80, 0x8F)
  else none

/-- The payload bits of a continuation byte. -/
def low6 (b : UInt8) : Nat :=
  b.toNat % 64

/-- The front piece of a non-empty byte string and the length of the rest of it
that the piece takes beyond the first byte. -/
def front (b : UInt8) (rest : Bytes) : Piece × Nat :=
  if b < 0x80 then (.character (Char.ofNat b.toNat), 0)
  else match lead? b with
    | none => (.fault, 0)
    | some (more, lo, hi) =>
      match rest with
      | [] => (.fault, 0)
      | b₁ :: rest₁ =>
        if ¬ (lo ≤ b₁ ∧ b₁ ≤ hi) then (.fault, 0)
        else if more = 1 then
          (.character (Char.ofNat (b.toNat % 32 * 64 + low6 b₁)), 1)
        else match rest₁ with
          | [] => (.fault, 1)
          | b₂ :: rest₂ =>
            if ¬ isContinuation b₂ then (.fault, 1)
            else if more = 2 then
              (.character (Char.ofNat (b.toNat % 16 * 4096 + low6 b₁ * 64 + low6 b₂)), 2)
            else match rest₂ with
              | [] => (.fault, 2)
              | b₃ :: _ =>
                if ¬ isContinuation b₃ then (.fault, 2)
                else
                  (.character (Char.ofNat
                    (b.toNat % 8 * 262144 + low6 b₁ * 4096 + low6 b₂ * 64 + low6 b₃)), 3)

/-- The pieces of a byte string, left to right; `skip` bytes at the front belong to
the piece already reported. -/
def piecesFrom (skip : Nat) : Bytes → List Piece
  | [] => []
  | b :: rest =>
    match skip with
    | n + 1 => piecesFrom n rest
    | 0 =>
      let (piece, taken) := front b rest
      piece :: piecesFrom taken rest

/-- **The pieces of a byte string.** -/
def pieces (bytes : Bytes) : List Piece :=
  piecesFrom 0 bytes

/-- The replacement character. -/
def replacement : Char := '\uFFFD'

/-- The character that stands for a piece. -/
def Piece.toChar : Piece → Char
  | .character c => c
  | .fault => replacement

/-- **Lenient reading.** Every fault becomes one U+FFFD. -/
def decodeLossy (bytes : Bytes) : List Char :=
  (pieces bytes).map Piece.toChar

/-- **Strict reading.** Any fault refuses the whole. -/
def decode? (bytes : Bytes) : Option (List Char) :=
  (pieces bytes).mapM fun
    | .character c => some c
    | .fault => none

def encode (s : String) : Bytes :=
  s.toUTF8.toList

end CompilerSession.Utf8
