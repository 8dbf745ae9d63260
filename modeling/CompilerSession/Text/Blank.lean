import CompilerSession.Text.Ranges

/-
Blank characters and trimming.

A character is blank when it has the Unicode property White_Space. Trimming
takes blanks from both ends and nothing from the middle; a text is blank when
trimming leaves nothing of it.
-/

set_option autoImplicit false

namespace CompilerSession.Text

/-- The White_Space property. -/
def blankRanges : Ranges :=
  [(0x9, 0xD), (0x20, 0x20), (0x85, 0x85), (0xA0, 0xA0), (0x1680, 0x1680), (0x2000, 0x200A),
   (0x2028, 0x2029), (0x202F, 0x202F), (0x205F, 0x205F), (0x3000, 0x3000)]

def isBlank (c : Char) : Bool :=
  blankRanges.holds c

/-- The characters without the blanks at the front. -/
def trimFront (s : List Char) : List Char :=
  s.dropWhile isBlank

/-- **Trimming.** The characters without the blanks at either end. -/
def trimChars (s : List Char) : List Char :=
  (trimFront (trimFront s).reverse).reverse

/-- The text without the blanks at either end. -/
def trim (s : String) : String :=
  String.ofList (trimChars s.toList)

def isAllBlank (s : String) : Bool :=
  s.toList.all isBlank

end CompilerSession.Text
