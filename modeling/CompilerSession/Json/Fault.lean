import CompilerSession.Json.Printer
import CompilerSession.Json.Tree
import CompilerSession.Text.Quoted

/-
Why a text or a value is not the record that was asked for.

There are seven causes. One of them is that the text is no JSON, for which one
wording serves, wherever and however the grammar is broken. The other six name
the field or describe what was found and what was expected.
-/

set_option autoImplicit false

namespace CompilerSession.Json

/-- **Why decoding failed.** -/
inductive Fault where
  /-- The text is not JSON, or says something that has no value. -/
  | malformed
  | missingField (name : String)
  | duplicateField (name : String)
  | invalidType (found expected : String)
  | invalidValue (found expected : String)
  | invalidLength (length : Nat) (expected : String)
  | unknownVariant (name : String) (expected : List String)
  deriving DecidableEq, Repr

def ticked (s : String) : String :=
  "`" ++ s ++ "`"

def joined (separator : String) : List String → String
  | [] => ""
  | [x] => x
  | x :: y :: rest => x ++ separator ++ joined separator (y :: rest)

def Fault.message : Fault → String
  | .malformed => "syntax error"
  | .missingField name => "missing field " ++ ticked name
  | .duplicateField name => "duplicate field " ++ ticked name
  | .invalidType found expected => "invalid type: " ++ found ++ ", expected " ++ expected
  | .invalidValue found expected => "invalid value: " ++ found ++ ", expected " ++ expected
  | .invalidLength length expected =>
    "invalid length " ++ length.repr ++ ", expected " ++ expected
  | .unknownVariant name expected =>
    "unknown variant " ++ ticked name ++ ", expected one of " ++ joined ", " (expected.map ticked)

/-- What a number is called in a fault. -/
def Number.described : Number → String
  | .integer value => "integer " ++ ticked (String.ofList (Number.integer value).text)
  | .double bits => "floating point " ++ ticked (String.ofList (Number.double bits).text)

/-- **What was found**, for a tree that has a value at its root; none for a tree whose
root is a fault of the text. -/
def Tree.described? : Tree → Option String
  | .null => some "null"
  | .bool b => some ("boolean " ++ ticked (String.ofList (boolText b)))
  | .number n => some n.described
  | .text s => some ("string " ++ Text.quote s)
  | .array _ _ => some "sequence"
  | .object _ _ => some "map"
  | .tooLarge | .halfPair | .broken => none

/-- The fault of a tree that is not of the expected type. -/
def Tree.mismatch (t : Tree) (expected : String) : Fault :=
  match t.described? with
  | some found => .invalidType found expected
  | none => .malformed

end CompilerSession.Json
