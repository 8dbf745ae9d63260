import CompilerSession.Json.Decode
import CompilerSession.Json.Printer

/-
Display requests.

A request is what a caller wants to ask the compiler: the arguments of one call,
and possibly contents for a file that is not saved yet. An absent file and an
empty one are different requests. The label is for the reader of a log and has no
influence on the answer.
-/

set_option autoImplicit false

namespace CompilerSession

open Json (Decoder Member Shape Value)

/-- **A display request.** -/
structure Request where
  label : String
  arguments : List String
  stdin : Option String
  deriving DecidableEq, Repr, Inhabited

namespace Request

def ofArguments (arguments : List String) : Request := ⟨"", arguments, none⟩

def withLabel (r : Request) (label : String) : Request := { r with label }

def withStdin (r : Request) (contents : String) : Request := { r with stdin := some contents }

/-! ## The JSON form -/

/-- The fields as they are met. -/
structure Draft where
  label : Option String
  arguments : Option (List String)
  stdin : Option (Option String)

/-- How a request is read. Only the arguments are required. -/
def shape : Shape Draft Request where
  name := "DisplayRequest"
  fields :=
    [ { name := "label"
        aliases := []
        store := fun scope t d => do return { d with label := some (← Json.text scope t) }
        defaulted := true },
      { name := "arguments"
        aliases := ["args"]
        store := fun scope t d => do
          return { d with arguments := some (← Json.list Json.text scope t) }
        defaulted := false },
      { name := "stdin"
        aliases := []
        store := fun scope t d => do
          return { d with stdin := some (← Json.optional Json.text scope t) }
        defaulted := true } ]
  start := ⟨none, none, none⟩
  finish := fun d => do
    let arguments ← Json.required "arguments" d.arguments
    return ⟨d.label.getD "", arguments, d.stdin.join⟩

def decode : Decoder Request :=
  shape.decode

/-- The request as a value; absent contents are left out. -/
def toValue (r : Request) : Value :=
  .object ([("label", .text r.label), ("arguments", Value.texts r.arguments)] ++
    Value.member? "stdin" .text r.stdin)

end Request

end CompilerSession
