import CompilerSession.Request
import CompilerSession.Failure

/-
The messages between a client and the server.

A client sends one JSON object a line: an id of its own choice, a method and
parameters. Whatever can be read at all is answered by one object with the same id
and either a result or an error. The file follows a line: first the envelope, then
the command that method and parameters make up, then the reply.
-/

set_option autoImplicit false

namespace CompilerSession

open Json (Decoder Fault Member Shape Value)

/-! ## Lines -/

/-- **A line that was read**, before its method is looked at. -/
structure Envelope where
  id : Value
  method : String
  params : Value
  deriving Repr, Inhabited

namespace Envelope

/-- The fields as they are met. -/
structure Draft where
  id : Option Value
  method : Option String
  params : Option Value

/-- How a line is read. Without an id the reply goes to null. -/
def shape : Shape Draft Envelope where
  name := "Envelope"
  fields :=
    [ { name := "id"
        aliases := []
        store := fun scope t d => do return { d with id := some (← Json.anyValue scope t) }
        defaulted := true },
      { name := "method"
        aliases := []
        store := fun scope t d => do return { d with method := some (← Json.text scope t) }
        defaulted := false },
      { name := "params"
        aliases := []
        store := fun scope t d => do return { d with params := some (← Json.anyValue scope t) }
        defaulted := true } ]
  start := ⟨none, none, none⟩
  finish := fun d => do
    let method ← Json.required "method" d.method
    return ⟨d.id.getD .null, method, d.params.getD .null⟩

def decode : Decoder Envelope :=
  shape.decode

def parse (line : String) : Except Fault Envelope :=
  Json.decodeText decode line

end Envelope

/-- **The key of a request**: the compact text of its id. -/
def requestKey (id : Value) : String :=
  id.compact

/-! ## Commands -/

/-- What the parameters of a display request say. -/
structure DisplayParams where
  arguments : List String
  stdin : Option String
  label : Option String
  deriving DecidableEq, Repr, Inhabited

/-- **What a client asks for.** -/
inductive Command where
  | display (params : DisplayParams)
  /-- Cancel the display request of an id. -/
  | cancel (id : Value)
  | start
  | stop
  | restart (reason : Option String)
  | status
  deriving Repr, Inhabited

namespace DisplayParams

/-- The fields as they are met. -/
structure Draft where
  arguments : Option (List String)
  stdin : Option (Option String)
  label : Option (Option String)

/-- How the parameters of a display request are read. -/
def shape : Shape Draft DisplayParams where
  name := "DisplayParams"
  fields :=
    [ { name := "arguments"
        aliases := ["args"]
        store := fun scope t d => do
          return { d with arguments := some (← Json.list Json.text scope t) }
        defaulted := false },
      { name := "stdin"
        aliases := ["contents"]
        store := fun scope t d => do
          return { d with stdin := some (← Json.optional Json.text scope t) }
        defaulted := true },
      { name := "label"
        aliases := []
        store := fun scope t d => do
          return { d with label := some (← Json.optional Json.text scope t) }
        defaulted := true } ]
  start := ⟨none, none, none⟩
  finish := fun d => do
    let arguments ← Json.required "arguments" d.arguments
    return ⟨arguments, d.stdin.join, d.label.join⟩

def request (p : DisplayParams) : Request where
  label := p.label.getD ""
  arguments := p.arguments
  stdin := p.stdin

end DisplayParams

namespace Command

/-- How the parameters of a cancellation are read. -/
def cancelShape : Shape (Option Value) Value where
  name := "CancelParams"
  fields :=
    [ { name := "id"
        aliases := ["request_id"]
        store := fun scope t _ => do return some (← Json.anyValue scope t)
        defaulted := false } ]
  start := none
  finish := Json.required "id"

/-- How the parameters of a restart are read. -/
def restartShape : Shape (Option (Option String)) (Option String) where
  name := "RestartParams"
  fields :=
    [ { name := "reason"
        aliases := []
        store := fun scope t _ => do return some (← Json.optional Json.text scope t)
        defaulted := true } ]
  start := none
  finish := fun d => .ok d.join

/-- **The command of a method and its parameters**, or what is wrong with them. No
parameters are the same as empty ones. -/
def parse (method : String) (params : Value) : Except String Command :=
  let given : Value := match params with
    | .null => .object []
    | v => v
  let read {α : Type} (d : Decoder α) : Except String α :=
    (Json.decodeValue d given).mapError fun fault =>
      "invalid params for " ++ method ++ ": " ++ fault.message
  match method with
  | "display" => (read DisplayParams.shape.decode).map .display
  | "cancel" => (read cancelShape.decode).map .cancel
  | "start" => .ok .start
  | "stop" => .ok .stop
  | "restart" => (read restartShape.decode).map .restart
  | "status" => .ok .status
  | other => .error ("unknown method: " ++ other)

end Command

/-! ## Replies -/

/-- **What is wrong, as a client is told.** -/
structure WireError where
  kind : String
  message : String
  retryable : Bool
  deriving DecidableEq, Repr, Inhabited

namespace WireError

/-- The line itself is at fault. -/
def invalidRequest (message : String) : WireError := ⟨"invalid_request", message, false⟩

/-- The session is at fault. -/
def ofFailure (f : Failure) : WireError := ⟨f.kind, f.message, f.isRetryable⟩

def toValue (e : WireError) : Value :=
  .object [("kind", .text e.kind), ("message", .text e.message), ("retryable", .bool e.retryable)]

end WireError

/-- **A reply.** -/
structure Reply where
  id : Value
  outcome : Except WireError Value

namespace Reply

def ok (id result : Value) : Reply := ⟨id, .ok result⟩

def error (id : Value) (e : WireError) : Reply := ⟨id, .error e⟩

def toValue (r : Reply) : Value :=
  .object (("id", r.id) :: match r.outcome with
    | .ok result => [("result", result)]
    | .error e => [("error", e.toValue)])

end Reply

end CompilerSession
