import CompilerSession.Wire
import CompilerSession.Timestamp
import CompilerSession.Json.Decode
import CompilerSession.Json.Printer

/-
What is told about a session.

Four things can be asked of a session or are announced about it: the answer to a
request, its status, the facts of the running process, and the events that begin
and end it. All four have a JSON form, and status and facts can be read back from
theirs.
-/

set_option autoImplicit false

namespace CompilerSession

open Json (Decoder Member Shape Value)

/-! ## Versions in JSON -/

/-- The fields of a version as they are met. -/
structure Version.Draft where
  major : Option UInt32
  minor : Option UInt32
  patch : Option UInt32

def Version.shape : Shape Version.Draft Version where
  name := "Version"
  fields :=
    [ { name := "major"
        aliases := []
        store := fun scope t d => do return { d with major := some (← Json.word32 scope t) }
        defaulted := false },
      { name := "minor"
        aliases := []
        store := fun scope t d => do return { d with minor := some (← Json.word32 scope t) }
        defaulted := false },
      { name := "patch"
        aliases := []
        store := fun scope t d => do return { d with patch := some (← Json.word32 scope t) }
        defaulted := false } ]
  start := ⟨none, none, none⟩
  finish := fun d => do
    let major ← Json.required "major" d.major
    let minor ← Json.required "minor" d.minor
    let patch ← Json.required "patch" d.patch
    return ⟨major, minor, patch⟩

def Version.decode : Decoder Version :=
  Version.shape.decode

def Version.toValue (v : Version) : Value :=
  .object [("major", .nat v.major.toNat), ("minor", .nat v.minor.toNat),
    ("patch", .nat v.patch.toNat)]

def Capabilities.toValue (c : Capabilities) : Value :=
  .object [("json_rpc", .bool c.jsonRpc), ("display_stdin", .bool c.displayStdin)]

/-! ## Answers -/

/-- The answer of a process as a value. -/
def Response.toValue (r : Response) : Value :=
  .object [("output", .text r.output), ("prints", Value.texts r.prints),
    ("has_error", .bool r.hasError)]

/-- What a caller gets of an answer, as a value. -/
def RawOutput.toValue (r : RawOutput) : Value :=
  .object [("text", .text r.text), ("prints", Value.texts r.prints)]

/-! ## Status -/

/-- **Where a session stands.** -/
inductive Status where
  /-- There is no process; requests are turned away. -/
  | stopped
  /-- A new process is spawned and probed. -/
  | starting
  /-- A process answers requests. -/
  | ready
  /-- The process is being ended. -/
  | stopping
  /-- The process is being ended and another one follows. -/
  | restarting
  deriving DecidableEq, Repr, Inhabited

namespace Status

def text : Status → String
  | stopped => "stopped"
  | starting => "starting"
  | ready => "ready"
  | stopping => "stopping"
  | restarting => "restarting"

def all : List Status := [stopped, starting, ready, stopping, restarting]

def ofText? (s : String) : Option Status :=
  all.find? (·.text = s)

def decode : Decoder Status :=
  Json.oneOf (all.map text) ofText?

end Status

/-! ## The facts of a session -/

/-- **A running session.** Its generation numbers the processes in the order in which they
were handed to the dispatcher. -/
structure Info where
  generation : Nat
  executable : String
  arguments : List String
  version : Version
  pid : Option UInt32
  startedAt : Timestamp
  deriving DecidableEq, Repr, Inhabited

namespace Info

/-- The fields as they are met. -/
structure Draft where
  generation : Option Nat
  executable : Option String
  arguments : Option (List String)
  version : Option Version
  pid : Option (Option UInt32)
  startedAt : Option Timestamp

/-- A point in time, as a text. -/
def time : Decoder Timestamp := fun _ t =>
  match t with
  | .text s =>
    match Timestamp.parse? s.toList with
    | some time => .ok time
    | none => .error .malformed
  | t => .error (t.mismatch "an RFC 3339 formatted date and time string")

/-- How the facts are read. A process may have no number, but in an array its place has
to be there. -/
def shape : Shape Draft Info where
  name := "SessionInfo"
  fields :=
    [ { name := "generation"
        aliases := []
        store := fun scope t d => do return { d with generation := some (← Json.word64 scope t) }
        defaulted := false },
      { name := "executable"
        aliases := []
        store := fun scope t d => do return { d with executable := some (← Json.text scope t) }
        defaulted := false },
      { name := "arguments"
        aliases := []
        store := fun scope t d => do
          return { d with arguments := some (← Json.list Json.text scope t) }
        defaulted := false },
      { name := "version"
        aliases := []
        store := fun scope t d => do return { d with version := some (← Version.decode scope t) }
        defaulted := false },
      { name := "pid"
        aliases := []
        store := fun scope t d => do
          return { d with pid := some (← Json.optional Json.word32 scope t) }
        defaulted := false },
      { name := "started_at"
        aliases := []
        store := fun scope t d => do return { d with startedAt := some (← time scope t) }
        defaulted := false } ]
  start := ⟨none, none, none, none, none, none⟩
  finish := fun d => do
    let generation ← Json.required "generation" d.generation
    let executable ← Json.required "executable" d.executable
    let arguments ← Json.required "arguments" d.arguments
    let version ← Json.required "version" d.version
    let startedAt ← Json.required "started_at" d.startedAt
    return ⟨generation, executable, arguments, version, d.pid.join, startedAt⟩

def decode : Decoder Info :=
  shape.decode

/-- The facts as members, except the time at which the session began. -/
def lastingMembers (i : Info) : List (String × Value) :=
  [("generation", .nat i.generation), ("executable", .text i.executable),
    ("arguments", Value.texts i.arguments), ("version", i.version.toValue)] ++
    Value.member? "pid" (fun pid => .nat pid.toNat) i.pid

/-- **The facts as a value.** -/
def toValue (i : Info) : Value :=
  .object (i.lastingMembers ++ [("started_at", .text i.startedAt.text)])

end Info

/-! ## Events -/

/-- **What happened to a session.** -/
inductive Event where
  /-- The session answers requests. -/
  | ready (generation : Nat) (version : Version)
  /-- The session was ended. -/
  | stopped (generation : Nat)
  /-- The process of the session went away or broke its channel. -/
  | crashed (generation : Nat) (reason : String) (exitCode : Option Int)
  deriving DecidableEq, Repr, Inhabited

namespace Event

def generation : Event → Nat
  | ready generation _ => generation
  | stopped generation => generation
  | crashed generation _ _ => generation

def toValue : Event → Value
  | ready generation version =>
    .object [("event", .text "ready"), ("generation", .nat generation),
      ("version", version.toValue)]
  | stopped generation =>
    .object [("event", .text "stopped"), ("generation", .nat generation)]
  | crashed generation reason exitCode =>
    .object ([("event", .text "crashed"), ("generation", .nat generation),
      ("reason", .text reason)] ++ Value.member? "exit_code" .int exitCode)

/-- The message that announces an event to a client. -/
def notification (e : Event) : Value :=
  .object [("method", .text "session"), ("params", e.toValue)]

end Event

end CompilerSession
