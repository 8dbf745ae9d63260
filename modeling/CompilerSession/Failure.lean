import CompilerSession.Version
import CompilerSession.Text.Quoted

/-
Everything that can go wrong, by cause.

Two layers fail. A single exchange with the display process fails on its channel
(`ChannelFault`): the process closed its output, an operation on the pipes
failed, or the answer was no answer. A caller of the library sees a `Failure`.
Each cause carries the data its message needs, and the wording stands in one
function, so that nothing else in the library compares texts.
-/

set_option autoImplicit false

namespace CompilerSession

/-- **Why an exchange with the display process failed.** Whichever it is, the
process can no longer be trusted to answer. -/
inductive ChannelFault where
  | closed (detail : String)
  | io (detail : String)
  | protocol (detail : String)
  deriving DecidableEq, Repr

def ChannelFault.message : ChannelFault → String
  | .closed detail => "display process closed its output: " ++ detail
  | .io detail => "I/O error talking to display process: " ++ detail
  | .protocol detail => "malformed response from display process: " ++ detail

/-- Failures of the pipe itself, by the kind that the operating system reports. -/
inductive PipeError where
  | unexpectedEnd
  | brokenPipe
  | other
  deriving DecidableEq, Repr

/-- An end of file in the middle of an answer, or nobody left to read a request,
means that the process closed its side. -/
def ChannelFault.ofPipe (kind : PipeError) (detail : String) : ChannelFault :=
  match kind with
  | .unexpectedEnd | .brokenPipe => .closed detail
  | .other => .io detail

/-- **How a process ended.** Without a code it was ended by a signal. -/
structure Exit where
  code : Option Int
  deriving DecidableEq, Repr, Inhabited

def Exit.message (exit : Exit) : String :=
  match exit.code with
  | some code => "display process exited with code " ++ toString code
  | none => "display process was terminated by a signal"

/-- **What a caller is told.** -/
inductive Failure where
  /-- The process could not be created. -/
  | spawn (executable reason : String)
  /-- A new process did not tell its version. -/
  | probe (reason : String)
  /-- The compiler is too old. -/
  | unsupported (found required : Version)
  /-- The session that accepted the request is gone. -/
  | stale (generation : Nat)
  /-- The caller's token fired. -/
  | cancelled
  /-- The compiler reported an error, or went away. -/
  | subprocess (reason : String) (exitCode : Option Int)
  /-- There is no session. -/
  | notRunning
  /-- The settings cannot be used. -/
  | config (reason : String)
  /-- The dispatcher has ended. -/
  | workerClosed
  deriving DecidableEq, Repr

namespace Failure

def message : Failure → String
  | spawn executable reason => "Failed to spawn " ++ executable ++ ": " ++ reason
  | probe reason => "Version probe failed: " ++ reason
  | unsupported found required =>
    "Unsupported toolchain version " ++ found.text ++ ", at least " ++ required.text ++
      " is required"
  | stale generation =>
    "Display session " ++ generation.repr ++ " was torn down before the request completed"
  | cancelled => "Request was cancelled"
  | subprocess reason _ => "Display request failed: " ++ reason
  | notRunning => "Display server is not running"
  | config reason => "Invalid configuration: " ++ reason
  | workerClosed => "Dispatcher channel closed"

/-- The stable name of the cause on the wire. -/
def kind : Failure → String
  | spawn _ _ => "spawn_error"
  | probe _ => "probe_error"
  | unsupported _ _ => "unsupported_version"
  | stale _ => "stale_session"
  | cancelled => "cancelled"
  | subprocess _ _ => "subprocess_failure"
  | notRunning => "not_running"
  | config _ => "config_error"
  | workerClosed => "worker_closed"

/-- The same request may succeed on a later session. -/
def isRetryable : Failure → Bool
  | stale _ | notRunning => true
  | _ => false

/-- The failure ended an attempt to start a session. -/
def isStartFailure : Failure → Bool
  | spawn _ _ | probe _ | unsupported _ _ | config _ => true
  | _ => false

end Failure

/-- **The gate on old compilers.** -/
def Version.checkSupported (v : Version) : Except Failure Version :=
  if v.atLeast Version.minimum then .ok v else .error (.unsupported v Version.minimum)

/-- The version named in a text, or the reason why there is none. Blanks around the
text do not count. -/
def Version.parse (s : String) : Except Failure Version :=
  let trimmed := Text.trim s
  match Version.find? trimmed with
  | some v => .ok v
  | none => .error (.probe ("no version in " ++ Text.quote trimmed))

end CompilerSession
