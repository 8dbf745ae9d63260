import CompilerSession.Shell.Files

/-
The state in which scripts run.

A script runs against the input that has arrived so far. It ends by itself, or it comes to
a point where it has to wait for more input; then the run stops there. Running is a pure
function, so with more input the script is simply run again from the beginning, and comes
past that point with the same output before it.

Only the error output of a process is looked at by anybody. Its standard output goes
nowhere, unless a substitution collects it.
-/

set_option autoImplicit false

namespace CompilerSession.Shell

open Utf8 (Bytes)

/-- **Why a run stops** before the end of its script. -/
inductive Stop where
  /-- More input is needed. -/
  | waiting
  | exited (status : Nat)
  /-- The shell was killed. -/
  | killed
  deriving DecidableEq, Repr

/-- Where output goes. -/
inductive Sink where
  | nowhere
  /-- The error output of the process. -/
  | response
  /-- The text of a substitution or the input of the next command. -/
  | collected
  deriving DecidableEq, Repr

/-- **The state of a run.** -/
structure State where
  unread : Bytes
  /-- More input may arrive. -/
  inputOpen : Bool
  response : Bytes
  collected : Bytes
  output : Sink
  errors : Sink
  bindings : List (String × String)
  /-- The name under which the script runs. -/
  name : String
  arguments : List String
  /-- The status of the last command. -/
  status : Nat
  directory : String
  /-- The signals that do nothing. -/
  ignored : List String
  files : Files
  deriving DecidableEq, Repr

/-- **A run.** What it has done stays done when it stops. -/
abbrev Run (α : Type) := ExceptT Stop (StateM State) α

/-! ## Input and output -/

def put (sink : Sink) (bytes : Bytes) : Run Unit :=
  modify fun s =>
    match sink with
    | .nowhere => s
    | .response => { s with response := s.response ++ bytes }
    | .collected => { s with collected := s.collected ++ bytes }

def emit (bytes : Bytes) : Run Unit := do
  put (← get).output bytes

def complain (text : String) : Run Unit := do
  put (← get).errors (Utf8.encode (text ++ "\n"))

/-- Read that many bytes, or all that there will be. -/
def take (n : Nat) : Run Bytes := do
  let s ← get
  if s.unread.length < n ∧ s.inputOpen then throw .waiting
  else
    set { s with unread := s.unread.drop n }
    return s.unread.take n

/-- **Copy the input to the output** until there will be no more. -/
def copy : Run Unit := do
  let s ← get
  set { s with unread := [] }
  emit s.unread
  if s.inputOpen then throw .waiting

/-- Run with other input, and go back to the input afterwards. -/
def withInput {α : Type} (bytes : Bytes) (run : Run α) : Run α := do
  let before ← get
  set { before with unread := bytes, inputOpen := false }
  let x ← run
  modify fun s => { s with unread := before.unread, inputOpen := before.inputOpen }
  return x

/-- **Collect the output of a run.** What the run changes does not last, and its end is not
the end of the whole. -/
def collect (run : Run Unit) : Run Bytes := do
  let before ← get
  set { before with output := .collected, collected := [] }
  try run catch
    | .exited status => modify fun s => { s with status }
    | stop => throw stop
  let after ← get
  set { before with
    unread := after.unread, response := after.response, status := after.status }
  return after.collected

/-- Run apart: what the run changes does not last. -/
def runApart (run : Run Unit) : Run Unit := do
  let before ← get
  try run catch
    | .exited status => modify fun s => { s with status }
    | stop => throw stop
  let after ← get
  set { before with
    unread := after.unread
    response := after.response
    collected := after.collected
    status := after.status }

end CompilerSession.Shell
