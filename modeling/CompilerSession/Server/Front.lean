import CompilerSession.Server.Budget
import CompilerSession.Server.Message
import CompilerSession.Server.Registry
import CompilerSession.Session.Report
import CompilerSession.Text.Blank
import CompilerSession.Text.Utf8

/-
The state of the JSON-lines front end.

The server starts a session at once, reads lines, and handles each of them in a task of
its own, so that a slow request delays nobody. All replies and all announcements of
events go out through one writer. When the input ends, or somebody asks for it, the
server cancels what is under way, shuts the supervisor down and waits until every
handler has replied.

This file holds the state, the reading of lines and the contents of a status reply. How
the server goes on belongs to the tasks of the world in which it runs.
-/

set_option autoImplicit false

namespace CompilerSession

open Json (Value)

/-- **What the server writes.** -/
inductive Message where
  | event (e : Event)
  | reply (r : Reply)

def Message.toValue : Message → Value
  | event e => e.notification
  | reply r => r.toValue

namespace Server

/-- **What a handler is about.** Apart from a fresh one, each has something under way and
replies to the id when that has come to an end. -/
inductive Handling where
  | fresh (line : String)
  /-- A start or a restart. -/
  | launch (id : Value)
  | stop (id : Value)
  /-- A display request; its key stands in the register. -/
  | display (id : Value) (key : String)

/-- **A handler** of one line. -/
structure Handler where
  number : Nat
  handling : Handling

/-- How serving ended. -/
inductive Ending where
  | ok
  /-- A line was not valid UTF-8. -/
  | invalidData
  /-- Nobody reads what is written. -/
  | brokenPipe
  deriving DecidableEq, Repr

/-- **How far serving is.** -/
inductive Stage where
  | idle
  /-- The first start is under way. -/
  | starting
  | reading
  /-- The supervisor is being shut down. -/
  | stopping
  /-- Replies are still to be written. -/
  | draining
  | ended (how : Ending)
  deriving DecidableEq, Repr

end Server

open Server

/-- **The server.** -/
structure Server where
  stage : Stage
  budget : Budget
  handlers : List Handler
  nextHandler : Nat
  /-- Restarts after crashes that have not begun yet. -/
  recoveries : List Nat
  nextRecovery : Nat
  /-- Input that was not read yet. -/
  unread : Utf8.Bytes
  inputClosed : Bool
  /-- Somebody asked for the end. -/
  signalled : Bool
  /-- How many events were looked at. -/
  cursor : Nat
  /-- Events are looked at. -/
  watching : Bool
  /-- What was written, oldest first. -/
  written : List Message
  outputOpen : Bool
  /-- A message could not be written. -/
  writerFailed : Bool

namespace Server

def initial : Server where
  stage := .idle
  budget := .full
  handlers := []
  nextHandler := 0
  recoveries := []
  nextRecovery := 0
  unread := []
  inputClosed := false
  signalled := false
  cursor := 0
  watching := false
  written := []
  outputOpen := true
  writerFailed := false

/-! ## Lines -/

/-- What reading comes to. -/
inductive Reading where
  /-- More input is needed. -/
  | wait
  | line (text : String)
  /-- The line is not text. -/
  | invalid
  /-- There are no more lines. -/
  | finished
  deriving DecidableEq, Repr

/-- A line without the carriage return at its end. -/
def withoutReturn (bytes : Utf8.Bytes) : Utf8.Bytes :=
  if bytes.getLast? = some 13 then bytes.dropLast else bytes

def Reading.ofBytes (bytes : Utf8.Bytes) : Reading :=
  match Utf8.decode? bytes with
  | some text => .line (String.ofList text)
  | none => .invalid

/-- **Read a line**; what is read is no longer unread. A line ends with a line feed, before
which a carriage return does not count; the last line may lack both. -/
def readLine (s : Server) : Reading × Server :=
  match s.unread.dropWhile (· ≠ 10) with
  | _ :: rest =>
    (.ofBytes (withoutReturn (s.unread.takeWhile (· ≠ 10))), { s with unread := rest })
  | [] =>
    if s.inputClosed then
      if s.unread = [] then (.finished, s) else (.ofBytes s.unread, { s with unread := [] })
    else (.wait, s)

/-! ## Messages -/

/-- **Write a message**, unless nobody reads any more. -/
def write (s : Server) (m : Message) : Server :=
  if s.writerFailed then s
  else if s.outputOpen then { s with written := s.written ++ [m] }
  else { s with writerFailed := true }

/-- **The contents of a status reply.** -/
def statusValue (status : Status) (session : Option Info) (pending : Nat) (budget : Budget) :
    Value :=
  Value.sorted (.object [
    ("status", .text status.text),
    ("session", Value.ofOption Info.toValue session),
    ("capabilities", Value.ofOption (fun i => (Capabilities.of i.version).toValue) session),
    ("pending", .nat pending),
    ("crash_restarts", .nat budget.used)])

/-- The contents of the reply to a stop. -/
def stopValue (status : Status) : Value :=
  .object [("status", .text status.text)]

/-- The contents of the reply to a cancellation. -/
def cancelValue (cancelled : Bool) : Value :=
  .object [("cancelled", .bool cancelled)]

end Server

end CompilerSession
