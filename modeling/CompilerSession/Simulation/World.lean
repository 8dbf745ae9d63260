import CompilerSession.Server.Front
import CompilerSession.Session.Supervisor
import CompilerSession.Shell.Child
import CompilerSession.Simulation.Conduct

/-
The world of a simulation.

A world is everything that moves: the supervisor, the server in front of it, callers,
and the compilers that it spawns. What moves does so in tasks. A task goes on until it
has to wait, and whatever ends the waiting makes the task ready again. Tasks that are
ready stand in a queue; the world remembers their order, and the schedule, in another
module, decides what to do with it.

This file holds the state and what wakes whom. The compilers are scripted: their answers
are fixed beforehand, calls can be made to wait for permits, and kills can be held. Or
they are programs on a host; then they answer as the programs do.
-/

set_option autoImplicit false

namespace CompilerSession.Simulation

open Dispatch (Entry)

/-! ## Compilers -/

/-- **How the version probe of a process is answered**; not at all, if there is no answer. -/
structure ProbeScript where
  answer : Option (Except ChannelFault Response)
  /-- The answer waits for a permit. -/
  gated : Bool

/-- What can wait for a permit or for a time. -/
inductive Waiter where
  | call (id : RequestId)
  | probe (id : OperationId)
  deriving DecidableEq, Repr

/-- **The compilers.** -/
structure Compilers where
  /-- Where the compilers run, if they are programs. -/
  host : Option Shell.Host
  /-- The processes of programs, in the order in which they were spawned. -/
  children : List Shell.Child
  platform : Platform
  /-- What loading the settings comes to. -/
  settings : Except Failure Settings
  /-- Why spawning fails, if it does. -/
  spawnFailure : Option String
  probe : ProbeScript
  /-- Permits that nobody waits for. -/
  permits : Nat
  /-- Who waits for a permit, in order, and whether the permit was given already. -/
  waiters : List (Waiter × Bool)
  killsHeld : Bool
  /-- Processes that were killed. -/
  killed : List ProcessId

/-- The number that the first process has for the operating system. -/
def firstPid : Nat := 4001

def Compilers.initial (platform : Platform) : Compilers where
  host := none
  children := []
  platform := platform
  settings := .ok Settings.default
  spawnFailure := none
  probe := ⟨some (Conduct.say "4.3.6\n"), false⟩
  permits := 0
  waiters := []
  killsHeld := false
  killed := []

/-! ## What is under way -/

/-- How far the process is with a call. -/
inductive CallStage where
  /-- The process was not reached yet. -/
  | fresh
  /-- Waiting for a permit; then these words apply. -/
  | waiting (words : List String)
  /-- The channel failed; the exit is waited for until then. -/
  | lingering (deadline : Nat)
  /-- Nothing more will come of it. -/
  | silent
  deriving DecidableEq, Repr

/-- **A call at a process.** -/
structure CallRun where
  entry : Entry
  process : ProcessId
  stage : CallStage

/-- How far the process is with a probe. -/
inductive ProbeStage where
  | waiting
  | ready (result : Except ChannelFault Response)
  | silent

/-- **A probe at a process.** -/
structure ProbeRun where
  id : OperationId
  process : ProcessId
  script : ProbeScript
  stage : ProbeStage
  deadline : Nat

/-- **A kill.** -/
structure KillRun where
  id : OperationId
  process : ProcessId
  /-- The process is gone. -/
  finished : Bool

/-- **A request whose outcome somebody waits for.** -/
structure Submission where
  number : Nat
  request : Request
  token : Token
  /-- What the dispatcher knows it by, once it was sent. -/
  id : Option RequestId
  /-- The dispatcher was told that the token fired. -/
  withdrawn : Bool
  outcome : Option Outcome

/-! ## Tasks -/

/-- **The tasks.** -/
inductive Task where
  | dispatcher
  | monitor
  /-- A call on the channel of a process. -/
  | call (id : RequestId)
  /-- Somebody who uses the supervisor directly. -/
  | caller (number : Nat)
  /-- The handler of a line. -/
  | handler (number : Nat)
  /-- A restart after a crash. -/
  | recovery (number : Nat)
  /-- The server's watch over events. -/
  | watch
  | serve
  deriving DecidableEq, Repr

/-- What a task can wait for. -/
inductive Work where
  | operation (id : OperationId)
  | submission (number : Nat)
  deriving DecidableEq, Repr

/-- What came of work. -/
inductive Achievement where
  | launched (outcome : Except Failure Info)
  | stopped
  | shutDown
  | answered (outcome : Outcome)

/-- Something that has to go on at a certain time. -/
structure Timer where
  deadline : Nat
  waiter : Waiter
  deriving DecidableEq, Repr

/-- **What could be seen from outside.** -/
structure Record where
  /-- The callers that got their result. -/
  done : List (Nat × Achievement)
  spawns : List (UInt32 × Toolchain)
  /-- Calls that reached a process: its number, the arguments and the contents. -/
  calls : List (UInt32 × List String × Option String)
  kills : List UInt32
  probes : Nat

def Record.empty : Record := ⟨[], [], [], [], 0⟩

/-- **The world.** -/
structure World where
  supervisor : Supervisor
  server : Server
  registry : Registry
  compilers : Compilers
  /-- Who has a command for the dispatcher and found no room for it, in order, and whether there
  is room by now. -/
  line : List (Work × Bool)
  submissions : List Submission
  calls : List CallRun
  probes : List ProbeRun
  kills : List KillRun
  timers : List Timer
  /-- What each task waits for. -/
  jobs : List (Task × Work)
  /-- The tasks that can go on, in order. -/
  ready : List Task
  /-- The task that is going on. -/
  running : Option Task
  nextCaller : Nat
  nextSubmission : Nat
  record : Record

/-- How many commands there is room for that the dispatcher did not take yet. -/
def inboxCapacity : Nat := 64

namespace World

def initial (platform : Platform) : World where
  supervisor := .initial
  server := .initial
  registry := .empty
  compilers := .initial platform
  line := []
  submissions := []
  calls := []
  probes := []
  kills := []
  timers := []
  jobs := []
  ready := []
  running := none
  nextCaller := 0
  nextSubmission := 0
  record := .empty

/-! ## Waking -/

/-- **Make a task ready**, at the end of the queue unless it stands there already. -/
def wake (w : World) (t : Task) : World :=
  if w.ready.contains t ∨ w.running = some t then w else { w with ready := w.ready ++ [t] }

/-- The task that waits for some work. -/
def taskOf? (w : World) (work : Work) : Option Task :=
  match w.jobs.find? (·.2 = work) with
  | some (t, _) => some t
  | none =>
    match work with
    | .operation id => if w.supervisor.monitor = some id then some .monitor else none
    | .submission _ => none

/-- Wake the task that waits for some work. -/
def wakeFor (w : World) (work : Work) : World :=
  match w.taskOf? work with
  | some t => w.wake t
  | none => w

def assign (w : World) (t : Task) (work : Work) : World :=
  { w with jobs := w.jobs ++ [(t, work)] }

def work? (w : World) (t : Task) : Option Work :=
  (w.jobs.find? (·.1 = t)).map (·.2)

/-- A task waits for nothing any more. -/
def relieve (w : World) (t : Task) : World :=
  { w with jobs := w.jobs.filter (·.1 ≠ t) }

def setTimer (w : World) (deadline : Nat) (waiter : Waiter) : World :=
  { w with timers := w.timers ++ [⟨deadline, waiter⟩] }

/-- Wake the task of a call or of a probe. -/
def wakeWaiter (w : World) : Waiter → World
  | .call id => w.wake (.call id)
  | .probe id => w.wakeFor (.operation id)

/-! ## Processes -/

def isAlive (w : World) (p : ProcessId) : Bool :=
  (w.supervisor.exit? p).isNone && ! w.compilers.killed.contains p

/-- What the operating system calls a process. -/
def pidOf (w : World) (p : ProcessId) : UInt32 :=
  (w.supervisor.processes[p]?.map (·.pid)).getD 0

/-- The calls and probes at a process wake up. -/
def wakeRuns (w : World) (p : ProcessId) : World :=
  let calls := (w.calls.filter (·.process = p)).map fun c => Waiter.call c.entry.id
  let probes := (w.probes.filter (·.process = p)).map fun r => Waiter.probe r.id
  (calls ++ probes).foldl wakeWaiter w

/-- **A process ends.** Whoever watches it learns so. -/
def endProcess (w : World) (p : ProcessId) (exit : Exit) : World :=
  let w := { w with supervisor := (w.supervisor.step (.exit p exit)).1 }
  let w := if w.supervisor.dispatch.watched = some p then w.wake .dispatcher else w
  w.wakeRuns p

/-! ## Permits -/

/-- Who waits longest without a permit gets one. -/
def giveTo {α : Type} : List (α × Bool) → Option (α × List (α × Bool))
  | [] => none
  | (x, false) :: rest => some (x, (x, true) :: rest)
  | (x, true) :: rest => (giveTo rest).map fun (y, given) => (y, (x, true) :: given)

/-- **Add a permit.** -/
def addPermit (w : World) : World :=
  match giveTo w.compilers.waiters with
  | some (x, waiters) => { w with compilers := { w.compilers with waiters } }.wakeWaiter x
  | none => { w with compilers := { w.compilers with permits := w.compilers.permits + 1 } }

def addPermits (w : World) : Nat → World
  | 0 => w
  | n + 1 => addPermits w.addPermit n

/-- Ask for a permit and wait for it, even if it is there at once. -/
def askPermit (w : World) (x : Waiter) : World :=
  let c := w.compilers
  if c.permits = 0 then
    { w with compilers := { c with waiters := c.waiters ++ [(x, false)] } }
  else
    { w with compilers :=
      { c with waiters := c.waiters ++ [(x, true)], permits := c.permits - 1 } }

def hasPermit (w : World) (x : Waiter) : Bool :=
  w.compilers.waiters.contains (x, true)

/-- Stop waiting, with a permit or without. -/
def leavePermits (w : World) (x : Waiter) : World :=
  { w with compilers :=
    { w.compilers with waiters := w.compilers.waiters.filter (·.1 ≠ x) } }

/-- Stop waiting; a permit that was given goes to somebody else. -/
def forgoPermit (w : World) (x : Waiter) : World :=
  let given := w.hasPermit x
  let w := w.leavePermits x
  if given then w.addPermit else w

/-! ## Beginning to talk to a process -/

/-- How long a probe is waited for, in milliseconds. -/
def probePatience : Nat := Probe.patience * 1000

/-- How long the exit of a process is waited for when its channel failed. -/
def exitPatience : Nat := 500

/-- What a probe comes to without a permit, or with the permit that it needs. -/
def probeStage (script : ProbeScript) : ProbeStage :=
  match script.answer with
  | some result => .ready result
  | none => .silent

def askChild (w : World) (p : ProcessId) (child : Shell.Child) (arguments : List String)
    (stdin : Option String) : Option (Except ChannelFault Response) × World :=
  let (result, child) := child.call arguments stdin
  (result, { w with compilers :=
    { w.compilers with children := w.compilers.children.set p child } })

/-- **A process is probed.** -/
def startProbe (w : World) (id : OperationId) (p : ProcessId) : World :=
  let script := w.compilers.probe
  let deadline := w.supervisor.clock + probePatience
  let w := { w with record := { w.record with probes := w.record.probes + 1 } }
  let w := w.setTimer deadline (.probe id)
  match w.compilers.children[p]? with
  | some child =>
    let (result, w) := w.askChild p child Probe.arguments none
    let stage := probeStage ⟨result, false⟩
    { w with probes := w.probes ++ [ProbeRun.mk id p script stage deadline] }
  | none =>
    let stage := if script.gated then .waiting else probeStage script
    let w := { w with probes := w.probes ++ [ProbeRun.mk id p script stage deadline] }
    if script.gated then w.askPermit (.probe id) else w

/-- A program that ended is seen to have ended. -/
def reap (w : World) (p : ProcessId) : World :=
  match (w.compilers.children[p]?).bind (·.exit?) with
  | some exit => if (w.supervisor.exit? p).isSome then w else w.endProcess p exit
  | none => w

/-- **A process is killed.** One that ended already is left alone. -/
def startKill (w : World) (id : OperationId) (p : ProcessId) : World :=
  let w := w.reap p
  if (w.supervisor.exit? p).isSome then { w with kills := w.kills ++ [KillRun.mk id p true] }
  else
    let w := { w with
      compilers := { w.compilers with killed := w.compilers.killed ++ [p] }
      record := { w.record with kills := w.record.kills ++ [w.pidOf p] } }
    let w := w.wakeRuns p
    if w.compilers.killsHeld then { w with kills := w.kills ++ [KillRun.mk id p false] }
    else { w with kills := w.kills ++ [KillRun.mk id p true] }.endProcess p ⟨none⟩

/-- A process was spawned; a program begins to run. -/
def noteSpawn (w : World) (p : ProcessId) (toolchain : Toolchain) : World :=
  let w := { w with record :=
    { w.record with spawns := w.record.spawns ++ [(w.pidOf p, toolchain)] } }
  match w.compilers.host.bind fun h => (h.spawn toolchain).toOption with
  | some child =>
    { w with compilers := { w.compilers with children := w.compilers.children ++ [child] } }
  | none => w

/-! ## Signals -/

def updateSubmission (w : World) (n : Nat) (f : Submission → Submission) : World :=
  { w with submissions := w.submissions.map fun s => if s.number = n then f s else s }

/-- A request has its outcome. -/
def resolve (w : World) (id : RequestId) (outcome : Outcome) : World :=
  match w.submissions.find? (·.id = some id) with
  | some s =>
    (w.updateSubmission s.number fun s => { s with outcome := some outcome }).wakeFor
      (.submission s.number)
  | none => w

/-- How far the process is with a call. -/
def setCall (w : World) (id : RequestId) (stage : CallStage) : World :=
  { w with calls := w.calls.map fun c => if c.entry.id = id then { c with stage } else c }

def hear (w : World) : Supervisor.Signal → World
  | .resolved id outcome => w.resolve id outcome
  | .called entry p =>
    let w := { w with calls := w.calls ++ [CallRun.mk entry p .fresh] }
    w.wake (.call entry.id)
  | .spawned p toolchain => w.noteSpawn p toolchain
  | .probing id p => w.startProbe id p
  | .killing id p => w.startKill id p
  | .granted id => w.wakeFor (.operation id)
  | .replied id => w.wakeFor (.operation id)
  | .announced _ => w.wake .watch
  | .posted => w.wake .dispatcher
  | .lost => w.wake .monitor
  | .lingering id =>
    let deadline := w.supervisor.clock + exitPatience
    (w.setCall id (.lingering deadline)).setTimer deadline (.call id)

/-- **A move of the supervisor** and all that it sets off. -/
def move (w : World) (m : Supervisor.Move) : World :=
  let (s, signals) := w.supervisor.step m
  signals.foldl hear { w with supervisor := s }

/-- Fire a token. Whoever waits for its request wakes up. -/
def wakeToken (w : World) (t : Token) : World :=
  (w.submissions.filter (·.token = t)).foldl (fun w s => w.wakeFor (.submission s.number)) w

/-! ## Room for commands

Whoever has a command for the dispatcher and finds no room for it stands in line. Room goes to
whoever stands there longest; until it is used, somebody who comes later may use what room is left.
-/

/-- There is room for a command, when the dispatcher takes so many. -/
def hasRoom (w : World) (taken : Nat) : Bool :=
  w.supervisor.inbox.length + w.line.countP (·.2) < inboxCapacity + taken

def inLine (w : World) (work : Work) : Bool :=
  w.line.any (·.1 = work)

def leaveLine (w : World) (work : Work) : World :=
  { w with line := w.line.filter (·.1 ≠ work) }

/-- Who stands in line longest may come, if there is room when the dispatcher takes so many. -/
def beckon (w : World) (taken : Nat) : World :=
  if w.hasRoom taken then
    match giveTo w.line with
    | some (work, line) => { w with line }.wakeFor work
    | none => w
  else w

/-- Stand in line no more, with room or without; room that there was goes to somebody else. -/
def forgoLine (w : World) (work : Work) : World :=
  (w.leaveLine work).beckon 0

/-- Whoever stands in line learns that the dispatcher has ended. -/
def dismissLine (w : World) : World :=
  w.line.foldl (fun w x => w.wakeFor x.1) w

/-- **A command is sent.** A request is handed over, or taken back; a shutdown tells the dispatcher
to end. -/
def send (w : World) (work : Work) : World :=
  match work with
  | .operation id => (w.leaveLine work).move (.proceed id .nothing)
  | .submission n =>
    match w.submissions.find? (·.number = n) with
    | none => w
    | some s =>
      match s.id with
      | none =>
        ((w.leaveLine work).updateSubmission n fun s =>
          { s with id := some w.supervisor.nextRequest }).move (.submit s.request s.token)
      | some id =>
        ((w.leaveLine work).updateSubmission n fun s => { s with withdrawn := true }).move
          (.withdraw id)

/-- **Send a command, or stand in line.** A dispatcher that has ended refuses at once. -/
def send? (w : World) (work : Work) : Option World :=
  if w.supervisor.dispatch.ended ∨ w.line.contains (work, true) then some (w.send work)
  else if w.inLine work then none
  else if w.hasRoom 0 then some (w.send work)
  else some { w with line := w.line ++ [(work, false)] }

/-- **An operation goes on** that may give the dispatcher an order by that. An order for which there
is no room takes along those who stand before it. -/
def order (w : World) (m : Supervisor.Move) : World :=
  let ordered := w.supervisor.inbox.length < (w.supervisor.step m).1.inbox.length
  if ordered ∧ w.hasRoom 0 = false then
    (w.line.foldl (fun w x => (w.send x.1).wakeFor x.1) w).move m
  else w.move m

end World

end CompilerSession.Simulation
