import CompilerSession.Dispatch
import CompilerSession.Probe
import CompilerSession.Settings
import CompilerSession.Session.Report

/-
The supervisor of the display process.

The supervisor alone spawns and kills processes. It starts, stops and restarts
sessions on request and cleans up after crashes. All of these are operations, and
operations exclude each other by a lock that is handed on in the order in which it
was asked for. An operation is cut into the stages between which it has to wait: for
the lock, for the dispatcher, for the answer of a new process, for the end of an old
one.

The supervisor is a state and a step. A `Move` is what happens next: some operation
goes on, the dispatcher takes its next input, a call ends, a process exits. In which
order such things happen is not decided here, and what the outside world has to say is
part of the move, so every run is a list of moves. What others have to learn of a move
is a list of `Signal`s.
-/

set_option autoImplicit false

namespace CompilerSession

open Dispatch (Loss)

/-! ## Processes, sessions, operations -/

/-- **A process**, as far as its exit can be watched. -/
structure Process where
  pid : UInt32
  exit : Option Exit
  deriving DecidableEq, Repr, Inhabited

/-- **A session**: a process that was probed and handed to the dispatcher. -/
structure Live where
  generation : Nat
  process : ProcessId
  pid : UInt32
  toolchain : Toolchain
  version : Version
  startedAt : Timestamp
  deriving DecidableEq, Repr, Inhabited

def Live.info (l : Live) : Info where
  generation := l.generation
  executable := l.toolchain.executable
  arguments := l.toolchain.arguments
  version := l.version
  pid := some l.pid
  startedAt := l.startedAt

namespace Supervisor

/-- What callers ask of the supervisor. -/
inductive Errand where
  | start
  | stop
  | restart
  /-- Stop, and end the dispatcher. -/
  | shutdown
  deriving DecidableEq, Repr, Inhabited

/-- What an operation is for. -/
inductive Purpose where
  | start
  | stop
  /-- The ticket tells which other restarts were asked for before. -/
  | restart (ticket : Nat)
  | shutdown
  /-- The dispatcher lost the channel of a session. -/
  | crash (loss : Loss)
  deriving DecidableEq, Repr, Inhabited

/-- What follows when a process is dead. -/
inductive Aftermath where
  | tornDown (session : Live)
  | launchFailed (failure : Failure)
  | crashed (session : Live) (loss : Loss)
  deriving DecidableEq, Repr, Inhabited

/-- What comes of an operation. -/
inductive Result where
  /-- A start or a restart. -/
  | launched (outcome : Except Failure Info)
  /-- A stop or a shutdown. -/
  | stopped
  /-- A crash was dealt with. -/
  | recorded

/-- **How far an operation is.** -/
inductive Stage where
  /-- A restart that has drawn its ticket and did not ask for the lock yet. -/
  | drawn
  /-- Waiting for the lock. -/
  | waiting
  /-- The lock is held and nothing is done yet. -/
  | entered
  /-- The dispatcher was asked to let go of the session. -/
  | detaching (session : Live)
  | detached (session : Live)
  /-- The process was killed and its exit is awaited. -/
  | killing (process : ProcessId) (next : Aftermath)
  /-- Settings are to be loaded and a process spawned. -/
  | launching
  /-- The new process was asked for its version. -/
  | probing (process : ProcessId) (toolchain : Toolchain)
  /-- The dispatcher was asked to take the new process. -/
  | attaching (session : Live)
  | attached (session : Live)
  | refused (session : Live)
  /-- A shutdown that has handed the lock on and is still to end the dispatcher. -/
  | leaving
  | done (result : Result)

/-- **How an operation hands the lock on.** A shutdown has one thing left to do after that. -/
def Purpose.last (result : Result) : Purpose → Stage
  | .shutdown => .leaving
  | .start | .stop | .restart _ | .crash _ => .done result

/-- **An operation.** -/
structure Operation where
  id : OperationId
  purpose : Purpose
  stage : Stage

/-- **A call that is under way.** When the channel failed, the call lingers for a while, in
case the exit of the process can be seen. -/
structure Call where
  entry : Dispatch.Entry
  process : ProcessId
  fault : Option ChannelFault
  deriving DecidableEq, Repr

/-- What an operation is told when it goes on. -/
inductive Observation where
  | nothing
  /-- Settings were loaded and a process spawned, with this number; or one of both failed. -/
  | launched (outcome : Except Failure (Toolchain × UInt32))
  | probed (outcome : Probe.Outcome)
  /-- The killed process is gone. -/
  | killed

/-- **What happens next.** -/
inductive Move where
  | begin (errand : Errand)
  /-- A restart draws its ticket and will ask for the lock later. -/
  | draw
  /-- A restart that has drawn its ticket asks for the lock. -/
  | ask (id : OperationId)
  | submit (request : Request) (token : Token)
  /-- The caller of a request saw its token fire. -/
  | withdraw (id : RequestId)
  /-- The dispatcher takes its next input. -/
  | dispatch (fired : Token → Bool)
  /-- The next lost channel is taken care of. -/
  | monitor
  | proceed (id : OperationId) (seen : Observation)
  /-- The process answers a call, or its channel fails. -/
  | answer (id : RequestId) (result : Except ChannelFault Response)
  /-- A call whose channel failed stops waiting for the exit. -/
  | settle (id : RequestId)
  /-- A process ends. -/
  | exit (process : ProcessId) (exit : Exit)
  /-- Nobody waits for the operation any more; it goes no further. -/
  | abandon (id : OperationId)
  /-- The result of an operation was taken. -/
  | collect (id : OperationId)
  /-- Milliseconds pass. -/
  | tick (ms : Nat)

/-- **What others have to learn.** -/
inductive Signal where
  | resolved (id : RequestId) (outcome : Outcome)
  | called (entry : Dispatch.Entry) (process : ProcessId)
  | spawned (process : ProcessId) (toolchain : Toolchain)
  | probing (id : OperationId) (process : ProcessId)
  | killing (id : OperationId) (process : ProcessId)
  /-- The operation holds the lock now. -/
  | granted (id : OperationId)
  /-- The dispatcher answered the operation. -/
  | replied (id : OperationId)
  | announced (event : Event)
  /-- The dispatcher has a new input. -/
  | posted
  /-- There is a lost channel to take care of. -/
  | lost
  /-- A call waits for the exit of its process. -/
  | lingering (id : RequestId)

end Supervisor

open Supervisor

/-- **The supervisor**, with its dispatcher and everything that is under way between them. -/
structure Supervisor where
  dispatch : Dispatch.State
  /-- Commands for the dispatcher, oldest first. -/
  inbox : List Dispatch.Command
  /-- Calls that ended, oldest first. -/
  completions : List Dispatch.Completion
  calls : List Call
  /-- Lost channels that nobody took care of yet, oldest first. -/
  losses : List Loss
  /-- The operation that takes care of a lost channel. -/
  monitor : Option OperationId
  processes : List Process
  operations : List Operation
  /-- The operation that holds the lock. -/
  holder : Option OperationId
  /-- The operations that wait for the lock, in order. -/
  waiting : List OperationId
  session : Option Live
  /-- The number of restarts that were asked for. -/
  tickets : Nat
  /-- The highest ticket that a restart took into account. -/
  covered : Nat
  /-- What came of the latest restart that was carried out. -/
  lastRestart : Option (Except Failure Info)
  /-- The number of the latest generation. -/
  generation : Nat
  status : Status
  /-- Every status that was set, oldest first. -/
  statuses : List Status
  /-- The published facts of the session. -/
  current : Option Info
  /-- All events, oldest first. -/
  events : List Event
  nextOperation : OperationId
  nextRequest : RequestId
  /-- Milliseconds since the beginning. -/
  clock : Nat

namespace Supervisor

def initial : Supervisor where
  dispatch := .initial
  inbox := []
  completions := []
  calls := []
  losses := []
  monitor := none
  processes := []
  operations := []
  holder := none
  waiting := []
  session := none
  tickets := 0
  covered := 0
  lastRestart := none
  generation := 0
  status := .stopped
  statuses := []
  current := none
  events := []
  nextOperation := 0
  nextRequest := 1
  clock := 0

/-! ## Small changes -/

def operation? (s : Supervisor) (id : OperationId) : Option Operation :=
  s.operations.find? (·.id = id)

def stage? (s : Supervisor) (id : OperationId) : Option Stage :=
  (s.operation? id).map (·.stage)

/-- The exit of a process, once it ended. -/
def exit? (s : Supervisor) (p : ProcessId) : Option Exit :=
  s.processes[p]?.bind (·.exit)

def setStage (s : Supervisor) (id : OperationId) (stage : Stage) : Supervisor :=
  { s with operations := s.operations.map fun o => if o.id = id then { o with stage } else o }

/-- Set the status, to the same one perhaps. -/
def setStatus (s : Supervisor) (status : Status) : Supervisor :=
  { s with status, statuses := s.statuses ++ [status] }

/-- How often the status was set. -/
def statusSets (s : Supervisor) : Nat :=
  s.statuses.length

def announce (s : Supervisor) (e : Event) : Supervisor × List Signal :=
  ({ s with events := s.events ++ [e] }, [.announced e])

def now (s : Supervisor) : Timestamp :=
  ⟨s.clock / 1000, s.clock % 1000 * 1000000⟩

/-! ## Between supervisor and dispatcher -/

def absorbOne (s : Supervisor) : Dispatch.Effect → Supervisor × List Signal
  | .resolved id outcome => (s, [.resolved id outcome])
  | .called entry process =>
    ({ s with calls := s.calls ++ [⟨entry, process, none⟩] }, [.called entry process])
  | .attached asker =>
    match s.stage? asker with
    | some (.attaching session) => (s.setStage asker (.attached session), [.replied asker])
    | _ => (s, [])
  | .detached asker _ =>
    match s.stage? asker with
    | some (.detaching session) => (s.setStage asker (.detached session), [.replied asker])
    | _ => (s, [])
  | .refused asker =>
    match s.stage? asker with
    | some (.attaching session) => (s.setStage asker (.refused session), [.replied asker])
    | some (.detaching session) => (s.setStage asker (.detached session), [.replied asker])
    | _ => (s, [])
  | .lost loss => ({ s with losses := s.losses ++ [loss] }, [.lost])

/-- The effects of the dispatcher, in order. -/
def absorb (s : Supervisor) : List Dispatch.Effect → Supervisor × List Signal
  | [] => (s, [])
  | e :: rest =>
    let (s₁, signals₁) := s.absorbOne e
    let (s₂, signals₂) := absorb s₁ rest
    (s₂, signals₁ ++ signals₂)

/-- **Send a command** to the dispatcher. After its end it refuses at once. -/
def post (s : Supervisor) (c : Dispatch.Command) : Supervisor × List Signal :=
  if s.dispatch.ended then s.absorb (Dispatch.refuse c)
  else ({ s with inbox := s.inbox ++ [c] }, [.posted])

/-- The exit that the dispatcher would see now. -/
def watchedExit? (s : Supervisor) : Option Exit :=
  s.dispatch.watched.bind s.exit?

/-- **The next input of the dispatcher.** Commands come first, then ended calls, then the
exit of the attached process. -/
def nextInput? (s : Supervisor) : Option (Dispatch.Input × Supervisor) :=
  match s.inbox with
  | c :: rest => some (.command c, { s with inbox := rest })
  | [] =>
    if s.dispatch.ended then none
    else match s.completions with
      | c :: rest => some (.completed c, { s with completions := rest })
      | [] => s.watchedExit?.map fun exit => (.exited exit, s)

/-- The dispatcher takes its next input, if there is one. -/
def runDispatcher (s : Supervisor) (fired : Token → Bool) : Supervisor × List Signal :=
  match s.nextInput? with
  | none => (s, [])
  | some (input, s) =>
    let (d, effects) := Dispatch.step fired s.dispatch input
    { s with dispatch := d }.absorb effects

/-! ## The lock -/

/-- A new operation asks for the lock and gets it if it is free. -/
def enter (s : Supervisor) (purpose : Purpose) : Supervisor :=
  let id := s.nextOperation
  let s := { s with nextOperation := id + 1 }
  match s.holder with
  | none => { s with operations := s.operations ++ [⟨id, purpose, .entered⟩], holder := some id }
  | some _ =>
    { s with operations := s.operations ++ [⟨id, purpose, .waiting⟩], waiting := s.waiting ++ [id] }

/-- **Hand the lock on** to the operation that waits longest. -/
def release (s : Supervisor) : Supervisor × List Signal :=
  match s.waiting with
  | [] => ({ s with holder := none }, [])
  | next :: rest =>
    ({ s with holder := some next, waiting := rest }.setStage next .entered, [.granted next])

/-- **An operation hands the lock on**, and is done unless it is a shutdown. -/
def finish (s : Supervisor) (o : Operation) (result : Result) : Supervisor × List Signal :=
  let (s, signals) := (s.setStage o.id (o.purpose.last result)).release
  match o.purpose with
  | .crash _ => ({ s with monitor := none }, signals)
  | _ => (s, signals)

/-- **A shutdown ends the dispatcher.** It holds the lock no more, so others may have come
first. -/
def leave (s : Supervisor) (o : Operation) : Supervisor × List Signal :=
  (s.setStage o.id (.done .stopped)).post .shutdown

/-- A launch is done. What a restart comes to is kept for those that it covers. -/
def conclude (s : Supervisor) (o : Operation) (outcome : Except Failure Info) :
    Supervisor × List Signal :=
  let s := match o.purpose with
    | .restart _ => { s with lastRestart := some outcome }
    | _ => s
  s.finish o (.launched outcome)

def fail (s : Supervisor) (o : Operation) (failure : Failure) : Supervisor × List Signal :=
  (s.setStatus .stopped).conclude o (.error failure)

/-! ## The stages of an operation -/

/-- Take the session away and ask the dispatcher to let go of it. -/
def beginTeardown (s : Supervisor) (o : Operation) (session : Live) : Supervisor × List Signal :=
  { s with session := none }.setStage o.id (.detaching session) |>.post
    (.detach session.generation o.id)

def beginLaunch (s : Supervisor) (o : Operation) : Supervisor :=
  (s.setStatus .starting).setStage o.id .launching

/-- Kill a process and wait until it is gone. -/
def beginKill (s : Supervisor) (o : Operation) (process : ProcessId) (next : Aftermath) :
    Supervisor × List Signal :=
  (s.setStage o.id (.killing process next), [.killing o.id process])

/-- **The lock was obtained.** What there is to do depends on whether there is a session,
and for a restart on whether an earlier one has done it already. -/
def entered (s : Supervisor) (o : Operation) : Supervisor × List Signal :=
  match o.purpose with
  | .start =>
    match s.session with
    | some session => s.finish o (.launched (.ok session.info))
    | none => (s.beginLaunch o, [])
  | .stop | .shutdown =>
    match s.session with
    | some session => (s.setStatus .stopping).beginTeardown o session
    | none => s.finish o .stopped
  | .restart ticket =>
    match (if ticket ≤ s.covered then s.lastRestart else none) with
    | some outcome => s.finish o (.launched outcome)
    | none =>
      let s := { s with covered := s.tickets }.setStatus .restarting
      match s.session with
      | some session => s.beginTeardown o session
      | none => (s.beginLaunch o, [])
  | .crash loss =>
    match s.session with
    | some session =>
      if session.generation = loss.generation then
        { s with session := none }.beginKill o session.process (.crashed session loss)
      else s.finish o .recorded
    | none => s.finish o .recorded

/-- **A process is gone.** -/
def afterKill (s : Supervisor) (o : Operation) : Aftermath → Supervisor × List Signal
  | .launchFailed failure => s.fail o failure
  | .tornDown session =>
    let (s, signals) := { s with current := none }.announce (.stopped session.generation)
    match o.purpose with
    | .restart _ => (s.beginLaunch o, signals)
    | _ =>
      let (s, more) := (s.setStatus .stopped).finish o .stopped
      (s, signals ++ more)
  | .crashed session loss =>
    let code := loss.exitCode.or ((s.exit? session.process).bind (·.code))
    let (s, signals) := ({ s with current := none }.setStatus .stopped).announce
      (.crashed session.generation loss.reason code)
    let (s, more) := s.finish o .recorded
    (s, signals ++ more)

/-- A process was spawned, or could not be. -/
def afterLaunch (s : Supervisor) (o : Operation) :
    Except Failure (Toolchain × UInt32) → Supervisor × List Signal
  | .error failure => s.fail o failure
  | .ok (toolchain, pid) =>
    let process := s.processes.length
    let s := { s with processes := s.processes ++ [Process.mk pid none] }
    (s.setStage o.id (.probing process toolchain),
      [.spawned process toolchain, .probing o.id process])

/-- The new process told its version, or failed to. -/
def afterProbe (s : Supervisor) (o : Operation) (process : ProcessId) (toolchain : Toolchain)
    (outcome : Probe.Outcome) : Supervisor × List Signal :=
  match Probe.verdict outcome with
  | .error failure => s.beginKill o process (.launchFailed failure)
  | .ok version =>
    let session : Live :=
      ⟨s.generation + 1, process, (s.processes[process]?.map (·.pid)).getD 0, toolchain, version,
        s.now⟩
    { s with generation := session.generation }.setStage o.id (.attaching session) |>.post
      (.attach session.generation process o.id)

/-- **The dispatcher took the new process.** -/
def becomeReady (s : Supervisor) (o : Operation) (session : Live) : Supervisor × List Signal :=
  let s := { s with current := some session.info, session := some session }
  let (s, signals) := (s.setStatus .ready).announce (.ready session.generation session.version)
  let (s, more) := s.conclude o (.ok session.info)
  (s, signals ++ more)

/-- **An operation goes on** by one stage, if it need not wait and what it is told is what
it waits for. -/
def proceed (s : Supervisor) (id : OperationId) (seen : Observation) :
    Supervisor × List Signal :=
  match s.operation? id with
  | none => (s, [])
  | some o =>
    match o.stage, seen with
    | .entered, _ => s.entered o
    | .detached session, _ => s.beginKill o session.process (.tornDown session)
    | .killing _ next, .killed => s.afterKill o next
    | .launching, .launched outcome => s.afterLaunch o outcome
    | .probing process toolchain, .probed outcome => s.afterProbe o process toolchain outcome
    | .attached session, _ => s.becomeReady o session
    | .refused session, _ => s.beginKill o session.process (.launchFailed .workerClosed)
    | .leaving, _ => s.leave o
    | _, _ => (s, [])

/-! ## Beginning and giving up -/

/-- A caller asks for something. A restart draws its ticket at once. -/
def begin (s : Supervisor) : Errand → Supervisor
  | .start => s.enter .start
  | .stop => s.enter .stop
  | .shutdown => s.enter .shutdown
  | .restart => { s with tickets := s.tickets + 1 }.enter (.restart (s.tickets + 1))

/-- A restart draws its ticket. Between that and asking for the lock others may come first. -/
def draw (s : Supervisor) : Supervisor :=
  { s with
    tickets := s.tickets + 1
    nextOperation := s.nextOperation + 1
    operations := s.operations ++ [⟨s.nextOperation, .restart (s.tickets + 1), .drawn⟩] }

/-- A restart that has drawn its ticket asks for the lock and gets it if it is free. -/
def ask (s : Supervisor) (id : OperationId) : Supervisor :=
  match s.stage? id, s.holder with
  | some .drawn, none => { s with holder := some id }.setStage id .entered
  | some .drawn, some _ => { s with waiting := s.waiting ++ [id] }.setStage id .waiting
  | _, _ => s

/-- The next lost channel is taken care of, one at a time. -/
def monitorNext (s : Supervisor) : Supervisor :=
  match s.monitor, s.losses with
  | none, loss :: rest =>
    { s with losses := rest, monitor := some s.nextOperation }.enter (.crash loss)
  | _, _ => s

/-- **An operation is given up.** It leaves the queue for the lock, or hands the lock on;
what it has done so far stays done. -/
def abandon (s : Supervisor) (id : OperationId) : Supervisor × List Signal :=
  let s' := { s with
    operations := s.operations.filter (·.id ≠ id), waiting := s.waiting.filter (· ≠ id) }
  if s.holder = some id then s'.release else (s', [])

/-! ## Calls -/

/-- A request is handed to the dispatcher. -/
def submit (s : Supervisor) (request : Request) (token : Token) : Supervisor × List Signal :=
  { s with nextRequest := s.nextRequest + 1 }.post (.submit s.nextRequest request token)

/-- The dispatcher is told that a call ended. -/
def complete (s : Supervisor) (c : Call) (result : Except ChannelFault Response)
    (exitCode : Option Int) : Supervisor × List Signal :=
  ({ s with
      calls := s.calls.filter (·.entry.id ≠ c.entry.id)
      completions := s.completions ++
        [⟨c.entry.id, c.entry.generation, c.process, result, exitCode⟩] }, [.posted])

/-- **A call is answered, or its channel fails.** When the process closed its side or the
pipes broke, its exit may follow soon and tell more. -/
def answer (s : Supervisor) (id : RequestId) (result : Except ChannelFault Response) :
    Supervisor × List Signal :=
  match s.calls.find? (·.entry.id = id) with
  | none => (s, [])
  | some c =>
    match c.fault, result with
    | some _, _ => (s, [])
    | none, .error (.closed detail) => linger (.closed detail)
    | none, .error (.io detail) => linger (.io detail)
    | none, result => s.complete c result none
where
  /-- The call stays, with its fault. -/
  linger (fault : ChannelFault) : Supervisor × List Signal :=
    ({ s with calls := s.calls.map fun c =>
        if c.entry.id = id then { c with fault := some fault } else c }, [.lingering id])

/-- A call whose channel failed ends, with the exit code if the process is seen to be gone. -/
def settle (s : Supervisor) (id : RequestId) : Supervisor × List Signal :=
  match s.calls.find? (·.entry.id = id) with
  | some c =>
    match c.fault with
    | some fault => s.complete c (.error fault) ((s.exit? c.process).bind (·.code))
    | none => (s, [])
  | none => (s, [])

/-- The exit of a process is published. What is published last counts. -/
def processExit (s : Supervisor) (process : ProcessId) (exit : Exit) : Supervisor :=
  { s with processes := s.processes.modify process fun p => { p with exit := some exit } }

/-! ## The step -/

/-- **One move.** -/
def step (s : Supervisor) : Move → Supervisor × List Signal
  | .begin errand => (s.begin errand, [])
  | .draw => (s.draw, [])
  | .ask id => (s.ask id, [])
  | .submit request token => s.submit request token
  | .withdraw id => s.post (.cancel id)
  | .dispatch fired => s.runDispatcher fired
  | .monitor => (s.monitorNext, [])
  | .proceed id seen => s.proceed id seen
  | .answer id result => s.answer id result
  | .settle id => s.settle id
  | .exit process exit => (s.processExit process exit, [])
  | .abandon id => s.abandon id
  | .collect id => ({ s with operations := s.operations.filter (·.id ≠ id) }, [])
  | .tick ms => ({ s with clock := s.clock + ms }, [])

end Supervisor

end CompilerSession
