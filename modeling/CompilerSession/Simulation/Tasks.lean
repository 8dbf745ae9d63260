import CompilerSession.Simulation.World

/-
How tasks go on.

Every task goes on in small steps. `step?` makes the next one, or says that the task has
to wait. Most tasks only carry on with an operation or with a request, so those come
first; then the tasks around the supervisor, then those of the server.
-/

set_option autoImplicit false

namespace CompilerSession.Simulation

open Json (Value)
open Server (Handling Handler)

namespace World

/-! ## Operations and requests -/

/-- Why no process can be spawned, if so. -/
def spawnRefusal? (w : World) (toolchain : Toolchain) : Option String :=
  match w.compilers.host with
  | none => w.compilers.spawnFailure
  | some host =>
    match host.spawn toolchain with
    | .ok _ => none
    | .error refusal => some refusal.message

/-- **What launching comes to**: the settings are loaded, resolved, and a process spawned. -/
def launch (w : World) : Except Failure (Toolchain × UInt32) :=
  match w.compilers.settings with
  | .error failure => .error failure
  | .ok settings =>
    let toolchain := settings.resolve w.compilers.platform
    match w.spawnRefusal? toolchain with
    | some reason => .error (.spawn toolchain.executable reason)
    | none => .ok (toolchain, UInt32.ofNat (firstPid + w.supervisor.processes.length))

/-- The operation of a probe learns what came of it. -/
def finishProbe (w : World) (id : OperationId) (outcome : Probe.Outcome) : World :=
  let w := { w with probes := w.probes.filter (·.id ≠ id) }
  w.order (.proceed id (.probed outcome))

/-- How far the process is with a probe. -/
def setProbe (w : World) (id : OperationId) (stage : ProbeStage) : World :=
  { w with probes := w.probes.map fun r => if r.id = id then { r with stage } else r }

def stepProbe? (w : World) (r : ProbeRun) : Option World :=
  let timeUp := r.deadline ≤ w.supervisor.clock
  match r.stage with
  | .ready (.ok response) => some (w.finishProbe r.id (.answered response))
  | .ready (.error fault) => some (w.finishProbe r.id (.broken fault))
  | .waiting =>
    if w.hasPermit (.probe r.id) then
      some ((w.leavePermits (.probe r.id)).setProbe r.id (probeStage r.script))
    else if w.isAlive r.process = false then
      some ((w.forgoPermit (.probe r.id)).setProbe r.id .silent)
    else if timeUp then
      some ((w.forgoPermit (.probe r.id)).finishProbe r.id .timedOut)
    else none
  | .silent => if timeUp then some (w.finishProbe r.id .timedOut) else none

def finishKill (w : World) (id : OperationId) : World :=
  { w with kills := w.kills.map fun k => if k.id = id then { k with finished := true } else k }

def stepKill? (w : World) (k : KillRun) : Option World :=
  if k.finished then
    let w := { w with kills := w.kills.filter (·.id ≠ k.id) }
    some (w.move (.proceed k.id .killed))
  else if w.compilers.killsHeld then none
  else
    some ((w.finishKill k.id).endProcess k.process ⟨none⟩)

/-- **An operation goes on.** -/
def stepOperation? (w : World) (id : OperationId) : Option World :=
  match w.supervisor.stage? id with
  | some .entered | some (.detached _) | some (.attached _) | some (.refused _) =>
    some (w.order (.proceed id .nothing))
  | some .leaving => w.send? (.operation id)
  | some .launching => some (w.move (.proceed id (.launched w.launch)))
  | some (.probing _ _) => (w.probes.find? (·.id = id)).bind w.stepProbe?
  | some (.killing _ _) => (w.kills.find? (·.id = id)).bind w.stepKill?
  | _ => none

/-- **A request goes on**: it is sent, and when its token fired, the dispatcher is told once. -/
def stepSubmission? (w : World) (n : Nat) : Option World :=
  match w.submissions.find? (·.number = n) with
  | none => none
  | some s =>
    if s.id = none then w.send? (.submission n)
    else if s.withdrawn ∨ w.registry.hasFired s.token = false then none
    else if w.supervisor.dispatch.ended ∧ w.inLine (.submission n) then
      -- the outcome is not looked at any more when the dispatcher could not be told
      some ((w.leaveLine (.submission n)).updateSubmission n fun s =>
        { s with withdrawn := true, outcome := some (.error .workerClosed) })
    else w.send? (.submission n)

def stepWork? (w : World) : Work → Option World
  | .operation id => w.stepOperation? id
  | .submission n => w.stepSubmission? n

/-- **What came of work**, when it is over. -/
def achievement? (w : World) : Work → Option Achievement
  | .operation id =>
    match w.supervisor.operation? id with
    | some ⟨_, _, .done (.launched outcome)⟩ => some (.launched outcome)
    | some ⟨_, .shutdown, .done _⟩ => some .shutDown
    | some ⟨_, _, .done _⟩ => some .stopped
    | _ => none
  | .submission n =>
    if w.inLine (.submission n) then none
    else ((w.submissions.find? (·.number = n)).bind (·.outcome)).map .answered

def forget (w : World) : Work → World
  | .operation id => w.move (.collect id)
  | .submission n => { w with submissions := w.submissions.filter (·.number ≠ n) }

/-- A task goes on with its work; when it is over, `finish` takes what came of it. -/
def stepJob? (w : World) (t : Task) (finish : World → Achievement → World) : Option World :=
  match w.work? t with
  | none => none
  | some work =>
    match w.achievement? work with
    | some a => some (finish ((w.relieve t).forget work) a)
    | none => w.stepWork? work

def beginErrand (w : World) (t : Task) (errand : Supervisor.Errand) : World :=
  let id := w.supervisor.nextOperation
  (w.move (.begin errand)).assign t (.operation id)

def beginRequest (w : World) (t : Task) (request : Request) (token : Token) : World :=
  let n := w.nextSubmission
  let submissions := w.submissions ++ [Submission.mk n request token none false none]
  let w := { w with nextSubmission := n + 1, submissions }.assign t (.submission n)
  (w.send? (.submission n)).getD w

/-! ## Calls -/

/-- A call acts on the words that are left of its arguments. -/
def actOn (w : World) (c : CallRun) (words : List String) : World :=
  let id := c.entry.id
  match Conduct.ofCall c.entry.request.arguments c.entry.request.stdin words with
  | .reply result => (w.setCall id .silent).move (.answer id result)
  | .exit exit result =>
    ((w.setCall id .silent).endProcess c.process exit).move (.answer id result)
  | .wait rest => (w.setCall id (.waiting rest)).askPermit (.call id)

/-- A call of a program. A channel that fails because the program ended brings that to light. -/
def callChild (w : World) (c : CallRun) (child : Shell.Child) : World :=
  let (result, w) := w.askChild c.process child c.entry.request.arguments c.entry.request.stdin
  let w := w.setCall c.entry.id .silent
  match result with
  | none => w
  | some (.ok response) => w.move (.answer c.entry.id (.ok response))
  | some (.error fault) => (w.move (.answer c.entry.id (.error fault))).reap c.process

def beginCall (w : World) (c : CallRun) : World :=
  match w.compilers.children[c.process]? with
  | some child => w.callChild c child
  | none =>
    if w.isAlive c.process then
      let seen := (w.pidOf c.process, c.entry.request.arguments, c.entry.request.stdin)
      let w := { w with record := { w.record with calls := w.record.calls ++ [seen] } }
      w.actOn c c.entry.request.arguments
    else (w.setCall c.entry.id .silent).move (.answer c.entry.id (.error Conduct.gone))

/-- **A call goes on.** -/
def stepCall? (w : World) (id : RequestId) : Option World :=
  match w.calls.find? (·.entry.id = id) with
  | none => none
  | some c =>
    match c.stage with
    | .fresh => some (w.beginCall c)
    | .waiting words =>
      if w.compilers.killed.contains c.process then
        some (((w.forgoPermit (.call id)).setCall id .silent).move
          (.answer id (.error (.closed "killed"))))
      else if (w.supervisor.exit? c.process).isSome then
        some ((w.forgoPermit (.call id)).setCall id .silent)
      else if w.hasPermit (.call id) then some ((w.leavePermits (.call id)).actOn c words)
      else none
    | .lingering deadline =>
      if (w.supervisor.exit? c.process).isSome ∨ deadline ≤ w.supervisor.clock then
        some ((w.setCall id .silent).move (.settle id))
      else none
    | .silent => none

/-! ## Dispatcher, monitor, callers -/

/-- The dispatcher goes on while there is an input for it. -/
def stepDispatcher? (w : World) : Option World :=
  match w.supervisor.nextInput? with
  | none => none
  | some (.command _, _) =>
    if w.supervisor.dispatch.ended then some (w.move (.dispatch w.registry.hasFired))
    else
      let w := (w.beckon 1).move (.dispatch w.registry.hasFired)
      some (if w.supervisor.dispatch.ended then w.dismissLine else w)
  | some _ => some (w.move (.dispatch w.registry.hasFired))

/-- The monitor takes care of lost channels, one after the other. -/
def stepMonitor? (w : World) : Option World :=
  match w.supervisor.monitor with
  | some id => w.stepOperation? id
  | none => if w.supervisor.losses.isEmpty then none else some (w.move .monitor)

/-- A direct caller goes on until its result is there. -/
def stepCaller? (w : World) (n : Nat) : Option World :=
  w.stepJob? (.caller n) fun w a =>
    { w with record := { w.record with done := w.record.done ++ [(n, a)] } }

/-! ## Handlers -/

def onServer (w : World) (f : Server → Server) : World :=
  { w with server := f w.server }

/-- The handler has replied and is gone. -/
def replyAndLeave (w : World) (n : Nat) (r : Reply) : World :=
  let w := w.onServer fun s =>
    { s.write (.reply r) with handlers := s.handlers.filter (·.number ≠ n) }
  w.wake .serve

def setHandling (w : World) (n : Nat) (handling : Handling) : World :=
  w.onServer fun s =>
    { s with handlers := s.handlers.map fun h => if h.number = n then { h with handling } else h }

def launchReply (id : Value) : Except Failure Info → Reply
  | .ok info => .ok id info.toValue.sorted
  | .error failure => .error id (.ofFailure failure)

def displayReply (id : Value) : Outcome → Reply
  | .ok output => .ok id output.toValue.sorted
  | .error failure => .error id (.ofFailure failure)

/-- **A command begins.** What needs no waiting is replied to at once. -/
def obey (w : World) (n : Nat) (id : Value) : Command → World
  | .display params =>
    let key := requestKey id
    match w.registry.register key with
    | (_, none) =>
      w.replyAndLeave n (.error id
        (.invalidRequest ("request id " ++ key ++ " is already in flight")))
    | (registry, some token) =>
      ({ w with registry }.setHandling n (.display id key)).beginRequest (.handler n)
        params.request token
  | .cancel target =>
    let (registry, cancelled) := w.registry.cancel (requestKey target)
    let w := match w.registry.token? (requestKey target) with
      | some t => { w with registry }.wakeToken t
      | none => w
    w.replyAndLeave n (.ok id (Server.cancelValue cancelled))
  | .start =>
    let w := w.onServer fun s => { s with budget := .full }
    (w.setHandling n (.launch id)).beginErrand (.handler n) .start
  | .stop => (w.setHandling n (.stop id)).beginErrand (.handler n) .stop
  | .restart _ =>
    let w := w.onServer fun s => { s with budget := .full }
    (w.setHandling n (.launch id)).beginErrand (.handler n) .restart
  | .status =>
    w.replyAndLeave n (.ok id (Server.statusValue w.supervisor.status w.supervisor.current
      w.registry.size w.server.budget))

def handleLine (w : World) (n : Nat) (line : String) : World :=
  match Envelope.parse line with
  | .error fault =>
    w.replyAndLeave n (.error .null
      (.invalidRequest ("invalid JSON request: " ++ fault.message)))
  | .ok envelope =>
    match Command.parse envelope.method envelope.params with
    | .error message => w.replyAndLeave n (.error envelope.id (.invalidRequest message))
    | .ok command => w.obey n envelope.id command

/-- What a handler waited for is over. -/
def concludeHandler (w : World) (n : Nat) (handling : Handling) (a : Achievement) : World :=
  match handling, a with
  | .launch id, .launched outcome => w.replyAndLeave n (launchReply id outcome)
  | .stop id, .stopped => w.replyAndLeave n (.ok id (Server.stopValue w.supervisor.status))
  | .display id key, .answered outcome =>
    { w with registry := w.registry.finish key }.replyAndLeave n (displayReply id outcome)
  | _, _ => w

/-- **A handler goes on.** -/
def stepHandler? (w : World) (n : Nat) : Option World :=
  match w.server.handlers.find? (·.number = n) with
  | none => none
  | some h =>
    match h.handling with
    | .fresh line => some (w.handleLine n line)
    | handling => w.stepJob? (.handler n) fun w a => w.concludeHandler n handling a

/-! ## Events -/

/-- After a crash the session is restarted, as long as the budget allows. -/
def recover (w : World) : World :=
  match w.server.budget.take? with
  | none => w
  | some budget =>
    let n := w.server.nextRecovery
    let w := w.onServer fun s =>
      { s with budget, nextRecovery := n + 1, recoveries := s.recoveries ++ [n] }
    w.wake (.recovery n)

/-- How many events are kept for somebody who does not look at them. -/
def eventCapacity : Nat := 32

/-- **The next event is passed on.** Events that were not kept are skipped. -/
def stepWatch? (w : World) : Option World :=
  if w.server.watching = false then none
  else
    let kept := w.supervisor.events.length - eventCapacity
    let index := max w.server.cursor kept
    match w.supervisor.events[index]? with
    | none => none
    | some e =>
      let w := w.onServer fun s => { s.write (.event e) with cursor := index + 1 }
      let w := w.wake .serve
      match e with
      | .crashed _ _ _ => some w.recover
      | _ => some w

/-- A restart after a crash goes on. Nobody waits for what comes of it. -/
def stepRecovery? (w : World) (n : Nat) : Option World :=
  if w.server.recoveries.contains n then
    let w := w.onServer fun s => { s with recoveries := s.recoveries.filter (· ≠ n) }
    some (w.beginErrand (.recovery n) .restart)
  else w.stepJob? (.recovery n) fun w _ => w

/-! ## Serving -/

def setStage (w : World) (stage : Server.Stage) : World :=
  w.onServer fun s => { s with stage }

/-- A line is handed to a handler of its own. -/
def spawnHandler (w : World) (line : String) : World :=
  let n := w.server.nextHandler
  let w := w.onServer fun s =>
    { s with nextHandler := n + 1, handlers := s.handlers ++ [Handler.mk n (.fresh line)] }
  w.wake (.handler n)

/-- **No more input is read.** All requests are cancelled and the supervisor is shut down. -/
def beginStopping (w : World) : World :=
  let tokens := w.registry.entries.map (·.2)
  let w := { w with registry := w.registry.cancelAll.1 }
  let w := tokens.foldl wakeToken w
  (w.setStage .stopping).beginErrand .serve .shutdown

/-- **Serving goes on.** -/
def stepServe? (w : World) : Option World :=
  match w.server.stage with
  | .idle | .ended _ => none
  | .starting => w.stepJob? .serve fun w _ => w.setStage .reading
  | .reading =>
    match w.server.readLine with
    | (.line text, server) =>
      let w := { w with server }
      if Text.isAllBlank text then some w else some (w.spawnHandler text)
    | (.invalid, server) => some ({ w with server }.setStage (.ended .invalidData))
    | (.finished, _) => some w.beginStopping
    | (.wait, _) => if w.server.signalled then some w.beginStopping else none
  | .stopping =>
    w.stepJob? .serve fun w _ =>
      (w.onServer fun s => { s with watching := false }).setStage .draining
  | .draining =>
    if w.server.writerFailed then some (w.setStage (.ended .brokenPipe))
    else if w.server.handlers.isEmpty then some (w.setStage (.ended .ok))
    else none

/-- **Serving begins**: events are watched and a session is started. -/
def beginServing (w : World) : World :=
  let w := w.onServer fun s =>
    { s with watching := true, cursor := w.supervisor.events.length }
  (w.setStage .starting).beginErrand .serve .start

/-! ## All tasks -/

/-- **The next step of a task**, if it need not wait. -/
def step? (w : World) : Task → Option World
  | .dispatcher => w.stepDispatcher?
  | .monitor => w.stepMonitor?
  | .call id => w.stepCall? id
  | .caller n => w.stepCaller? n
  | .handler n => w.stepHandler? n
  | .recovery n => w.stepRecovery? n
  | .watch => w.stepWatch?
  | .serve => w.stepServe?

end World

end CompilerSession.Simulation
