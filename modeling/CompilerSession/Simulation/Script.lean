import CompilerSession.Simulation.Schedule

/-
Scripts.

A script drives a world step by step and sees, after each step, what changed. A step is
carried out, then everything goes on until it comes to rest, a millisecond passes, and
then the answer is taken. A batch carries out several steps before anything else goes on.

What a caller asks for goes on at once as far as it can, so the steps of a batch reach the
dispatcher and the lock in the order in which they are listed.
-/

set_option autoImplicit false

namespace CompilerSession.Simulation

/-- **A step of a script.** -/
inductive Step where
  /-- A lifecycle operation, under a name. -/
  | begin (name : String) (errand : Supervisor.Errand)
  /-- A display request, under a name; its token may have fired already. -/
  | submit (name : String) (request : Request) (cancelled : Bool)
  /-- Fire the token of a request. -/
  | cancel (name : String)
  /-- Stop waiting for what was begun under a name. -/
  | abandon (name : String)
  | advance (ms : Nat)
  | info
  /-- Events are collected under a name from now on. -/
  | subscribe (name : String)
  | drain (name : String)
  /-- Status changes are noticed under a name from now on. -/
  | observe (name : String)
  | seen (name : String)
  | settings (outcome : Except Failure Settings)
  | failSpawn (reason : Option String)
  | probe (script : ProbeScript)
  | release (permits : Nat)
  | exit (pid : UInt32) (exit : Exit)
  | holdKills (on : Bool)
  /-- Bytes arrive at the server. -/
  | input (bytes : Utf8.Bytes)
  | closeInput
  | signal
  /-- Nobody reads any more what the server writes. -/
  | dropOutput
  | batch (steps : List Step)

instance : Inhabited Step := ⟨.info⟩

/-- **What a step asks for in addition.** -/
inductive Extra where
  | nothing
  | info (info : Option Info)
  /-- The number of events that were lost, and the others; nothing for an unknown name. -/
  | drained (events : Option (Nat × List Event))
  /-- Whether the status was set, and what it is. -/
  | seen (status : Option (Bool × Status))

/-- **What is seen after a step.** -/
structure Answer where
  status : Status
  done : List (String × Achievement)
  events : List Event
  spawns : List (UInt32 × Toolchain)
  calls : List (UInt32 × List String × Option String)
  kills : List UInt32
  probes : Nat
  /-- What the server wrote. -/
  written : List Message
  /-- How serving ended, if it did so now. -/
  ended : Option Server.Ending
  extra : Extra

/-- **A script under way.** -/
structure Script where
  world : World
  /-- Names, with the caller and the token of a request. -/
  names : List (String × Nat × Option Token)
  /-- Names of subscribers, and how many events they have seen. -/
  subscribers : List (String × Nat)
  /-- Names of observers, and how many settings of the status they have seen. -/
  observers : List (String × Nat)
  eventsSeen : Nat
  messagesSeen : Nat
  /-- The end of serving was seen. -/
  endingSeen : Bool

namespace Script

def initial (platform : Platform) : Script :=
  ⟨World.initial platform, [], [], [], 0, 0, false⟩

def onWorld (s : Script) (f : World → World) : Script :=
  { s with world := f s.world }

/-- What a name stands for; the latest use counts. -/
def named {α : Type} (name : String) (entries : List (String × α)) : Option α :=
  (entries.reverse.find? (·.1 = name)).map (·.2)

/-- A caller begins something, and goes on at once as far as possible. -/
def call (s : Script) (name : String) (token : Option Token)
    (begin_ : World → Task → World) : Script :=
  let n := s.world.nextCaller
  let task := Task.caller n
  let w := { s.world with nextCaller := n + 1, running := some task }
  let w := { begin_ w task with running := none }
  { s with world := (w.turn task).wake task, names := s.names ++ [(name, n, token)] }

/-- A caller submits a request. A token that fired already decides the outcome. -/
def submit (s : Script) (name : String) (request : Request) (cancelled : Bool) : Script :=
  let (tokens, token) := s.world.registry.tokens.issue
  let tokens := if cancelled then tokens.fire token else tokens
  let s := s.onWorld fun w => { w with registry := { w.registry with tokens } }
  if cancelled then
    let n := s.world.nextCaller
    let s := s.onWorld fun w => { w with
      nextCaller := n + 1
      record := { w.record with
        done := w.record.done ++ [(n, .answered (.error .cancelled))] } }
    { s with names := s.names ++ [(name, n, some token)] }
  else s.call name (some token) fun w t => w.beginRequest t request token

def cancel (s : Script) (name : String) : Script :=
  match named name s.names with
  | some (_, some token) =>
    s.onWorld fun w =>
      let tokens := w.registry.tokens.fire token
      { w with registry := { w.registry with tokens } }.wakeToken token
  | _ => s

/-- Nobody waits for an operation any more; a probe or kill of it is not waited for either. -/
def dropOperation (w : World) (id : OperationId) : World :=
  let w := (w.forgoPermit (.probe id)).forgoLine (.operation id)
  let w := { w with
    probes := w.probes.filter (·.id ≠ id)
    kills := w.kills.filter (·.id ≠ id) }
  w.move (.abandon id)

def abandon (s : Script) (name : String) : Script :=
  match named name s.names with
  | some (n, _) =>
    s.onWorld fun w =>
      let task := Task.caller n
      match w.work? task with
      | some (.operation id) => dropOperation (w.relieve task) id
      | some (.submission n) => ((w.relieve task).forget (.submission n)).forgoLine (.submission n)
      | none => w
  | none => s

/-- A process ends by itself. -/
def endProcess (w : World) (pid : UInt32) (exit : Exit) : World :=
  match w.supervisor.processes.findIdx? (·.pid = pid) with
  | some p => if (w.supervisor.exit? p).isSome then w else w.endProcess p exit
  | none => w

/-- Kills are held or let go. -/
def holdKills (w : World) (on : Bool) : World :=
  let w := { w with compilers := { w.compilers with killsHeld := on } }
  w.kills.foldl (fun w k => w.wakeFor (.operation k.id)) w

def onInput (w : World) (f : Server → Server) : World :=
  (w.onServer f).wake .serve

mutual

/-- **A step is carried out.** -/
def perform (s : Script) : Step → Script
  | .begin name errand => s.call name none fun w t => w.beginErrand t errand
  | .submit name request cancelled => s.submit name request cancelled
  | .cancel name => s.cancel name
  | .abandon name => s.abandon name
  | .advance ms => s.onWorld fun w => w.pass ms
  | .info | .drain _ | .seen _ => s
  | .subscribe name =>
    { s with subscribers := s.subscribers ++ [(name, s.world.supervisor.events.length)] }
  | .observe name =>
    { s with observers := s.observers ++ [(name, s.world.supervisor.statusSets)] }
  | .settings outcome =>
    s.onWorld fun w => { w with compilers := { w.compilers with settings := outcome } }
  | .failSpawn reason =>
    s.onWorld fun w => { w with compilers := { w.compilers with spawnFailure := reason } }
  | .probe script =>
    s.onWorld fun w => { w with compilers := { w.compilers with probe := script } }
  | .release permits => s.onWorld fun w => w.addPermits permits
  | .exit pid exit => s.onWorld fun w => endProcess w pid exit
  | .holdKills on => s.onWorld fun w => holdKills w on
  | .input bytes =>
    s.onWorld fun w => onInput w fun server =>
      if server.inputClosed then server else { server with unread := server.unread ++ bytes }
  | .closeInput => s.onWorld fun w => onInput w fun server => { server with inputClosed := true }
  | .signal => s.onWorld fun w => onInput w fun server => { server with signalled := true }
  | .dropOutput => s.onWorld fun w => w.onServer fun server => { server with outputOpen := false }
  | .batch steps => s.performAll steps

/-- Steps are carried out one after the other. -/
def performAll (s : Script) : List Step → Script
  | [] => s
  | step :: rest => (s.perform step).performAll rest

end

/-! ## Answers -/

/-- What a step asks for in addition, and that it was seen. -/
def extra (s : Script) : Step → Extra × Script
  | .info => (.info s.world.supervisor.current, s)
  | .drain name =>
    match named name s.subscribers with
    | none => (.drained none, s)
    | some cursor =>
      let backlog := s.world.supervisor.events.drop cursor
      let lost := backlog.length - World.eventCapacity
      (.drained (some (lost, backlog.drop lost)),
        { s with subscribers :=
          s.subscribers ++ [(name, s.world.supervisor.events.length)] })
  | .seen name =>
    match named name s.observers with
    | none => (.seen none, s)
    | some sets =>
      (.seen (some (sets ≠ s.world.supervisor.statusSets, s.world.supervisor.status)),
        { s with observers := s.observers ++ [(name, s.world.supervisor.statusSets)] })
  | _ => (.nothing, s)

def ending? (w : World) : Option Server.Ending :=
  match w.server.stage with
  | .ended how => some how
  | _ => none

def nameOf (s : Script) (n : Nat) : String :=
  ((s.names.find? (·.2.1 = n)).map (·.1)).getD ""

/-- **What changed** since the last answer. -/
def answer (s : Script) (extra : Extra) : Answer × Script :=
  let w := s.world
  let r := w.record
  let answer : Answer :=
    { status := w.supervisor.status
      done := r.done.map fun (n, a) => (s.nameOf n, a)
      events := w.supervisor.events.drop s.eventsSeen
      spawns := r.spawns
      calls := r.calls
      kills := r.kills
      probes := r.probes
      written := w.server.written.drop s.messagesSeen
      ended := if s.endingSeen then none else ending? w
      extra }
  (answer, { s with
    world := { w with record := .empty }
    eventsSeen := w.supervisor.events.length
    messagesSeen := w.server.written.length
    endingSeen := (ending? w).isSome })

/-- Everything comes to rest. -/
def settle (s : Script) : Script :=
  s.onWorld fun w => w.pass 1

/-- **A step and its answer.** -/
def run (s : Script) (step : Step) : Answer × Script :=
  let s := (s.perform step).settle
  let (extra, s) := s.extra step
  s.answer extra

/-- The answers to a list of steps. -/
def runAll (s : Script) : List Step → List Answer
  | [] => []
  | step :: rest =>
    let (answer, s) := s.run step
    answer :: runAll s rest

/-- **A script without a server.** The steps of the preparation have no answers. -/
def direct (platform : Platform) (preparation steps : List Step) : List Answer :=
  ((initial platform).performAll preparation).runAll steps

/-- **A script with a server**; the first answer is that to its beginning. -/
def served (platform : Platform) (preparation steps : List Step) : List Answer :=
  let s := ((initial platform).performAll preparation).onWorld fun w =>
    (w.beginServing).wake .serve
  let (answer, s) := s.settle.answer .nothing
  answer :: s.runAll steps

end Script

end CompilerSession.Simulation
