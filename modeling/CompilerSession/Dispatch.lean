import CompilerSession.Request
import CompilerSession.Token
import CompilerSession.Wire
import CompilerSession.Failure

/-
The dispatcher.

A display process answers one request at a time. The dispatcher alone holds the
channel of the attached process, feeds it from a queue in order, and resolves
every request that it took exactly once. A request is stamped with the generation
that was attached when it was taken, so it can never reach a later process.

The dispatcher is a state and a step. What it is told is an `Input`: a command of
a caller, the end of a call, the exit of the attached process, or that no more
commands can come. What it brings about is a list of `Effect`s. After every input except the
last one it starts the next call if it can.
-/

set_option autoImplicit false

namespace CompilerSession

/-- The number of a submitted request. -/
abbrev RequestId := Nat

/-- The number of a lifecycle operation, to which a reply is addressed. -/
abbrev OperationId := Nat

/-- The number of a process, in the order in which they were spawned. -/
abbrev ProcessId := Nat

/-- What a request comes to. -/
abbrev Outcome := Except Failure RawOutput

namespace Dispatch

/-! ## The state -/

/-- **A request that was taken.** -/
structure Entry where
  id : RequestId
  request : Request
  token : Token
  /-- The generation that was attached when the request was taken. -/
  generation : Nat
  deriving DecidableEq, Repr, Inhabited

/-- **The dispatcher.** While a generation is attached its channel is either idle or with
the call in flight. -/
structure State where
  /-- Requests that wait, oldest first. -/
  queue : List Entry
  /-- The attached generation. -/
  attached : Option Nat
  /-- The process whose channel is idle. -/
  idle : Option ProcessId
  /-- The process whose exit is watched. -/
  watched : Option ProcessId
  /-- The request that the process is answering. -/
  inFlight : Option Entry
  /-- The dispatcher takes no more inputs. -/
  ended : Bool
  deriving DecidableEq, Repr, Inhabited

def State.initial : State := ⟨[], none, none, none, none, false⟩

/-! ## Inputs and effects -/

/-- **What callers ask of the dispatcher.** -/
inductive Command where
  | submit (id : RequestId) (request : Request) (token : Token)
  /-- The token of a request fired while its caller was waiting. -/
  | cancel (id : RequestId)
  /-- A process is ready to be called, under a new generation. -/
  | attach (generation : Nat) (process : ProcessId) (asker : OperationId)
  /-- No more calls under a generation. -/
  | detach (generation : Nat) (asker : OperationId)
  | shutdown
  deriving DecidableEq, Repr

/-- **The end of a call.** -/
structure Completion where
  id : RequestId
  generation : Nat
  process : ProcessId
  result : Except ChannelFault Response
  /-- The exit code of the process, if the call failed and the process was seen to exit. -/
  exitCode : Option Int

/-- What the dispatcher is told. -/
inductive Input where
  | command (c : Command)
  | completed (c : Completion)
  /-- The watched process ended. -/
  | exited (exit : Exit)
  /-- Nobody is left who could send a command. -/
  | closed

/-- **The channel of a generation is lost.** -/
structure Loss where
  generation : Nat
  reason : String
  exitCode : Option Int
  deriving DecidableEq, Repr, Inhabited

/-- What the dispatcher brings about. -/
inductive Effect where
  /-- A request has its outcome. -/
  | resolved (id : RequestId) (outcome : Outcome)
  /-- A call is started on the channel of a process. -/
  | called (entry : Entry) (process : ProcessId)
  | attached (asker : OperationId)
  /-- Detaching is done; that many requests went stale. -/
  | detached (asker : OperationId) (count : Nat)
  /-- The dispatcher had ended before it could attach or detach. -/
  | refused (asker : OperationId)
  /-- The session of a generation is over, without anybody having asked for it. -/
  | lost (loss : Loss)

/-! ## Giving requests up -/

/-- The requests that have no outcome yet: the one in flight, then those that wait. -/
def State.pending (s : State) : List Entry :=
  s.inFlight.toList ++ s.queue

/-- Every pending request fails. -/
def resolveAll (s : State) (failure : Entry → Failure) : State × List Effect :=
  ({ s with queue := [], inFlight := none },
    s.pending.map fun e => .resolved e.id (.error (failure e)))

/-- A request fails because the session that took it is gone. -/
def staleness (e : Entry) : Failure :=
  .stale e.generation

/-- **Let go of the attached process.** Its requests go stale; a call that is still under
way is not waited for. -/
def letGo (s : State) : State × List Effect :=
  resolveAll { s with attached := none, idle := none, watched := none } staleness

/-- **Lose the channel.** The request in flight bears the blame, unless it was cancelled
anyway; the others go stale. -/
def loseChannel (fired : Token → Bool) (s : State) (loss : Loss) : State × List Effect :=
  let blamed := s.inFlight.toList.map fun e =>
    Effect.resolved e.id (.error
      (if fired e.token then .cancelled else .subprocess loss.reason loss.exitCode))
  let (s', stale) := letGo { s with inFlight := none }
  (s', blamed ++ stale ++ [.lost loss])

/-! ## Starting calls -/

/-- The next call: cancelled requests and those of another generation are skipped, with
their outcome. -/
def startNext (fired : Token → Bool) (s : State) (process : ProcessId) :
    List Entry → State × List Effect
  | [] => ({ s with queue := [] }, [])
  | e :: rest =>
    if fired e.token then
      let (s', effects) := startNext fired s process rest
      (s', .resolved e.id (.error .cancelled) :: effects)
    else if s.attached ≠ some e.generation then
      let (s', effects) := startNext fired s process rest
      (s', .resolved e.id (.error (staleness e)) :: effects)
    else
      ({ s with queue := rest, idle := none, inFlight := some e }, [.called e process])

/-- **Start the next call** if the channel is idle. -/
def pump (fired : Token → Bool) (s : State) : State × List Effect :=
  match s.inFlight, s.idle with
  | none, some process => startNext fired s process s.queue
  | _, _ => (s, [])

/-! ## Single inputs -/

def submit (fired : Token → Bool) (s : State) (id : RequestId) (request : Request)
    (token : Token) : State × List Effect :=
  if fired token then (s, [.resolved id (.error .cancelled)])
  else match s.attached with
    | none => (s, [.resolved id (.error .notRunning)])
    | some generation =>
      ({ s with queue := s.queue ++ [⟨id, request, token, generation⟩] }, [])

/-- The caller of a request wants it cancelled. Only a request that still waits can be
taken back. -/
def cancel (s : State) (id : RequestId) : State × List Effect :=
  if s.queue.any (·.id = id) then
    ({ s with queue := s.queue.eraseP (·.id = id) }, [.resolved id (.error .cancelled)])
  else (s, [])

/-- A process is attached. One that is attached still is let go of first. -/
def attach (s : State) (generation : Nat) (process : ProcessId) (asker : OperationId) :
    State × List Effect :=
  let (s, effects) := match s.attached with
    | some _ => letGo s
    | none => (s, [])
  ({ s with attached := some generation, idle := some process, watched := some process },
    effects ++ [.attached asker])

/-- A generation is detached. Any other one than the attached generation is gone already. -/
def detach (s : State) (generation : Nat) (asker : OperationId) : State × List Effect :=
  if s.attached = some generation then
    let (s', effects) := letGo s
    (s', effects ++ [.detached asker s.pending.length])
  else (s, [.detached asker 0])

/-- What a good or a marked answer comes to. -/
def answerOutcome (fired : Bool) (r : Response) : Outcome :=
  if fired then .error .cancelled
  else if r.hasError then .error (.subprocess r.output none)
  else .ok r.raw

/-- The completion is that of the request in flight on the attached process. -/
def isCurrent (s : State) (c : Completion) : Bool :=
  s.attached = some c.generation &&
    s.inFlight.any fun e => e.id = c.id && e.generation = c.generation

/-- A call ended. A call of a session that is gone comes too late for everything. -/
def complete (fired : Token → Bool) (s : State) (c : Completion) : State × List Effect :=
  match s.inFlight with
  | none => (s, [])
  | some e =>
    if isCurrent s c then
      match c.result with
      | .ok response =>
        ({ s with idle := some c.process, inFlight := none },
          [.resolved e.id (answerOutcome (fired e.token) response)])
      | .error fault => loseChannel fired s ⟨e.generation, fault.message, c.exitCode⟩
    else (s, [])

def processExited (fired : Token → Bool) (s : State) (exit : Exit) : State × List Effect :=
  match s.attached with
  | none => (s, [])
  | some generation => loseChannel fired s ⟨generation, exit.message, exit.code⟩

def shutDown (s : State) : State × List Effect :=
  let (s', effects) := resolveAll s fun _ => .workerClosed
  ({ s' with attached := none, idle := none, watched := none, ended := true }, effects)

/-- What becomes of a command when the dispatcher has ended. -/
def refuse : Command → List Effect
  | .submit id _ _ => [.resolved id (.error .workerClosed)]
  | .attach _ _ asker => [.refused asker]
  | .detach _ asker => [.refused asker]
  | .cancel _ => []
  | .shutdown => []

/-! ## The step -/

def handle (fired : Token → Bool) (s : State) : Input → State × List Effect
  | .command (.submit id request token) => submit fired s id request token
  | .command (.cancel id) => cancel s id
  | .command (.attach generation process asker) => attach s generation process asker
  | .command (.detach generation asker) => detach s generation asker
  | .command .shutdown => shutDown s
  | .completed c => complete fired s c
  | .exited exit => processExited fired s exit
  | .closed => shutDown s

/-- **One step of the dispatcher**, when the tokens for which `fired` holds have fired. -/
def step (fired : Token → Bool) (s : State) (input : Input) : State × List Effect :=
  if s.ended then
    match input with
    | .command c => (s, refuse c)
    | _ => (s, [])
  else
    let (s₁, effects₁) := handle fired s input
    if s₁.ended then (s₁, effects₁)
    else
      let (s₂, effects₂) := pump fired s₁
      (s₂, effects₁ ++ effects₂)

end Dispatch

end CompilerSession
