import CompilerSession.Proofs.Session.Lock
import CompilerSession.Proofs.Dispatch.Iteration

/-
What operations do.

A supervisor has calls, processes and a clock, and most of what is to be said about sessions
has nothing to do with them. `Affairs` is the rest: the lock, the session, the counters of
restarts and generations, what is published, and what stands between the supervisor and its
dispatcher. Each small change of a supervisor is a small change of its affairs, which is what
the first half of this file says.

The second half says what an operation does when it goes on. `Advance` has one rule for each
thing that can happen then, with all its conditions, and `proceed_advance` says that nothing
else happens. Laws about sessions are proved by cases on these rules; nothing after this file
unfolds `proceed`.
-/

set_option autoImplicit false

namespace CompilerSession.Supervisor

open Dispatch (Loss Effect)

/-- The command is one that an operation gives, and of which it waits for the answer. -/
def isOrder : Dispatch.Command → Bool
  | .attach _ _ _ | .detach _ _ => true
  | .submit _ _ _ | .cancel _ | .shutdown => false

def isShutdown : Dispatch.Command → Bool
  | .shutdown => true
  | .submit _ _ _ | .cancel _ | .attach _ _ _ | .detach _ _ => false

/-- **The affairs of a supervisor.** -/
@[ext]
structure Affairs where
  lock : Lock
  session : Option Live
  tickets : Nat
  covered : Nat
  lastRestart : Option (Except Failure Info)
  generation : Nat
  status : Status
  /-- Every status that was set, oldest first. -/
  statuses : List Status
  current : Option Info
  events : List Event
  /-- How many processes were spawned. -/
  spawned : Nat
  dispatch : Dispatch.State
  /-- The orders that the dispatcher did not take yet, oldest first. -/
  orders : List Dispatch.Command
  /-- The dispatcher was told to end and did not take that command yet. -/
  closing : Bool
  losses : List Loss

def affairs (s : Supervisor) : Affairs where
  lock := s.lock
  session := s.session
  tickets := s.tickets
  covered := s.covered
  lastRestart := s.lastRestart
  generation := s.generation
  status := s.status
  statuses := s.statuses
  current := s.current
  events := s.events
  spawned := s.processes.length
  dispatch := s.dispatch
  orders := s.inbox.filter isOrder
  closing := s.inbox.any isShutdown
  losses := s.losses

/-- Where an effect of the dispatcher takes the operation that it answers. -/
def Stage.answered : Effect → Stage → Option Stage
  | .attached _, .attaching l => some (.attached l)
  | .detached _ _, .detaching l => some (.detached l)
  | .refused _, .attaching l => some (.refused l)
  | .refused _, .detaching l => some (.detached l)
  | _, _ => none

namespace Affairs

variable (a : Affairs)

def reply (asker : OperationId) (e : Effect) : Affairs :=
  match (a.lock.stage? asker).bind (Stage.answered e) with
  | some stage => { a with lock := a.lock.reach asker stage }
  | none => a

def hear : Effect → Affairs
  | .resolved _ _ | .called _ _ => a
  | .attached asker => a.reply asker (.attached asker)
  | .detached asker n => a.reply asker (.detached asker n)
  | .refused asker => a.reply asker (.refused asker)
  | .lost loss => { a with losses := a.losses ++ [loss] }

/-- An operation gives an order and waits at `asked` for the answer. After its end the
dispatcher refuses at once, which takes the operation to `told`. -/
def order (id : OperationId) (c : Dispatch.Command) (asked told : Stage) : Affairs :=
  if a.dispatch.ended then { a with lock := a.lock.reach id told }
  else { a with lock := a.lock.reach id asked, orders := a.orders ++ [c] }

def setStatus (status : Status) : Affairs :=
  { a with status, statuses := a.statuses ++ [status] }

@[simp] theorem lock_setStatus (status : Status) : (a.setStatus status).lock = a.lock := rfl

/-- An operation hands the lock on. -/
def finish (o : Operation) (result : Result) : Affairs :=
  { a with lock := a.lock.finish o.id (o.purpose.last result) }

/-- A shutdown tells the dispatcher to end, unless that has ended already. -/
def leave (id : OperationId) : Affairs :=
  { a with lock := a.lock.reach id (.done .stopped), closing := a.closing || !a.dispatch.ended }

/-- An operation has launched a session, or failed to. -/
def conclude (o : Operation) (outcome : Except Failure Info) : Affairs :=
  let a := { a with
    lastRestart := match o.purpose with
      | .restart _ => some outcome
      | _ => a.lastRestart }
  a.finish o (.launched outcome)

end Affairs

/-! ## Small changes -/

section Changes

variable (s : Supervisor)

@[simp] theorem affairs_setStage (id : OperationId) (stage : Stage) :
    (s.setStage id stage).affairs = { s.affairs with lock := s.affairs.lock.reach id stage } :=
  Affairs.ext (s.lock_setStage id stage) rfl rfl rfl rfl rfl rfl rfl rfl rfl rfl rfl rfl rfl rfl

@[simp] theorem affairs_setStatus (status : Status) :
    (s.setStatus status).affairs = s.affairs.setStatus status := rfl

@[simp] theorem affairs_release :
    s.release.1.affairs = { s.affairs with lock := s.affairs.lock.release } := by
  refine Affairs.ext s.lock_release ?_ ?_ ?_ ?_ ?_ ?_ ?_ ?_ ?_ ?_ ?_ ?_ ?_ ?_ <;>
    cases h : s.waiting <;> simp only [release, h] <;> rfl

@[simp] theorem affairs_enter (purpose : Purpose) :
    (s.enter purpose).affairs = { s.affairs with lock := s.affairs.lock.enter purpose } := by
  refine Affairs.ext (s.lock_enter purpose) ?_ ?_ ?_ ?_ ?_ ?_ ?_ ?_ ?_ ?_ ?_ ?_ ?_ ?_ <;>
    cases h : s.holder <;> simp only [enter, h] <;> rfl

/-- What an effect of the dispatcher changes is what the affairs hear of it. -/
theorem affairs_absorbOne (e : Effect) : (s.absorbOne e).1.affairs = s.affairs.hear e := by
  have stage (id : OperationId) : s.affairs.lock.stage? id = s.stage? id := rfl
  -- an answer counts only at the stage that waits for it; elsewhere both sides ignore it
  cases e with
  | resolved | called | lost => rfl
  | attached asker =>
    simp only [absorbOne, Affairs.hear, Affairs.reply, stage]
    cases h : s.stage? asker with
    | none => rfl
    | some a =>
      cases a with
      | attaching => exact s.affairs_setStage _ _
      | _ => rfl
  | detached asker n =>
    simp only [absorbOne, Affairs.hear, Affairs.reply, stage]
    cases h : s.stage? asker with
    | none => rfl
    | some a =>
      cases a with
      | detaching => exact s.affairs_setStage _ _
      | _ => rfl
  | refused asker =>
    simp only [absorbOne, Affairs.hear, Affairs.reply, stage]
    cases h : s.stage? asker with
    | none => rfl
    | some a =>
      cases a with
      | attaching | detaching => exact s.affairs_setStage _ _
      | _ => rfl

/-- The effects of the dispatcher are heard in turn. -/
theorem affairs_absorb (es : List Effect) :
    (s.absorb es).1.affairs = es.foldl Affairs.hear s.affairs := by
  induction es generalizing s with
  | nil => rfl
  | cons e es ih =>
    rw [List.foldl_cons, ← affairs_absorbOne, ← ih]
    rfl

/-- **A command is refused at once** by a dispatcher that has ended; else it is put to the orders.
-/
theorem affairs_post (c : Dispatch.Command) :
    (s.post c).1.affairs =
      if s.dispatch.ended then (Dispatch.refuse c).foldl Affairs.hear s.affairs
      else
        { s.affairs with
          orders := s.affairs.orders ++ [c].filter isOrder
          closing := s.affairs.closing || isShutdown c } := by
  unfold post
  split
  · exact s.affairs_absorb _
  · simp [affairs, List.filter_append]
    rfl

theorem affairs_finish (o : Operation) (result : Result) :
    (s.finish o result).1.affairs = s.affairs.finish o result := by
  have released : (s.setStage o.id (o.purpose.last result)).release.1.affairs =
      s.affairs.finish o result := by
    rw [affairs_release, affairs_setStage]
    rfl
  rw [← released]
  unfold finish
  cases o.purpose <;> rfl

theorem affairs_leave (o : Operation) : (s.leave o).1.affairs = s.affairs.leave o.id := by
  unfold leave Affairs.leave
  rw [affairs_post, affairs_setStage]
  by_cases ended : s.dispatch.ended = true
  · rw [if_pos (show (s.setStage o.id (.done .stopped)).dispatch.ended = true from ended),
      show s.affairs.dispatch.ended = true from ended, Bool.not_true, Bool.or_false]
    rfl
  · have live : s.affairs.dispatch.ended = false := (Bool.not_eq_true _).mp ended
    rw [if_neg (show ¬ (s.setStage o.id (.done .stopped)).dispatch.ended = true from ended), live]
    simp [isOrder, isShutdown]

theorem affairs_conclude (o : Operation) (outcome : Except Failure Info) :
    (s.conclude o outcome).1.affairs = s.affairs.conclude o outcome := by
  cases h : o.purpose with
  | restart =>
    simp only [conclude, h, affairs_finish, Affairs.conclude]
    rfl
  | start | stop | shutdown | crash => simp only [conclude, h, affairs_finish, Affairs.conclude]

theorem affairs_fail (o : Operation) (failure : Failure) :
    (s.fail o failure).1.affairs =
      (s.affairs.setStatus .stopped).conclude o (.error failure) := by
  rw [fail, affairs_conclude, affairs_setStatus]

/-- **To ask the dispatcher for something** is to reach a stage of waiting, and to put the command
to the orders. A dispatcher that has ended answers at once. -/
theorem affairs_order {id : OperationId} {c : Dispatch.Command} {asked told : Stage}
    (known : s.stage? id ≠ none) (order : isOrder c = true)
    (noEnd : isShutdown c = false) (refused : Dispatch.refuse c = [.refused id])
    (answered : asked.answered (.refused id) = some told) :
    ((s.setStage id asked).post c).1.affairs = s.affairs.order id c asked told := by
  have stage : (s.setStage id asked).affairs.lock.stage? id = some asked := by
    have known : s.affairs.lock.stage? id ≠ none := known
    rw [affairs_setStage, Lock.stage?_reach _ known, Function.update_self]
  rw [affairs_post, refused, Affairs.order]
  by_cases ended : s.dispatch.ended = true
  -- the refusal comes at once, while the operation is at `asked`, and takes it on to `told`
  · have same : (s.setStage id asked).dispatch.ended = true := ended
    rw [if_pos same, if_pos (show s.affairs.dispatch.ended = true from ended)]
    show Affairs.reply (s.setStage id asked).affairs id (.refused id) = _
    rw [Affairs.reply, stage, Option.bind_some, answered]
    simp only [affairs_setStage, Lock.reach_reach]
  · have same : ¬ (s.setStage id asked).dispatch.ended = true := ended
    rw [if_neg same, if_neg (show ¬ s.affairs.dispatch.ended = true from ended)]
    simp [order, noEnd]

theorem affairs_collect (id : OperationId) :
    (s.step (.collect id)).1.affairs = { s.affairs with lock := s.affairs.lock.drop id } :=
  Affairs.ext (s.lock_collect id) rfl rfl rfl rfl rfl rfl rfl rfl rfl rfl rfl rfl rfl rfl

/-- **A teardown begins** by taking the session off the books and asking the dispatcher to detach
its generation. -/
theorem affairs_beginTeardown {o : Operation} (l : Live) (known : s.stage? o.id ≠ none) :
    (s.beginTeardown o l).1.affairs =
      Affairs.order { s.affairs with session := none } o.id (.detach l.generation o.id)
        (.detaching l) (.detached l) :=
  affairs_order { s with session := none } known rfl rfl rfl rfl

end Changes

/-! ## What an operation does when it goes on -/

/-- The operation can go on when it is told this. -/
def Stage.goesOn : Stage → Observation → Bool
  | .entered, _ | .detached _, _ | .attached _, _ | .refused _, _ | .leaving, _ => true
  | .killing _ _, .killed | .launching, .launched _ | .probing _ _, .probed _ => true
  | _, _ => false

/-- On the way to a new session: whether the settings were loaded already. -/
def Stage.loaded? : Stage → Option Bool
  | .detaching _ | .detached _ | .killing _ (.tornDown _) | .launching => some false
  | .probing _ _ | .attaching _ | .attached _ | .refused _ | .killing _ (.launchFailed _) =>
    some true
  | .drawn | .waiting | .entered | .killing _ (.crashed _ _) | .leaving | .done _ => none

/-- How many stages an operation that holds the lock has before it, at most. -/
def Stage.distance : Stage → Nat
  | .entered => 9
  | .detaching _ => 8
  | .detached _ => 7
  | .killing _ (.tornDown _) => 6
  | .launching => 5
  | .probing _ _ => 4
  | .attaching _ => 3
  | .attached _ | .refused _ => 2
  | .killing _ (.launchFailed _) | .killing _ (.crashed _ _) => 1
  | .drawn | .waiting | .leaving | .done _ => 0

/-- **From one stage to the next** of an operation that holds the lock. -/
structure Stage.Nears (before now : Stage) (purpose : Option Purpose) : Prop where
  holds : now.holds = true
  begun : now.begun = true
  nearer : now.distance < before.distance
  /-- Only who deals with a loss is not on the way to a new session. -/
  way : now.loaded? = none → ∃ loss, purpose = some (.crash loss)

/-- **The rules of operations.** `Advance a o seen a'` says that the operation `o`, told what it
has `seen`, takes the affairs from `a` to `a'`. -/
inductive Advance (a : Affairs) (o : Operation) (seen : Observation) : Affairs → Prop where
  | found (l : Live) (stage : o.stage = .entered) (purpose : o.purpose = .start)
      (session : a.session = some l) :
      Advance a o seen (a.finish o (.launched (.ok l.info)))
  | launch (stage : o.stage = .entered) (purpose : o.purpose = .start)
      (session : a.session = none) :
      Advance a o seen { a.setStatus .starting with lock := a.lock.reach o.id .launching }
  | stop (l : Live) (stage : o.stage = .entered)
      (purpose : o.purpose = .stop ∨ o.purpose = .shutdown) (session : a.session = some l) :
      Advance a o seen
        (Affairs.order { a.setStatus .stopping with session := none } o.id
          (.detach l.generation o.id) (.detaching l) (.detached l))
  | nothingToStop (stage : o.stage = .entered)
      (purpose : o.purpose = .stop ∨ o.purpose = .shutdown) (session : a.session = none) :
      Advance a o seen (a.finish o .stopped)
  | coalesce (ticket : Nat) (outcome : Except Failure Info) (stage : o.stage = .entered)
      (purpose : o.purpose = .restart ticket) (covered : ticket ≤ a.covered)
      (last : a.lastRestart = some outcome) :
      Advance a o seen (a.finish o (.launched outcome))
  | restart (ticket : Nat) (l : Live) (stage : o.stage = .entered)
      (purpose : o.purpose = .restart ticket)
      (uncovered : ticket ≤ a.covered → a.lastRestart = none) (session : a.session = some l) :
      Advance a o seen
        (Affairs.order { a.setStatus .restarting with covered := a.tickets, session := none } o.id
          (.detach l.generation o.id) (.detaching l) (.detached l))
  | restartAlone (ticket : Nat) (stage : o.stage = .entered) (purpose : o.purpose = .restart ticket)
      (uncovered : ticket ≤ a.covered → a.lastRestart = none) (session : a.session = none) :
      Advance a o seen
        { (a.setStatus .restarting).setStatus .starting with
          covered := a.tickets, lock := a.lock.reach o.id .launching }
  | crash (loss : Loss) (l : Live) (stage : o.stage = .entered) (purpose : o.purpose = .crash loss)
      (session : a.session = some l) (same : l.generation = loss.generation) :
      Advance a o seen
        { a with session := none, lock := a.lock.reach o.id (.killing l.process (.crashed l loss)) }
  | outdated (loss : Loss) (stage : o.stage = .entered) (purpose : o.purpose = .crash loss)
      (other : ∀ l, a.session = some l → l.generation ≠ loss.generation) :
      Advance a o seen (a.finish o .recorded)
  | tearDown (l : Live) (stage : o.stage = .detached l) :
      Advance a o seen { a with lock := a.lock.reach o.id (.killing l.process (.tornDown l)) }
  | launchFailed (p : ProcessId) (failure : Failure)
      (stage : o.stage = .killing p (.launchFailed failure)) (killed : seen = .killed) :
      Advance a o seen ((a.setStatus .stopped).conclude o (.error failure))
  | tornDown (p : ProcessId) (l : Live) (ticket : Nat) (stage : o.stage = .killing p (.tornDown l))
      (purpose : o.purpose = .restart ticket) (killed : seen = .killed) :
      Advance a o seen
        { a.setStatus .starting with
          current := none, events := a.events ++ [.stopped l.generation]
          lock := a.lock.reach o.id .launching }
  | stopped (p : ProcessId) (l : Live) (stage : o.stage = .killing p (.tornDown l))
      (purpose : ∀ ticket, o.purpose ≠ .restart ticket) (killed : seen = .killed) :
      Advance a o seen
        (Affairs.finish
          { a.setStatus .stopped with
            current := none, events := a.events ++ [.stopped l.generation] } o .stopped)
  | crashed (p : ProcessId) (l : Live) (loss : Loss) (code : Option Int)
      (stage : o.stage = .killing p (.crashed l loss)) (killed : seen = .killed) :
      Advance a o seen
        (Affairs.finish
          { a.setStatus .stopped with
            current := none, events := a.events ++ [.crashed l.generation loss.reason code] }
          o .recorded)
  | unlaunched (failure : Failure) (stage : o.stage = .launching)
      (told : seen = .launched (.error failure)) :
      Advance a o seen ((a.setStatus .stopped).conclude o (.error failure))
  | spawned (toolchain : Toolchain) (pid : UInt32) (stage : o.stage = .launching)
      (told : seen = .launched (.ok (toolchain, pid))) :
      Advance a o seen
        { a with
          spawned := a.spawned + 1, lock := a.lock.reach o.id (.probing a.spawned toolchain) }
  | unfit (p : ProcessId) (toolchain : Toolchain) (outcome : Probe.Outcome) (failure : Failure)
      (stage : o.stage = .probing p toolchain) (told : seen = .probed outcome)
      (verdict : Probe.verdict outcome = .error failure) :
      Advance a o seen { a with lock := a.lock.reach o.id (.killing p (.launchFailed failure)) }
  | fit (toolchain : Toolchain) (outcome : Probe.Outcome) (l : Live)
      (stage : o.stage = .probing l.process toolchain) (told : seen = .probed outcome)
      (verdict : Probe.verdict outcome = .ok l.version) (fresh : l.generation = a.generation + 1) :
      Advance a o seen
        (Affairs.order { a with generation := l.generation } o.id
          (.attach l.generation l.process o.id) (.attaching l) (.refused l))
  | ready (l : Live) (stage : o.stage = .attached l) :
      Advance a o seen
        (Affairs.conclude
          { a.setStatus .ready with
            current := some l.info, session := some l
            events := a.events ++ [.ready l.generation l.version] } o (.ok l.info))
  | refused (l : Live) (stage : o.stage = .refused l) :
      Advance a o seen
        { a with lock := a.lock.reach o.id (.killing l.process (.launchFailed .workerClosed)) }

/-- A rule reaches what is equal to its result. -/
theorem Advance.of_eq {a a' b : Affairs} {o : Operation} {seen : Observation}
    (rule : Advance a o seen a') (h : b = a') : Advance a o seen b :=
  h ▸ rule

section Advance

variable {s : Supervisor} {a a' : Affairs} {o : Operation} {seen : Observation}

/-- An operation goes on only while it holds the lock. -/
theorem Advance.holds (rule : Advance a o seen a') : o.stage.holds = true := by
  cases rule <;> simp_all [Stage.holds]

/-- Who goes on holds the lock. -/
theorem Advance.holder (rule : Advance a o seen a') (sound : a.lock.Sound)
    (known : a.lock.operation? o.id = some o) : a.lock.holder = some o.id :=
  sound.holder (Lock.stage?_of_known known) rule.holds

/-- Asking for something changes the stage of the one that asks, and no more of the lock. -/
theorem lock_order (id : OperationId) (c : Dispatch.Command) (asked told : Stage) :
    (a.order id c asked told).lock = a.lock.reach id asked ∨
      (a.order id c asked told).lock = a.lock.reach id told := by
  unfold Affairs.order
  split
  · exact .inr rfl
  · exact .inl rfl

/-- An operation that goes on reaches another stage, or it hands the lock on. -/
theorem Advance.lock (rule : Advance a o seen a') :
    (∃ now, o.stage.Nears now (some o.purpose) ∧ a'.lock = a.lock.reach o.id now) ∨
      ∃ result, a'.lock = a.lock.finish o.id (o.purpose.last result) := by
  -- all but the operation that deals with a loss are on the way to a new session
  have nears {before now : Stage} {b : Bool} (stage : o.stage = before) (holds : now.holds = true)
      (begun : now.begun = true) (nearer : now.distance < before.distance)
      (loaded : now.loaded? = some b) : o.stage.Nears now (some o.purpose) :=
    ⟨holds, begun, stage ▸ nearer, fun none => by cases loaded.symm.trans none⟩
  cases rule with
  | found | nothingToStop | coalesce | outdated | launchFailed | stopped | crashed | unlaunched |
      ready =>
    exact .inr ⟨_, rfl⟩
  | crash loss _ stage purpose =>
    refine .inl ⟨_, ⟨rfl, rfl, ?_, fun _ => ⟨loss, congrArg some purpose⟩⟩, rfl⟩
    simp [stage, Stage.distance]
  | launch | restartAlone | tearDown | tornDown | spawned | unfit | refused =>
    exact .inl ⟨_, nears ‹_› rfl rfl (by simp [Stage.distance]) rfl, rfl⟩
  | stop | restart | fit =>
    rcases lock_order (a := _) o.id _ _ _ with lock | lock
    · exact .inl ⟨_, nears ‹_› rfl rfl (by simp [Stage.distance]) rfl, lock⟩
    · exact .inl ⟨_, nears ‹_› rfl rfl (by simp [Stage.distance]) rfl, lock⟩

/-- A command changes nothing in the dispatcher before it is taken. -/
theorem dispatch_order (id : OperationId) (c : Dispatch.Command) (asked told : Stage) :
    (a.order id c asked told).dispatch = a.dispatch := by
  unfold Affairs.order
  split <;> rfl

/-- **No operation changes the dispatcher by itself**: it only gives orders. -/
theorem Advance.dispatch (rule : Advance a o seen a') : a'.dispatch = a.dispatch := by
  cases rule with
  | stop | restart | fit => exact dispatch_order _ _ _ _
  | _ => rfl

/-- **An operation that has come to its turn** goes on by one of the rules: it finds that nothing is
left to do, launches a process, asks for the session to be detached, or kills the process that
crashed. -/
theorem entered_advance (h : s.operation? o.id = some o) (stage : o.stage = .entered) :
    Advance s.affairs o seen (s.entered o).1.affairs := by
  have known : s.stage? o.id ≠ none := by simp [stage?, h]
  unfold entered
  cases purpose : o.purpose with
  | start =>
    cases session : s.session with
    | none => exact .of_eq (.launch stage purpose session) (by simp [beginLaunch])
    | some l => exact .of_eq (.found l stage purpose session) (s.affairs_finish o _)
  | stop =>
    cases session : s.session with
    | none => exact .of_eq (.nothingToStop stage (.inl purpose) session) (s.affairs_finish o _)
    | some l =>
      exact .of_eq (.stop l stage (.inl purpose) session)
        ((s.setStatus .stopping).affairs_beginTeardown l known)
  | shutdown =>
    cases session : s.session with
    | none => exact .of_eq (.nothingToStop stage (.inr purpose) session) (s.affairs_finish o _)
    | some l =>
      exact .of_eq (.stop l stage (.inr purpose) session)
        ((s.setStatus .stopping).affairs_beginTeardown l known)
  | restart ticket =>
    -- a covered ticket counts only if there is an outcome to take over
    cases last : (if ticket ≤ s.covered then s.lastRestart else none) with
    | some outcome =>
      simp only [last]
      have covered : ticket ≤ s.covered := by
        by_contra uncovered
        rw [if_neg uncovered] at last
        cases last
      rw [if_pos covered] at last
      exact .of_eq (.coalesce ticket outcome stage purpose covered last) (s.affairs_finish o _)
    | none =>
      simp only [last]
      have uncovered : ticket ≤ s.covered → s.lastRestart = none := fun covered => by
        rwa [if_pos covered] at last
      cases session : s.session with
      | none =>
        refine .of_eq (.restartAlone ticket stage purpose uncovered session) ?_
        simp only [setStatus, beginLaunch, affairs_setStage]
        rw [← session]
        rfl
      | some l =>
        refine .of_eq (.restart ticket l stage purpose uncovered session) ?_
        refine Eq.trans ?_ (affairs_beginTeardown
          ({ s with covered := s.tickets }.setStatus .restarting) l known)
        simp only [setStatus, session]
  | crash loss =>
    cases session : s.session with
    | none =>
      have other : ∀ l, s.affairs.session = some l → l.generation ≠ loss.generation := by
        simp [affairs, session]
      exact .of_eq (.outdated loss stage purpose other) (s.affairs_finish o _)
    | some l =>
      by_cases same : l.generation = loss.generation
      · refine .of_eq (.crash loss l stage purpose session same) ?_
        simp only [if_pos same, beginKill, affairs_setStage]
        rfl
      · refine .of_eq (.outdated loss stage purpose ?_) ?_
        · rintro l' h'
          obtain rfl := Option.some.inj (session.symm.trans h')
          exact same
        · simp only [if_neg same]
          exact s.affairs_finish o _

/-- An operation whose process has been killed goes on by a rule: it fails, launches the next
process, or is over. -/
theorem afterKill_advance {p : ProcessId} {next : Aftermath} (stage : o.stage = .killing p next) :
    Advance s.affairs o .killed (s.afterKill o next).1.affairs := by
  unfold afterKill
  cases next with
  | launchFailed failure =>
    exact .of_eq (.launchFailed p failure stage rfl) (s.affairs_fail o failure)
  | tornDown l =>
    -- what all of them have in common
    let gone := ({ s with current := none }.announce (.stopped l.generation)).1
    cases purpose : o.purpose with
    | restart ticket =>
      exact .of_eq (.tornDown p l ticket stage purpose rfl)
        ((gone.setStatus .starting).affairs_setStage o.id .launching)
    | start | stop | shutdown | crash =>
      exact .of_eq (.stopped p l stage (by simp [purpose]) rfl)
        ((gone.setStatus .stopped).affairs_finish o .stopped)
  | crashed l loss =>
    let code := loss.exitCode.or ((s.exit? l.process).bind (·.code))
    let gone := ({ s with current := none }.setStatus .stopped).announce
      (.crashed l.generation loss.reason code)
    exact .of_eq (.crashed p l loss code stage rfl) (gone.1.affairs_finish o .recorded)

/-- An operation that was to launch a process goes on by a rule: it fails, or asks the process for
its version. -/
theorem afterLaunch_advance {outcome : Except Failure (Toolchain × UInt32)}
    (stage : o.stage = .launching) :
    Advance s.affairs o (.launched outcome) (s.afterLaunch o outcome).1.affairs := by
  unfold afterLaunch
  cases outcome with
  | error failure => exact .of_eq (.unlaunched failure stage rfl) (s.affairs_fail o failure)
  | ok launched =>
    obtain ⟨toolchain, pid⟩ := launched
    refine .of_eq (.spawned toolchain pid stage rfl) ?_
    rw [affairs_setStage]
    simp [affairs]
    rfl

/-- An operation that has heard the probe's outcome goes on by a rule: it kills a process that is
unfit, or asks for the session to be attached. -/
theorem afterProbe_advance {p : ProcessId} {toolchain : Toolchain} {outcome : Probe.Outcome}
    (h : s.operation? o.id = some o) (stage : o.stage = .probing p toolchain) :
    Advance s.affairs o (.probed outcome) (s.afterProbe o p toolchain outcome).1.affairs := by
  have known : s.stage? o.id ≠ none := by simp [stage?, h]
  unfold afterProbe
  cases verdict : Probe.verdict outcome with
  | error failure =>
    exact .of_eq (.unfit p toolchain outcome failure stage rfl verdict) (s.affairs_setStage _ _)
  | ok version =>
    let l : Live :=
      ⟨s.generation + 1, p, (s.processes[p]?.map (·.pid)).getD 0, toolchain, version, s.now⟩
    refine .of_eq (.fit toolchain outcome l stage rfl verdict rfl) ?_
    exact affairs_order { s with generation := l.generation } known rfl rfl rfl rfl

/-- A shutdown that has handed the lock on tells the dispatcher to end. -/
theorem proceed_leaving (seen : Observation) (h : s.operation? o.id = some o)
    (stage : o.stage = .leaving) : (s.proceed o.id seen).1.affairs = s.affairs.leave o.id := by
  simp only [proceed, h, stage, affairs_leave]

/-- **An operation goes on by one of the rules**, or not at all, unless it is a shutdown that has
handed the lock on. -/
theorem proceed_advance (seen : Observation) (h : s.operation? o.id = some o)
    (notLeaving : o.stage ≠ .leaving) :
    o.stage.goesOn seen = false ∧ (s.proceed o.id seen).1 = s ∨
      Advance s.affairs o seen (s.proceed o.id seen).1.affairs := by
  simp only [proceed, h]
  -- by the stage, and where a task is awaited, by whether it is the end of that task
  cases stage : o.stage with
  | drawn | waiting | detaching | attaching | done => exact .inl ⟨rfl, rfl⟩
  | leaving => exact absurd stage notLeaving
  | entered => exact .inr (entered_advance h stage)
  | detached l => exact .inr (.of_eq (.tearDown l stage) (s.affairs_setStage _ _))
  | killing p next =>
    cases seen with
    | killed => exact .inr (afterKill_advance stage)
    | nothing | launched | probed => exact .inl ⟨rfl, rfl⟩
  | launching =>
    cases seen with
    | launched outcome => exact .inr (afterLaunch_advance stage)
    | nothing | killed | probed => exact .inl ⟨rfl, rfl⟩
  | probing p toolchain =>
    cases seen with
    | probed outcome => exact .inr (afterProbe_advance h stage)
    | nothing | killed | launched => exact .inl ⟨rfl, rfl⟩
  | attached l =>
    refine .inr (.of_eq (.ready l stage) ?_)
    exact affairs_conclude (({ s with current := some l.info, session := some l }.setStatus
      .ready).announce (.ready l.generation l.version)).1 o (.ok l.info)
  | refused l => exact .inr (.of_eq (.refused l stage) (s.affairs_setStage _ _))

end Advance

end CompilerSession.Supervisor
