import CompilerSession.Proofs.Session.Moves
import CompilerSession.Simulation.Tasks

/-
What happens beside the server.

A task may do a lot when it goes on: processes are spawned, probed, called and killed, permits go
from hand to hand, others are woken. Little of it is of concern to the server. `Beside` says that
the server is in the same state afterwards and its register as well, that all tasks wait for the
same work and the same requests are under way, and that with the supervisor all is in order: what
happened to it are moves of its own by which nobody gives up an operation, and by which a result is
collected only when it is there. Every function that tasks are
made of is looked at once, in the order in which they build on each other.

`Apart` asks less, and it is what the other tasks are to serving: they change what they themselves
wait for.
-/

set_option autoImplicit false

namespace CompilerSession.Simulation

/-! ## Wakes -/

/-- Nothing changes but which tasks are ready. -/
def Wakes (w w' : World) : Prop :=
  ∃ ready, w' = { w with ready }

namespace World

variable {w w' w'' : World}

theorem wakes_refl (w : World) : Wakes w w :=
  ⟨w.ready, rfl⟩

/-- To wake a task changes no more than who is ready. -/
theorem wakes_wake (w : World) (t : Task) : Wakes w (w.wake t) := by
  unfold wake
  split
  · exact wakes_refl w
  · exact ⟨w.ready ++ [t], rfl⟩

theorem wakes_wakeFor (w : World) (work : Work) : Wakes w (w.wakeFor work) := by
  unfold wakeFor
  cases w.taskOf? work with
  | none => exact wakes_refl w
  | some t => exact wakes_wake w t

theorem wakes_wakeWaiter (w : World) (x : Waiter) : Wakes w (w.wakeWaiter x) := by
  cases x with
  | call id => exact wakes_wake w _
  | probe id => exact wakes_wakeFor w _

theorem wakes_foldl {α : Type} {f : World → α → World} (each : ∀ w x, Wakes w (f w x))
    (xs : List α) (w : World) : Wakes w (xs.foldl f w) := by
  induction xs generalizing w with
  | nil => exact wakes_refl w
  | cons x xs ih =>
    obtain ⟨ready, first⟩ := each w x
    obtain ⟨ready', rest⟩ := ih (f w x)
    exact ⟨ready', by rw [List.foldl_cons, rest, first]⟩

theorem wakes_wakeRuns (w : World) (p : ProcessId) : Wakes w (w.wakeRuns p) :=
  wakes_foldl wakes_wakeWaiter _ w

theorem wakes_dismissLine (w : World) : Wakes w w.dismissLine :=
  wakes_foldl (fun w (x : Work × Bool) => wakes_wakeFor w x.1) _ w

theorem wakes_wakeToken (w : World) (t : Token) : Wakes w (w.wakeToken t) :=
  wakes_foldl (fun w (s : Submission) => wakes_wakeFor w (.submission s.number)) _ w

end World

/-! ## Beside the server -/

/-- The supervisor gets from one state to another by orderly moves. -/
def Reaches (s s' : Supervisor) : Prop :=
  ∃ ms, s' = Supervisor.machine.runFrom s ms ∧
    ∀ e ∈ Supervisor.machine.historyFrom s ms, Supervisor.Orderly e.before e.action

/-- The number and the token of a request. -/
def Submission.ticket (s : Submission) : Nat × Token :=
  (s.number, s.token)

/-- **The register and the requests**, with the number of the next one. -/
def World.requests (w : World) : Registry × List (Nat × Token) × Nat :=
  (w.registry, w.submissions.map Submission.ticket, w.nextSubmission)

/-- **Beside the server.** Neither the server nor what tasks wait for is different, no request comes
or goes, and with the supervisor all is in order. -/
structure Beside (w w' : World) : Prop where
  server : w'.server = w.server
  jobs : w'.jobs = w.jobs
  requests : w'.requests = w.requests
  supervisor : Reaches w.supervisor w'.supervisor

section Reaches

variable {s s' s'' : Supervisor}

theorem Reaches.refl (s : Supervisor) : Reaches s s :=
  ⟨[], rfl, fun _ h => absurd h List.not_mem_nil⟩

/-- What is reached from what is reached is reached. -/
theorem Reaches.trans (h : Reaches s s') (h' : Reaches s' s'') : Reaches s s'' := by
  obtain ⟨ms, rfl, orderly⟩ := h
  obtain ⟨ns, rfl, orderly'⟩ := h'
  refine ⟨ms ++ ns, (Supervisor.machine.runFrom_append s ms ns).symm, ?_⟩
  rw [Supervisor.machine.historyFrom_append, List.forall_mem_append]
  exact ⟨orderly, orderly'⟩

/-- An orderly move reaches its result. -/
theorem reaches_step {m : Supervisor.Move} (orderly : Supervisor.Orderly s m) :
    Reaches s (s.step m).1 := by
  refine ⟨[m], rfl, ?_⟩
  intro e he
  rw [List.mem_singleton.mp he]
  exact orderly

end Reaches

section Beside

variable {w w' w'' : World}

theorem Beside.refl (w : World) : Beside w w :=
  ⟨rfl, rfl, rfl, .refl _⟩

theorem Beside.trans (h : Beside w w') (h' : Beside w' w'') : Beside w w'' :=
  ⟨h'.server.trans h.server, h'.jobs.trans h.jobs, h'.requests.trans h.requests,
    h.supervisor.trans h'.supervisor⟩

/-- Whatever leaves server, jobs, requests and supervisor alone happens beside the server. -/
theorem Beside.of_same (server : w'.server = w.server) (jobs : w'.jobs = w.jobs)
    (requests : w'.requests = w.requests) (supervisor : w'.supervisor = w.supervisor) :
    Beside w w' :=
  ⟨server, jobs, requests, supervisor ▸ .refl _⟩

/-- A change that is of no concern may come first. -/
theorem Beside.after (h : Beside w' w'') (server : w'.server = w.server) (jobs : w'.jobs = w.jobs)
    (requests : w'.requests = w.requests) (supervisor : w'.supervisor = w.supervisor) :
    Beside w w'' :=
  .trans (.of_same server jobs requests supervisor) h

/-- To wake somebody happens beside the server. -/
theorem Wakes.beside (h : Wakes w w') : Beside w w' := by
  obtain ⟨ready, rfl⟩ := h
  exact .of_same rfl rfl rfl rfl

theorem beside_foldl {α : Type} {f : World → α → World} (each : ∀ w x, Beside w (f w x))
    (xs : List α) (w : World) : Beside w (xs.foldl f w) := by
  induction xs generalizing w with
  | nil => exact .refl w
  | cons x xs ih => exact (each w x).trans (ih (f w x))

/-- What is done if it can be. -/
theorem beside_getD {next : Option World} (each : ∀ w', next = some w' → Beside w w') :
    Beside w (next.getD w) := by
  cases next with
  | none => exact .refl w
  | some w' => exact each w' rfl

end Beside

namespace World

variable {w w' : World}

/-! Processes and what is said to them. -/

/-- **An orderly move of the supervisor happens beside the server.** -/
theorem beside_step {m : Supervisor.Move} (orderly : Supervisor.Orderly w.supervisor m) :
    Beside w { w with supervisor := (w.supervisor.step m).1 } :=
  ⟨rfl, rfl, rfl, reaches_step orderly⟩

theorem beside_endProcess (w : World) (p : ProcessId) (exit : Exit) :
    Beside w (w.endProcess p exit) := by
  have ended : Beside w { w with supervisor := (w.supervisor.step (.exit p exit)).1 } :=
    beside_step trivial
  unfold endProcess
  refine ended.trans (.trans ?_ (wakes_wakeRuns _ p).beside)
  split
  · exact (wakes_wake _ .dispatcher).beside
  · exact .refl _

theorem beside_addPermit (w : World) : Beside w w.addPermit := by
  simp only [addPermit]
  split
  · exact (wakes_wakeWaiter _ _).beside.after rfl rfl rfl rfl
  · exact .of_same rfl rfl rfl rfl

theorem beside_askPermit (w : World) (x : Waiter) : Beside w (w.askPermit x) := by
  simp only [askPermit]
  split <;> exact .of_same rfl rfl rfl rfl

theorem beside_leavePermits (w : World) (x : Waiter) : Beside w (w.leavePermits x) :=
  .of_same rfl rfl rfl rfl

theorem beside_forgoPermit (w : World) (x : Waiter) : Beside w (w.forgoPermit x) := by
  simp only [forgoPermit]
  split
  · exact (beside_leavePermits w x).trans (beside_addPermit _)
  · exact beside_leavePermits w x

theorem beside_startProbe (w : World) (id : OperationId) (p : ProcessId) :
    Beside w (w.startProbe id p) := by
  simp only [startProbe, askChild]
  split
  · exact .of_same rfl rfl rfl rfl
  · split
    · exact (beside_askPermit _ _).after rfl rfl rfl rfl
    · exact .of_same rfl rfl rfl rfl

theorem beside_reap (w : World) (p : ProcessId) : Beside w (w.reap p) := by
  unfold reap
  split
  · split
    · exact .refl w
    · exact beside_endProcess w p _
  · exact .refl w

theorem beside_startKill (w : World) (id : OperationId) (p : ProcessId) :
    Beside w (w.startKill id p) := by
  simp only [startKill]
  refine (beside_reap w p).trans ?_
  split
  · exact .of_same rfl rfl rfl rfl
  · have marked (compilers : Compilers) (record : Record) :
        Beside (w.reap p) ({ w.reap p with compilers, record }.wakeRuns p) :=
      (wakes_wakeRuns _ p).beside.after rfl rfl rfl rfl
    split
    · exact (marked _ _).trans (.of_same rfl rfl rfl rfl)
    · exact (marked _ _).trans ((beside_endProcess _ p _).after rfl rfl rfl rfl)

theorem beside_noteSpawn (w : World) (p : ProcessId) (toolchain : Toolchain) :
    Beside w (w.noteSpawn p toolchain) := by
  simp only [noteSpawn]
  split <;> exact .of_same rfl rfl rfl rfl

/-! Signals and moves. -/

theorem beside_updateSubmission (w : World) (n : Nat) {f : Submission → Submission}
    (same : ∀ s, (f s).ticket = s.ticket) : Beside w (w.updateSubmission n f) := by
  refine .of_same rfl rfl ?_ rfl
  simp only [World.requests, updateSubmission, List.map_map]
  congr 2
  refine List.map_congr_left fun s _ => ?_
  simp only [Function.comp_apply]
  split
  · exact same s
  · rfl

/-- An outcome that is handed over changes no ticket. -/
theorem beside_resolve (w : World) (id : RequestId) (outcome : Outcome) :
    Beside w (w.resolve id outcome) := by
  unfold resolve
  split
  · exact (beside_updateSubmission w _ fun _ => by rfl).trans (wakes_wakeFor _ _).beside
  · exact .refl w

theorem beside_setCall (w : World) (id : RequestId) (stage : CallStage) :
    Beside w (w.setCall id stage) :=
  .of_same rfl rfl rfl rfl

/-- A signal of the supervisor is heard beside the server. -/
theorem beside_hear (w : World) (signal : Supervisor.Signal) : Beside w (w.hear signal) := by
  cases signal with
  | resolved id outcome => exact beside_resolve w id outcome
  | called entry p => exact (wakes_wake { w with calls := _ } _).beside.after rfl rfl rfl rfl
  | spawned p toolchain => exact beside_noteSpawn w p toolchain
  | probing id p => exact beside_startProbe w id p
  | killing id p => exact beside_startKill w id p
  | granted id | replied id => exact (wakes_wakeFor w _).beside
  | announced | posted | lost => exact (wakes_wake w _).beside
  | lingering id => exact .of_same rfl rfl rfl rfl

/-- What a move sets off happens beside the server. -/
theorem beside_signals (w : World) (m : Supervisor.Move) :
    Beside { w with supervisor := (w.supervisor.step m).1 } (w.move m) :=
  beside_foldl beside_hear _ _

/-- **A move whose signals are heard happens beside the server.** -/
theorem beside_move {m : Supervisor.Move} (orderly : Supervisor.Orderly w.supervisor m) :
    Beside w (w.move m) :=
  (beside_step orderly).trans (beside_signals w m)

/-! Room for commands. -/

theorem beside_leaveLine (w : World) (work : Work) : Beside w (w.leaveLine work) :=
  .of_same rfl rfl rfl rfl

theorem beside_beckon (w : World) (taken : Nat) : Beside w (w.beckon taken) := by
  unfold beckon
  split
  · split
    · exact (wakes_wakeFor _ _).beside.after rfl rfl rfl rfl
    · exact .refl w
  · exact .refl w

theorem beside_send (w : World) (work : Work) : Beside w (w.send work) := by
  unfold send
  split
  · exact (beside_leaveLine w _).trans (beside_move trivial)
  · split
    · exact .refl w
    · split <;>
        exact (beside_leaveLine w _).trans
          ((beside_updateSubmission _ _ fun _ => by rfl).trans (beside_move (by trivial)))

/-- Whoever finds a place sends beside the server. -/
theorem beside_send? {work : Work} (h : w.send? work = some w') : Beside w w' := by
  unfold send? at h
  split at h
  · cases h
    exact beside_send w work
  · split at h
    · cases h
    · split at h <;> cases h
      · exact beside_send w work
      · exact .of_same rfl rfl rfl rfl

theorem beside_order {m : Supervisor.Move} (orderly : ∀ s, Supervisor.Orderly s m) :
    Beside w (w.order m) := by
  have sent : Beside w (w.line.foldl (fun w x => (w.send x.1).wakeFor x.1) w) :=
    beside_foldl (fun w (x : Work × Bool) => (beside_send w x.1).trans (wakes_wakeFor _ _).beside) _ w
  simp only [order]
  split
  · exact sent.trans (beside_move (orderly _))
  · exact beside_move (orderly _)

/-! What tasks work on. -/

theorem beside_finishProbe (w : World) (id : OperationId) (outcome : Probe.Outcome) :
    Beside w (w.finishProbe id outcome) := by
  simp only [finishProbe]
  refine Beside.after (beside_order fun _ => ?_) rfl rfl rfl rfl
  trivial

theorem beside_setProbe (w : World) (id : OperationId) (stage : ProbeStage) :
    Beside w (w.setProbe id stage) :=
  .of_same rfl rfl rfl rfl

theorem beside_stepProbe {r : ProbeRun} (h : w.stepProbe? r = some w') : Beside w w' := by
  simp only [stepProbe?] at h
  split at h
  · cases h
    exact beside_finishProbe w _ _
  · cases h
    exact beside_finishProbe w _ _
  · split at h
    · cases h
      exact (beside_leavePermits w _).trans (beside_setProbe _ _ _)
    · split at h
      · cases h
        exact (beside_forgoPermit w _).trans (beside_setProbe _ _ _)
      · split at h <;> cases h
        exact (beside_forgoPermit w _).trans (beside_finishProbe _ _ _)
  · split at h <;> cases h
    exact beside_finishProbe w _ _

theorem beside_stepKill {k : KillRun} (h : w.stepKill? k = some w') : Beside w w' := by
  simp only [stepKill?] at h
  split at h
  · cases h
    exact (beside_move (by trivial)).after rfl rfl rfl rfl
  · split at h <;> cases h
    exact (beside_endProcess _ _ _).after rfl rfl rfl rfl

theorem beside_stepOperation {id : OperationId} (h : w.stepOperation? id = some w') :
    Beside w w' := by
  unfold stepOperation? at h
  split at h
  case h_5 => exact beside_send? h
  case h_6 =>
    cases h
    exact beside_move (by trivial)
  case h_7 =>
    obtain ⟨r, -, h⟩ := Option.bind_eq_some_iff.mp h
    exact beside_stepProbe h
  case h_8 =>
    obtain ⟨k, -, h⟩ := Option.bind_eq_some_iff.mp h
    exact beside_stepKill h
  case h_9 => cases h
  all_goals
    cases h
    exact beside_order fun _ => trivial

theorem beside_stepSubmission {n : Nat} (h : w.stepSubmission? n = some w') : Beside w w' := by
  unfold stepSubmission? at h
  split at h
  · cases h
  · split at h
    · exact beside_send? h
    · split at h
      · cases h
      · split at h
        · cases h
          exact (beside_leaveLine w _).trans (beside_updateSubmission _ _ fun _ => by rfl)
        · exact beside_send? h

/-- **A step of any work happens beside the server.** -/
theorem beside_stepWork {work : Work} (h : w.stepWork? work = some w') : Beside w w' := by
  cases work with
  | operation id => exact beside_stepOperation h
  | submission n => exact beside_stepSubmission h

/-- What an operation achieved is there when it is done. -/
theorem done_of_achievement {id : OperationId} {a : Achievement}
    (h : w.achievement? (.operation id) = some a) :
    ∃ result, w.supervisor.stage? id = some (.done result) := by
  cases found : w.supervisor.operation? id with
  | none =>
    simp only [achievement?, found] at h
    cases h
  | some o =>
    obtain ⟨oid, purpose, stage⟩ := o
    simp only [achievement?, found] at h
    cases stage with
    | done result => exact ⟨result, by simp [Supervisor.stage?, found]⟩
    | _ => cases h

end World

/-- Work is about the request of a ticket. -/
def Work.isAbout : Work → Nat × Token → Bool
  | .submission n, ticket => ticket.1 = n
  | .operation _, _ => false

/-- **Work is forgotten** that is over: the result of an operation is collected, a request is
gone. -/
structure Forgets (w w' : World) (work : Work) : Prop where
  server : w'.server = w.server
  jobs : w'.jobs = w.jobs
  requests : w'.requests =
    (w.registry, (w.submissions.map Submission.ticket).filter (! work.isAbout ·), w.nextSubmission)
  supervisor : Reaches w.supervisor w'.supervisor

/-- **A task is done with its work**: it waits for nothing, and the work is forgotten. -/
structure Relieved (w w' : World) (t : Task) (work : Work) : Prop where
  job : w.work? t = some work
  jobs : w'.jobs = w.jobs.filter (·.1 ≠ t)
  requests : w'.requests =
    (w.registry, (w.submissions.map Submission.ticket).filter (! work.isAbout ·), w.nextSubmission)

namespace World

variable {w w' : World}

/-- Work that is achieved is forgotten, and nothing else is. -/
theorem forget_forgets {work : Work} {a : Achievement} (h : w.achievement? work = some a) :
    Forgets w (w.forget work) work := by
  cases work with
  | submission n =>
    refine ⟨rfl, rfl, ?_, .refl _⟩
    have others : w.submissions.filter (·.number ≠ n) =
        w.submissions.filter ((! Work.isAbout (.submission n) ·) ∘ Submission.ticket) :=
      List.filter_congr fun s _ => decide_not
    rw [List.filter_map, ← others]
    rfl
  | operation id =>
    have collected : Beside w (w.move (.collect id)) := by
      refine beside_move fun stage known => ?_
      obtain ⟨result, done⟩ := done_of_achievement h
      exact ⟨result, Option.some.inj (known.symm.trans done)⟩
    refine ⟨collected.server, collected.jobs, collected.requests.trans ?_, collected.supervisor⟩
    simp [requests, Work.isAbout]

/-! Calls. -/

theorem beside_actOn (w : World) (c : CallRun) (words : List String) :
    Beside w (w.actOn c words) := by
  simp only [actOn]
  split
  · exact (beside_setCall w _ _).trans (beside_move (by trivial))
  · exact (beside_setCall w _ _).trans
      ((beside_endProcess _ _ _).trans (beside_move (by trivial)))
  · exact (beside_setCall w _ _).trans (beside_askPermit _ _)

theorem beside_callChild (w : World) (c : CallRun) (child : Shell.Child) :
    Beside w (w.callChild c child) := by
  simp only [callChild, askChild]
  split
  · exact .of_same rfl rfl rfl rfl
  · exact (beside_move (by trivial)).after rfl rfl rfl rfl
  · exact Beside.after ((beside_move (by trivial)).trans (beside_reap _ _)) rfl rfl rfl rfl

theorem beside_beginCall (w : World) (c : CallRun) : Beside w (w.beginCall c) := by
  simp only [beginCall]
  split
  · exact beside_callChild w c _
  · split
    · exact (beside_actOn _ c _).after rfl rfl rfl rfl
    · exact (beside_setCall w _ _).trans (beside_move (by trivial))

theorem beside_stepCall {id : RequestId} (h : w.stepCall? id = some w') : Beside w w' := by
  unfold stepCall? at h
  split at h
  · cases h
  · rename_i c _
    split at h
    · cases h
      exact beside_beginCall w c
    · split at h
      · cases h
        exact (beside_forgoPermit w _).trans
          ((beside_setCall _ _ _).trans (beside_move (by trivial)))
      · split at h
        · cases h
          exact (beside_forgoPermit w _).trans (beside_setCall _ _ _)
        · split at h <;> cases h
          exact (beside_leavePermits w _).trans (beside_actOn _ _ _)
    · split at h <;> cases h
      exact (beside_setCall w _ _).trans (beside_move (by trivial))
    · cases h

/-- A step of the dispatcher happens beside the server. -/
theorem beside_stepDispatcher (h : w.stepDispatcher? = some w') : Beside w w' := by
  have moved (v : World) : Beside v (v.move (.dispatch w.registry.hasFired)) :=
    beside_move (by trivial)
  unfold stepDispatcher? at h
  split at h
  · cases h
  · split at h
    · cases h
      exact moved w
    · simp only [Option.some.injEq] at h
      subst h
      have taken := (beside_beckon w 1).trans (moved _)
      split
      · exact taken.trans (wakes_dismissLine _).beside
      · exact taken
  · cases h
    exact moved w

theorem beside_stepMonitor (h : w.stepMonitor? = some w') : Beside w w' := by
  unfold stepMonitor? at h
  split at h
  · exact beside_stepOperation h
  · split at h <;> cases h
    exact beside_move (by trivial)

end World

/-! ## What other tasks are to serving -/

/-- **Serving is let alone**: it waits for the same work, and with the supervisor all is in
order. -/
structure Apart (w w' : World) : Prop where
  job : w'.work? .serve = w.work? .serve
  supervisor : Reaches w.supervisor w'.supervisor

section Apart

variable {w w' w'' : World}

theorem Apart.trans (h : Apart w w') (h' : Apart w' w'') : Apart w w'' :=
  ⟨h'.job.trans h.job, h.supervisor.trans h'.supervisor⟩

/-- Whatever leaves jobs and supervisor alone lets serving alone. -/
theorem Apart.of_same (jobs : w'.jobs = w.jobs) (supervisor : w'.supervisor = w.supervisor) :
    Apart w w' :=
  ⟨by rw [World.work?, World.work?, jobs], supervisor ▸ .refl _⟩

/-- A change that is of no concern may come first. -/
theorem Apart.after (h : Apart w' w'') (jobs : w'.jobs = w.jobs)
    (supervisor : w'.supervisor = w.supervisor) : Apart w w'' :=
  .trans (.of_same jobs supervisor) h

/-- What happens beside the server lets serving alone. -/
theorem Beside.apart (h : Beside w w') : Apart w w' :=
  ⟨by rw [World.work?, World.work?, h.jobs], h.supervisor⟩

theorem apart_assign {t : Task} (other : t ≠ .serve) (work : Work) : Apart w (w.assign t work) := by
  refine ⟨?_, .refl _⟩
  rw [World.work?, World.work?, World.assign, List.find?_append]
  simp [other]

theorem apart_relieve {t : Task} (other : t ≠ .serve) : Apart w (w.relieve t) := by
  refine ⟨?_, .refl _⟩
  rw [World.work?, World.work?, World.relieve, List.find?_filter]
  congr 2
  funext job
  by_cases h : job.1 = .serve <;> simp [h, Ne.symm other]

end Apart

namespace World

variable {w w' : World}

/-- **A task carries on** with what it waits for, or that is over. -/
theorem stepJob_cases {t : Task} {finish : World → Achievement → World}
    (h : w.stepJob? t finish = some w') :
    (∃ work a, w.work? t = some work ∧ w.achievement? work = some a ∧
      w' = finish ((w.relieve t).forget work) a) ∨ Beside w w' := by
  unfold stepJob? at h
  split at h
  · cases h
  · rename_i work job
    split at h
    · rename_i a achieved
      cases h
      exact .inl ⟨work, a, job, achieved, rfl⟩
    · exact .inr (beside_stepWork h)

/-- A task that is done with its work forgets it. -/
theorem relieved_forgets {t : Task} {work : Work} {a : Achievement}
    (achieved : w.achievement? work = some a) :
    Forgets (w.relieve t) ((w.relieve t).forget work) work := by
  have achieved : (w.relieve t).achievement? work = some a := by cases work <;> exact achieved
  exact forget_forgets achieved

/-- **A task that has achieved its work is relieved of it**, and the work is forgotten. -/
theorem relieved_spec {t : Task} {work : Work} {a : Achievement} (job : w.work? t = some work)
    (achieved : w.achievement? work = some a) : Relieved w ((w.relieve t).forget work) t work :=
  have forgets := relieved_forgets (t := t) achieved
  ⟨job, forgets.jobs, forgets.requests⟩

/-- Another task may be relieved of what it achieved, and serving is let alone. -/
theorem apart_relieved {t : Task} {work : Work} {a : Achievement} (other : t ≠ .serve)
    (achieved : w.achievement? work = some a) : Apart w ((w.relieve t).forget work) := by
  have forgets := relieved_forgets (t := t) achieved
  refine (apart_relieve other).trans ⟨?_, forgets.supervisor⟩
  rw [work?, work?, forgets.jobs]

/-- The server does not change when a task is relieved of what it achieved. -/
theorem server_relieved {t : Task} {work : Work} {a : Achievement}
    (achieved : w.achievement? work = some a) : ((w.relieve t).forget work).server = w.server :=
  (relieved_forgets achieved).server

theorem apart_beginErrand {t : Task} (other : t ≠ .serve) (errand : Supervisor.Errand) :
    Apart w (w.beginErrand t errand) :=
  .trans (beside_move (by trivial)).apart (apart_assign other _)

theorem apart_beginRequest {t : Task} (other : t ≠ .serve) (request : Request) (token : Token) :
    Apart w (w.beginRequest t request token) := by
  simp only [beginRequest]
  refine .trans ?_ (beside_getD fun _ => beside_send?).apart
  exact (apart_assign other _).after rfl rfl

theorem server_beginRequest (w : World) (t : Task) (request : Request) (token : Token) :
    (w.beginRequest t request token).server = w.server := by
  simp only [beginRequest]
  exact (beside_getD fun _ => beside_send?).server

end World

end CompilerSession.Simulation
