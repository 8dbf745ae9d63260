import CompilerSession.Proofs.Dispatch.Losses
import CompilerSession.Proofs.Server.Beside
import CompilerSession.Proofs.Session.Dispatching

/-
How the death of a process is noticed.

A process that dies while it answers a request is noticed twice: its channel fails, and its exit is
seen. The dispatcher hears of both, of the first by the end of the call and of the second by its own
watch, and it does not matter which one it hears of first (`Dispatch.Notices`). What makes them
alike is the exit code. The watch has it from the exit, and a call whose channel failed waits for
the exit before it ends, so it has the same one if the exit is seen in time (`settle_eq`).

In time means within half a second, and time is a matter of the world (`World.Lingers`).
-/

set_option autoImplicit false

namespace CompilerSession

/-- The process closed its side, or the pipes to it broke. -/
def ChannelFault.breaks : ChannelFault → Bool
  | .closed _ | .io _ => true
  | .protocol _ => false

namespace Dispatch

/-! ## The dispatcher -/

/-- **All that the death of a process brings about** while it answers the request of `x` and those
of `q` wait. Only the reason tells how it was noticed. -/
def deathEffects (fired : Token → Bool) (x : Entry) (q : List Entry) (reason : String)
    (code : Option Int) : List Effect :=
  .resolved x.id (.error (if fired x.token then .cancelled else .subprocess reason code)) ::
    q.map (fun y => .resolved y.id (.error (.stale x.generation))) ++
      [.lost ⟨x.generation, reason, code⟩]

/-- **A death is noticed** by the first of two inputs, for this reason, and the second one comes to
nothing. -/
structure Notices (fired late : Token → Bool) (s : State) (x : Entry) (first second : Input)
    (reason : String) (code : Option Int) : Prop where
  first : step fired s first = (.vacant false, deathEffects fired x s.queue reason code)
  second : step late (.vacant false) second = (.vacant false, [])

section Notices

variable {s : State} (hs : Settled s) {x : Entry} (inFlight : s.inFlight = some x)

include hs inFlight

/-- The channel of the request in flight is that of the attached process. -/
theorem Settled.attached_of_inFlight : s.attached = some x.generation ∧ s.ended = false := by
  cases hs with
  | vacant | resting => cases inFlight
  | calling w e q same =>
    obtain rfl := Option.some.inj inFlight
    exact ⟨rfl, rfl⟩

/-- **What a death brings about** while a request is in flight. -/
theorem Settled.collapse_calling (fired : Token → Bool) (reason : String) (code : Option Int) :
    s.collapse fired ⟨x.generation, reason, code⟩ = deathEffects fired x s.queue reason code := by
  have attached : s.attached = some (Loss.mk x.generation reason code).generation :=
    (hs.attached_of_inFlight inFlight).1
  rw [hs.collapse_eq attached, inFlight]
  rfl

/-- **The end of the call is noticed** like the exit, but for the reason. -/
theorem Settled.notices (fired late : Token → Bool) {c : Completion} {fault : ChannelFault}
    (current : c.answers x) (result : c.result = .error fault) (exit : Exit)
    (code : c.exitCode = exit.code) :
    Notices fired late s x (.completed c) (.exited exit) fault.message exit.code ∧
      Notices fired late s x (.exited exit) (.completed c) exit.message exit.code := by
  obtain ⟨attached, -⟩ := hs.attached_of_inFlight inFlight
  have byCall := (step_iteration fired hs (.completed c)).fails
    (.call c x fault inFlight current result)
  have byExit := (step_iteration fired hs (.exited exit)).fails (.exit _ exit attached)
  rw [code, hs.collapse_calling inFlight] at byCall
  rw [hs.collapse_calling inFlight] at byExit
  exact ⟨⟨Prod.ext byCall.1 byCall.2, rfl⟩, ⟨Prod.ext byExit.1 byExit.2, rfl⟩⟩

end Notices

end Dispatch

namespace Supervisor

open Dispatch (Loss Effect Input Stimulus Settled Notices deathEffects)
open Machine (outputs)

/-! ## The call -/

/-- **A call whose channel failed** is still under way for the request in flight. -/
structure Lingering (s : Supervisor) (x : Dispatch.Entry) (c : Call) (fault : ChannelFault) :
    Prop where
  inFlight : s.dispatch.inFlight = some x
  call : s.calls.find? (·.entry.id = x.id) = some c
  failed : c.fault = some fault

/-- **A call whose process died**: its channel failed, and the exit can be seen while the call
lingers. -/
structure Dying (s : Supervisor) (x : Dispatch.Entry) (c : Call) (fault : ChannelFault)
    (exit : Exit) : Prop extends Lingering s x c fault where
  visible : s.exit? c.process = some exit

/-- **A call whose channel breaks lingers.** -/
theorem answer_lingers {s : Supervisor} {x : Dispatch.Entry} {c : Call} {fault : ChannelFault}
    (inFlight : s.dispatch.inFlight = some x)
    (call : s.calls.find? (·.entry.id = x.id) = some c) (sound : c.fault = none)
    (breaks : fault.breaks = true) :
    Lingering (s.answer x.id (.error fault)).1 x { c with fault := some fault } fault ∧
      (s.answer x.id (.error fault)).2 = [.lingering x.id] := by
  have lingers : s.answer x.id (.error fault) = answer.linger s x.id fault := by
    cases fault with
    | closed | io => simp only [answer, call, sound]
    | protocol => cases breaks
  have same : c.entry.id = x.id := by simpa using List.find?_some call
  have found : (s.calls.map fun c =>
      if c.entry.id = x.id then { c with fault := some fault } else c).find? (·.entry.id = x.id) =
        some { c with fault := some fault } := by
    have kept : ((fun c => decide (c.entry.id = x.id)) ∘ fun c : Call =>
        if c.entry.id = x.id then { c with fault := some fault } else c) =
          fun c => decide (c.entry.id = x.id) := by
      funext c
      rw [Function.comp_apply]
      split <;> rfl
    rw [List.find?_map, kept, call, Option.map_some, if_pos same]
  rw [lingers]
  exact ⟨⟨inFlight, found, rfl⟩, rfl⟩

/-- How the call ends. -/
def Call.ended (c : Call) (fault : ChannelFault) (exit : Exit) : Dispatch.Completion :=
  ⟨c.entry.id, c.entry.generation, c.process, .error fault, exit.code⟩

/-- What others learn of a death. -/
def deathSignals (fired : Token → Bool) (x : Dispatch.Entry) (q : List Dispatch.Entry)
    (reason : String) (code : Option Int) : List Signal :=
  .resolved x.id (.error (if fired x.token then .cancelled else .subprocess reason code)) ::
    q.map (fun y => .resolved y.id (.error (.stale x.generation))) ++ [.lost]

/-- **What is left after a death**: nothing is attached, the call is over and the loss is known. -/
def bereft (s : Supervisor) (x : Dispatch.Entry) (reason : String) (code : Option Int) :
    Supervisor :=
  { s with
    dispatch := .vacant false
    calls := s.calls.filter (·.entry.id ≠ x.id)
    losses := s.losses ++ [⟨x.generation, reason, code⟩] }

/-- An outcome is told, and changes nothing. -/
theorem absorb_resolved (s : Supervisor) (id : RequestId) (outcome : Outcome) (es : List Effect) :
    s.absorb (.resolved id outcome :: es) =
      ((s.absorb es).1, .resolved id outcome :: (s.absorb es).2) :=
  rfl

/-- Of a death there remains one loss, and the outcomes are told. -/
theorem absorb_deathEffects (s : Supervisor) (fired : Token → Bool) (x : Dispatch.Entry)
    (q : List Dispatch.Entry) (reason : String) (code : Option Int) :
    s.absorb (deathEffects fired x q reason code) =
      ({ s with losses := s.losses ++ [⟨x.generation, reason, code⟩] },
        deathSignals fired x q reason code) := by
  rw [deathEffects, List.cons_append, absorb_resolved, deathSignals, List.cons_append]
  induction q with
  | nil => rfl
  | cons y q ih =>
    obtain ⟨lost, told⟩ := Prod.mk.inj ih
    rw [List.map_cons, List.cons_append, absorb_resolved, List.map_cons, List.cons_append, lost,
      (List.cons.inj told).2]

/-- **A call whose channel failed ends with the code of the exit**, if that can be seen by then. -/
theorem settle_eq {s : Supervisor} {id : RequestId} {c : Call} {fault : ChannelFault} {exit : Exit}
    (call : s.calls.find? (·.entry.id = id) = some c) (failed : c.fault = some fault)
    (visible : s.exit? c.process = some exit) :
    s.settle id =
      ({ s with
          calls := s.calls.filter (·.entry.id ≠ c.entry.id)
          completions := s.completions ++ [c.ended fault exit] }, [.posted]) := by
  simp only [settle, call, failed, visible, complete]
  rfl

/-- The dispatcher takes its next input. -/
theorem dispatch_eq {s s' : Supervisor} {input : Input} {d : Dispatch.State} {es : List Effect}
    {fired : Token → Bool} (next : s.nextInput? = some (input, s'))
    (step : Dispatch.step fired s'.dispatch input = (d, es)) :
    s.runDispatcher fired = { s' with dispatch := d }.absorb es := by
  simp only [runDispatcher, next, step]

section Three

variable {s s₁ s₂ s₃ : Supervisor} {a b c : Move} {as bs cs : List Signal}

/-- Three moves, one after the other. -/
theorem run_three (first : s.step a = (s₁, as)) (second : s₁.step b = (s₂, bs))
    (third : s₂.step c = (s₃, cs)) :
    machine.runFrom s [a, b, c] = s₃ ∧
      outputs (machine.historyFrom s [a, b, c]) = as ++ bs ++ cs := by
  have moves : machine.step s a = (s₁, as) ∧ machine.step s₁ b = (s₂, bs) ∧
      machine.step s₂ c = (s₃, cs) :=
    ⟨first, second, third⟩
  simp [Machine.runFrom, Machine.historyFrom, outputs, Machine.Event.outputs, moves]

end Three

/-- In every run the dispatcher is settled. -/
theorem settled_dispatch (ms : List Move) : Settled (machine.run ms).dispatch := by
  rw [show (machine.run ms).dispatch = _ from (run_fair ms).dispatch]
  exact Dispatch.run_settled _

section Dying

variable {ms : List Move} {x : Dispatch.Entry} {c : Call} {fault : ChannelFault} {exit : Exit}
  (dying : Dying (machine.run ms) x c fault exit)

include dying

/-- **The dispatcher watches the process that dies**, and its call is for the request in flight. -/
theorem Dying.watched : c.entry = x ∧ (machine.run ms).watchedExit? = some exit := by
  have fair := run_fair ms
  have distinct := fair.distinct.of_append_left
  have same : c.entry.id = x.id := by simpa using List.find?_some dying.call
  have inFlight : (Dispatch.machine.run (stimuli (machine.history ms))).inFlight = some x :=
    fair.dispatch ▸ dying.inFlight
  obtain ⟨w, watched, called⟩ := (Dispatch.run_wired _ distinct fair.belong).inFlight x inFlight
  -- the request was called once
  have once := Dispatch.callsOf_eq distinct (fair.calls c (List.mem_of_find?_eq_some dying.call))
  rw [same, Dispatch.callsOf_eq distinct called] at once
  obtain ⟨rfl, rfl⟩ := Prod.mk.inj (List.cons.inj once).1
  rw [← fair.dispatch] at watched
  refine ⟨rfl, ?_⟩
  rw [watchedExit?, show (machine.run ms).dispatch.watched = _ from watched]
  exact dying.visible

/-- **Both orders of noticing a death** lead to one state, but for the reason that is told. -/
theorem Dying.notices (fired late : Token → Bool) :
    Notices fired late (machine.run ms).dispatch x (.completed (c.ended fault exit)) (.exited exit)
        fault.message exit.code ∧
      Notices fired late (machine.run ms).dispatch x (.exited exit)
        (.completed (c.ended fault exit)) exit.message exit.code := by
  obtain ⟨rfl, -⟩ := dying.watched
  exact (settled_dispatch ms).notices dying.inFlight fired late ⟨rfl, rfl⟩ rfl exit rfl

end Dying

section Schedules

variable {s : Supervisor} {x : Dispatch.Entry} {c : Call} {fault : ChannelFault} {exit : Exit}
  (dying : Dying s c.entry c fault exit) (live : s.dispatch.ended = false) (inbox : s.inbox = [])
  (completions : s.completions = [])

include dying live inbox completions

/-- The call ends, and the dispatcher hears of that. -/
theorem call_first {fired late : Token → Bool}
    (notices : Notices fired late s.dispatch c.entry (.completed (c.ended fault exit))
      (.exited exit) fault.message exit.code) :
    machine.runFrom s [.settle c.entry.id, .dispatch fired, .dispatch late] =
        s.bereft c.entry fault.message exit.code ∧
      outputs (machine.historyFrom s [.settle c.entry.id, .dispatch fired, .dispatch late]) =
        .posted :: deathSignals fired c.entry s.dispatch.queue fault.message exit.code := by
  have settled := settle_eq dying.call dying.failed dying.visible
  have taken : nextInput? (s.settle c.entry.id).1 = some (.completed (c.ended fault exit),
      { s with calls := s.calls.filter (·.entry.id ≠ c.entry.id) }) := by
    rw [settled]
    simp only [nextInput?, inbox, live, completions, List.nil_append]
    rfl
  have noticed := dispatch_eq taken notices.first
  rw [absorb_deathEffects, settled] at noticed
  -- nothing is watched any more, so the dispatcher does not hear of the exit
  have nothing : nextInput? (s.bereft c.entry fault.message exit.code) = none := by
    simp only [nextInput?, bereft, inbox, completions]
    rfl
  have tooLate : (s.bereft c.entry fault.message exit.code).runDispatcher late =
      (s.bereft c.entry fault.message exit.code, []) := by
    simp only [runDispatcher, nothing]
  have run := run_three (a := .settle c.entry.id) (b := .dispatch fired) (c := .dispatch late)
    settled noticed tooLate
  rwa [List.append_nil] at run

/-- The dispatcher sees the exit, and hears of the end of the call when it is too late. -/
theorem exit_first {fired late : Token → Bool} (watched : s.watchedExit? = some exit)
    (notices : Notices fired late s.dispatch c.entry (.exited exit)
      (.completed (c.ended fault exit)) exit.message exit.code) :
    machine.runFrom s [.dispatch fired, .settle c.entry.id, .dispatch late] =
        s.bereft c.entry exit.message exit.code ∧
      outputs (machine.historyFrom s [.dispatch fired, .settle c.entry.id, .dispatch late]) =
        deathSignals fired c.entry s.dispatch.queue exit.message exit.code ++ [.posted] := by
  have taken : s.nextInput? = some (.exited exit, s) := by
    simp only [nextInput?, inbox, live, completions, watched]
    rfl
  have noticed := dispatch_eq taken notices.first
  rw [absorb_deathEffects] at noticed
  have settled := settle_eq (s := (s.runDispatcher fired).1) (by rw [noticed]; exact dying.call)
    dying.failed (by rw [noticed]; exact dying.visible)
  have taken' : nextInput? ((s.runDispatcher fired).1.settle c.entry.id).1 =
      some (.completed (c.ended fault exit), s.bereft c.entry exit.message exit.code) := by
    rw [settled, noticed]
    simp only [nextInput?, bereft, inbox, completions, List.nil_append]
    rfl
  -- when the call has ended, nothing is in flight any more
  have tooLate : ((s.runDispatcher fired).1.settle c.entry.id).1.runDispatcher late =
      (s.bereft c.entry exit.message exit.code, []) :=
    dispatch_eq taken' notices.second
  rw [settled, noticed] at tooLate
  rw [noticed] at settled
  have run := run_three (a := .dispatch fired) (b := .settle c.entry.id) (c := .dispatch late)
    noticed settled tooLate
  rwa [List.append_nil] at run

end Schedules

/-- **Both orders come to the same**, but for the reason that is told. -/
structure Confluent (s : Supervisor) (x : Dispatch.Entry) (fault : ChannelFault) (exit : Exit)
    (fired late : Token → Bool) : Prop where
  callFirst :
    machine.runFrom s [.settle x.id, .dispatch fired, .dispatch late] =
        s.bereft x fault.message exit.code ∧
      outputs (machine.historyFrom s [.settle x.id, .dispatch fired, .dispatch late]) =
        .posted :: deathSignals fired x s.dispatch.queue fault.message exit.code
  exitFirst :
    machine.runFrom s [.dispatch fired, .settle x.id, .dispatch late] =
        s.bereft x exit.message exit.code ∧
      outputs (machine.historyFrom s [.dispatch fired, .settle x.id, .dispatch late]) =
        deathSignals fired x s.dispatch.queue exit.message exit.code ++ [.posted]

/-- **The whole supervisor comes to one state in both orders**, when nothing else is to be taken. -/
theorem Dying.confluent {ms : List Move} {x : Dispatch.Entry} {c : Call} {fault : ChannelFault}
    {exit : Exit} (dying : Dying (machine.run ms) x c fault exit)
    (inbox : (machine.run ms).inbox = []) (completions : (machine.run ms).completions = [])
    (fired late : Token → Bool) : Confluent (machine.run ms) x fault exit fired late := by
  obtain ⟨rfl, watched⟩ := dying.watched
  obtain ⟨byCall, byExit⟩ := dying.notices fired late
  have live := ((settled_dispatch ms).attached_of_inFlight dying.inFlight).2
  exact ⟨call_first dying live inbox completions byCall,
    exit_first dying live inbox completions watched byExit⟩

end Supervisor

namespace Simulation

open Supervisor (Call)

/-! ## The grace of a call -/

/-- **A call is waited for** until this time: its channel failed, and it may still learn of the
exit. -/
structure World.Awaits (w : World) (id : RequestId) (c : Call) (fault : ChannelFault)
    (deadline : Nat) : Prop where
  call : w.supervisor.calls.find? (·.entry.id = id) = some c
  failed : c.fault = some fault
  run : ∃ r, w.calls.find? (·.entry.id = id) = some r ∧ r.process = c.process ∧
    r.stage = .lingering deadline

/-- **How long a call waits for the exit** of its process. -/
structure World.Lingers (w : World) : Prop where
  /-- It has half a second. -/
  asked : ∀ id, (w.hear (.lingering id)).timers =
      w.timers ++ [⟨w.supervisor.clock + 500, .call id⟩] ∧
    ∀ r ∈ (w.hear (.lingering id)).calls, r.entry.id = id →
      r.stage = .lingering (w.supervisor.clock + 500)
  /-- When the exit can be seen, it ends with the code. -/
  seen : ∀ id c fault deadline exit, w.Awaits id c fault deadline →
    w.supervisor.exit? c.process = some exit →
    ∃ w', w.stepCall? id = some w' ∧ w'.supervisor = (w.supervisor.settle id).1 ∧
      w'.supervisor.completions = w.supervisor.completions ++ [c.ended fault exit]
  /-- Until then it does not end before the time is up. -/
  waits : ∀ id c fault deadline, w.Awaits id c fault deadline →
    w.supervisor.exit? c.process = none →
    ((w.stepCall? id).isSome = true ↔ deadline ≤ w.supervisor.clock)

/-- A call that lingers is settled by the supervisor. -/
theorem World.move_settle (w : World) (id : RequestId) :
    (w.move (.settle id)).supervisor = (w.supervisor.settle id).1 := by
  have told : (w.supervisor.settle id).2 = [] ∨ (w.supervisor.settle id).2 = [.posted] := by
    unfold Supervisor.settle
    split
    · split
      · exact .inr rfl
      · exact .inl rfl
    · exact .inl rfl
  show ((w.supervisor.settle id).2.foldl hear _).supervisor = _
  rcases told with nothing | posted
  · rw [nothing]
    rfl
  · obtain ⟨ready, woken⟩ :=
      wakes_wake { w with supervisor := (w.supervisor.settle id).1 } .dispatcher
    rw [posted, List.foldl_cons, List.foldl_nil, hear]
    exact congrArg World.supervisor woken

/-- **A call that lingers takes the exit's code**, if the exit is known within the time. -/
theorem World.lingers (w : World) : w.Lingers where
  asked := by
    intro id
    refine ⟨rfl, fun r member same => ?_⟩
    obtain ⟨r', -, rfl⟩ := List.mem_map.mp member
    split at same
    · rename_i named
      exact congrArg CallRun.stage (if_pos named)
    · rename_i other
      exact absurd same other
  seen := by
    intro id c fault deadline exit awaits visible
    obtain ⟨r, known, process, stage⟩ := awaits.run
    have step : w.stepCall? id = some ((w.setCall id .silent).move (.settle id)) := by
      simp only [stepCall?, known, stage, process, visible]
      rfl
    refine ⟨_, step, move_settle _ id, ?_⟩
    rw [move_settle]
    exact congrArg (fun r => r.1.completions)
      (Supervisor.settle_eq awaits.call awaits.failed visible)
  waits := by
    intro id c fault deadline awaits unseen
    obtain ⟨r, known, process, stage⟩ := awaits.run
    simp only [stepCall?, known, stage, process, unseen]
    by_cases due : deadline ≤ w.supervisor.clock
    · rw [if_pos (.inr due)]
      exact iff_of_true rfl due
    · rw [if_neg (by simpa using due)]
      exact iff_of_false nofun due

end Simulation

namespace Supervisor

open Dispatch (Stimulus Notices)

/-! ## The law -/

/-- **It does not matter how a crash is noticed first.**

* While a request is being answered, let its call end with a fault and the code of an exit, and let
  that exit be seen. The dispatcher may hear of either first. The request bears the blame unless its
  token fired, those that wait go stale, one loss of the attached generation is reported, and
  nothing is attached any more; what it hears of second comes to nothing. Only the reason differs.
* A call whose channel breaks lingers for the exit. If that can be seen before the call ends, it is
  the one that the dispatcher watches for, and the call ends with its code.
* So for a call that lingers the two orders lead to the same state and tell everybody the same,
  again but for the reason.
* It ends as soon as the exit can be seen, and without it not before half a second has passed. -/
theorem crash_detection_is_confluent :
    (∀ (xs : List Stimulus) (x : Dispatch.Entry) (c : Dispatch.Completion) (fault : ChannelFault)
      (exit : Exit),
      (Dispatch.machine.run xs).inFlight = some x → c.answers x → c.result = .error fault →
      c.exitCode = exit.code → ∀ fired late,
        (Dispatch.machine.run xs).attached = some x.generation ∧
        Notices fired late (Dispatch.machine.run xs) x (.completed c) (.exited exit)
          fault.message exit.code ∧
        Notices fired late (Dispatch.machine.run xs) x (.exited exit) (.completed c)
          exit.message exit.code) ∧
    (∀ (s : Supervisor) (x : Dispatch.Entry) (c : Call) (fault : ChannelFault),
      s.dispatch.inFlight = some x → s.calls.find? (·.entry.id = x.id) = some c →
      c.fault = none → fault.breaks = true →
        Lingering (s.answer x.id (.error fault)).1 x { c with fault := some fault } fault ∧
          (s.answer x.id (.error fault)).2 = [.lingering x.id]) ∧
    (∀ (ms : List Move) (x : Dispatch.Entry) (c : Call) (fault : ChannelFault) (exit : Exit),
      Dying (machine.run ms) x c fault exit →
        (∃ xs, (machine.run ms).dispatch = Dispatch.machine.run xs) ∧
        (machine.run ms).watchedExit? = some exit ∧
        ((machine.run ms).settle x.id).1.completions = (machine.run ms).completions ++
          [⟨x.id, x.generation, c.process, .error fault, exit.code⟩] ∧
        ((machine.run ms).inbox = [] → (machine.run ms).completions = [] →
          ∀ fired late, Confluent (machine.run ms) x fault exit fired late)) ∧
    ∀ w : Simulation.World, w.Lingers := by
  refine ⟨?_, ?_, ?_, Simulation.World.lingers⟩
  · intro xs x c fault exit inFlight current result code fired late
    have settled := Dispatch.run_settled xs
    exact ⟨(settled.attached_of_inFlight inFlight).1,
      settled.notices inFlight fired late current result exit code⟩
  · intro s x c fault inFlight call sound breaks
    exact answer_lingers inFlight call sound breaks
  · intro ms x c fault exit dying
    refine ⟨⟨_, (run_fair ms).dispatch⟩, dying.watched.2, ?_, dying.confluent⟩
    have settled := settle_eq dying.call dying.failed dying.visible
    obtain ⟨rfl, -⟩ := dying.watched
    rw [settled]
    rfl

/-- A process dies while it answers one request and another one waits. -/
def noticedRun : List Move :=
  [.begin .start, .proceed 0 .nothing] ++ launching 0 7 ++
    [ .submit ⟨"", ["check"], none⟩ 0, .submit ⟨"", ["check"], none⟩ 1, .dispatch fun _ => false,
      .dispatch fun _ => false, .answer 1 (.error (.closed "end")), .exit 0 ⟨some 3⟩ ]

/-- The call that the process was answering, with what is known of its channel. -/
def noticedCall (fault : Option ChannelFault) : Call :=
  ⟨⟨1, ⟨"", ["check"], none⟩, 0, 1⟩, 0, fault⟩

/-- In this run the channel of a call breaks and its process exits with a code; whichever is noticed
first, the call takes the code. -/
theorem noticedRun_is_confluent :
    Lingering ((machine.run (noticedRun.take 10)).answer 1 (.error (.closed "end"))).1
      (noticedCall none).entry (noticedCall (some (.closed "end"))) (.closed "end") ∧
    Dying (machine.run noticedRun) (noticedCall none).entry (noticedCall (some (.closed "end")))
      (.closed "end") ⟨some 3⟩ ∧
    Dispatch.step (fun _ => false) (machine.run noticedRun).dispatch
        (.completed ⟨1, 1, 0, .error (.closed "end"), some 3⟩) =
      (.vacant false,
        [.resolved 1 (.error (.subprocess "display process closed its output: end" (some 3))),
          .resolved 2 (.error (.stale 1)),
          .lost ⟨1, "display process closed its output: end", some 3⟩]) ∧
    ((machine.run noticedRun).settle 1).1.completions =
      [⟨1, 1, 0, .error (.closed "end"), some 3⟩] ∧
    Confluent (machine.run noticedRun) (noticedCall none).entry (.closed "end") ⟨some 3⟩
      (fun _ => false) (fun _ => true) ∧
    ∃ w w' : Simulation.World,
      w.Awaits 1 (noticedCall (some (.closed "end"))) (.closed "end") 500 ∧
      w.stepCall? 1 = some w' ∧
      w'.supervisor.completions = [⟨1, 1, 0, .error (.closed "end"), some 3⟩] := by
  obtain ⟨signals, lingers, dying, grace⟩ := crash_detection_is_confluent
  have lingering := (lingers (machine.run (noticedRun.take 10)) (noticedCall none).entry
    (noticedCall none) (.closed "end") rfl rfl rfl rfl).1
  have call : Dying (machine.run noticedRun) (noticedCall none).entry
      (noticedCall (some (.closed "end"))) (.closed "end") ⟨some 3⟩ :=
    ⟨⟨rfl, rfl, rfl⟩, rfl⟩
  obtain ⟨⟨xs, dispatch⟩, -, ended, confluent⟩ := dying _ _ _ _ _ call
  obtain ⟨-, noticed, -⟩ := signals xs (noticedCall none).entry
    ⟨1, 1, 0, .error (.closed "end"), some 3⟩ (.closed "end") ⟨some 3⟩ (dispatch ▸ rfl) ⟨rfl, rfl⟩
    rfl rfl (fun _ => false) fun _ => true
  rw [← dispatch] at noticed
  -- a world in which the call of this run lingers
  have awaits : Simulation.World.Awaits
      { Simulation.World.initial .linux with
        supervisor := machine.run noticedRun
        calls := [⟨(noticedCall none).entry, 0, .lingering 500⟩] }
      1 (noticedCall (some (.closed "end"))) (.closed "end") 500 :=
    ⟨rfl, rfl, _, rfl, rfl, rfl⟩
  obtain ⟨w', step, -, told⟩ := (grace _).seen 1 _ _ _ ⟨some 3⟩ awaits rfl
  exact ⟨lingering, call, noticed.first, ended, confluent rfl rfl _ _, _, w', awaits, step, told⟩

end Supervisor

end CompilerSession
