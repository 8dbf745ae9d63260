import CompilerSession.Proofs.Session.Attachment
import CompilerSession.Proofs.Session.Dropping
import CompilerSession.Proofs.Dispatch.Order

/-
The dispatcher within its supervisor.

The laws of the dispatcher are about all its runs in which requests have different numbers,
completions belong to calls, and no generation is attached twice. Here it is shown that its
supervisor gives it only such runs, so that the laws hold of every run of the supervisor.

`Traffic` is what stands between callers, calls and the dispatcher. `Flow` has one rule for each
thing that can happen to it, with what is done to processes at the same time, and `step_flow` says
that every move is by one of the rules. What the dispatcher is told in a run is then a list of
stimuli, `stimuli`, and `Traffic.Fair` says that everything in the traffic goes back to them.
-/

set_option autoImplicit false

namespace CompilerSession.Supervisor

open Dispatch (Loss Effect Input Stimulus Settled Belongs AttachedOnce submissions)

/-! ## What is done to processes -/

/-- **What is done to a process.** -/
inductive Deed where
  | called (entry : Dispatch.Entry) (process : ProcessId)
  | spawned (process : ProcessId)
  | killing (process : ProcessId)
  deriving DecidableEq

def Signal.deed? : Signal → Option Deed
  | .called x p => some (.called x p)
  | .spawned p _ => some (.spawned p)
  | .killing _ p => some (.killing p)
  | _ => none

/-- **The deeds** that others learn of, in order. -/
def deeds (signals : List Signal) : List Deed :=
  signals.filterMap Signal.deed?

@[simp] theorem deeds_nil : deeds [] = [] := rfl

@[simp] theorem deeds_append (xs ys : List Signal) : deeds (xs ++ ys) = deeds xs ++ deeds ys :=
  List.filterMap_append

/-- The calls that the effects of the dispatcher start. -/
def callDeeds (effects : List Effect) : List Deed :=
  (Dispatch.calls effects).map fun c => .called c.1 c.2

/-! ## Traffic -/

/-- **Between callers, calls and the dispatcher.** -/
@[ext]
structure Traffic where
  dispatch : Dispatch.State
  /-- The requests that were submitted and not taken yet, oldest first. -/
  asked : List RequestId
  completions : List Dispatch.Completion
  calls : List Call
  nextRequest : RequestId

def traffic (s : Supervisor) : Traffic where
  dispatch := s.dispatch
  asked := s.inbox.filterMap fun c => (Input.command c).submitted?
  completions := s.completions
  calls := s.calls
  nextRequest := s.nextRequest

/-- Nothing happens to the traffic, and this is what is done to processes. -/
structure Does (s : Supervisor) (r : Supervisor × List Signal) (ds : List Deed) : Prop where
  traffic : r.1.traffic = s.traffic
  deeds : deeds r.2 = ds

/-- Nothing happens to the traffic, and nothing is done to processes. -/
abbrev Plain (s : Supervisor) (r : Supervisor × List Signal) : Prop := Does s r []

section Plain

variable (s : Supervisor)

@[simp] theorem traffic_enter (purpose : Purpose) : (s.enter purpose).traffic = s.traffic := by
  unfold enter
  cases h : s.holder <;> rfl

/-- Giving back the lock leaves the traffic alone. -/
theorem plain_release : Plain s s.release := by
  unfold release
  split <;> exact ⟨rfl, rfl⟩

/-- The traffic after calls were started. -/
def Traffic.calling (t : Traffic) (effects : List Effect) : Traffic :=
  { t with calls := t.calls ++ (Dispatch.calls effects).map fun c => ⟨c.1, c.2, none⟩ }

/-- Of the effects of the dispatcher only calls matter here. -/
theorem absorb_calls (es : List Effect) :
    (s.absorb es).1.traffic = s.traffic.calling es ∧ deeds (s.absorb es).2 = callDeeds es := by
  induction es generalizing s with
  | nil => exact ⟨by simp [absorb, Traffic.calling], rfl⟩
  | cons e es ih =>
    obtain ⟨traffic, done⟩ := ih (s.absorbOne e).1
    rw [absorb, deeds_append, done]
    refine ⟨traffic.trans ?_, ?_⟩
    · cases e with
      | called x p => simp [absorbOne, Supervisor.traffic, Traffic.calling]
      | resolved | lost => rfl
      | attached | detached | refused =>
        simp only [absorbOne]
        split <;> rfl
    · cases e with
      | called | resolved | lost => rfl
      | attached | detached | refused =>
        simp only [absorbOne]
        split <;> rfl

/-- Effects that are no calls leave the traffic alone. -/
theorem plain_absorb {es : List Effect} (h : Dispatch.calls es = []) : Plain s (s.absorb es) := by
  obtain ⟨traffic, done⟩ := absorb_calls s es
  exact ⟨by simp [traffic, Traffic.calling, h], by simp [done, callDeeds, h]⟩

/-- A command of an operation, or of a caller who gives up, is plain. -/
theorem plain_post {c : Dispatch.Command} (h : (Input.command c).submitted? = none) :
    Plain s (s.post c) := by
  unfold post
  split
  · exact plain_absorb s (Dispatch.calls_refuse c)
  · refine ⟨?_, rfl⟩
    simp [traffic, List.filterMap_append, h]

variable {s} {t : Supervisor} {signals : List Signal}

/-- One after the other. -/
theorem Does.andThen {r : Supervisor × List Signal} (first : Plain s (t, signals))
    (rest : Plain t r) : Plain s (r.1, signals ++ r.2) := by
  refine ⟨rest.traffic.trans first.traffic, ?_⟩
  rw [deeds_append, first.deeds, rest.deeds]
  rfl

/-- A step does the same from a state with the same traffic. -/
theorem Does.of_traffic {r : Supervisor × List Signal} {ds : List Deed} (does : Does t r ds)
    (same : t.traffic = s.traffic) : Does s r ds :=
  ⟨does.traffic.trans same, does.deeds⟩

variable (s)

theorem plain_finish (o : Operation) (result : Result) : Plain s (s.finish o result) := by
  have released : Plain s (s.setStage o.id (o.purpose.last result)).release :=
    (plain_release _).of_traffic rfl
  revert released
  unfold finish
  cases o.purpose with
  | start | stop | restart | shutdown => exact id
  | crash => exact fun released => ⟨released.traffic, released.deeds⟩

theorem plain_conclude (o : Operation) (outcome : Except Failure Info) :
    Plain s (s.conclude o outcome) := by
  unfold conclude
  cases o.purpose <;> exact (plain_finish _ o _).of_traffic rfl

theorem plain_fail (o : Operation) (failure : Failure) : Plain s (s.fail o failure) :=
  (plain_conclude _ o _).of_traffic rfl

theorem plain_beginTeardown (o : Operation) (l : Live) : Plain s (s.beginTeardown o l) :=
  (plain_post _ rfl).of_traffic rfl

/-- Giving an operation up is plain. -/
theorem plain_abandon (id : OperationId) : Plain s (s.abandon id) := by
  unfold abandon
  split
  · exact (plain_release _).of_traffic rfl
  · exact ⟨rfl, rfl⟩

/-! ## What operations do -/

/-- **What an operation does to processes** when it goes on: it kills the process that it is done
with, or spawns a new one. -/
def Operation.deeds (o : Operation) (seen : Observation) (session : Option Live)
    (next : ProcessId) : List Deed :=
  match o.stage, seen with
  | .entered, _ =>
    match o.purpose, session with
    | .crash loss, some l => if l.generation = loss.generation then [.killing l.process] else []
    | _, _ => []
  | .detached l, _ | .refused l, _ => [.killing l.process]
  | .launching, .launched (.ok _) => [.spawned next]
  | .probing p _, .probed outcome =>
    match Probe.verdict outcome with
    | .error _ => [.killing p]
    | .ok _ => []
  | _, _ => []

/-- No operation calls a process. -/
theorem called_notMem_deeds (o : Operation) (seen : Observation) (session : Option Live)
    (next : ProcessId) (x : Dispatch.Entry) (p : ProcessId) :
    .called x p ∉ o.deeds seen session next := by
  unfold Operation.deeds
  repeat' split
  all_goals simp

variable {o : Operation} {seen : Observation}

/-- **On its turn an operation does what its purpose and the session demand.** -/
theorem entered_does (stage : o.stage = .entered) :
    Does s (s.entered o) (o.deeds seen s.session s.processes.length) := by
  unfold entered
  cases purpose : o.purpose with
  | start =>
    simp only [Operation.deeds, stage, purpose]
    cases s.session with
    | none => exact ⟨rfl, rfl⟩
    | some l => exact plain_finish s o _
  | stop | shutdown =>
    simp only [Operation.deeds, stage, purpose]
    cases s.session with
    | none => exact plain_finish s o _
    | some l => exact (plain_beginTeardown _ o l).of_traffic rfl
  | restart ticket =>
    simp only [Operation.deeds, stage, purpose]
    split
    · exact plain_finish s o _
    · simp only [setStatus]
      cases s.session with
      | none => exact ⟨rfl, rfl⟩
      | some l => exact (plain_beginTeardown _ o l).of_traffic rfl
  -- a report that is outdated kills nobody
  | crash loss =>
    simp only [Operation.deeds, stage, purpose]
    cases s.session with
    | none => exact plain_finish s o _
    | some l =>
      by_cases same : l.generation = loss.generation
      · simp only [if_pos same]
        exact ⟨rfl, rfl⟩
      · simp only [if_neg same]
        exact plain_finish s o _

/-- After a kill nothing more is done to the process. -/
theorem afterKill_plain (next : Aftermath) : Plain s (s.afterKill o next) := by
  unfold afterKill
  cases next with
  | launchFailed failure => exact plain_fail s o failure
  | tornDown l =>
    have gone : Plain s ({ s with current := none }.announce (.stopped l.generation)) := ⟨rfl, rfl⟩
    cases o.purpose with
    | restart => exact ⟨rfl, rfl⟩
    | start | stop | shutdown | crash => exact gone.andThen ((plain_finish _ o _).of_traffic rfl)
  | crashed l loss =>
    have gone (e : Event) : Plain s (({ s with current := none }.setStatus .stopped).announce e) :=
      ⟨rfl, rfl⟩
    exact (gone _).andThen (plain_finish _ o _)

theorem becomeReady_plain (l : Live) : Plain s (s.becomeReady o l) := by
  have ready : Plain s
      (({ s with current := some l.info, session := some l }.setStatus .ready).announce
        (.ready l.generation l.version)) := ⟨rfl, rfl⟩
  exact ready.andThen (plain_conclude _ o _)

/-- **Operations leave the traffic alone**, and do what their stage asks for. -/
theorem proceed_does (h : s.operation? o.id = some o) (seen : Observation) :
    Does s (s.proceed o.id seen) (o.deeds seen s.session s.processes.length) := by
  have stuck : Plain s (s, []) := ⟨rfl, rfl⟩
  simp only [proceed, h]
  -- one case for each stage, and within it for what the operation has seen
  cases stage : o.stage with
  | entered => exact entered_does s stage
  | detached l | refused l =>
    simp only [Operation.deeds, stage]
    exact ⟨rfl, rfl⟩
  | attached l =>
    simp only [Operation.deeds, stage]
    exact becomeReady_plain s l
  | drawn | waiting | detaching | attaching | done =>
    simp only [Operation.deeds, stage]
    exact stuck
  | leaving =>
    simp only [Operation.deeds, stage]
    exact (plain_post _ rfl).of_traffic rfl
  | killing p next =>
    simp only [Operation.deeds, stage]
    cases seen with
    | killed => exact afterKill_plain s next
    | nothing | launched | probed => exact stuck
  | launching =>
    simp only [Operation.deeds, stage]
    cases seen with
    | launched outcome =>
      cases outcome with
      | error failure => exact plain_fail s o failure
      | ok launched => exact ⟨rfl, rfl⟩
    | nothing | killed | probed => exact stuck
  | probing p toolchain =>
    simp only [Operation.deeds, stage]
    cases seen with
    | probed outcome =>
      simp only [afterProbe]
      cases Probe.verdict outcome with
      | error failure => exact ⟨rfl, rfl⟩
      | ok version => exact (plain_post _ rfl).of_traffic rfl
    | nothing | killed | launched => exact stuck

end Plain

/-! ## Flow -/

/-- **What the dispatcher takes** at an event. -/
def stimulus? (e : machine.Event) : Option Stimulus :=
  match e.action with
  | .dispatch fired => e.before.nextInput?.map fun taken => ⟨fired, taken.1⟩
  | _ => none

def completion? : Input → Option Dispatch.Completion
  | .completed c => some c
  | _ => none

/-- **The rules of the traffic**: what the dispatcher takes at a move, what becomes of the traffic,
and what is done to processes. -/
inductive Flow (t : Traffic) : Move → Option Stimulus → Traffic → List Deed → Prop where
  | aside (move : Move) : Flow t move none t []
  | operation (id : OperationId) (seen : Observation) (ds : List Deed)
      (h : ∀ x p, .called x p ∉ ds) : Flow t (.proceed id seen) none t ds
  | submitted (request : Request) (token : Token) :
      Flow t (.submit request token) none
        { t with asked := t.asked ++ [t.nextRequest], nextRequest := t.nextRequest + 1 } []
  | turnedAway (request : Request) (token : Token) :
      Flow t (.submit request token) none { t with nextRequest := t.nextRequest + 1 } []
  | taken (x : Stimulus) (asked : List RequestId) (completions : List Dispatch.Completion)
      (ha : t.asked = x.input.submitted?.toList ++ asked)
      (hc : t.completions = (completion? x.input).toList ++ completions) :
      Flow t (.dispatch x.fired) (some x)
        (Traffic.calling
          { t with
            dispatch := (Dispatch.step x.fired t.dispatch x.input).1, asked, completions }
          (Dispatch.step x.fired t.dispatch x.input).2)
        (callDeeds (Dispatch.step x.fired t.dispatch x.input).2)
  | lingering (id : RequestId) (result : Except ChannelFault Response) (fault : ChannelFault) :
      Flow t (.answer id result) none
        { t with
          calls := t.calls.map fun c =>
            if c.entry.id = id then { c with fault := some fault } else c }
        []
  | ended (move : Move) (c : Call) (h : c ∈ t.calls) (result : Except ChannelFault Response)
      (code : Option Int) :
      Flow t move none
        { t with
          calls := t.calls.filter (·.entry.id ≠ c.entry.id)
          completions :=
            t.completions ++ [⟨c.entry.id, c.entry.generation, c.process, result, code⟩] }
        []

section Flow

variable {s : Supervisor}

/-- A step that leaves the traffic alone may be any move. -/
theorem plain_flow {r : Supervisor × List Signal} (plain : Plain s r) (move : Move) :
    Flow s.traffic move none r.1.traffic (deeds r.2) := by
  rw [plain.traffic, plain.deeds]
  exact .aside move

/-- A request that is submitted is asked, or turned away at once. -/
theorem submit_flow (request : Request) (token : Token) :
    Flow s.traffic (.submit request token) none (s.submit request token).1.traffic
      (deeds (s.submit request token).2) := by
  simp only [submit, post]
  split
  · exact .turnedAway request token
  · have rule := Flow.submitted (t := s.traffic) request token
    show Flow _ _ _ _ []
    simpa [traffic, List.filterMap_append, Input.submitted?] using rule

/-- What is left when the dispatcher has taken its next input. -/
theorem nextInput?_traffic {input : Input} {s' : Supervisor}
    (h : s.nextInput? = some (input, s')) :
    s.traffic.asked = input.submitted?.toList ++ s'.traffic.asked ∧
      s.traffic.completions = (completion? input).toList ++ s'.traffic.completions ∧
      s'.dispatch = s.dispatch ∧ s'.calls = s.calls ∧ s'.nextRequest = s.nextRequest := by
  unfold nextInput? at h
  split at h
  · rename_i c rest inbox
    obtain ⟨rfl, rfl⟩ := Prod.mk.inj (Option.some.inj h)
    refine ⟨?_, rfl, rfl, rfl, rfl⟩
    simp only [traffic, inbox]
    cases hc : (Input.command c).submitted? <;> simp [hc]
  · rename_i inbox
    split at h
    · cases h
    · split at h
      · rename_i c rest completions
        obtain ⟨rfl, rfl⟩ := Prod.mk.inj (Option.some.inj h)
        exact ⟨rfl, completions, rfl, rfl, rfl⟩
      · obtain ⟨exit, -, h⟩ := Option.map_eq_some_iff.mp h
        obtain ⟨rfl, rfl⟩ := Prod.mk.inj h
        exact ⟨rfl, rfl, rfl, rfl, rfl⟩

/-- **The dispatcher takes one input from the traffic**, and calls what it starts. -/
theorem dispatch_flow (fired : Token → Bool) :
    Flow s.traffic (.dispatch fired) (stimulus? ⟨s, .dispatch fired⟩)
      (s.runDispatcher fired).1.traffic (deeds (s.runDispatcher fired).2) := by
  simp only [stimulus?, runDispatcher]
  cases next : s.nextInput? with
  | none => exact .aside _
  | some taken =>
    obtain ⟨input, s'⟩ := taken
    obtain ⟨asked, completions, dispatch, calls, next⟩ := nextInput?_traffic next
    have rule := Flow.taken (t := s.traffic) ⟨fired, input⟩ _ _ asked completions
    obtain ⟨heard, done⟩ := absorb_calls
      { s' with dispatch := (Dispatch.step fired s'.dispatch input).1 }
      (Dispatch.step fired s'.dispatch input).2
    have left : traffic { s' with dispatch := (Dispatch.step fired s'.dispatch input).1 } =
        { s.traffic with
          dispatch := (Dispatch.step fired s.dispatch input).1
          asked := s'.traffic.asked, completions := s'.traffic.completions } :=
      Traffic.ext (by rw [← dispatch]; rfl) rfl rfl calls next
    simp only [heard, done, left]
    rw [dispatch]
    exact rule

/-- An answer completes its call, or tells a call of the fault after which it lingers. -/
theorem answer_flow (id : RequestId) (result : Except ChannelFault Response) :
    Flow s.traffic (.answer id result) none (s.answer id result).1.traffic
      (deeds (s.answer id result).2) := by
  unfold answer
  split
  · exact .aside _
  · rename_i c found
    have member : c ∈ s.traffic.calls := List.mem_of_find?_eq_some found
    split
    · exact .aside _
    · exact .lingering id _ _
    · exact .lingering id _ _
    · exact .ended _ c member _ none

/-- A call that lingers is completed in the end. -/
theorem settle_flow (id : RequestId) :
    Flow s.traffic (.settle id) none (s.settle id).1.traffic (deeds (s.settle id).2) := by
  unfold settle
  split
  · rename_i c found
    have member : c ∈ s.traffic.calls := List.mem_of_find?_eq_some found
    split
    · exact .ended _ c member _ _
    · exact .aside _
  · exact .aside _

/-- An operation touches no calls. -/
theorem proceed_flow (id : OperationId) (seen : Observation) :
    Flow s.traffic (.proceed id seen) none (s.proceed id seen).1.traffic
      (deeds (s.proceed id seen).2) := by
  cases h : s.operation? id with
  | none =>
    simp only [proceed, h]
    exact .aside _
  | some o =>
    obtain rfl := operation?_id h
    have does := proceed_does s h seen
    rw [does.traffic, does.deeds]
    exact .operation _ _ _ (called_notMem_deeds o seen _ _)

/-- **Every move is by one of the rules.** -/
theorem step_flow (e : machine.Event) :
    Flow e.before.traffic e.action (stimulus? e) e.after.traffic (deeds e.outputs) := by
  obtain ⟨s, move⟩ := e
  cases move with
  | submit request token => exact submit_flow request token
  | withdraw id => exact plain_flow (plain_post s (c := .cancel id) rfl) _
  | dispatch fired => exact dispatch_flow fired
  | proceed id seen => exact proceed_flow id seen
  | answer id result => exact answer_flow id result
  | settle id => exact settle_flow id
  | draw | exit | collect | tick => exact plain_flow (r := (_, [])) ⟨rfl, rfl⟩ _
  | begin errand =>
    refine plain_flow (r := (s.begin errand, [])) ⟨?_, rfl⟩ _
    cases errand <;> exact traffic_enter _ _
  | ask id =>
    refine plain_flow (r := (s.ask id, [])) ⟨?_, rfl⟩ _
    unfold ask
    split <;> rfl
  | monitor =>
    refine plain_flow (r := (s.monitorNext, [])) ⟨?_, rfl⟩ _
    unfold monitorNext
    split
    · exact traffic_enter _ _
    · rfl
  | abandon id => exact plain_flow (plain_abandon s id) _

variable {t t' : Traffic} {move : Move} {x : Option Stimulus} {ds : List Deed}
  (flow : Flow t move x t' ds)

include flow

/-- Calls are started by the dispatcher. -/
theorem Flow.called {y : Dispatch.Entry} {p : ProcessId} (h : .called y p ∈ ds) :
    ∃ z, x = some z ∧ .called y p ∈ (Dispatch.step z.fired t.dispatch z.input).2 := by
  cases flow with
  | aside | submitted | turnedAway | lingering | ended => cases h
  | operation id seen ds none => exact absurd h (none y p)
  | taken z =>
    obtain ⟨c, hc, same⟩ := List.mem_map.mp h
    obtain ⟨rfl, rfl⟩ := Deed.called.inj same
    exact ⟨z, rfl, Dispatch.mem_calls.mp hc⟩

/-- The dispatcher goes on only when it takes an input. -/
theorem Flow.dispatch :
    x = none ∧ t'.dispatch = t.dispatch ∨
      ∃ z, x = some z ∧ move = .dispatch z.fired ∧
        t'.dispatch = (Dispatch.step z.fired t.dispatch z.input).1 := by
  cases flow with
  | aside | operation | submitted | turnedAway | lingering | ended => exact .inl ⟨rfl, rfl⟩
  | taken z => exact .inr ⟨z, rfl, rfl, rfl⟩

/-- Processes are spawned and killed by operations. -/
theorem Flow.calls_only (other : ∀ id seen, move ≠ .proceed id seen) :
    ∀ d ∈ ds, ∃ y p, d = .called y p := by
  cases flow with
  | aside | submitted | turnedAway | lingering | ended => nofun
  | operation id seen => exact absurd rfl (other id seen)
  | taken z =>
    intro d hd
    obtain ⟨c, -, rfl⟩ := List.mem_map.mp hd
    exact ⟨c.1, c.2, rfl⟩

end Flow

/-! ## Fair runs of the dispatcher -/

/-- The calls that the dispatcher started in a run. -/
def started (xs : List Stimulus) : List (Dispatch.Entry × ProcessId) :=
  Dispatch.calls (Machine.outputs (Dispatch.machine.history xs))

/-- One stimulus more starts the calls of one step more. -/
theorem started_concat (xs : List Stimulus) (x : Stimulus) :
    started (xs ++ [x]) = started xs ++
      Dispatch.calls (Dispatch.step x.fired (Dispatch.machine.run xs) x.input).2 := by
  rw [started, Dispatch.machine.history_concat, Machine.outputs_append, Machine.outputs_singleton,
    Dispatch.calls_append]
  rfl

/-- **The traffic goes back to what the dispatcher was told.** Requests have different numbers,
and calls and completions belong to calls that the dispatcher started. -/
structure Traffic.Fair (xs : List Stimulus) (t : Traffic) : Prop where
  dispatch : t.dispatch = Dispatch.machine.run xs
  distinct : (submissions xs ++ t.asked).Nodup
  bounded : ∀ id ∈ submissions xs ++ t.asked, id < t.nextRequest
  calls : ∀ c ∈ t.calls, (c.entry, c.process) ∈ started xs
  completions : ∀ c ∈ t.completions, ∃ x, (x, c.process) ∈ started xs ∧ c.answers x
  belong : ∀ past e later, Dispatch.machine.history xs = past ++ e :: later → Belongs past e

/-- **Every move keeps the traffic fair.** -/
theorem Flow.fair {t t' : Traffic} {move : Move} {x : Option Stimulus} {ds : List Deed}
    (flow : Flow t move x t' ds) {xs : List Stimulus} (fair : t.Fair xs) :
    t'.Fair (xs ++ x.toList) := by
  cases flow with
  -- only `submitted` brings a number, only `taken` moves one from what is asked to what was told
  | aside | operation => simpa using fair
  | submitted =>
    have fresh : t.nextRequest ∉ submissions xs ++ t.asked :=
      fun h => Nat.lt_irrefl _ (fair.bounded _ h)
    rw [Option.toList_none, List.append_nil]
    refine ⟨fair.dispatch, ?_, ?_, fair.calls, fair.completions, fair.belong⟩
    · rw [← List.append_assoc, ← List.concat_eq_append]
      exact List.Nodup.concat fresh fair.distinct
    · intro id hid
      rw [← List.append_assoc, List.mem_append, List.mem_singleton] at hid
      rcases hid with hid | rfl
      · exact Nat.lt_succ_of_lt (fair.bounded id hid)
      · exact Nat.lt_succ_self _
  | turnedAway =>
    rw [Option.toList_none, List.append_nil]
    exact ⟨fair.dispatch, fair.distinct, fun id hid => Nat.lt_succ_of_lt (fair.bounded id hid),
      fair.calls, fair.completions, fair.belong⟩
  | taken x asked completions ha hc =>
    -- one number changes sides, so what was asked and what was told add up to the same
    have log : submissions (xs ++ [x]) ++ asked = submissions xs ++ t.asked := by
      rw [ha, submissions, List.filterMap_append, List.append_assoc]
      cases hx : x.input.submitted? <;> simp [submissions, hx]
    have more {c : Dispatch.Entry × ProcessId} (hc : c ∈ started xs) : c ∈ started (xs ++ [x]) := by
      rw [started_concat]
      exact List.mem_append_left _ hc
    rw [Option.toList_some]
    refine ⟨?_, log ▸ fair.distinct, log ▸ fair.bounded, ?_, ?_, ?_⟩
    · rw [Dispatch.machine.run_concat, ← fair.dispatch]
      rfl
    · intro c member
      rcases List.mem_append.mp member with old | new
      · exact more (fair.calls c old)
      · obtain ⟨⟨y, p⟩, hy, rfl⟩ := List.mem_map.mp new
        rw [started_concat, ← fair.dispatch]
        exact List.mem_append_right _ hy
    · intro c member
      have old : c ∈ t.completions := by
        rw [hc]
        exact List.mem_append_right _ member
      obtain ⟨y, hy, answers⟩ := fair.completions c old
      exact ⟨y, more hy, answers⟩
    · rw [Dispatch.machine.history_concat]
      refine Machine.forall_cut_concat fair.belong ?_
      intro c taken
      have completion : completion? x.input = some c := by rw [taken]; rfl
      refine fair.completions c ?_
      rw [hc, completion]
      exact List.mem_cons_self
  -- a call that lingers stays the call of the same request on the same process
  | lingering id fault =>
    rw [Option.toList_none, List.append_nil]
    refine ⟨fair.dispatch, fair.distinct, fair.bounded, ?_, fair.completions, fair.belong⟩
    intro c member
    obtain ⟨c', hc', rfl⟩ := List.mem_map.mp member
    split <;> exact fair.calls c' hc'
  | ended _ c h result code =>
    rw [Option.toList_none, List.append_nil]
    refine ⟨fair.dispatch, fair.distinct, fair.bounded, ?_, ?_, fair.belong⟩
    · exact fun c' hc' => fair.calls c' (List.mem_of_mem_filter hc')
    · intro c' member
      rcases List.mem_append.mp member with old | new
      · exact fair.completions c' old
      · obtain rfl := List.mem_singleton.mp new
        exact ⟨c.entry, fair.calls c h, rfl, rfl⟩

/-- **What the dispatcher was told** in a stretch of history. -/
def stimuli (h : List machine.Event) : List Stimulus :=
  h.filterMap stimulus?

/-- An event is at most one stimulus. -/
theorem stimuli_concat (h : List machine.Event) (e : machine.Event) :
    stimuli (h ++ [e]) = stimuli h ++ (stimulus? e).toList := by
  rw [stimuli, List.filterMap_append]
  cases he : stimulus? e <;> simp [stimuli, he]

/-- **The supervisor treats its dispatcher fairly.** -/
theorem run_fair (xs : List Move) :
    (machine.run xs).traffic.Fair (stimuli (machine.history xs)) := by
  induction xs using List.reverseRecOn with
  | nil =>
    exact ⟨rfl, List.nodup_nil, nofun, nofun, nofun, Machine.forall_cut_nil⟩
  | append_singleton xs x ih =>
    rw [machine.history_concat, stimuli_concat, machine.run_concat]
    exact (step_flow ⟨machine.run xs, x⟩).fair ih

/-! ## Channels -/

/-- The channels that are to be attached, each with its generation, by orders that the dispatcher
did not take yet. -/
def Affairs.ordered (a : Affairs) : List (Nat × ProcessId) :=
  a.orders.filterMap fun c => (Input.command c).channel?

/-- What the dispatcher hears changes no order and hands out no generation. -/
theorem orders_hear (es : List Effect) (a : Affairs) :
    (es.foldl Affairs.hear a).orders = a.orders ∧
      (es.foldl Affairs.hear a).generation = a.generation := by
  induction es generalizing a with
  | nil => exact ⟨rfl, rfl⟩
  | cons e es ih =>
    obtain ⟨orders, generation⟩ := ih (a.hear e)
    rw [List.foldl_cons, orders, generation]
    cases e with
    | resolved | called | lost => exact ⟨rfl, rfl⟩
    | attached | detached | refused =>
      simp only [Affairs.hear, Affairs.reply]
      split <;> exact ⟨rfl, rfl⟩

/-- An input that is taken was ordered, if it attaches a channel. -/
theorem Takes.ordered {a a' : Affairs} {input : Input} (takes : Takes a input a') :
    a.ordered = input.channel?.toList ++ a'.ordered ∧ a'.generation = a.generation := by
  cases takes with
  | order c rest first =>
    refine ⟨?_, rfl⟩
    simp only [Affairs.ordered, first]
    cases hc : (Input.command c).channel? <;> simp [hc]
  | shutdown | completed | exited => exact ⟨rfl, rfl⟩
  | caller c noOrder =>
    cases c with
    | attach | detach => cases noOrder
    | submit | cancel | shutdown => exact ⟨rfl, rfl⟩

/-- **What is ordered stays the same, or a new generation is ordered**: for the process that an
operation was probing. -/
def Affairs.Extends (a a' : Affairs) : Prop :=
  a'.ordered = a.ordered ∧ a.generation ≤ a'.generation ∨
    ∃ p toolchain, a.lock.at? = some (.probing p toolchain) ∧
      a'.ordered = a.ordered ++ [(a'.generation, p)] ∧ a.generation < a'.generation

/-- Only an operation that has probed a process orders a channel. -/
theorem Advance.ordered {a a' : Affairs} {o : Operation} {seen : Observation}
    (rule : Advance a o seen a') (sound : a.lock.Sound)
    (known : a.lock.operation? o.id = some o) : a.Extends a' := by
  have at_ := (Lock.at?_of_holder (rule.holder sound known)).trans (Lock.stage?_of_known known)
  cases rule with
  | stop l | restart _ l =>
    refine .inl ?_
    unfold Affairs.order
    split
    · exact ⟨rfl, Nat.le_refl _⟩
    · refine ⟨?_, Nat.le_refl _⟩
      simp [Affairs.ordered, Affairs.setStatus, List.filterMap_append, Input.channel?]
  | fit toolchain outcome l stage told verdict fresh =>
    unfold Affairs.order
    split
    · exact .inl ⟨rfl, fresh ▸ Nat.le_succ _⟩
    · refine .inr ⟨l.process, toolchain, stage ▸ at_, ?_, fresh ▸ Nat.lt_succ_self _⟩
      simp [Affairs.ordered, List.filterMap_append, Input.channel?]
  | _ => exact .inl ⟨rfl, Nat.le_refl _⟩

/-- No move but those of the dispatcher takes an order away. -/
theorem Change.ordered {a a' : Affairs} {move : Move} (change : Change a move a')
    (sound : a.lock.Sound) (other : ∀ fired, move ≠ .dispatch fired) : a.Extends a' := by
  cases change with
  | dispatch fired => exact absurd rfl (other fired)
  | proceed o seen _ known rule => exact rule.ordered sound known
  | aside | begin | draw | ask | askInVain | noInput | monitor | noLoss | leave | stuck | collect =>
    exact .inl ⟨rfl, Nat.le_refl _⟩

/-- **The channels that the dispatcher was told to attach**, oldest first. -/
def told (xs : List Stimulus) : List (Nat × ProcessId) :=
  xs.filterMap fun x => x.input.channel?

/-- The channels that the dispatcher was told are those of its inputs. -/
theorem mem_told {xs : List Stimulus} {c : Nat × ProcessId} :
    c ∈ told xs ↔ ∃ x ∈ xs, x.input.channel? = some c :=
  List.mem_filterMap

/-- The channels that the dispatcher was told to attach, and those that it is to be told,
oldest first. -/
def channels (xs : List Stimulus) (a : Affairs) : List (Nat × ProcessId) :=
  told xs ++ a.ordered

/-- What the dispatcher takes moves from the orders to what it was told. -/
theorem dispatch_channels (s : Supervisor) (fired : Token → Bool) (xs : List Stimulus) :
    ∃ new, told (xs ++ (stimulus? ⟨s, .dispatch fired⟩).toList) = told xs ++ new ∧
      s.affairs.ordered = new ++ (s.runDispatcher fired).1.affairs.ordered ∧
      (s.runDispatcher fired).1.generation = s.generation := by
  simp only [stimulus?, runDispatcher]
  cases next : s.nextInput? with
  | none => exact ⟨[], by simp, rfl, rfl⟩
  | some taken =>
    obtain ⟨input, s'⟩ := taken
    obtain ⟨ordered, generation⟩ := (nextInput?_takes next).1.ordered
    have heard := affairs_absorb { s' with dispatch := (Dispatch.step fired s'.dispatch input).1 }
      (Dispatch.step fired s'.dispatch input).2
    obtain ⟨orders, same⟩ := orders_hear (Dispatch.step fired s'.dispatch input).2
      (affairs { s' with dispatch := (Dispatch.step fired s'.dispatch input).1 })
    have left : (Affairs.ordered (Supervisor.affairs (absorb
        { s' with dispatch := (Dispatch.step fired s'.dispatch input).1 }
        (Dispatch.step fired s'.dispatch input).2).1)) = s'.affairs.ordered := by
      rw [Affairs.ordered, heard, orders]
      rfl
    refine ⟨input.channel?.toList, ?_, ?_, ?_⟩
    · rw [told, List.filterMap_append]
      rfl
    · rw [ordered]
      exact congrArg _ left.symm
    · exact ((congrArg Affairs.generation heard).trans same).trans generation

/-- **How the channels change in a careful run**: the dispatcher takes the next one, or an
operation orders another one, or they stay. -/
theorem CarefulRun.channels {xs : List Move} {x : Move} (careful : CarefulRun (xs ++ [x])) :
    (∃ fired new, x = .dispatch fired ∧
        told (stimuli (machine.history (xs ++ [x]))) = told (stimuli (machine.history xs)) ++ new ∧
        (machine.run xs).affairs.ordered = new ++ (machine.run (xs ++ [x])).affairs.ordered ∧
        (machine.run (xs ++ [x])).generation = (machine.run xs).generation) ∨
      (∀ fired, x ≠ .dispatch fired) ∧
        stimuli (machine.history (xs ++ [x])) = stimuli (machine.history xs) ∧
        (machine.run xs).affairs.Extends (machine.run (xs ++ [x])).affairs := by
  rw [machine.history_concat, stimuli_concat]
  by_cases taken : ∃ fired, x = .dispatch fired
  · obtain ⟨fired, rfl⟩ := taken
    rw [machine.run_concat]
    obtain ⟨new, moved⟩ := dispatch_channels (machine.run xs) fired (stimuli (machine.history xs))
    exact .inl ⟨fired, new, rfl, moved⟩
  · have other : ∀ fired, x ≠ .dispatch fired := fun fired h => taken ⟨fired, h⟩
    have none : stimulus? ⟨machine.run xs, x⟩ = none := by
      cases x with
      | dispatch fired => exact absurd rfl (other fired)
      | _ => rfl
    refine .inr ⟨other, by rw [none, Option.toList_none, List.append_nil], ?_⟩
    rcases careful.change with ⟨id, -, affairs⟩ | ⟨change, -⟩
    · rw [affairs]
      exact .inl ⟨rfl, Nat.le_refl _⟩
    · exact change.ordered (carefulRun_concat.mp careful).1.inOrder.sound other

/-- **No generation is attached twice**, also when operations are given up. -/
theorem run_generations {xs : List Move} (careful : CarefulRun xs) :
    ((channels (stimuli (machine.history xs)) (machine.run xs).affairs).map Prod.fst).Nodup ∧
      ∀ c ∈ channels (stimuli (machine.history xs)) (machine.run xs).affairs,
        c.1 ≤ (machine.run xs).generation := by
  induction xs using List.reverseRecOn with
  | nil => exact ⟨List.nodup_nil, nofun⟩
  | append_singleton xs x ih =>
    obtain ⟨distinct, bounded⟩ := ih (carefulRun_concat.mp careful).1
    rcases careful.channels with ⟨_, new, -, more, ordered, generation⟩ | ⟨-, taken, more⟩
    · rw [channels, more, List.append_assoc, ← ordered, generation]
      exact ⟨distinct, bounded⟩
    · rw [taken]
      rcases more with ⟨same, le⟩ | ⟨p, -, -, more, lt⟩
      · rw [channels, same]
        exact ⟨distinct, fun c hc => Nat.le_trans (bounded c hc) le⟩
      · have lt : (machine.run xs).generation < (machine.run (xs ++ [x])).generation := lt
        rw [channels, more, ← List.append_assoc]
        refine ⟨?_, fun c hc => ?_⟩
        · rw [List.map_append, List.map_singleton, ← List.concat_eq_append]
          refine List.Nodup.concat (fun again => ?_) distinct
          obtain ⟨c, hc, same⟩ := List.mem_map.mp again
          exact Nat.not_lt_of_le (bounded c hc) (same ▸ lt)
        · rcases List.mem_append.mp hc with old | new
          · exact Nat.le_of_lt (Nat.lt_of_le_of_lt (bounded c old) lt)
          · exact Nat.le_of_eq (congrArg Prod.fst (List.mem_singleton.mp new))

/-- **The dispatcher of a supervisor has only runs of which its laws speak.** Its state is that of
such a run, with the inputs that it took: requests have different numbers, completions belong to
calls, and each generation is attached at most once. -/
theorem run_dispatched {xs : List Move} (careful : CarefulRun xs) :
    (machine.run xs).dispatch = Dispatch.machine.run (stimuli (machine.history xs)) ∧
      (submissions (stimuli (machine.history xs))).Nodup ∧
      (∀ past e later,
        Dispatch.machine.history (stimuli (machine.history xs)) = past ++ e :: later →
          Belongs past e) ∧
      AttachedOnce (stimuli (machine.history xs)) := by
  have fair := run_fair xs
  refine ⟨fair.dispatch, fair.distinct.of_append_left, fair.belong, ?_⟩
  have once := (run_generations careful).1
  rw [channels, List.map_append, told, List.map_filterMap] at once
  exact Dispatch.attachedOnce_of_nodup once.of_append_left

/-- A call is made on the channel of the watched process. -/
theorem called_watched (xs : List Move) (x : Move) {y : Dispatch.Entry} {p : ProcessId}
    (h : .called y p ∈ deeds (machine.step (machine.run xs) x).2) :
    (machine.run xs).dispatch.watched = some p := by
  obtain ⟨z, hz, called⟩ := (step_flow ⟨machine.run xs, x⟩).called h
  have fair := run_fair xs
  have next := run_fair (xs ++ [x])
  rw [machine.history_concat, stimuli_concat, hz, Option.toList_some] at next
  have cut := Dispatch.machine.history_concat (stimuli (machine.history xs)) z
  have watched := Dispatch.run_watched next.distinct.of_append_left next.belong cut
    (x := y) (p := p) (show _ ∈ (Dispatch.step z.fired _ z.input).2 by rwa [← fair.dispatch])
  rwa [← fair.dispatch] at watched

/-- **An attached generation is that of the watched process**, and of no other one. -/
theorem attached_watched {xs : List Move} (careful : CarefulRun xs) {g : Nat}
    (attached : (machine.run xs).dispatch.attached = some g) :
    ∃ w, (machine.run xs).dispatch.watched = some w ∧
      (g, w) ∈ told (stimuli (machine.history xs)) := by
  obtain ⟨dispatch, distinct, belong, -⟩ := run_dispatched careful
  obtain ⟨w, watched, latest⟩ :=
    (Dispatch.run_wired _ distinct belong).attached g (dispatch ▸ attached)
  obtain ⟨e, he, channel⟩ := List.mem_filterMap.mp (List.mem_of_getLast? latest)
  exact ⟨w, dispatch ▸ watched, mem_told.mpr ⟨e.action, Dispatch.machine.action_mem he, channel⟩⟩

end CompilerSession.Supervisor
