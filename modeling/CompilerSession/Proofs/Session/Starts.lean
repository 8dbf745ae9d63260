import CompilerSession.Proofs.Session.Dropping
import CompilerSession.Proofs.Session.Statuses

/-
Starting.

A start that finds no session has a chain of things before it that can fail: the settings may not
load, no process may be spawned, and the process may not tell a version that is good enough. Until
the dispatcher has taken the process, all that a start does is out of sight but for its process, and
that is killed when something fails. So a start comes to a session, or it leaves no trace.

`Leg` says for each stage of a start what it was told by then, what was done to processes, and that
nothing else is different from what it found. An event is of no matter to it, or leads to another
leg or to the end (`Attempting.next`).
-/

set_option autoImplicit false

namespace CompilerSession

/-! ## The verdict on an answer -/

namespace Probe

/-- **An answer names a version**, in its body, or else in the first of its prints that has one. -/
inductive Names (r : Response) (v : Version) : Prop where
  | body (found : Version.find? r.output = some v)
  | print (nowhere : Version.find? r.output = none) (before : List String) (line : String)
      (after : List String) (prints : r.prints = before ++ line :: after)
      (mute : ∀ p ∈ before, Version.find? p = none) (found : Version.find? line = some v)

/-- The version that is read off an answer is the one that it names. -/
theorem namedVersion?_iff {r : Response} {v : Version} :
    namedVersion? r = some v ↔ Names r v := by
  unfold namedVersion?
  cases body : Version.find? r.output with
  | some named =>
    rw [Option.some_or]
    constructor
    · rintro ⟨⟩
      exact .body body
    · rintro (found | nowhere)
      · exact body.symm.trans found
      · cases body.symm.trans nowhere
  | none =>
    rw [Option.none_or, List.findSome?_eq_some_iff]
    constructor
    · rintro ⟨before, line, after, prints, found, mute⟩
      exact .print body before line after prints mute found
    · rintro (found | ⟨-, before, line, after, prints, mute, found⟩)
      · cases body.symm.trans found
      · exact ⟨before, line, after, prints, found, mute⟩

/-- A version passes the check if it is not below the least one. -/
theorem checkSupported_ok_iff {v w : Version} :
    v.checkSupported = .ok w ↔ w = v ∧ v.atLeast .minimum = true := by
  unfold Version.checkSupported
  split
  · rename_i supported
    exact ⟨fun same => ⟨(Except.ok.inj same).symm, supported⟩,
      fun ⟨same, _⟩ => congrArg _ same.symm⟩
  · rename_i old
    exact ⟨nofun, fun ⟨_, supported⟩ => absurd supported old⟩

/-- **A process is fit** when it answers, and names a version that is new enough. -/
theorem verdict_ok_iff {outcome : Outcome} {v : Version} :
    verdict outcome = .ok v ↔
      ∃ r, outcome = .answered r ∧ Names r v ∧ v.atLeast .minimum = true := by
  have checked (w : Version) : (Except.ok w >>= Version.checkSupported) = w.checkSupported := rfl
  cases outcome with
  | broken | timedOut => exact ⟨nofun, nofun⟩
  | answered r =>
    simp only [verdict, found, ← namedVersion?_iff]
    cases named : namedVersion? r with
    | none =>
      refine ⟨nofun, ?_⟩
      rintro ⟨_, ⟨⟩, named', -⟩
      cases named.symm.trans named'
    | some w =>
      rw [checked, checkSupported_ok_iff]
      constructor
      · rintro ⟨rfl, supported⟩
        exact ⟨r, rfl, named, supported⟩
      · rintro ⟨_, ⟨⟩, named', supported⟩
        obtain rfl := Option.some.inj (named.symm.trans named')
        exact ⟨rfl, supported⟩

/-- Whatever is wrong with a process, it is the failure of a start. -/
theorem isStartFailure_of_verdict {outcome : Outcome} {failure : Failure}
    (h : verdict outcome = .error failure) : failure.isStartFailure = true := by
  have checked (w : Version) : (Except.ok w >>= Version.checkSupported) = w.checkSupported := rfl
  cases outcome with
  | broken | timedOut => cases h; rfl
  | answered r =>
    simp only [verdict, found] at h
    cases named : namedVersion? r with
    | none =>
      rw [named] at h
      cases h
      unfold unnamed
      split <;> rfl
    | some w =>
      rw [named, checked, Version.checkSupported] at h
      split at h <;> cases h
      rfl

end Probe

namespace Supervisor

open Dispatch (Loss Effect Settled)
open Machine (outputs)

/-! ## What a start is told, and what it does -/

/-- What is done to a process is a call. -/
def Deed.isCall : Deed → Bool
  | .called _ _ => true
  | .spawned _ | .killing _ => false

/-- What an operation at this stage is told of the settings and of spawning. -/
def Stage.launch? : Stage → Observation → Option (Except Failure (Toolchain × UInt32))
  | .launching, .launched outcome => some outcome
  | _, _ => none

/-- What an operation at this stage is told of the version of its process. -/
def Stage.probe? : Stage → Observation → Option Probe.Outcome
  | .probing _ _, .probed outcome => some outcome
  | _, _ => none

/-- How far the operation is that goes on at the event, and what it is told. -/
def sees? (id : OperationId) (e : machine.Event) : Option (Stage × Observation) :=
  match e.action with
  | .proceed j seen => if j = id then (e.before.stage? id).map fun stage => (stage, seen) else none
  | _ => none

/-- **The log of an operation**: what it is told, and what is done to processes meanwhile. -/
structure Log where
  /-- What came of loading the settings and spawning a process. -/
  launches : List (Except Failure (Toolchain × UInt32))
  /-- What came of asking a process for its version. -/
  probes : List Probe.Outcome
  /-- What was done to processes, but for calls. -/
  deeds : List Deed

def Log.append (l m : Log) : Log :=
  ⟨l.launches ++ m.launches, l.probes ++ m.probes, l.deeds ++ m.deeds⟩

@[simp] theorem Log.append_nil (l : Log) : l.append ⟨[], [], []⟩ = l := by
  simp only [Log.append, List.append_nil]

def log (id : OperationId) (h : List machine.Event) : Log where
  launches := h.filterMap fun e => (sees? id e).bind fun x => x.1.launch? x.2
  probes := h.filterMap fun e => (sees? id e).bind fun x => x.1.probe? x.2
  deeds := (deeds (outputs h)).filter fun d => !d.isCall

/-- What an operation logs when it goes on. -/
def Operation.logs (o : Operation) (seen : Observation) (a : Affairs) : Log :=
  ⟨(o.stage.launch? seen).toList, (o.stage.probe? seen).toList,
    o.deeds seen a.session a.spawned⟩

section Log

variable {id : OperationId} {e : machine.Event}

/-- The log of two stretches is that of the first, and then that of the second. -/
theorem log_append (id : OperationId) (h k : List machine.Event) :
    log id (h ++ k) = (log id h).append (log id k) := by
  simp only [log, Log.append, List.filterMap_append, Machine.outputs_append, deeds_append,
    List.filter_append]

/-- An event that the operation does not see, and in which processes are at most called, leaves no
mark in its log. -/
theorem log_of_aside (h : sees? id e = none) (calls : ∀ d ∈ deeds e.outputs, d.isCall = true) :
    log id [e] = ⟨[], [], []⟩ := by
  have deeds : (deeds e.outputs).filter (fun d => !d.isCall) = [] := by
    simpa using calls
  simp only [log, List.filterMap_cons, h, Option.bind_none, List.filterMap_nil,
    Machine.outputs_singleton, deeds]

/-- Who does not hold the lock does nothing to processes. -/
theorem deeds_of_idle {o : Operation} (idle : o.stage.holds = false) (seen : Observation)
    (session : Option Live) (next : ProcessId) : o.deeds seen session next = [] := by
  unfold Operation.deeds
  cases h : o.stage with
  | drawn | waiting | leaving | done => rfl
  | _ => cases idle.symm.trans (congrArg Stage.holds h)

/-- While an operation holds the lock, others do nothing but call. -/
theorem log_of_other (sound : e.before.lock.Sound) (holder : e.before.lock.holder = some id)
    (other : ∀ seen, e.action ≠ .proceed id seen) : log id [e] = ⟨[], [], []⟩ := by
  obtain ⟨s, move⟩ := e
  by_cases operation : ∃ j seen, move = .proceed j seen
  · obtain ⟨j, seen, rfl⟩ := operation
    have different : j ≠ id := fun same => other seen (same ▸ rfl)
    refine log_of_aside (if_neg different) ?_
    show ∀ d ∈ deeds (s.proceed j seen).2, d.isCall = true
    cases h : s.operation? j with
    | none =>
      simp only [proceed, h]
      exact List.forall_mem_nil _
    | some o =>
      obtain rfl := operation?_id h
      -- another operation that goes on would hold the lock
      have idle : o.stage.holds = false := by
        by_contra holds
        have mine := sound.holder (Lock.stage?_of_known h) ((Bool.not_eq_false _).mp holds)
        exact different (Option.some.inj (mine.symm.trans holder))
      rw [(proceed_does s h seen).deeds, deeds_of_idle idle]
      exact List.forall_mem_nil _
  · have aside : ∀ j seen, move ≠ .proceed j seen := fun j seen h => operation ⟨j, seen, h⟩
    refine log_of_aside ?_ fun d hd => ?_
    · cases move with
      | proceed j seen => exact absurd rfl (aside j seen)
      | _ => rfl
    · obtain ⟨y, p, rfl⟩ := (step_flow ⟨s, move⟩).calls_only aside d hd
      rfl

/-- An operation that goes on is told one thing and does what its stage asks for. -/
theorem log_of_proceed {s : Supervisor} {o : Operation} (known : s.operation? o.id = some o)
    (seen : Observation) : log o.id [⟨s, .proceed o.id seen⟩] = o.logs seen s.affairs := by
  have stage : s.stage? o.id = some o.stage := Lock.stage?_of_known (k := s.lock) known
  have sees : sees? o.id ⟨s, .proceed o.id seen⟩ = some (o.stage, seen) := by
    simp only [sees?, if_true, stage, Option.map_some]
  have does : deeds (Machine.Event.outputs (m := machine) ⟨s, .proceed o.id seen⟩) =
      o.deeds seen s.session s.processes.length := (proceed_does s known seen).deeds
  have done : (deeds (Machine.Event.outputs (m := machine) ⟨s, .proceed o.id seen⟩)).filter
      (fun d => !d.isCall) = o.deeds seen s.session s.processes.length := by
    rw [does, List.filter_eq_self]
    intro d hd
    cases d with
    | called y p => exact absurd hd (called_notMem_deeds o seen _ _ y p)
    | spawned | killing => rfl
  simp only [log, List.filterMap_cons, List.filterMap_nil, sees, Option.bind_some,
    Machine.outputs_singleton, done, Operation.logs]
  cases o.stage.launch? seen <;> cases o.stage.probe? seen <;> rfl

end Log

/-! ## The legs of a start -/

/-- **Everything is stopped**, as a start may find it. -/
structure Affairs.Stopped (a : Affairs) : Prop where
  status : a.status = .stopped
  session : a.session = none
  current : a.current = none
  unattached : a.dispatch.attached = none
  /-- The dispatcher is not asked to take a process, or to let go of it. -/
  orders : a.orders = []

/-- **No trace is left** of what was tried. -/
structure Affairs.NoTrace (b a : Affairs) : Prop extends a.Stopped where
  generation : a.generation = b.generation
  events : a.events = b.events

/-- **A session has come to be**, and everybody is told. -/
structure Affairs.Succeeds (b a : Affairs) (l : Live) : Prop where
  process : l.process = b.spawned
  fresh : l.generation = b.generation + 1
  generation : a.generation = l.generation
  session : a.session = some l
  status : a.status = .ready
  current : a.current = some l.info
  events : a.events = b.events ++ [.ready l.generation l.version]

/-- The dispatcher does not know of the start. -/
structure Affairs.Untold (b a : Affairs) : Prop where
  generation : a.generation = b.generation
  unattached : a.dispatch.attached = none
  orders : a.orders = []

/-- A process that is fit is handed over as the process of a new session. -/
structure HandedOver (b a : Affairs) (outcome : Probe.Outcome) (l : Live) : Prop where
  fit : Probe.verdict outcome = .ok l.version
  process : l.process = b.spawned
  fresh : l.generation = b.generation + 1
  generation : a.generation = l.generation

/-- **The legs of a start** that found everything as in `b`: what it was told, what was done to
processes, and how things stand at each of its stages. -/
inductive Leg (b a : Affairs) (id : OperationId) : Log → Stage → Prop where
  | launching (untold : b.Untold a) (spawned : a.spawned = b.spawned) :
      Leg b a id ⟨[], [], []⟩ .launching
  | probing (toolchain : Toolchain) (pid : UInt32) (untold : b.Untold a) :
      Leg b a id ⟨[.ok (toolchain, pid)], [], [.spawned b.spawned]⟩ (.probing b.spawned toolchain)
  | killing (launched : Toolchain × UInt32) (outcome : Probe.Outcome) (failure : Failure)
      (unfit : Probe.verdict outcome = .error failure) (untold : b.Untold a) :
      Leg b a id ⟨[.ok launched], [outcome], [.spawned b.spawned, .killing b.spawned]⟩
        (.killing b.spawned (.launchFailed failure))
  | attaching (launched : Toolchain × UInt32) (outcome : Probe.Outcome) (l : Live)
      (handedOver : HandedOver b a outcome l) (unattached : a.dispatch.attached = none)
      (orders : a.orders = [.attach l.generation l.process id]) :
      Leg b a id ⟨[.ok launched], [outcome], [.spawned b.spawned]⟩ (.attaching l)
  | attached (launched : Toolchain × UInt32) (outcome : Probe.Outcome) (l : Live)
      (handedOver : HandedOver b a outcome l) (orders : a.orders = []) :
      Leg b a id ⟨[.ok launched], [outcome], [.spawned b.spawned]⟩ (.attached l)

/-- **A start is at work**: nobody can see anything of it yet. -/
structure Attempting (b a : Affairs) (id : OperationId) (log : Log) : Prop where
  holder : a.lock.holder = some id
  purpose : a.lock.purpose? id = some .start
  session : a.session = none
  current : a.current = none
  events : a.events = b.events
  leg : ∃ stage, a.lock.stage? id = some stage ∧ Leg b a id log stage

/-- **How a start ends**, and what it was told then. -/
inductive Concluded (b a : Affairs) : Log → Except Failure Info → Prop where
  | unlaunched (failure : Failure) (noTrace : b.NoTrace a) :
      Concluded b a ⟨[.error failure], [], []⟩ (.error failure)
  | unfit (launched : Toolchain × UInt32) (outcome : Probe.Outcome) (failure : Failure)
      (unfit : Probe.verdict outcome = .error failure) (noTrace : b.NoTrace a) :
      Concluded b a ⟨[.ok launched], [outcome], [.spawned b.spawned, .killing b.spawned]⟩
        (.error failure)
  | succeeds (launched : Toolchain × UInt32) (outcome : Probe.Outcome) (l : Live)
      (fit : Probe.verdict outcome = .ok l.version) (succeeds : b.Succeeds a l) :
      Concluded b a ⟨[.ok launched], [outcome], [.spawned b.spawned]⟩ (.ok l.info)

section Legs

variable {b a a' : Affairs} {id : OperationId} {log : Log} {stage : Stage}

/-- What is no matter to a start leaves it where it is. -/
theorem Leg.frame (leg : Leg b a id log stage) (generation : a'.generation = a.generation)
    (spawned : a'.spawned = a.spawned) (dispatch : a'.dispatch.attached = a.dispatch.attached)
    (orders : a'.orders = a.orders) : Leg b a' id log stage := by
  have untold (h : b.Untold a) : b.Untold a' :=
    ⟨generation.trans h.generation, dispatch.trans h.unattached, orders.trans h.orders⟩
  have handedOver {outcome : Probe.Outcome} {l : Live} (h : HandedOver b a outcome l) :
      HandedOver b a' outcome l :=
    { h with generation := generation.trans h.generation }
  cases leg with
  | launching h same => exact .launching (untold h) (spawned.trans same)
  | probing toolchain pid h => exact .probing toolchain pid (untold h)
  | killing launched outcome failure unfit h =>
    exact .killing launched outcome failure unfit (untold h)
  | attaching launched outcome l h unattached asked =>
    exact .attaching launched outcome l (handedOver h) (dispatch.trans unattached)
      (orders.trans asked)
  | attached launched outcome l h asked =>
    exact .attached launched outcome l (handedOver h) (orders.trans asked)

/-- Whoever is on a leg of the way holds the lock and has begun. -/
theorem Leg.begun (leg : Leg b a id log stage) : stage.holds = true ∧ stage.begun = true := by
  cases leg <;> exact ⟨rfl, rfl⟩

/-- Who disturbs nobody at work leaves the holder of the lock where it is. -/
theorem Lock.Undisturbed.stage? {k k' : Lock} (undisturbed : k.Undisturbed k')
    (holder : k.holder = some id) (known : k.stage? id = some stage) (begun : stage.begun = true) :
    k'.holder = some id ∧ k'.stage? id = some stage := by
  have here := (Lock.at?_of_holder holder).trans known
  rcases undisturbed with ⟨same, at_⟩ | ⟨calm, -⟩
  · have holder' := same.trans holder
    exact ⟨holder', (Lock.at?_of_holder holder').symm.trans (at_.trans here)⟩
  · rw [calm stage here] at begun
    cases begun

/-- **What is no matter to who is at work** is no matter to a start. -/
theorem Attempting.bystands (attempting : Attempting b a id log) (bystands : a.Bystands a') :
    Attempting b a' id log := by
  obtain ⟨stage, known, leg⟩ := attempting.leg
  obtain ⟨holder, known⟩ := bystands.lock.stage? attempting.holder known leg.begun.2
  exact ⟨holder, (bystands.task id attempting.holder).trans attempting.purpose,
    bystands.session.trans attempting.session, bystands.current.trans attempting.current,
    bystands.events.trans attempting.events, stage, known,
    leg.frame bystands.generation bystands.spawned
      (congrArg Dispatch.State.attached bystands.dispatch) bystands.orders⟩

/-- An operation that is given up while another one holds the lock is no matter to that. -/
theorem bystands_forsake (sound : a.lock.Sound) (holder : a.lock.holder ≠ some id) :
    a.Bystands { a with lock := a.lock.forsake id } := by
  have calm := (sound.forsake_calm id).resolve_right fun h => holder h.1
  refine bystands_lock calm (fun j hj => ?_) rfl
  have other : j ≠ id := fun same => holder (same ▸ hj)
  show (a.lock.forsake id).purpose? j = a.lock.purpose? j
  rw [Lock.forsake, if_neg holder]
  exact (congrFun Lock.purpose?_drop j).trans (Function.update_of_ne other _ _)

/-- **The dispatcher answers a start that hands its process over**, or it has ended. -/
theorem Handled.attempting (handled : Handled a a') (attempting : Attempting b a id log) :
    a'.dispatch.ended = true ∨ Attempting b a' id log := by
  obtain ⟨stage, known, leg⟩ := attempting.leg
  have keeps (d : Dispatch.State) (losses : List Loss)
      (leg : Leg b { a with dispatch := d, losses } id log stage) :
      Attempting b { a with dispatch := d, losses } id log :=
    ⟨attempting.holder, attempting.purpose, attempting.session, attempting.current,
      attempting.events, stage, known, leg⟩
  -- an order that is taken is that of the start
  have ordered {c : Dispatch.Command} {rest : List Dispatch.Command}
      (first : a.orders = c :: rest) :
      ∃ launched outcome l, HandedOver b a outcome l ∧ stage = .attaching l ∧
        log = ⟨[.ok launched], [outcome], [.spawned b.spawned]⟩ ∧
        c = .attach l.generation l.process id ∧ rest = [] := by
    cases leg with
    | launching untold | probing _ _ untold | killing _ _ _ _ untold =>
      cases untold.orders.symm.trans first
    | attached _ _ _ _ orders => cases orders.symm.trans first
    | attaching launched outcome l handedOver _ orders =>
      obtain ⟨rfl, rfl⟩ := List.cons.inj (first.symm.trans orders)
      exact ⟨launched, outcome, l, handedOver, rfl, rfl, rfl, rfl⟩
  cases handled with
  | noMatter d attached => exact .inr (keeps d a.losses (leg.frame rfl rfl attached rfl))
  | closed _ _ _ _ ended => exact .inl ended
  | lost d loss was =>
    cases leg with
    | launching untold | probing _ _ untold | killing _ _ _ _ untold =>
      cases untold.unattached.symm.trans was
    | attaching _ _ _ _ unattached => cases unattached.symm.trans was
    | attached launched outcome l handedOver orders =>
      exact .inr (keeps d _ (.attached launched outcome l { handedOver with } orders))
  | detached _ _ _ _ _ first =>
    obtain ⟨_, _, _, -, -, -, other, -⟩ := ordered first
    cases other
  | refused c asker rest first refused ended =>
    refine .inl ?_
    rw [(closing_reply { a with orders := rest } asker (.refused asker)).2]
    exact ended
  | attached d g p asker rest first =>
    obtain ⟨launched, outcome, l, handedOver, rfl, rfl, order, rfl⟩ := ordered first
    obtain ⟨rfl, rfl, rfl⟩ := Dispatch.Command.attach.inj order
    refine .inr ?_
    have waits : (a.lock.stage? asker).bind (Stage.answered (.attached asker)) =
        some (.attached l) := by rw [known]; rfl
    have told : Affairs.reply { a with dispatch := d, orders := [] } asker (.attached asker) =
        { a with dispatch := d, orders := [], lock := a.lock.reach asker (.attached l) } := by
      simp only [Affairs.reply, waits]
    rw [told]
    refine ⟨attempting.holder, ?_, attempting.session, attempting.current, attempting.events,
      .attached l, ?_, .attached launched outcome l { handedOver with } rfl⟩
    · exact (congrFun Lock.purpose?_reach asker).trans attempting.purpose
    · exact (congrFun (Lock.stage?_reach _ (by simp [known])) asker).trans (Function.update_self ..)

/-! ### What a start does -/

/-- A start that fails before the dispatcher knows of it. -/
theorem noTrace_of_untold {o : Operation} {result : Except Failure Info} (untold : b.Untold a)
    (session : a.session = none) (current : a.current = none) (events : a.events = b.events) :
    b.NoTrace ((a.setStatus .stopped).conclude o result) :=
  ⟨⟨rfl, session, current, untold.unattached, untold.orders⟩, untold.generation, events⟩

/-- **A start that goes on** comes to its next leg, or it hands the lock on, if the dispatcher has
not ended. -/
theorem Advance.leg {o : Operation} {seen : Observation} (rule : Advance a o seen a')
    (leg : Leg b a o.id log o.stage) (session : a.session = none) (current : a.current = none)
    (events : a.events = b.events) (live : a.dispatch.ended = false) :
    (∃ now, a'.lock = a.lock.reach o.id now ∧ a'.session = a.session ∧ a'.current = a.current ∧
        a'.events = a.events ∧ Leg b a' o.id (log.append (o.logs seen a)) now) ∨
      ∃ outcome, a'.lock = a.lock.finish o.id (o.purpose.last (.launched outcome)) ∧
        Concluded b a' (log.append (o.logs seen a)) outcome := by
  -- what it logs now comes after what it has logged so far
  have logs {l : Log} (same : o.logs seen a = l) {now : Stage}
      (leg : Leg b a' o.id (log.append l) now) : Leg b a' o.id (log.append (o.logs seen a)) now :=
    same ▸ leg
  generalize hs : o.stage = stage at leg
  cases rule with
  -- no rule of another stage applies to a start that is at work
  | found _ other | launch other | stop _ other | nothingToStop other | coalesce _ _ other
  | restart _ _ other | restartAlone _ other | crash _ _ other | outdated _ other
  | tearDown _ other | tornDown _ _ _ other | stopped _ _ other | crashed _ _ _ _ other
  | refused _ other =>
    obtain rfl := hs.symm.trans other
    cases leg
  | unlaunched failure here told =>
    obtain rfl := hs.symm.trans here
    cases leg with
    | launching untold =>
      have same : o.logs seen a = ⟨[.error failure], [], []⟩ := by
        simp [Operation.logs, Operation.deeds, hs, told, Stage.launch?, Stage.probe?]
      refine .inr ⟨.error failure, rfl, ?_⟩
      rw [same]
      exact .unlaunched failure (noTrace_of_untold untold session current events)
  | spawned toolchain pid here told =>
    obtain rfl := hs.symm.trans here
    cases leg with
    | launching untold spawned =>
      have same : o.logs seen a = ⟨[.ok (toolchain, pid)], [], [.spawned b.spawned]⟩ := by
        simp [Operation.logs, Operation.deeds, hs, told, Stage.launch?, Stage.probe?, spawned]
      refine .inl ⟨_, rfl, rfl, rfl, rfl, logs same ?_⟩
      rw [spawned]
      exact .probing toolchain pid ⟨untold.generation, untold.unattached, untold.orders⟩
  | unfit p toolchain outcome failure here told verdict =>
    obtain rfl := hs.symm.trans here
    cases leg with
    | probing toolchain pid untold =>
      have same : o.logs seen a = ⟨[], [outcome], [.killing b.spawned]⟩ := by
        simp [Operation.logs, Operation.deeds, hs, told, Stage.launch?, Stage.probe?, verdict]
      refine .inl ⟨_, rfl, rfl, rfl, rfl, logs same ?_⟩
      exact .killing _ outcome failure verdict ⟨untold.generation, untold.unattached, untold.orders⟩
  | fit toolchain outcome l here told verdict fresh =>
    have here := hs.symm.trans here
    cases leg with
    | launching | killing | attaching | attached => cases here
    | probing toolchain' pid untold =>
      have process : b.spawned = l.process := (Stage.probing.inj here).1
      have same : o.logs seen a = ⟨[], [outcome], []⟩ := by
        simp [Operation.logs, Operation.deeds, hs, told, Stage.launch?, Stage.probe?, verdict]
      -- the dispatcher is there, so it gets the order to take the process
      rw [Affairs.order, if_neg (by simp [live])] at logs ⊢
      refine .inl ⟨_, rfl, rfl, rfl, rfl, logs same ?_⟩
      refine .attaching _ outcome l ⟨verdict, process.symm, ?_, rfl⟩ untold.unattached ?_
      · rw [fresh, untold.generation]
      · simp only [untold.orders, List.nil_append]
  | launchFailed p failure here told =>
    obtain rfl := hs.symm.trans here
    cases leg with
    | killing launched outcome failure unfit untold =>
      have same : o.logs seen a = ⟨[], [], []⟩ := by
        simp [Operation.logs, Operation.deeds, hs, Stage.launch?, Stage.probe?]
      refine .inr ⟨.error failure, rfl, ?_⟩
      rw [same, Log.append_nil]
      exact .unfit launched outcome failure unfit (noTrace_of_untold untold session current events)
  | ready l here =>
    obtain rfl := hs.symm.trans here
    cases leg with
    | attached launched outcome l handedOver orders =>
      have same : o.logs seen a = ⟨[], [], []⟩ := by
        simp [Operation.logs, Operation.deeds, hs, Stage.launch?, Stage.probe?]
      refine .inr ⟨.ok l.info, rfl, ?_⟩
      rw [same, Log.append_nil]
      exact .succeeds launched outcome l handedOver.fit ⟨handedOver.process, handedOver.fresh,
        handedOver.generation, rfl, rfl, rfl, congrArg (· ++ _) events⟩

/-- **An attempt goes on or is concluded** by every rule, and its log tells how. -/
theorem Advance.attempting {o : Operation} {seen : Observation} (rule : Advance a o seen a')
    (known : a.lock.operation? o.id = some o) (sound : a.lock.Sound)
    (attempting : Attempting b a o.id log) (live : a.dispatch.ended = false) :
    Attempting b a' o.id (log.append (o.logs seen a)) ∨
      ∃ outcome, a'.lock.stage? o.id = some (.done (.launched outcome)) ∧
        Concluded b a' (log.append (o.logs seen a)) outcome := by
  obtain ⟨stage, here, leg⟩ := attempting.leg
  obtain rfl := Option.some.inj ((Lock.stage?_of_known known).symm.trans here)
  rcases rule.leg leg attempting.session attempting.current attempting.events live with
    ⟨now, lock, session, current, events, leg⟩ | ⟨outcome, lock, concluded⟩
  · refine .inl ⟨lock ▸ attempting.holder, ?_, session.trans attempting.session,
      current.trans attempting.current, events.trans attempting.events, now, ?_, leg⟩
    · rw [lock, Lock.purpose?_reach]
      exact attempting.purpose
    · rw [lock, Lock.stage?_reach _ (by simp [here]), Function.update_self]
  · have start : o.purpose = .start :=
      Option.some.inj ((Lock.purpose?_of_known known).symm.trans attempting.purpose)
    refine .inr ⟨outcome, ?_, concluded⟩
    rw [lock, start]
    exact sound.stage?_finish attempting.holder _

/-- Who is not told what it waits for logs nothing. -/
theorem logs_stuck {o : Operation} {seen : Observation} (stuck : o.stage.goesOn seen = false) :
    o.logs seen a = ⟨[], [], []⟩ := by
  have deeds : o.deeds seen a.session a.spawned = [] := deeds_stuck stuck _ _
  rw [Operation.logs, deeds]
  cases h : o.stage <;> cases seen <;> simp_all [Stage.goesOn, Stage.launch?, Stage.probe?]

/-! ### One event -/

/-- **A start is told something**, what it waits for or something else. -/
theorem Attempting.proceed {s : Supervisor} (attempting : Attempting b s.affairs id log)
    (sound : s.lock.Sound) (live : s.dispatch.ended = false) (seen : Observation) :
    Attempting b (s.proceed id seen).1.affairs id
        (log.append (Supervisor.log id [⟨s, .proceed id seen⟩])) ∨
      ∃ outcome, (s.proceed id seen).1.stage? id = some (.done (.launched outcome)) ∧
        Concluded b (s.proceed id seen).1.affairs
          (log.append (Supervisor.log id [⟨s, .proceed id seen⟩])) outcome := by
  obtain ⟨stage, here, leg⟩ := attempting.leg
  obtain ⟨o, known, rfl⟩ := Option.map_eq_some_iff.mp here
  obtain rfl : o.id = id := operation?_id (s := s) known
  have notLeaving : o.stage ≠ .leaving := fun leaving => by cases leaving ▸ leg.begun.1
  rw [log_of_proceed known seen]
  rcases proceed_advance seen known notLeaving with ⟨stuck, same⟩ | rule
  · have nothing := logs_stuck (a := s.affairs) stuck
    rw [same, nothing, Log.append_nil]
    exact .inl attempting
  · exact rule.attempting known sound attempting live

/-- **One event of a start**: it goes on or comes to its end, unless it is given up, or the
dispatcher has ended. -/
theorem Attempting.next {e : machine.Event} (attempting : Attempting b e.before.affairs id log)
    (inOrder : InOrder e.before) (careful : Careful e.before e.action)
    (live : e.before.dispatch.ended = false) (kept : e.action ≠ .abandon id) :
    e.after.dispatch.ended = true ∨
      Attempting b e.after.affairs id (log.append (Supervisor.log id [e])) ∨
      ∃ outcome, e.after.stage? id = some (.done (.launched outcome)) ∧
        Concluded b e.after.affairs (log.append (Supervisor.log id [e])) outcome := by
  obtain ⟨s, move⟩ := e
  have sound : s.affairs.lock.Sound := inOrder.sound
  by_cases told : ∃ seen, move = .proceed id seen
  · obtain ⟨seen, rfl⟩ := told
    exact .inr (attempting.proceed sound live seen)
  -- from here on somebody else moves, and the start has nothing to log
  have aside : Supervisor.log id [⟨s, move⟩] = ⟨[], [], []⟩ :=
    log_of_other (e := ⟨s, move⟩) sound attempting.holder fun seen h => told ⟨seen, h⟩
  rw [aside, Log.append_nil]
  by_cases given : ∃ j, move = .abandon j
  · obtain ⟨j, rfl⟩ := given
    have free : s.affairs.lock.holder ≠ some j := by
      rw [attempting.holder]
      rintro ⟨⟩
      exact kept rfl
    have affairs : (s.step (.abandon j)).1.affairs = _ := s.affairs_abandon j
    exact .inr (.inl (affairs ▸ attempting.bystands (bystands_forsake sound free)))
  have orderly := careful.orderly fun j h => given ⟨j, h⟩
  have change := step_change orderly inOrder.settled
  rcases change.trichotomy sound (by rintro j rfl; exact careful) with
    ⟨o, seen, rfl, known, rule⟩ | ⟨fired, rfl, handled⟩ | bystands
  · have mine := Option.some.inj ((rule.holder sound known).symm.trans attempting.holder)
    exact absurd ⟨seen, mine ▸ rfl⟩ told
  · exact (handled.attempting attempting).imp_right .inl
  · exact .inr (.inl (attempting.bystands bystands))

end Legs

/-! ## Attempts -/

/-- **An attempt to start** in a history: at `d` the start has its turn and finds everything
stopped, and at `e`, after `mid`, it is done. Nobody has given it up, and the dispatcher has not
ended. -/
structure Attempt (h : List machine.Event) (id : OperationId) (d : machine.Event)
    (mid : List machine.Event) (e : machine.Event) (result : Result) : Prop where
  during : ∃ past later, h = past ++ d :: (mid ++ e :: later)
  turn : ∃ seen, d.action = .proceed id seen
  purpose : d.before.lock.purpose? id = some .start
  entered : d.before.stage? id = some .entered
  stopped : d.before.affairs.Stopped
  kept : ∀ f ∈ mid ++ [e], f.action ≠ .abandon id
  unfinished : ∀ f ∈ mid, ∀ result, f.after.stage? id ≠ some (.done result)
  done : e.after.stage? id = some (.done result)
  live : e.after.dispatch.ended = false

section Attempt

variable {xs : List Move} {id : OperationId} {d e : machine.Event} {mid : List machine.Event}
  {result : Result}

/-- The dispatcher does not come back after its end. -/
theorem ended_stays {f : machine.Event} (inOrder : InOrder f.before)
    (careful : Careful f.before f.action) (ended : f.before.dispatch.ended = true) :
    f.after.dispatch.ended = true := by
  obtain ⟨s, move⟩ := f
  by_cases given : ∃ j, move = .abandon j
  · obtain ⟨j, rfl⟩ := given
    have affairs : (s.step (.abandon j)).1.affairs = _ := s.affairs_abandon j
    exact (congrArg (fun a => a.dispatch.ended) affairs).trans ended
  · exact (step_change (careful.orderly fun j h => given ⟨j, h⟩) inOrder.settled).ended ended

/-- **The turn of a start** that finds everything stopped. -/
theorem attempting_of_turn {f : machine.Event} (inOrder : InOrder f.before) {seen : Observation}
    (turn : f.action = .proceed id seen) (purpose : f.before.lock.purpose? id = some .start)
    (entered : f.before.stage? id = some .entered) (stopped : f.before.affairs.Stopped) :
    Attempting f.before.affairs f.after.affairs id ⟨[], [], []⟩ ∧
      (f.before.affairs.Running → f.after.affairs.Running) := by
  obtain ⟨s, move⟩ := f
  obtain rfl : move = .proceed id seen := turn
  obtain ⟨o, known, here⟩ := Option.map_eq_some_iff.mp entered
  obtain rfl : o.id = id := operation?_id (s := s) known
  have start : o.purpose = .start :=
    Option.some.inj ((Lock.purpose?_of_known known).symm.trans purpose)
  have session : s.session = none := stopped.session
  -- everything is stopped, so the start launches a process at once
  have after : (s.proceed o.id seen).1 = s.beginLaunch o := by
    have known : s.operation? o.id = some o := known
    simp only [proceed, known, here, Supervisor.entered, start, session]
  have affairs : (s.proceed o.id seen).1.affairs =
      { s.affairs.setStatus .starting with lock := s.affairs.lock.reach o.id .launching } := by
    rw [after]
    simp [beginLaunch]
  show Attempting s.affairs (s.proceed o.id seen).1.affairs o.id _ ∧
    (_ → (s.proceed o.id seen).1.affairs.Running)
  rw [affairs]
  refine ⟨?_, fun running => ⟨running.live, running.untold⟩⟩
  refine ⟨inOrder.sound.holder entered rfl, ?_, session, stopped.current, rfl, .launching, ?_,
    .launching ⟨rfl, stopped.unattached, stopped.orders⟩ rfl⟩
  · exact (congrFun Lock.purpose?_reach o.id).trans purpose
  · have there : s.affairs.lock.stage? o.id ≠ none := fun gone => by cases entered.symm.trans gone
    exact (congrFun (Lock.stage?_reach _ there) o.id).trans (Function.update_self ..)

/-- **An attempt is concluded.** -/
theorem Attempt.concluded (attempt : Attempt (machine.history xs) id d mid e result)
    (careful : CarefulRun xs) : ∃ outcome, result = .launched outcome ∧
      Concluded d.before.affairs e.after.affairs (log id (mid ++ [e])) outcome := by
  obtain ⟨past, later, cut⟩ := attempt.during
  have event {f : machine.Event} (h : f ∈ d :: (mid ++ [e])) :
      InOrder f.before ∧ Careful f.before f.action := by
    refine careful.event ?_
    rw [cut]
    refine List.mem_append_right _ ?_
    simp only [List.mem_cons, List.mem_append, List.not_mem_nil, or_false] at h ⊢
    tauto
  obtain ⟨seen, turn⟩ := attempt.turn
  obtain ⟨start, -⟩ := attempting_of_turn (event List.mem_cons_self).1 turn attempt.purpose
    attempt.entered attempt.stopped
  -- once ended the dispatcher stays so, which `e` rules out
  have between : e.before.dispatch.ended = true ∨
      Attempting d.before.affairs e.before.affairs id (log id mid) := by
    refine machine.stretch_induction
      (P := fun h s =>
        s.dispatch.ended = true ∨ Attempting d.before.affairs s.affairs id (log id h))
      (A := fun f => (InOrder f.before ∧ Careful f.before f.action) ∧ f.action ≠ .abandon id ∧
        ∀ result, f.after.stage? id ≠ some (.done result)) cut (.inr start) ?_ ?_
    · rintro h f ⟨⟨inOrder, careful⟩, kept, unfinished⟩ (ended | attempting)
      · exact .inl (ended_stays inOrder careful ended)
      · cases ended : f.before.dispatch.ended with
        | true => exact .inl (ended_stays inOrder careful ended)
        | false =>
          rw [log_append]
          refine (attempting.next inOrder careful ended kept).imp_right fun now => ?_
          exact now.resolve_right fun ⟨outcome, done, _⟩ => unfinished _ done
    · intro f hf
      exact ⟨event (by simp [hf]), attempt.kept f (by simp [hf]), attempt.unfinished f hf⟩
  obtain ⟨inOrder, careful⟩ := event (f := e) (by simp)
  have live : e.before.dispatch.ended = false := by
    by_contra ended
    have stays := ended_stays inOrder careful ((Bool.not_eq_false _).mp ended)
    cases attempt.live.symm.trans stays
  have attempting := between.resolve_left (by simp [live])
  have now := (attempting.next inOrder careful live (attempt.kept e (by simp))).resolve_left
    (by simp [attempt.live])
  rcases now with goesOn | ⟨outcome, done, concluded⟩
  · -- who is still at work is not done
    obtain ⟨stage, here, leg⟩ := goesOn.leg
    obtain rfl := Option.some.inj (here.symm.trans attempt.done)
    cases leg.begun.1
  · obtain rfl := Stage.done.inj (Option.some.inj (attempt.done.symm.trans done))
    exact ⟨outcome, rfl, log_append id mid [e] ▸ concluded⟩

end Attempt

/-! ## A start comes to an end

Whatever comes of launching and of the probe, and whatever has happened before: the start is done
when it has been told so and the dispatcher has taken what it was sent by then. -/

/-- **A move that helps a start along** for which launching and probing come to this. -/
inductive Helps (id : OperationId) (launched : Except Failure (Toolchain × UInt32))
    (outcome : Probe.Outcome) : Move → Prop where
  | goOn : Helps id launched outcome (.proceed id .nothing)
  | launched : Helps id launched outcome (.proceed id (.launched launched))
  | probed : Helps id launched outcome (.proceed id (.probed outcome))
  | killed : Helps id launched outcome (.proceed id .killed)
  | dispatch (fired : Token → Bool) : Helps id launched outcome (.dispatch fired)

/-- **A way to the end** of a start: first `ys`, and with `y` it is done. -/
structure Way (s : Supervisor) (id : OperationId) (launched : Except Failure (Toolchain × UInt32))
    (outcome : Probe.Outcome) (ys : List Move) (y : Move) : Prop where
  helps : ∀ x ∈ ys ++ [y], Helps id launched outcome x
  unfinished : ∀ f ∈ machine.historyFrom s ys, ∀ result, f.after.stage? id ≠ some (.done result)
  done : ∃ result, ((machine.runFrom s ys).step y).1.stage? id = some (.done result)
  live : ((machine.runFrom s ys).step y).1.dispatch.ended = false

section Way

variable {s : Supervisor} {b : Affairs} {id : OperationId} {l : Log} {stage : Stage}
  {launched : Except Failure (Toolchain × UInt32)} {outcome : Probe.Outcome}

/-- What helps an attempt drops no call. -/
theorem Helps.keeps {x : Move} (helps : Helps id launched outcome x) : x.keeps = true := by
  cases helps <;> rfl

/-- What helps an attempt is orderly. -/
theorem Helps.orderly {x : Move} (helps : Helps id launched outcome x) (s : Supervisor) :
    Orderly s x := by
  cases helps <;> trivial

/-- An attempt that goes on has no result. -/
theorem Attempting.unfinished (attempting : Attempting b s.affairs id l) (result : Result) :
    s.stage? id ≠ some (.done result) := by
  intro done
  obtain ⟨stage, here, leg⟩ := attempting.leg
  obtain rfl := Option.some.inj (here.symm.trans done)
  cases leg.begun.1

/-- One step may be all of the way. -/
theorem Way.last {y : Move} {result : Result} (helps : Helps id launched outcome y)
    (done : (s.step y).1.stage? id = some (.done result))
    (live : (s.step y).1.dispatch.ended = false) : Way s id launched outcome [] y where
  helps := by
    rw [List.nil_append]
    exact List.forall_mem_singleton.mpr helps
  unfinished := fun _ none => absurd none List.not_mem_nil
  done := ⟨result, done⟩
  live := live

/-- A step that helps may be put before the way. -/
theorem Way.cons {x y : Move} {ys : List Move} (way : Way (s.step x).1 id launched outcome ys y)
    (helps : Helps id launched outcome x) (attempting : Attempting b (s.step x).1.affairs id l) :
    Way s id launched outcome (x :: ys) y where
  helps := by
    rw [List.cons_append]
    exact List.forall_mem_cons.mpr ⟨helps, way.helps⟩
  unfinished := List.forall_mem_cons.mpr ⟨attempting.unfinished, way.unfinished⟩
  done := way.done
  live := way.live

/-- **A start that is told what it waits for** is done then, or nearer to its end. -/
theorem Attempting.told (attempting : Attempting b s.affairs id l) (inOrder : InOrder s)
    (running : s.affairs.Running) (here : s.stage? id = some stage) {seen : Observation}
    (goes : stage.goesOn seen = true) :
    (s.proceed id seen).1.affairs.Running ∧
      ((∃ result, (s.proceed id seen).1.stage? id = some (.done result)) ∨
        ∃ l' now, Attempting b (s.proceed id seen).1.affairs id l' ∧
          (s.proceed id seen).1.stage? id = some now ∧ now.distance < stage.distance) := by
  obtain ⟨o, known, rfl⟩ := Option.map_eq_some_iff.mp here
  obtain rfl : o.id = id := operation?_id known
  have sound : s.affairs.lock.Sound := inOrder.sound
  have notLeaving : o.stage ≠ .leaving := by
    obtain ⟨stage, there, leg⟩ := attempting.leg
    obtain rfl := Option.some.inj (here.symm.trans there)
    exact fun leaving => by cases leaving ▸ leg.begun.1
  -- what it saw is what it waited for, so it is not stuck
  have rule := (proceed_advance seen known notLeaving).resolve_left fun ⟨stuck, _⟩ => by
    cases goes.symm.trans stuck
  refine ⟨rule.running running, ?_⟩
  rcases rule.attempting known sound attempting running.live with goesOn | ⟨outcome, done, -⟩
  · obtain ⟨now, there, leg⟩ := goesOn.leg
    refine .inr ⟨_, now, goesOn, there, ?_⟩
    have known : s.affairs.lock.stage? o.id ≠ none := fun gone => by cases here.symm.trans gone
    rcases rule.lock with ⟨now', nears, lock⟩ | ⟨result, lock⟩
    · rw [lock, Lock.stage?_reach _ known, Function.update_self] at there
      exact Option.some.inj there ▸ nears.nearer
    · -- who hands the lock on is at work no more
      rw [lock, sound.stage?_finish attempting.holder] at there
      exact absurd (Option.some.inj there) (last_ne o.purpose result leg.begun.1)
  · exact .inl ⟨_, done⟩

/-- **The dispatcher comes nearer to a process that is handed over**, and takes it at last. -/
theorem Attempting.asked (attempting : Attempting b s.affairs id l) (inOrder : InOrder s)
    (running : s.affairs.Running) (here : s.stage? id = some stage) {c : Dispatch.Command}
    {rest : List Dispatch.Command} (inbox : s.inbox = c :: rest) (fired : Token → Bool) :
    (s.runDispatcher fired).1.affairs.Running ∧ (s.runDispatcher fired).1.inbox = rest ∧
      Attempting b (s.runDispatcher fired).1.affairs id l ∧
      ∃ now, (s.runDispatcher fired).1.stage? id = some now ∧
        (now = stage ∨ now.distance < stage.distance) := by
  have left := inbox_dispatch fired inbox
  rcases runDispatcher_handled fired inOrder.settled with same | ⟨handled, -⟩
  · have inbox' := (congrArg Supervisor.inbox same).symm.trans left
    exact absurd (inbox.symm.trans inbox') (List.cons_ne_self _ _)
  have running' := handled.running running
  have attempting' := (handled.attempting attempting).resolve_left (by simp [running'.live])
  refine ⟨running', left, attempting', ?_⟩
  rcases handled.lock with same | ⟨asker, e, before, after, waits, answered, lock⟩
  · exact ⟨stage, (congrArg (Lock.stage? · id) same).trans here, .inl rfl⟩
  · -- only who holds the lock is answered
    have mine := inOrder.sound.holder waits (answered_holds answered).1
    obtain rfl : asker = id := Option.some.inj (mine.symm.trans attempting.holder)
    obtain rfl := Option.some.inj (waits.symm.trans here)
    refine ⟨after, ?_, .inr (answered_nears answered none).nearer⟩
    show (s.runDispatcher fired).1.affairs.lock.stage? asker = some after
    rw [lock, Lock.stage?_reach _ (by simp [waits]), Function.update_self]

/-- **A start that is at work can come to its end**, whatever launching and the probe come to. -/
theorem Attempting.way (attempting : Attempting b s.affairs id l) (inOrder : InOrder s)
    (running : s.affairs.Running) (launched : Except Failure (Toolchain × UInt32))
    (outcome : Probe.Outcome) : ∃ ys y, Way s id launched outcome ys y := by
  obtain ⟨stage, here, leg⟩ := attempting.leg
  -- on the stages that it has before it
  induction hn : stage.distance using Nat.strongRecOn generalizing s l stage with
  | ind n ih =>
    have onward {seen : Observation} (helps : Helps id launched outcome (.proceed id seen))
        (goes : stage.goesOn seen = true) : ∃ ys y, Way s id launched outcome ys y := by
      obtain ⟨running', done | ⟨l', now, attempting', here', nearer⟩⟩ :=
        attempting.told inOrder running here goes
      · obtain ⟨result, done⟩ := done
        exact ⟨[], _, .last helps done running'.live⟩
      · obtain ⟨now', there, leg⟩ := attempting'.leg
        obtain rfl := Option.some.inj (here'.symm.trans there)
        obtain ⟨ys, y, way⟩ := ih now.distance (hn ▸ nearer) attempting'
          (inOrder.step (helps.orderly s)) running' now here' leg rfl
        exact ⟨_, y, way.cons (x := .proceed id seen) helps attempting'⟩
    cases leg with
    | launching => exact onward .launched rfl
    | probing => exact onward .probed rfl
    | killing => exact onward .killed rfl
    | attached => exact onward .goOn rfl
    | attaching launched' outcome' session handedOver unattached orders =>
      -- on the commands that the dispatcher takes first
      clear onward
      generalize hi : s.inbox = inbox
      induction inbox generalizing s with
      | nil =>
        have nothing : s.affairs.orders = [] := congrArg (List.filter isOrder) hi
        cases nothing.symm.trans orders
      | cons c rest ih' =>
        have helps : Helps id launched outcome (.dispatch fun _ => false) := .dispatch _
        have inOrder' := inOrder.step (helps.orderly s)
        obtain ⟨running', left, attempting', now, here', nearer⟩ :=
          attempting.asked inOrder running here hi fun _ => false
        obtain ⟨now', there, leg⟩ := attempting'.leg
        obtain rfl := Option.some.inj (here'.symm.trans there)
        have rest : ∃ ys y, Way (s.runDispatcher fun _ => false).1 id launched outcome ys y := by
          rcases nearer with rfl | nearer
          · cases leg with
            | attaching _ _ _ handedOver unattached orders =>
              exact ih' inOrder' running' handedOver unattached orders attempting' here' left
          · exact ih _ (hn ▸ nearer) attempting' inOrder' running' now here' leg rfl
        obtain ⟨ys, y, way⟩ := rest
        exact ⟨_, y, way.cons (x := .dispatch _) helps attempting'⟩

/-- What a start is told on its way is what launching and the probe come to. -/
theorem log_of_helps {h : List machine.Event}
    (helps : ∀ f ∈ h, Helps id launched outcome f.action) :
    (∀ x ∈ (log id h).launches, x = launched) ∧ ∀ x ∈ (log id h).probes, x = outcome := by
  -- what the operation sees is told to it by a move of its own
  have told {f : machine.Event} {stage : Stage} {seen : Observation}
      (sees : sees? id f = some (stage, seen)) : ∃ j, f.action = .proceed j seen := by
    unfold sees? at sees
    split at sees
    · split at sees
      · rename_i action _
        obtain ⟨_, _, pair⟩ := Option.map_eq_some_iff.mp sees
        obtain rfl := (Prod.mk.inj pair).2
        exact ⟨_, action⟩
      · cases sees
    · cases sees
  constructor
  · intro x hx
    obtain ⟨f, hf, logged⟩ := List.mem_filterMap.mp hx
    obtain ⟨⟨stage, seen⟩, sees, launch⟩ := Option.bind_eq_some_iff.mp logged
    obtain ⟨j, action⟩ := told sees
    have help := helps f hf
    rw [action] at help
    cases help with
    | launched => cases stage <;> cases launch; rfl
    | goOn | probed | killed => cases stage <;> cases launch
  · intro x hx
    obtain ⟨f, hf, logged⟩ := List.mem_filterMap.mp hx
    obtain ⟨⟨stage, seen⟩, sees, probe⟩ := Option.bind_eq_some_iff.mp logged
    obtain ⟨j, action⟩ := told sees
    have help := helps f hf
    rw [action] at help
    cases help with
    | probed => cases stage <;> cases probe; rfl
    | goOn | launched | killed => cases stage <;> cases probe

end Way

section Turn

variable {xs : List Move} {id : OperationId}

/-- A careful run may go on with moves that drop no call. -/
theorem CarefulRun.append_of_keeps (careful : CarefulRun xs) {ys : List Move}
    (keeps : ∀ y ∈ ys, y.keeps = true) : CarefulRun (xs ++ ys) := by
  rw [CarefulRun, Machine.history, Machine.historyFrom_append, List.forall_mem_append]
  refine ⟨careful, fun e he => ?_⟩
  have kept := keeps _ (machine.action_mem he)
  cases hx : e.action with
  | abandon | collect =>
    rw [hx] at kept
    cases kept
  | _ => trivial

/-- A stretch of moves by which a start is done is an attempt. -/
theorem attempt_of_moves (id : OperationId) (xs ys zs : List Move) (seen : Observation) (y : Move)
    {result : Result}
    (purpose : (machine.run xs).lock.purpose? id = some .start)
    (entered : (machine.run xs).stage? id = some .entered)
    (stopped : (machine.run xs).affairs.Stopped) (kept : ∀ x ∈ ys ++ [y], x ≠ .abandon id)
    (unfinished : ∀ f ∈ machine.historyFrom ((machine.run xs).proceed id seen).1 ys, ∀ result,
      f.after.stage? id ≠ some (.done result))
    (done : ((machine.runFrom ((machine.run xs).proceed id seen).1 ys).step y).1.stage? id =
      some (.done result))
    (live : ((machine.runFrom ((machine.run xs).proceed id seen).1 ys).step y).1.dispatch.ended =
      false) :
    Attempt (machine.history (xs ++ .proceed id seen :: (ys ++ y :: zs))) id
      ⟨machine.run xs, .proceed id seen⟩
      (machine.historyFrom ((machine.run xs).proceed id seen).1 ys)
      ⟨machine.runFrom ((machine.run xs).proceed id seen).1 ys, y⟩ result where
  during := ⟨_, _, machine.history_stretch xs ys zs (.proceed id seen) y⟩
  turn := ⟨seen, rfl⟩
  purpose := purpose
  entered := entered
  stopped := stopped
  kept := fun f hf => kept f.action (machine.stretch_action_mem hf)
  unfinished := unfinished
  done := done
  live := live

/-- **A start that has its turn can be done**, whatever launching and the probe come to. -/
theorem can_start (careful : CarefulRun xs)
    (entered : (machine.run xs).stage? id = some .entered)
    (purpose : (machine.run xs).lock.purpose? id = some .start)
    (stopped : (machine.run xs).affairs.Stopped) (running : (machine.run xs).affairs.Running)
    (launched : Except Failure (Toolchain × UInt32)) (outcome : Probe.Outcome) :
    ∃ ys d mid e result, CarefulRun (xs ++ ys) ∧
      machine.history (xs ++ ys) = machine.history xs ++ d :: (mid ++ [e]) ∧
      Attempt (machine.history (xs ++ ys)) id d mid e result ∧
      (∀ x ∈ (log id (mid ++ [e])).launches, x = launched) ∧
      ∀ x ∈ (log id (mid ++ [e])).probes, x = outcome := by
  -- the turn comes first; from there on there is a way
  obtain ⟨attempting, goesOn⟩ := attempting_of_turn (f := ⟨machine.run xs, .proceed id .nothing⟩)
    careful.inOrder rfl purpose entered stopped
  have allowed : Orderly (machine.run xs) (.proceed id .nothing) := trivial
  obtain ⟨ys, y, way⟩ :=
    attempting.way (careful.inOrder.step allowed) (goesOn running) launched outcome
  obtain ⟨result, done⟩ := way.done
  have kept : ∀ x ∈ ys ++ [y], x ≠ .abandon id :=
    fun x hx given => by cases given ▸ way.helps x hx
  have attempt := attempt_of_moves id xs ys [] .nothing y purpose entered stopped kept
    way.unfinished done way.live
  obtain ⟨launches, probes⟩ :=
    log_of_helps fun f hf => way.helps f.action (machine.stretch_action_mem hf)
  refine ⟨_, _, _, _, result, ?_, machine.history_stretch xs ys [] _ y, attempt, launches, probes⟩
  refine careful.append_of_keeps (List.forall_mem_cons.mpr ⟨rfl, fun x hx => ?_⟩)
  exact (way.helps x hx).keeps

/-- **A start that finds no session finds everything stopped**, if no operation was given up. -/
theorem stopped_of_orderly (orderly : OrderlyRun xs)
    (entered : (machine.run xs).stage? id = some .entered)
    (session : (machine.run xs).session = none) : (machine.run xs).affairs.Stopped := by
  have holder := (run_inOrder orderly).sound.holder entered rfl
  obtain ⟨o, known, here⟩ := Option.map_eq_some_iff.mp entered
  have phase := (run_attuned orderly).phase_at holder entered
  have shows := (run_standing orderly).1.shows holder known
  rw [here] at shows
  obtain ⟨status, current⟩ := shows.noSession session
  exact ⟨status, session, current, phase.vacant session, phase.orders⟩

end Turn

end Supervisor

end CompilerSession
