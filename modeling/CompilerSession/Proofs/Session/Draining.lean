import CompilerSession.Proofs.Dispatch.Draining
import CompilerSession.Proofs.Session.Processes

/-
Nobody is forgotten when a process is killed.

A stop and a restart ask the dispatcher to let go of the session before they kill its process. What
the dispatcher does then is `Dispatch.Draining`. Here it is carried over to the supervisor: when a
process is killed nothing is attached, so whatever was accepted has its outcome, and callers have
learned of it. The dispatcher of a supervisor has only runs of which its laws speak
(`run_dispatched`), so nothing is asked of a run but that no operation is given up.
-/

set_option autoImplicit false

namespace CompilerSession.Supervisor

open Dispatch (Effect Stimulus submissions Belongs AttachedOnce Draining acceptance acceptedUnder
  latestChannel)
open Machine (outputs)

/-! ## Outcomes reach callers -/

/-- An outcome among the effects is told to whoever submitted the request. -/
theorem resolved_absorb (s : Supervisor) {es : List Effect} {id : RequestId} {outcome : Outcome}
    (h : .resolved id outcome ∈ es) : .resolved id outcome ∈ (s.absorb es).2 := by
  induction es generalizing s with
  | nil => cases h
  | cons e es ih =>
    rcases List.mem_cons.mp h with rfl | later
    · exact List.mem_append_left _ (List.mem_singleton_self _)
    · exact List.mem_append_right _ (ih _ later)

/-- What the dispatcher took at an event is what it does then. -/
theorem outputs_of_stimulus {e : machine.Event} {z : Stimulus} (h : stimulus? e = some z) :
    ∃ s : Supervisor, e.outputs =
      (s.absorb (Dispatch.step z.fired e.before.dispatch z.input).2).2 := by
  obtain ⟨s, action⟩ := e
  cases action with
  | dispatch fired =>
    obtain ⟨⟨input, s'⟩, next, rfl⟩ := Option.map_eq_some_iff.mp h
    have same := (nextInput?_takes next).2
    refine ⟨{ s' with dispatch := (Dispatch.step fired s.dispatch input).1 }, ?_⟩
    show (s.runDispatcher fired).2 = _
    simp only [runDispatcher, next, same]
  | _ => cases h

/-- **Callers learn of all outcomes.** -/
theorem run_resolved {xs : List Move} {id : RequestId} {outcome : Outcome}
    (h : .resolved id outcome ∈
      outputs (Dispatch.machine.history (stimuli (machine.history xs)))) :
    .resolved id outcome ∈ outputs (machine.history xs) := by
  induction xs using List.reverseRecOn with
  | nil => cases h
  | append_singleton xs x ih =>
    rw [machine.history_concat] at h ⊢
    rw [stimuli_concat] at h
    rw [Machine.outputs_append, List.mem_append, Machine.outputs_singleton]
    cases taken : stimulus? ⟨machine.run xs, x⟩ with
    | none =>
      rw [taken, Option.toList_none, List.append_nil] at h
      exact .inl (ih h)
    | some z =>
      rw [taken, Option.toList_some, Dispatch.machine.history_concat, Machine.outputs_append,
        Machine.outputs_singleton, List.mem_append] at h
      refine h.imp ih fun now => ?_
      obtain ⟨s, told⟩ := outputs_of_stimulus taken
      rw [told]
      refine resolved_absorb s ?_
      show _ ∈ (Dispatch.step z.fired (machine.run xs).dispatch z.input).2
      rw [show (machine.run xs).dispatch = _ from (run_fair xs).dispatch]
      exact now

/-! ## Killing -/

/-- When a process is killed, nothing is attached. -/
theorem unattached_of_killing {xs : List Move} {x : Move} (orderly : OrderlyRun (xs ++ [x]))
    {id : OperationId} {p : ProcessId}
    (h : .killing id p ∈ (machine.step (machine.run xs) x).2) :
    (machine.run xs).dispatch.attached = none := by
  have deed : .killing p ∈ deeds (machine.step (machine.run xs) x).2 :=
    List.mem_filterMap.mpr ⟨_, h, rfl⟩
  have tends := event_tends orderly.careful
  have flow := (step_flow ⟨machine.run xs, x⟩).dispatch
  have attuned := run_attuned orderly
  generalize deeds (machine.step (machine.run xs) x).2 = ds at deed tends
  cases tends with
  | keeps _ _ _ _ _ _ calls =>
    obtain ⟨y, q, same⟩ := calls _ deed
    cases same
  | spawns => cases List.mem_singleton.mp deed
  | buries | deserts => cases deed
  | kills _ _ _ _ _ _ _ dying =>
    rcases flow with ⟨-, same⟩ | ⟨_, -, other, -⟩
    · have unattached := attuned.unattached_of_dying dying
      rw [machine.run_concat] at unattached
      exact (congrArg Dispatch.State.attached same).symm.trans unattached
    · cases other

/-- A call is made on the channel that was attached with the generation of its request. -/
theorem run_called_channel {xs : List Move} {x : Move} (orderly : OrderlyRun (xs ++ [x]))
    {y : Dispatch.Entry} {p : ProcessId}
    (h : .called y p ∈ (machine.step (machine.run xs) x).2) :
    (machine.run xs).dispatch.attached = some y.generation ∧
      latestChannel (Dispatch.machine.history (stimuli (machine.history xs))) =
        some (y.generation, p) := by
  have deed : .called y p ∈ deeds (machine.step (machine.run xs) x).2 :=
    List.mem_filterMap.mpr ⟨_, h, rfl⟩
  obtain ⟨z, hz, called⟩ := (step_flow ⟨machine.run xs, x⟩).called deed
  obtain ⟨-, distinct, belong, -⟩ := run_dispatched orderly.careful
  have fair := (run_fair xs).dispatch
  rw [machine.history_concat, stimuli_concat, hz, Option.toList_some] at distinct belong
  have cut := Dispatch.machine.history_concat (stimuli (machine.history xs)) z
  obtain ⟨-, attached, latest⟩ := Dispatch.run_called distinct belong cut
    (show .called y p ∈ (Dispatch.step z.fired _ z.input).2 by rwa [← fair])
  exact ⟨(congrArg Dispatch.State.attached fair).trans attached, latest⟩

/-! ## The law -/

/-- **A session is drained before its process is killed.** In every run of a dispatcher in which
requests have different numbers, completions belong to calls, and each generation is attached at
most once: a detach of the attached generation makes all requests stale that were accepted and not
resolved, and is answered with their number, and from then on no call is made under this generation
or on its channel, and no request of it is resolved. A detach of another generation is answered
with zero and changes nothing.

In every run of a supervisor in which no operation is given up: when a process is killed, whatever
was accepted before has its outcome, and its caller has learned of it; and a call is made only under
the generation under which its request was accepted, on the channel of that generation. -/
theorem drained_before_killed :
    (∀ xs : List Stimulus, (submissions xs).Nodup →
      (∀ past e later, Dispatch.machine.history xs = past ++ e :: later → Belongs past e) →
      AttachedOnce xs →
      ∀ past e later, Dispatch.machine.history xs = past ++ e :: later →
        ∀ g asker, e.action.input = .command (.detach g asker) →
          (e.before.attached = some g → Draining past e later g asker) ∧
          (e.before.attached ≠ some g → e.before.ended = false →
            e.after = e.before ∧ e.outputs = [.detached asker 0])) ∧
    ∀ xs : List Move, OrderlyRun xs →
      ∀ past e later, machine.history xs = past ++ e :: later →
        (∀ id p, .killing id p ∈ e.outputs → ∀ g,
          ∀ x ∈ acceptedUnder g (Dispatch.machine.history (stimuli past)),
            ∃ outcome, .resolved x.id outcome ∈ outputs past) ∧
        ∀ x p, .called x p ∈ e.outputs →
          e.before.dispatch.attached = some x.generation ∧
          latestChannel (Dispatch.machine.history (stimuli past)) = some (x.generation, p) := by
  refine ⟨fun xs distinct belong once past e later cut g asker detach => ⟨fun attached => ?_, ?_⟩,
    fun xs orderly past e later cut => ?_⟩
  · exact Dispatch.detach_drains cut distinct belong once detach attached
  · intro other live
    have settled : Dispatch.Settled e.before := Dispatch.settled_of_mem xs (by simp [cut])
    have rule := settled.iteration
    rw [detach] at rule
    exact rule.detach_other live other
  · obtain ⟨ys, x, rfl, rfl, upTo⟩ := orderly.upTo cut
    refine ⟨fun id p killed g y hy => ?_, fun y p called => run_called_channel upTo called⟩
    obtain ⟨dispatch, distinct, -⟩ := run_dispatched (orderlyRun_concat.mp upTo).1.careful
    -- nothing is attached when a process is killed, so nothing that was accepted is pending
    have unattached := unattached_of_killing upTo killed
    rw [dispatch] at unattached
    obtain ⟨outcome, told⟩ :=
      Dispatch.resolved_of_unattached distinct unattached (List.mem_of_mem_filter hy)
    exact ⟨outcome, run_resolved told⟩

/-- Three requests are accepted and the second one is taken back. The session is detached while the
first one is being answered, and the answer comes when a fourth one is under way on the next
channel. -/
def drainedRun : List Stimulus :=
  let submit (id : RequestId) : Dispatch.Input := .command (.submit id ⟨"", ["check"], none⟩ id)
  [ .command (.attach 1 0 0), submit 1, submit 2, submit 3, .command (.cancel 2),
    .command (.detach 1 1), .command (.attach 2 1 1), submit 4,
    .completed ⟨1, 1, 0, .ok ⟨"late", [], false⟩, none⟩ ].map fun input => ⟨fun _ => false, input⟩

/-- A session is restarted while it answers a request, up to the moment before it is killed. -/
def unkilledRun : List Move :=
  [.begin .start, .proceed 0 .nothing] ++ launching 0 7 ++
    [.submit ⟨"", ["check"], none⟩ 0, .dispatch fun _ => false, .begin .restart,
      .proceed 1 .nothing, .dispatch fun _ => false]

/-- In the first run a detachment drains one request in flight and one that waits; in the second one
the request is resolved when the kill of its process is about to begin. -/
theorem drainedRun_drains :
    (submissions drainedRun).Nodup ∧
    (∀ past e later, Dispatch.machine.history drainedRun = past ++ e :: later → Belongs past e) ∧
    AttachedOnce drainedRun ∧
    (∃ past e later, Dispatch.machine.history drainedRun = past ++ e :: later ∧
      e.outputs = [.resolved 1 (.error (.stale 1)), .resolved 3 (.error (.stale 1)),
        .detached 1 2] ∧ Draining past e later 1 1) ∧
    OrderlyRun (unkilledRun ++ [.proceed 1 .nothing]) ∧
    ∃ outcome, .resolved 1 outcome ∈ outputs (machine.history unkilledRun) := by
  have distinct : (submissions drainedRun).Nodup := by decide
  have once : AttachedOnce drainedRun := Dispatch.attachedOnce_of_nodup (by decide)
  have belong : ∀ past e later, Dispatch.machine.history drainedRun = past ++ e :: later →
      Belongs past e := by
    open Machine in
    refine forall_cut_cons (.of_command rfl) (forall_cut_cons (.of_command rfl)
      (forall_cut_cons (.of_command rfl) (forall_cut_cons (.of_command rfl)
        (forall_cut_cons (.of_command rfl) (forall_cut_cons (.of_command rfl)
          (forall_cut_cons (.of_command rfl) (forall_cut_cons (.of_command rfl)
            (forall_cut_cons ?_ forall_cut_nil))))))))
    rintro c ⟨⟩
    exact ⟨⟨1, ⟨"", ["check"], none⟩, 1, 1⟩, .head _, rfl, rfl⟩
  have orderly : OrderlyRun (unkilledRun ++ [.proceed 1 .nothing]) := by
    refine orderlyRun_of_keeps ?_
    decide
  obtain ⟨drains, told⟩ := drained_before_killed
  refine ⟨distinct, belong, once, ⟨[_, _, _, _, _], _, [_, _, _], rfl, rfl, ?_⟩, orderly, ?_⟩
  · exact (drains drainedRun distinct belong once [_, _, _, _, _] _ [_, _, _] rfl 1 1 rfl).1 rfl
  · have cut := machine.history_concat unkilledRun (.proceed 1 .nothing)
    have killed : .killing 1 0 ∈
        (machine.step (machine.run unkilledRun) (.proceed 1 .nothing)).2 := .head _
    exact (told _ orderly _ _ [] cut).1 1 0 killed 1 ⟨1, ⟨"", ["check"], none⟩, 0, 1⟩ (.head _)

end CompilerSession.Supervisor
