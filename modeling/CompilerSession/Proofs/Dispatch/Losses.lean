import CompilerSession.Proofs.Dispatch.Order

/-
The loss of a channel.

Two signals report the death of the same process: the current call ends with a fault, and the
exit of the process is seen. They come in either order, with a call under way or without one,
and a command that detaches the session may be handled before, between or after them. `Fails`
names the two signals, and the laws here say that it does not matter which one comes first. The
first one ends the session with all its requests and reports it, the other one finds nothing to
end, and whatever comes later waits for another process to be attached.

Most of it is about single steps: what a signal brings about (`Iteration.fails`), that nothing
else reports a loss (`Iteration.lost`), and which inputs leave the session alone
(`Iteration.spares`). What holds between two losses is a law of stretches, since a generation
that is not attached comes back only when it is attached (`attached_between`).
-/

set_option autoImplicit false

namespace CompilerSession.Dispatch

open Machine (outputs forall_cut_cons forall_cut_nil)

/-! ## Single steps -/

/-- **The channel of the attached process fails**, and this is what there is to report of it. -/
inductive Fails (s : State) : Input → Loss → Prop where
  /-- The current call ended with a fault. -/
  | call (c : Completion) (x : Entry) (fault : ChannelFault) (inFlight : s.inFlight = some x)
      (current : c.answers x) (result : c.result = .error fault) :
      Fails s (.completed c) ⟨x.generation, fault.message, c.exitCode⟩
  | exit (g : Nat) (exit : Exit) (attached : s.attached = some g) :
      Fails s (.exited exit) ⟨g, exit.message, exit.code⟩

/-- **What leaves the session alone.** -/
inductive Spares (s : State) : Input → Prop where
  /-- A call ended with a response, marked as an error or not. -/
  | answer (c : Completion) (r : Response) (result : c.result = .ok r) : Spares s (.completed c)
  /-- Another session is attached by now, or another call is under way. -/
  | late (c : Completion)
      (h : s.attached ≠ some c.generation ∨ ∀ x, s.inFlight = some x → x.id ≠ c.id) :
      Spares s (.completed c)
  | cancel (id : RequestId) : Spares s (.command (.cancel id))
  | otherDetached (g : Nat) (asker : OperationId) (h : s.attached ≠ some g) :
      Spares s (.command (.detach g asker))

section Step

variable {fired : Token → Bool} {s s' : State} {input : Input} {effects : List Effect}
  {loss : Loss}

/-- A channel that fails is the one that is attached. -/
theorem Fails.attached (fails : Fails s input loss) (hs : Settled s) :
    s.attached = some loss.generation := by
  cases fails with
  | exit g exit attached => exact attached
  | call c x fault inFlight =>
    cases hs with
    | vacant | resting => cases inFlight
    | calling w e q =>
      obtain rfl := Option.some.inj inFlight
      rfl

/-- Of the requests of a lost channel, those that wait are told the lost generation. -/
theorem Settled.collapse_eq (hs : Settled s) (attached : s.attached = some loss.generation) :
    s.collapse fired loss =
      s.inFlight.toList.map (Entry.blamed fired loss) ++
        s.queue.map (fun x => .resolved x.id (.error (.stale loss.generation))) ++
          [.lost loss] := by
  have stale : s.queue.map Entry.stale =
      s.queue.map fun x => .resolved x.id (.error (.stale loss.generation)) := by
    refine List.map_congr_left fun x hx => ?_
    rw [Entry.stale, staleness, hs.fits.queue _ attached x hx]
  rw [State.collapse, stale]

/-- A channel that is lost tells of its own loss. -/
theorem lost_mem_collapse {loss' : Loss} :
    .lost loss ∈ s.collapse fired loss' ↔ loss = loss' := by
  simp [State.collapse, Entry.blamed, Entry.stale]

variable (h : Iteration fired s input s' effects)

include h

/-- **A failure ends the session** with all its requests, and is reported. -/
theorem Iteration.fails (fails : Fails s input loss) :
    s' = .vacant false ∧ effects = s.collapse fired loss := by
  cases fails with
  | call c x fault inFlight current result =>
    cases h with
    | unheard => cases inFlight
    | tooLate _ _ _ late => exact absurd current (late x inFlight)
    | answered _ _ _ _ r _ good | answeredAndCalled _ _ _ _ _ _ r _ good =>
      cases result.symm.trans good
    | failed w e q c' fault' current' result' =>
      obtain rfl := Option.some.inj inFlight
      obtain rfl := Except.error.inj (result.symm.trans result')
      exact ⟨rfl, rfl⟩
    | ended _ _ input => rcases input with input | input <;> cases input
  | exit g exit attached =>
    cases h with
    | unheard | exitedAlone => cases attached
    | exited _ g' _ _ attached' =>
      obtain rfl := Option.some.inj (attached.symm.trans attached')
      exact ⟨rfl, rfl⟩
    | ended _ _ input => rcases input with input | input <;> cases input

/-- **Nothing else reports a loss.** -/
theorem Iteration.lost (told : .lost loss ∈ effects) : Fails s input loss := by
  cases h with
  | refused c => cases c <;> simp [refuse] at told
  | unheard | queued | notWaiting | tooLate | exitedAlone => cases told
  | firedBefore | turnedAway | otherDetached | takenBack | calledAtOnce =>
    simp [Entry.cancelled] at told
  | attached | detached => simp [Entry.stale] at told
  | answered | answeredAndCalled => simp [Entry.cancelled] at told
  | ended => simp [Entry.closed] at told
  | failed w e q c fault current result =>
    obtain rfl := lost_mem_collapse.mp told
    exact .call c e fault rfl current result
  | exited _ g exit _ attached =>
    obtain rfl := lost_mem_collapse.mp told
    exact .exit g exit attached

/-- **What spares the session** takes nothing away and reports nothing. -/
theorem Iteration.spares (hs : Settled s) (spares : Spares s input) :
    s'.attached = s.attached ∧ ∀ loss, .lost loss ∉ effects := by
  have silent : ∀ loss, .lost loss ∉ effects := by
    intro loss told
    have fails := h.lost told
    cases spares with
    | cancel | otherDetached => cases fails
    | answer c r good =>
      cases fails with
      | call _ x fault inFlight current result => cases result.symm.trans good
    | late c late =>
      have attached := fails.attached hs
      cases fails with
      | call _ x fault inFlight current result =>
        rcases late with other | other
        · exact other (by rw [attached, current.2])
        · exact other x inFlight current.1
  refine ⟨?_, silent⟩
  cases h with
  | refused | unheard | firedBefore | turnedAway | calledAtOnce | queued | takenBack |
      notWaiting | otherDetached | tooLate | answered | exitedAlone =>
    rfl
  -- the next request is called on the same channel
  | answeredAndCalled w e x =>
    exact congrArg some (hs.same x (by simp))
  | attached => cases spares
  | detached _ g asker _ attached =>
    cases spares with
    | otherDetached _ _ other => exact absurd attached other
  | failed w e q c fault current =>
    exact absurd (lost_mem_collapse.mpr rfl) (silent _)
  | exited => cases spares
  | ended _ _ input => rcases input with rfl | rfl <;> cases spares

/-- A detach that is handled leaves its generation unattached. -/
theorem Iteration.unattached {g : Nat} {asker : OperationId}
    (input_eq : input = .command (.detach g asker)) : s'.attached ≠ some g := by
  subst input_eq
  cases h with
  | refused | unheard | detached => nofun
  | otherDetached _ _ _ _ other => exact other
  | ended _ _ input => rcases input with input | input <;> cases input

/-- **Nobody is served while nothing is attached.** -/
theorem Iteration.turned_away {id : RequestId} {request : Request} {token : Token}
    (input_eq : input = .command (.submit id request token)) (live : s.ended = false)
    (none : s.attached = none) :
    s' = s ∧
      effects = [.resolved id (.error (if fired token then .cancelled else .notRunning))] := by
  subst input_eq
  cases h with
  | refused => cases live
  | unheard _ other => exact absurd rfl (other _)
  | firedBefore _ _ _ _ _ fired => exact ⟨rfl, by rw [if_pos fired]⟩
  | turnedAway _ _ _ unfired => exact ⟨rfl, by rw [if_neg (by simp [unfired])]⟩
  | calledAtOnce | queued => cases none
  | ended _ _ input => rcases input with input | input <;> cases input

end Step

/-! ## Runs -/

/-- The dispatcher is settled before every event. -/
theorem settled_of_mem (xs : List Stimulus) {e : machine.Event} (he : e ∈ machine.history xs) :
    Settled e.before := by
  obtain ⟨past, later, cut⟩ := List.append_of_mem he
  obtain ⟨ys, -, -, -, before, -⟩ := machine.history_split cut
  exact before ▸ run_settled ys

section Stretch

variable {xs : List Stimulus} {past mid later : List machine.Event} {d e : machine.Event}
  (cut : machine.history xs = past ++ d :: (mid ++ e :: later))

include cut

/-- **A generation comes back only when it is attached.** -/
theorem attached_between {g : Nat} (gone : d.after.attached ≠ some g)
    (there : e.before.attached = some g) : ∃ f ∈ mid, Attaches f g := by
  by_contra never
  have settled : Settled d.before := settled_of_mem xs (by simp [cut])
  obtain ⟨-, gone⟩ : Settled e.before ∧ e.before.attached ≠ some g := by
    refine machine.stretch_induction (P := fun _ s => Settled s ∧ s.attached ≠ some g)
      (A := fun f => ¬ Attaches f g) cut ⟨settled.iteration.settled settled, gone⟩ ?_
      fun f hf attaches => never ⟨f, hf, attaches⟩
    rintro - f other ⟨hs, gone⟩
    refine ⟨hs.iteration.settled hs, fun back => ?_⟩
    rcases hs.iteration.attached_eq hs back with ⟨p, new, -⟩ | ⟨-, old, -⟩
    · exact other ⟨hs.iteration.live back, p, new⟩
    · exact gone old
  exact gone there

/-- **Without another process nothing is attached.** -/
theorem unattached_between (gone : d.after.attached = none)
    (never : ∀ f ∈ mid, f.action.input.channel? = none) : e.before.attached = none := by
  rw [Option.eq_none_iff_forall_ne_some]
  intro g there
  obtain ⟨f, hf, -, p, new⟩ := attached_between cut (by rw [gone]; nofun) there
  cases (never f hf).symm.trans new

end Stretch

/-- The channel that was attached last in a history is that of a later part of it, if any was
attached there. -/
theorem latestChannel_mem {past mid : List machine.Event} {f : machine.Event} (hf : f ∈ mid)
    {c c' : Nat × ProcessId} (new : f.action.input.channel? = some c')
    (latest : latestChannel (past ++ mid) = some c) :
    ∃ f ∈ mid, f.action.input.channel? = some c := by
  have member : c' ∈ mid.filterMap fun e => e.action.input.channel? :=
    List.mem_filterMap.mpr ⟨f, hf, new⟩
  rw [latestChannel, List.filterMap_append,
    List.getLast?_append_of_ne_nil _ (List.ne_nil_of_mem member)] at latest
  exact List.mem_filterMap.mp (List.mem_of_getLast? latest)

/-- **A lost channel ends its session once.** In every run:

when the channel of the attached process fails, by the end of the current call or by an exit,
the request in flight bears the blame unless its token fired, all others go stale, nothing is
attached any more, and the loss is reported, with its reason and exit code, as the last effect
and the only one of its kind; nothing else is ever reported as a loss;

after a loss, and after a handled detach of a generation, no loss of that generation is reported
unless it was attached in between;

after a loss, a request that arrives before another process is attached is turned away, and a
call is made only on a channel that was attached since, provided that requests have different
numbers and completions belong to calls;

and a response, marked or not, a completion that comes too late, a cancellation or a detach of
another generation neither takes the attached generation away nor reports a loss. -/
theorem lost_channel_ends_session_once (xs : List Stimulus) :
    (∀ e ∈ machine.history xs, ∀ loss,
      (Effect.lost loss ∈ e.outputs ↔ Fails e.before e.action.input loss) ∧
      (Fails e.before e.action.input loss →
        e.before.attached = some loss.generation ∧ e.after = .vacant false ∧
        e.outputs = e.before.inFlight.toList.map (Entry.blamed e.action.fired loss) ++
          e.before.queue.map (fun x => .resolved x.id (.error (.stale loss.generation))) ++
            [Effect.lost loss])) ∧
    (∀ (past : List machine.Event) (d : machine.Event) (mid : List machine.Event)
      (e : machine.Event) (later : List machine.Event),
      machine.history xs = past ++ d :: (mid ++ e :: later) →
      ∀ loss, Effect.lost loss ∈ e.outputs →
        (∃ earlier, Effect.lost earlier ∈ d.outputs) ∨
          (∃ asker, d.action.input = .command (.detach loss.generation asker)) →
        ∃ f ∈ mid, Attaches f loss.generation) ∧
    (∀ (past : List machine.Event) (d : machine.Event) (mid : List machine.Event)
      (e : machine.Event) (later : List machine.Event),
      machine.history xs = past ++ d :: (mid ++ e :: later) →
      ∀ loss, Effect.lost loss ∈ d.outputs →
        (∀ id request token, e.action.input = .command (.submit id request token) →
          e.before.ended = false → (∀ f ∈ mid, f.action.input.channel? = none) →
          e.after = e.before ∧ e.outputs =
            [.resolved id (.error (if e.action.fired token then .cancelled else .notRunning))]) ∧
        ((submissions xs).Nodup →
          (∀ past e later, machine.history xs = past ++ e :: later → Belongs past e) →
          ∀ y q, Effect.called y q ∈ e.outputs →
            ∃ f ∈ mid, f.action.input.channel? = some (y.generation, q))) ∧
    ∀ e ∈ machine.history xs, Spares e.before e.action.input →
      e.after.attached = e.before.attached ∧ ∀ loss, Effect.lost loss ∉ e.outputs := by
  -- nothing is attached after a loss
  have gone {e : machine.Event} (hs : Settled e.before) {loss : Loss}
      (told : .lost loss ∈ e.outputs) : e.after.attached = none := by
    rw [(hs.iteration.fails (hs.iteration.lost told)).1]
    rfl
  refine ⟨?_, ?_, ?_, fun e he => ?_⟩
  · intro e he loss
    have hs := settled_of_mem xs he
    have ends (fails : Fails e.before e.action.input loss) := hs.iteration.fails fails
    refine ⟨⟨hs.iteration.lost, fun fails => ?_⟩,
      fun fails => ⟨fails.attached hs, (ends fails).1, ?_⟩⟩
    · rw [(ends fails).2]
      exact lost_mem_collapse.mpr rfl
    · rw [(ends fails).2, hs.collapse_eq (fails.attached hs)]
  · intro past d mid e later cut loss told ending
    have dSettled : Settled d.before := settled_of_mem xs (by simp [cut])
    have eSettled : Settled e.before := settled_of_mem xs (by simp [cut])
    refine attached_between cut ?_ ((eSettled.iteration.lost told).attached eSettled)
    rcases ending with ⟨earlier, told⟩ | ⟨asker, detach⟩
    · rw [gone dSettled told]
      nofun
    · exact dSettled.iteration.unattached detach
  · intro past d mid e later cut loss told
    have dSettled : Settled d.before := settled_of_mem xs (by simp [cut])
    have eSettled : Settled e.before := settled_of_mem xs (by simp [cut])
    refine ⟨fun id request token input live never => ?_, fun distinct belong y q hc => ?_⟩
    · exact eSettled.iteration.turned_away input live
        (unattached_between cut (gone dSettled told) never)
    · have cut' : machine.history xs = (past ++ [d] ++ mid) ++ e :: later := by
        rw [cut, List.append_assoc, List.append_assoc, List.singleton_append]
      obtain ⟨-, attached, latest⟩ := run_called distinct belong cut' hc
      obtain ⟨f, hf, -, p, new⟩ :=
        attached_between cut (by rw [gone dSettled told]; nofun) attached
      exact latestChannel_mem hf new latest
  · exact fun spares => (settled_of_mem xs he).iteration.spares (settled_of_mem xs he) spares

/-- A process dies while it answers one request and another one waits. The exit is seen first,
and the call ends with a fault later. A request is turned away, the session is detached when it is
gone already, and its successor loses its channel by the end of a call, for a request that was
cancelled in the meantime. -/
def bereftRun : List Stimulus :=
  let submit (id : RequestId) : Input := .command (.submit id ⟨"", ["check"], none⟩ id)
  let after (tokens : List Token) (input : Input) : Stimulus := ⟨fun t => t ∈ tokens, input⟩
  [ after [] (.command (.attach 1 0 0)), after [] (submit 1), after [] (submit 2),
    after [] (.exited ⟨some 3⟩), after [] (.completed ⟨1, 1, 0, .error (.closed "end"), some 3⟩),
    after [] (submit 3), after [] (.command (.detach 1 1)), after [] (.command (.attach 2 1 2)),
    after [] (submit 4), after [4] (.completed ⟨4, 2, 1, .error (.io "broken pipe"), none⟩) ]

/-- In this run a process exits while a request is in flight and another one waits. A late answer of
its channel tells of no loss, and the next channel breaks by itself. -/
theorem bereftRun_loses_once :
    (submissions bereftRun).Nodup ∧
    (∀ past e later, machine.history bereftRun = past ++ e :: later → Belongs past e) ∧
    (∃ e ∈ machine.history bereftRun, e.outputs =
      [.resolved 1 (.error (.subprocess "display process exited with code 3" (some 3))),
        .resolved 2 (.error (.stale 1)),
        .lost ⟨1, "display process exited with code 3", some 3⟩]) ∧
    (∃ e ∈ machine.history bereftRun, (∃ c, e.action.input = .completed c ∧ c.generation = 1) ∧
      ∀ loss, .lost loss ∉ e.outputs) ∧
    (∃ e ∈ machine.history bereftRun, e.outputs = [.resolved 3 (.error .notRunning)]) ∧
    (∃ e ∈ machine.history bereftRun, e.outputs = [.resolved 4 (.error .cancelled),
      .lost ⟨2, "I/O error talking to display process: broken pipe", none⟩]) ∧
    (∃ f ∈ (machine.history bereftRun).drop 4, Attaches f 2) ∧
    ∃ f ∈ (machine.history bereftRun).drop 4, f.action.input.channel? = some (2, 1) := by
  have distinct : (submissions bereftRun).Nodup := by decide
  have belong : ∀ past e later, machine.history bereftRun = past ++ e :: later →
      Belongs past e := by
    refine forall_cut_cons (.of_command rfl) (forall_cut_cons (.of_command rfl)
      (forall_cut_cons (.of_command rfl) (forall_cut_cons nofun (forall_cut_cons ?_
        (forall_cut_cons (.of_command rfl) (forall_cut_cons (.of_command rfl)
          (forall_cut_cons (.of_command rfl) (forall_cut_cons (.of_command rfl)
            (forall_cut_cons ?_ forall_cut_nil)))))))))
    · rintro c ⟨⟩
      exact ⟨⟨1, ⟨"", ["check"], none⟩, 1, 1⟩, .head _, rfl, rfl⟩
    · rintro c ⟨⟩
      exact ⟨⟨4, ⟨"", ["check"], none⟩, 4, 2⟩, .tail _ (.head _), rfl, rfl⟩
  obtain ⟨fails, between, after, spares⟩ := lost_channel_ends_session_once bereftRun
  -- the events of the exit, of the late completion and of the second loss
  have exit : _ ∈ machine.history bereftRun := List.mem_of_getElem? (i := 3) rfl
  have late : _ ∈ machine.history bereftRun := List.mem_of_getElem? (i := 4) rfl
  have fault : _ ∈ machine.history bereftRun := List.mem_of_getElem? (i := 9) rfl
  have exitFails := Fails.exit (s := machine.run (bereftRun.take 3)) 1 ⟨some 3⟩ rfl
  have callFails := Fails.call (s := machine.run (bereftRun.take 9))
    ⟨4, 2, 1, .error (.io "broken pipe"), none⟩ ⟨4, ⟨"", ["check"], none⟩, 4, 2⟩ _ rfl
    ⟨rfl, rfl⟩ rfl
  have lost := (fails _ exit _).1.mpr exitFails
  have lostAgain := (fails _ fault _).1.mpr callFails
  refine ⟨distinct, belong, ⟨_, exit, ((fails _ exit _).2 exitFails).2.2⟩,
    ⟨_, late, ⟨_, rfl, rfl⟩, (spares _ late (.late _ (.inl nofun))).2⟩, ?_,
    ⟨_, fault, ((fails _ fault _).2 callFails).2.2⟩, ?_, ?_⟩
  · refine ⟨_, List.mem_of_getElem? (i := 5) rfl, ?_⟩
    exact ((after [_, _, _] _ [_] _ [_, _, _, _] rfl _ lost).1 3 _ 3 rfl rfl
      (List.forall_mem_singleton.mpr rfl)).2
  · obtain ⟨f, hf, attaches⟩ :=
      between [_, _, _] _ [_, _, _, _, _] _ [] rfl _ lostAgain (.inl ⟨_, lost⟩)
    exact ⟨f, List.mem_append_left _ hf, attaches⟩
  · obtain ⟨f, hf, new⟩ :=
      (after [_, _, _] _ [_, _, _, _] _ [_] rfl _ lost).2 distinct belong _ 1 (.head _)
    exact ⟨f, List.mem_append_left _ hf, new⟩

end CompilerSession.Dispatch
