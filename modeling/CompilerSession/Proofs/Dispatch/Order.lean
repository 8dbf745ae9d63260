import CompilerSession.Proofs.Dispatch.Cancellation

/-
The order of calls.

A channel is used for one call at a time, and the calls on it come in the order in which their
requests were accepted. Both are laws about a whole session: requests leave the queue from its
middle when they are taken back, or before their turn when their tokens fire, and the channel
is away while a call is under way and comes back only with a good answer.

For the order, a step is compared with the log of accepted requests: what a step calls, followed
by what still waits, is a part of what waited before, followed by what the step accepts
(`Iteration.in_turn`). That calls follow one another is a law of stretches. After a call its request
is in flight until the call has returned, or until the session is gone; and a session that is
gone does not come back, as its generation is attached only once.
-/

set_option autoImplicit false

namespace CompilerSession.Dispatch

open Machine (outputs forall_cut_cons forall_cut_nil)

/-! ## What a step does to the queue -/

/-- The request that a step accepts: its token has not fired and a session is there to take it. -/
def accepts? (fired : Token → Bool) (s : State) : Input → Option Entry
  | .command (.submit id request token) =>
    if fired token then none else s.attached.map fun g => ⟨id, request, token, g⟩
  | _ => none

/-- **Why a request is left out** that was accepted and never called. -/
inductive LeftOut (fired : Token → Bool) (s s' : State) (input : Input) (effects : List Effect)
    (x : Entry) : Prop where
  | cancelled (asked : fired x.token = true ∨ input = .command (.cancel x.id))
      (told : .resolved x.id (.error .cancelled) ∈ effects) : LeftOut fired s s' input effects x
  /-- Its session was detached, or the channel was lost. -/
  | drained (gone : Drained s input effects x.id)
      (told : .resolved x.id (.error (.stale x.generation)) ∈ effects) :
      LeftOut fired s s' input effects x
  | closed (ended : s'.ended = true)
      (told : .resolved x.id (.error .workerClosed) ∈ effects) : LeftOut fired s s' input effects x

/-- The call for a request has returned, and its outcome is told. -/
def Returned (fired : Token → Bool) (input : Input) (effects : List Effect) (x : Entry) : Prop :=
  ∃ c r, input = .completed c ∧ c.answers x ∧ c.result = .ok r ∧
    .resolved x.id (answerOutcome (fired x.token) r) ∈ effects

/-- A request is accepted when it is submitted, if it has not been cancelled and something is
attached. -/
theorem accepts?_eq {fired : Token → Bool} {s : State} {input : Input} {x : Entry}
    (h : accepts? fired s input = some x) :
    input = .command (.submit x.id x.request x.token) ∧ fired x.token = false ∧
      s.attached = some x.generation := by
  cases input with
  | completed | exited | closed => cases h
  | command c =>
    cases c with
    | cancel | attach | detach | shutdown => cases h
    | submit id request token =>
      rw [accepts?] at h
      split at h
      · cases h
      · obtain ⟨g, attached, rfl⟩ := Option.map_eq_some_iff.mp h
        exact ⟨rfl, by simpa using ‹¬ fired token = true›, attached⟩

section Step

variable {fired : Token → Bool} {s s' : State} {input : Input} {effects : List Effect}
  (h : Iteration fired s input s' effects)

include h

/-- **Calls are made in turn.** -/
theorem Iteration.in_turn :
    ((calls effects).map Prod.fst ++ s'.queue).Sublist
      (s.queue ++ (accepts? fired s input).toList) := by
  cases h with
  | refused | unheard | turnedAway | exitedAlone => simp [State.vacant]
  | firedBefore | notWaiting | otherDetached | tooLate => simp
  | attached | detached | failed | exited | ended => simp [State.vacant, State.resting]
  | answered => simp [State.resting]
  | calledAtOnce g p w id request token h =>
    simp [accepts?, h, State.resting, State.calling]
  | queued w e q id request token h =>
    simp [accepts?, h, State.calling]
  | takenBack w e x q₁ q₂ =>
    simp [Entry.cancelled, State.calling]
  | answeredAndCalled w e x q₁ q₂ =>
    simp [State.calling]

omit h in
/-- Whoever waits is left out when the channel is lost. -/
theorem leftOut_collapse {loss : Loss} {x : Entry} (hx : x ∈ s.queue) :
    LeftOut fired s s' input (s.collapse fired loss) x := by
  have told : x.stale ∈ s.collapse fired loss :=
    List.mem_append_left _ (List.mem_append_right _ (List.mem_map_of_mem hx))
  have lost : .lost loss ∈ s.collapse fired loss := List.mem_append_right _ List.mem_cons_self
  exact .drained (.inr (.inr ⟨⟨loss, lost⟩, x, hx, rfl⟩)) told

/-- A request that waits goes on waiting, is called, or is left out. -/
theorem Iteration.leaves {x : Entry} (hx : x ∈ s.queue) :
    x ∈ s'.queue ∨ (∃ p, .called x p ∈ effects) ∨ LeftOut fired s s' input effects x := by
  have pending : x ∈ s.pending := List.mem_append_right _ hx
  cases h with
  | refused | unheard | turnedAway | exitedAlone | calledAtOnce => cases hx
  | firedBefore | notWaiting | otherDetached | tooLate => exact .inl hx
  | queued => exact .inl (List.mem_append_left _ hx)
  | takenBack w e y q₁ q₂ =>
    rcases List.mem_append.mp hx with hx | hx
    · exact .inl (List.mem_append_left _ hx)
    · rcases List.mem_cons.mp hx with rfl | hx
      · exact .inr (.inr (.cancelled (.inr rfl) List.mem_cons_self))
      · exact .inl (List.mem_append_right _ hx)
  | attached _ g p asker =>
    have told : x.stale ∈ s.pending.map Entry.stale := List.mem_map_of_mem pending
    exact .inr (.inr (.drained (.inr (.inl ⟨g, p, asker, rfl⟩)) (List.mem_append_left _ told)))
  | detached _ g asker live attached =>
    have told : x.stale ∈ s.pending.map Entry.stale := List.mem_map_of_mem pending
    exact .inr (.inr (.drained (.inl ⟨g, asker, attached, rfl⟩) (List.mem_append_left _ told)))
  | answered w e q c r current result all =>
    have told : x.cancelled ∈ q.map Entry.cancelled := List.mem_map_of_mem hx
    exact .inr (.inr (.cancelled (.inl (all x hx)) (List.mem_cons_of_mem _ told)))
  -- before the one that is called all were skipped, and behind it all go on waiting
  | answeredAndCalled w e y q₁ q₂ c r current result skipped =>
    rcases List.mem_append.mp hx with hx | hx
    · have told : x.cancelled ∈ q₁.map Entry.cancelled := List.mem_map_of_mem hx
      exact .inr (.inr (.cancelled (.inl (skipped x hx))
        (List.mem_cons_of_mem _ (List.mem_append_left _ told))))
    · rcases List.mem_cons.mp hx with rfl | hx
      · exact .inr (.inl ⟨c.process, by simp⟩)
      · exact .inl hx
  | failed w e q c fault =>
    exact .inr (.inr (leftOut_collapse hx))
  | exited => exact .inr (.inr (leftOut_collapse hx))
  | ended =>
    have told : x.closed ∈ s.pending.map Entry.closed := List.mem_map_of_mem pending
    exact .inr (.inr (.closed rfl told))

/-- A request that is accepted waits, or is called at once. -/
theorem Iteration.accepted {x : Entry} (hx : accepts? fired s input = some x) :
    x ∈ s'.queue ∨ ∃ p, .called x p ∈ effects := by
  obtain ⟨rfl, unfired, attached⟩ := accepts?_eq hx
  cases h with
  | refused | turnedAway => cases attached
  | unheard _ h => exact absurd rfl (h _)
  | firedBefore _ _ _ _ _ fired => cases unfired.symm.trans fired
  | calledAtOnce g p =>
    obtain rfl := Option.some.inj attached
    exact .inr ⟨p, List.mem_cons_self⟩
  | queued w e =>
    have same : e.generation = x.generation := Option.some.inj attached
    exact .inl (List.mem_append_right _ (List.mem_singleton.mpr (by rw [same])))
  | ended _ _ h => rcases h with h | h <;> cases h

/-- **A call is the last thing that a step does**, and if another one was under way, that one has
returned before. -/
theorem Iteration.calls_last {y : Entry} {p : ProcessId} (hc : .called y p ∈ effects) :
    (∃ es, effects = es ++ [.called y p] ∧ calls es = []) ∧
      ∀ x, s.inFlight = some x → Returned fired input effects x := by
  have called := mem_calls.mpr hc
  cases h with
  | refused | unheard | firedBefore | turnedAway | queued | notWaiting | tooLate | exitedAlone =>
    simp at called
  | takenBack | otherDetached | attached | detached | answered | failed | exited | ended =>
    simp [Entry.cancelled] at called
  | calledAtOnce g p' w id request token =>
    obtain ⟨rfl, rfl⟩ := Effect.called.inj (List.mem_singleton.mp hc)
    exact ⟨⟨[], rfl, rfl⟩, by simp [State.resting]⟩
  | answeredAndCalled w e x q₁ q₂ c r current result =>
    obtain ⟨rfl, rfl⟩ : y = x ∧ p = c.process := by simpa using called
    refine ⟨⟨_ :: q₁.map Entry.cancelled, rfl, by simp⟩, ?_⟩
    rintro x ⟨⟩
    exact ⟨c, r, rfl, current, result, List.mem_cons_self⟩

/-- **A request in flight stays there** until its call has returned or its session is gone. -/
theorem Iteration.holds_slot {x : Entry} (inFlight : s.inFlight = some x) {g : Nat}
    (attached : s'.attached = some g) (same : input.channel? = none) :
    s'.inFlight = some x ∨ Returned fired input effects x := by
  cases h with
  | refused | unheard | turnedAway | calledAtOnce | exitedAlone => cases inFlight
  | firedBefore | notWaiting | otherDetached | tooLate => exact .inl inFlight
  | queued | takenBack => exact .inl inFlight
  | attached => cases same
  | detached | failed | exited | ended => cases attached
  | answered w e q c r current result | answeredAndCalled w e y q₁ q₂ c r current result =>
    obtain rfl := Option.some.inj inFlight
    exact .inr ⟨c, r, rfl, current, result, List.mem_cons_self⟩

/-- Nothing is attached by a dispatcher that has ended. -/
theorem Iteration.live {g : Nat} (attached : s'.attached = some g) : s.ended = false := by
  cases h with
  | refused | unheard | turnedAway | detached | failed | exited | exitedAlone | ended =>
    cases attached
  | firedBefore _ _ _ _ live | notWaiting _ _ live | otherDetached _ _ _ live | tooLate _ _ live
  | attached _ _ _ _ live =>
    exact live
  | calledAtOnce | queued | takenBack | answered | answeredAndCalled => rfl

end Step

/-! ## Runs -/

/-- The event attaches a process under a generation. -/
def Attaches (e : machine.Event) (g : Nat) : Prop :=
  e.before.ended = false ∧ ∃ p, e.action.input.channel? = some (g, p)

/-- **Each generation is attached at most once.** -/
def AttachedOnce (xs : List Stimulus) : Prop :=
  (machine.history xs).Pairwise fun d e => ∀ g, Attaches d g → ¬ Attaches e g

/-- It is enough that no two inputs name one generation. -/
theorem attachedOnce_of_nodup {xs : List Stimulus}
    (h : (xs.filterMap fun x => x.input.channel?.map Prod.fst).Nodup) : AttachedOnce xs := by
  rw [← machine.history_actions xs, List.filterMap_map] at h
  refine (List.pairwise_filterMap.mp h).imp ?_
  rintro d e apart g ⟨-, p, hd⟩ ⟨-, q, he⟩
  exact apart g (by simp [hd]) g (by simp [he]) rfl

/-- The request that an event accepts. -/
def acceptance (e : machine.Event) : Option Entry :=
  accepts? e.action.fired e.before e.action.input

/-- **The requests that were accepted under a generation**, in order. -/
def acceptedUnder (g : Nat) (h : List machine.Event) : List Entry :=
  (h.filterMap acceptance).filter (·.generation = g)

/-- **The requests that were called under a generation**, in order. -/
def calledUnder (g : Nat) (h : List machine.Event) : List Entry :=
  ((calls (outputs h)).map Prod.fst).filter (·.generation = g)

/-- What was called, followed by what waits, is a part of what was accepted. -/
theorem run_in_turn (xs : List Stimulus) :
    ((calls (outputs (machine.history xs))).map Prod.fst ++ (machine.run xs).queue).Sublist
      ((machine.history xs).filterMap acceptance) := by
  induction xs using List.reverseRecOn with
  | nil => exact List.Sublist.refl _
  | append_singleton xs x ih =>
    have step := (event_iteration xs x).in_turn
    have log : [⟨machine.run xs, x⟩].filterMap acceptance =
        (accepts? x.fired (machine.run xs) x.input).toList := by
      cases h : accepts? x.fired (machine.run xs) x.input <;> simp [acceptance, h]
    rw [machine.history_concat, Machine.outputs_append, Machine.outputs_singleton, calls_append,
      List.map_append, List.filterMap_append, List.append_assoc, log]
    refine (step.append_left _).trans ?_
    rw [← List.append_assoc]
    exact ih.append_right _

/-- **No accepted request is forgotten**: it was called, it waits, or it was left out. -/
theorem run_leaves (xs : List Stimulus) {x : Entry}
    (hx : x ∈ (machine.history xs).filterMap acceptance) :
    x ∈ (calls (outputs (machine.history xs))).map Prod.fst ∨ x ∈ (machine.run xs).queue ∨
      ∃ e ∈ machine.history xs, x ∈ e.before.queue ∧
        LeftOut e.action.fired e.before e.after e.action.input e.outputs x := by
  induction xs using List.reverseRecOn with
  | nil => cases hx
  | append_singleton xs y ih =>
    have rule := event_iteration xs y
    rw [machine.history_concat, List.filterMap_append, List.mem_append] at hx
    simp only [machine.history_concat, Machine.outputs_append, Machine.outputs_singleton,
      calls_append, List.map_append, List.mem_append]
    -- called by this event
    have calledNow {p : ProcessId} (hc : .called x p ∈ Machine.Event.outputs (m := machine)
        ⟨machine.run xs, y⟩) : x ∈ (calls (Machine.Event.outputs (m := machine)
          ⟨machine.run xs, y⟩)).map Prod.fst :=
      List.mem_map_of_mem (f := Prod.fst) (mem_calls.mpr hc)
    rcases hx with old | new
    · rcases ih old with hc | waits | ⟨e, he, left⟩
      · exact .inl (.inl hc)
      · rcases rule.leaves waits with waits | ⟨p, hc⟩ | left
        · exact .inr (.inl waits)
        · exact .inl (.inr (calledNow hc))
        · rw [machine.run_concat] at left
          exact .inr (.inr ⟨_, .inr List.mem_cons_self, waits, left⟩)
      · exact .inr (.inr ⟨e, .inl he, left⟩)
    · obtain ⟨e, he, accepted⟩ := List.mem_filterMap.mp new
      obtain rfl := List.mem_singleton.mp he
      rcases rule.accepted accepted with waits | ⟨p, hc⟩
      · exact .inr (.inl waits)
      · exact .inl (.inr (calledNow hc))

/-- An attached generation was attached in the past. -/
theorem run_attaches (xs : List Stimulus) {g : Nat} (h : (machine.run xs).attached = some g) :
    ∃ f ∈ machine.history xs, Attaches f g := by
  induction xs using List.reverseRecOn with
  | nil => cases h
  | append_singleton xs x ih =>
    have rule := event_iteration xs x
    rw [machine.history_concat]
    rcases rule.attached_eq (run_settled xs) h with ⟨p, new, -⟩ | ⟨-, old, -⟩
    · exact ⟨_, List.mem_append_right _ List.mem_cons_self, rule.live h, p, new⟩
    · obtain ⟨f, hf, attaches⟩ := ih old
      exact ⟨f, List.mem_append_left _ hf, attaches⟩

/-! ## Between two calls -/

/-- **The session of a call**, as long as it is attached, is that of the process that was called,
and it has the request in flight unless the call has returned since. -/
def Engaged (x : Entry) (p : ProcessId) (h : List machine.Event) (s : State) : Prop :=
  s.attached = some x.generation → s.watched = some p ∧
    (s.inFlight = some x ∨ ∃ f ∈ h, Returned f.action.fired f.action.input f.outputs x)

/-- **Who is engaged stays so, or has returned**, as long as its generation is not attached again.
-/
theorem Engaged.step {x : Entry} {p : ProcessId} {h : List machine.Event} {e : machine.Event}
    (engaged : Engaged x p h e.before) (settled : Settled e.before)
    (other : ¬ Attaches e x.generation) : Engaged x p (h ++ [e]) e.after := by
  intro attached
  have rule := settled.iteration
  rcases rule.attached_eq settled attached with ⟨w, new, -⟩ | ⟨noChannel, old, watched⟩
  · exact absurd ⟨rule.live attached, w, new⟩ other
  · obtain ⟨hw, slot⟩ := engaged old
    refine ⟨watched.trans hw, ?_⟩
    rcases slot with inFlight | ⟨f, hf, returned⟩
    · rcases rule.holds_slot inFlight attached noChannel with inFlight | returned
      · exact .inl inFlight
      · exact .inr ⟨e, List.mem_append_right _ List.mem_cons_self, returned⟩
    · exact .inr ⟨f, List.mem_append_left _ hf, returned⟩

section Law

variable {xs : List Stimulus} (distinct : (submissions xs).Nodup)
  (belong : ∀ past e later, machine.history xs = past ++ e :: later → Belongs past e)

include distinct belong

/-- **Calls follow one another.** -/
theorem run_follows (once : AttachedOnce xs) {past mid later : List machine.Event}
    {d e : machine.Event} (cut : machine.history xs = past ++ d :: (mid ++ e :: later))
    {x y : Entry} {p q : ProcessId} (hd : .called x p ∈ d.outputs) (he : .called y q ∈ e.outputs)
    (same : x.generation = y.generation) :
    q = p ∧ ∃ f ∈ mid ++ [e], Returned f.action.fired f.action.input f.outputs x := by
  obtain ⟨ys, zs, -, -, rfl, dBefore, -, eBefore⟩ := machine.history_split_two cut
  have dSettled : Settled d.before := dBefore ▸ run_settled ys
  have eSettled : Settled e.before := eBefore ▸ run_settled (ys ++ [d.action] ++ zs)
  obtain ⟨-, inFlight, dAttached, dWatched⟩ := dSettled.iteration.called dSettled hd
  obtain ⟨-, -, eAttached, -⟩ := eSettled.iteration.called eSettled he
  -- the generation was attached before the first of the two calls, so not between them
  obtain ⟨a, ha, attaches⟩ := run_attaches ys (dBefore ▸ dAttached)
  have never : ∀ f ∈ mid, ¬ Attaches f x.generation := by
    intro f hf
    rw [AttachedOnce, cut] at once
    have after := (List.pairwise_append.mp once).2.2 a ha f
    exact after (List.mem_cons_of_mem _ (List.mem_append_left _ hf)) _ attaches
  have dEngaged : Engaged x p [] d.after :=
    fun _ => ⟨dWatched.trans (run_watched distinct belong cut hd), .inl inFlight⟩
  obtain ⟨-, eEngaged⟩ : Settled e.before ∧ Engaged x p mid e.before :=
    machine.stretch_induction (P := fun h s => Settled s ∧ Engaged x p h s) cut
      ⟨dSettled.iteration.settled dSettled, dEngaged⟩
      (fun _ _ other kept => ⟨kept.1.iteration.settled kept.1, kept.2.step kept.1 other⟩) never
  obtain ⟨watched, slot⟩ := eEngaged (same ▸ eAttached)
  have cut' : machine.history xs = (machine.history ys ++ d :: mid) ++ e :: later := by
    rw [cut, List.append_assoc, List.cons_append]
  refine ⟨Option.some.inj ((run_watched distinct belong cut' he).symm.trans watched), ?_⟩
  rcases slot with inFlight | ⟨f, hf, returned⟩
  · have returned := (eSettled.iteration.calls_last he).2 x inFlight
    exact ⟨e, List.mem_append_right _ List.mem_cons_self, returned⟩
  · exact ⟨f, List.mem_append_left _ hf, returned⟩

end Law

/-- **Calls follow one another, in the order of acceptance.** In every run in which requests have
different numbers, completions belong to calls, and each generation is attached at most once:

of two calls under one generation, which are on one channel, the first has returned, and its
outcome is told, before the second is made;

a call is the last thing that an event brings about, so no event brings about two of them;

and under each generation, the requests that were called are a part of those that were
accepted, in the same order. All others wait still or were left out: they were cancelled, their
session was detached or lost while they waited, or the dispatcher ended. -/
theorem calls_follow_one_another (xs : List Stimulus) (distinct : (submissions xs).Nodup)
    (belong : ∀ past e later, machine.history xs = past ++ e :: later → Belongs past e)
    (once : AttachedOnce xs) :
    (∀ past d mid e later, machine.history xs = past ++ d :: (mid ++ e :: later) →
      ∀ x p y q, .called x p ∈ d.outputs → .called y q ∈ e.outputs →
        x.generation = y.generation →
          q = p ∧ ∃ f ∈ mid ++ [e], Returned f.action.fired f.action.input f.outputs x) ∧
    (∀ e ∈ machine.history xs, ∀ x p, .called x p ∈ e.outputs →
      ∃ es, e.outputs = es ++ [.called x p] ∧ calls es = []) ∧
    ∀ g, (calledUnder g (machine.history xs)).Sublist (acceptedUnder g (machine.history xs)) ∧
      ∀ x ∈ acceptedUnder g (machine.history xs),
        x ∈ calledUnder g (machine.history xs) ∨ x ∈ (machine.run xs).queue ∨
          ∃ e ∈ machine.history xs, x ∈ e.before.queue ∧
            LeftOut e.action.fired e.before e.after e.action.input e.outputs x := by
  refine ⟨fun _ _ _ _ _ cut _ _ _ _ => run_follows distinct belong once cut, ?_, ?_⟩
  · intro e he x p hc
    obtain ⟨past, later, cut⟩ := List.append_of_mem he
    obtain ⟨ys, -, -, -, before, -⟩ := machine.history_split cut
    have settled : Settled e.before := before ▸ run_settled ys
    exact (settled.iteration.calls_last hc).1
  · intro g
    refine ⟨((List.sublist_append_left _ _).trans (run_in_turn xs)).filter _, ?_⟩
    intro x hx
    obtain ⟨hx, same⟩ := List.mem_filter.mp hx
    -- what was accepted was called, or it waits, or it was left out
    rcases run_leaves xs hx with hc | other
    · exact .inl (List.mem_filter.mpr ⟨hc, same⟩)
    · exact .inr other

/-- Four requests are accepted under one generation. The second is taken back, the first is
answered with a message of the compiler and the third with nothing but a broken channel, on which
the fourth goes stale. A fifth one is called under the next generation. -/
def brokenRun : List Stimulus :=
  let submit (id : RequestId) : Input := .command (.submit id ⟨"", ["check"], none⟩ id)
  let after (tokens : List Token) (input : Input) : Stimulus := ⟨fun t => t ∈ tokens, input⟩
  [ after [] (.command (.attach 1 0 0)), after [] (submit 1), after [] (submit 2),
    after [] (submit 3), after [2] (.command (.cancel 2)),
    after [2] (.completed ⟨1, 1, 0, .ok ⟨"unbound", [], true⟩, none⟩), after [2] (submit 4),
    after [2] (.completed ⟨3, 1, 0, .error (.io "broken pipe"), none⟩),
    after [2] (.command (.attach 2 1 1)), after [2] (submit 5) ]

/-- In this run the first and the third request are called one after the other. The second one is
withdrawn, and the last one is left out when the channel breaks. -/
theorem brokenRun_follows :
    (submissions brokenRun).Nodup ∧
    (∀ past e later, machine.history brokenRun = past ++ e :: later → Belongs past e) ∧
    AttachedOnce brokenRun ∧
    (calledUnder 1 (machine.history brokenRun)).map (·.id) = [1, 3] ∧
    (acceptedUnder 1 (machine.history brokenRun)).map (·.id) = [1, 2, 3, 4] ∧
    (∃ x, x.id = 1 ∧ ∃ f ∈ machine.history brokenRun,
      Returned f.action.fired f.action.input f.outputs x) ∧
    ∃ e ∈ machine.history brokenRun, ∃ x, x.id = 4 ∧ x ∈ e.before.queue ∧
      LeftOut e.action.fired e.before e.after e.action.input e.outputs x := by
  have distinct : (submissions brokenRun).Nodup := by decide
  have once : AttachedOnce brokenRun := attachedOnce_of_nodup (by decide)
  have belong : ∀ past e later, machine.history brokenRun = past ++ e :: later →
      Belongs past e := by
    refine forall_cut_cons (.of_command rfl) (forall_cut_cons (.of_command rfl)
      (forall_cut_cons (.of_command rfl) (forall_cut_cons (.of_command rfl)
        (forall_cut_cons (.of_command rfl) (forall_cut_cons ?_ (forall_cut_cons (.of_command rfl)
          (forall_cut_cons ?_ (forall_cut_cons (.of_command rfl)
            (forall_cut_cons (.of_command rfl) forall_cut_nil)))))))))
    · rintro c ⟨⟩
      exact ⟨⟨1, ⟨"", ["check"], none⟩, 1, 1⟩, .head _, rfl, rfl⟩
    · rintro c ⟨⟩
      exact ⟨⟨3, ⟨"", ["check"], none⟩, 3, 1⟩, .tail _ (.head _), rfl, rfl⟩
  obtain ⟨follows, -, order⟩ := calls_follow_one_another brokenRun distinct belong once
  refine ⟨distinct, belong, once, by decide, by decide, ?_, ?_⟩
  · obtain ⟨past, d, mid, e, later, cut, first, second⟩ : ∃ past d mid e later,
        machine.history brokenRun = past ++ d :: (mid ++ e :: later) ∧
          .called ⟨1, ⟨"", ["check"], none⟩, 1, 1⟩ 0 ∈ d.outputs ∧
          .called ⟨3, ⟨"", ["check"], none⟩, 3, 1⟩ 0 ∈ e.outputs := by
      refine ⟨[_], _, [_, _, _], _, [_, _, _, _], rfl, ?_, ?_⟩
      · exact .head _
      · exact .tail _ (.head _)
    obtain ⟨-, f, hf, returned⟩ := follows past d mid e later cut _ 0 _ 0 first second rfl
    have there : f ∈ machine.history brokenRun := by
      rw [cut, List.append_cons mid]
      exact List.mem_append_right _ (List.mem_cons_of_mem _ (List.mem_append_left _ hf))
    exact ⟨_, rfl, f, there, returned⟩
  · have four : (⟨4, ⟨"", ["check"], none⟩, 4, 1⟩ : Entry) ∈
        acceptedUnder 1 (machine.history brokenRun) := by decide
    rcases (order 1).2 _ four with hc | waits | ⟨e, he, waited, left⟩
    · exact absurd hc (by decide)
    · exact absurd waits (by decide)
    · exact ⟨e, he, _, rfl, waited, left⟩

end CompilerSession.Dispatch
