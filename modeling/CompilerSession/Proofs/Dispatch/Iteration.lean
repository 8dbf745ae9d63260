import CompilerSession.Dispatch
import CompilerSession.Proofs.Run

/-
One iteration of the dispatcher.

Between two inputs the dispatcher is in one of three shapes: nothing is attached, the
attached process is idle and nobody waits, or it answers a request and others may wait
behind it. `Settled` names the shapes, and `Iteration` says what one input does to each of
them, with all that it brings about: the rules of the dispatcher, one for each thing that
can happen.

The two main statements are that every step from a settled state is an `Iteration`
(`step_iteration`), and that an iteration ends in a settled state again
(`Iteration.settled`). Laws of the dispatcher are proved by cases on the rules; nothing
after this file unfolds `step`.
-/

set_option autoImplicit false

namespace CompilerSession.Dispatch

/-! ## Shapes -/

/-- Nothing is attached, so nothing waits. -/
def State.vacant (ended : Bool) : State := ⟨[], none, none, none, none, ended⟩

/-- The process `p` is idle. -/
def State.resting (g : Nat) (p w : ProcessId) : State := ⟨[], some g, some p, some w, none, false⟩

/-- The process answers the request of `e`, and the requests of `q` wait. -/
def State.calling (w : ProcessId) (e : Entry) (q : List Entry) : State :=
  ⟨q, some e.generation, none, some w, some e, false⟩

/-- **The shapes of the dispatcher between two inputs.** All requests that wait or are being
answered were taken under the attached generation. -/
inductive Settled : State → Prop where
  | vacant (ended : Bool) : Settled (.vacant ended)
  | resting (g : Nat) (p w : ProcessId) : Settled (.resting g p w)
  | calling (w : ProcessId) (e : Entry) (q : List Entry)
      (same : ∀ x ∈ q, x.generation = e.generation) : Settled (.calling w e q)

@[simp] theorem State.pending_vacant (ended : Bool) : (State.vacant ended).pending = [] := rfl

@[simp] theorem State.pending_resting (g : Nat) (p w : ProcessId) :
    (State.resting g p w).pending = [] := rfl

@[simp] theorem State.pending_calling (w : ProcessId) (e : Entry) (q : List Entry) :
    (State.calling w e q).pending = e :: q := rfl

/-! ## Effects by what they say -/

/-- A request that was cancelled in time. -/
def Entry.cancelled (e : Entry) : Effect := .resolved e.id (.error .cancelled)

/-- A request whose session is gone. -/
def Entry.stale (e : Entry) : Effect := .resolved e.id (.error (staleness e))

/-- A request that was pending when the dispatcher ended. -/
def Entry.closed (e : Entry) : Effect := .resolved e.id (.error .workerClosed)

/-- A request that was being answered when the channel was lost. -/
def Entry.blamed (fired : Token → Bool) (loss : Loss) (e : Entry) : Effect :=
  .resolved e.id (.error
    (if fired e.token then .cancelled else .subprocess loss.reason loss.exitCode))

/-- All that a lost channel brings about. -/
def State.collapse (fired : Token → Bool) (s : State) (loss : Loss) : List Effect :=
  s.inFlight.toList.map (Entry.blamed fired loss) ++ s.queue.map Entry.stale ++ [.lost loss]

/-- The completion is that of the call for `e`. -/
def Completion.answers (c : Completion) (e : Entry) : Prop :=
  e.id = c.id ∧ e.generation = c.generation

/-! ## The rules -/

/-- **The rules of the dispatcher.** `Iteration fired s input s' effects` says that in `s`,
when the tokens for which `fired` holds have fired, `input` leads to `s'` and brings
`effects` about. -/
inductive Iteration (fired : Token → Bool) : State → Input → State → List Effect → Prop where
  | refused (c : Command) :
      Iteration fired (.vacant true) (.command c) (.vacant true) (refuse c)
  | unheard (input : Input) (h : ∀ c, input ≠ .command c) :
      Iteration fired (.vacant true) input (.vacant true) []
  | firedBefore (s : State) (id : RequestId) (request : Request) (token : Token)
      (live : s.ended = false) (h : fired token = true) :
      Iteration fired s (.command (.submit id request token)) s
        [.resolved id (.error .cancelled)]
  | turnedAway (id : RequestId) (request : Request) (token : Token) (h : fired token = false) :
      Iteration fired (.vacant false) (.command (.submit id request token)) (.vacant false)
        [.resolved id (.error .notRunning)]
  | calledAtOnce (g : Nat) (p w : ProcessId) (id : RequestId) (request : Request)
      (token : Token) (h : fired token = false) :
      Iteration fired (.resting g p w) (.command (.submit id request token))
        (.calling w ⟨id, request, token, g⟩ []) [.called ⟨id, request, token, g⟩ p]
  | queued (w : ProcessId) (e : Entry) (q : List Entry) (id : RequestId) (request : Request)
      (token : Token) (h : fired token = false) :
      Iteration fired (.calling w e q) (.command (.submit id request token))
        (.calling w e (q ++ [⟨id, request, token, e.generation⟩])) []
  | takenBack (w : ProcessId) (e x : Entry) (q₁ q₂ : List Entry) (h : ∀ y ∈ q₁, y.id ≠ x.id) :
      Iteration fired (.calling w e (q₁ ++ x :: q₂)) (.command (.cancel x.id))
        (.calling w e (q₁ ++ q₂)) [x.cancelled]
  | notWaiting (s : State) (id : RequestId) (live : s.ended = false)
      (h : ∀ x ∈ s.queue, x.id ≠ id) : Iteration fired s (.command (.cancel id)) s []
  | attached (s : State) (g : Nat) (p : ProcessId) (asker : OperationId)
      (live : s.ended = false) :
      Iteration fired s (.command (.attach g p asker)) (.resting g p p)
        (s.pending.map Entry.stale ++ [.attached asker])
  | detached (s : State) (g : Nat) (asker : OperationId) (live : s.ended = false)
      (h : s.attached = some g) :
      Iteration fired s (.command (.detach g asker)) (.vacant false)
        (s.pending.map Entry.stale ++ [.detached asker s.pending.length])
  | otherDetached (s : State) (g : Nat) (asker : OperationId) (live : s.ended = false)
      (h : s.attached ≠ some g) :
      Iteration fired s (.command (.detach g asker)) s [.detached asker 0]
  | tooLate (s : State) (c : Completion) (live : s.ended = false)
      (h : ∀ e, s.inFlight = some e → ¬ c.answers e) : Iteration fired s (.completed c) s []
  | answered (w : ProcessId) (e : Entry) (q : List Entry) (c : Completion) (r : Response)
      (current : c.answers e) (result : c.result = .ok r) (h : ∀ x ∈ q, fired x.token = true) :
      Iteration fired (.calling w e q) (.completed c) (.resting e.generation c.process w)
        (.resolved e.id (answerOutcome (fired e.token) r) :: q.map Entry.cancelled)
  | answeredAndCalled (w : ProcessId) (e x : Entry) (q₁ q₂ : List Entry) (c : Completion)
      (r : Response) (current : c.answers e) (result : c.result = .ok r)
      (h : ∀ y ∈ q₁, fired y.token = true) (unfired : fired x.token = false) :
      Iteration fired (.calling w e (q₁ ++ x :: q₂)) (.completed c) (.calling w x q₂)
        (.resolved e.id (answerOutcome (fired e.token) r) ::
          (q₁.map Entry.cancelled ++ [.called x c.process]))
  | failed (w : ProcessId) (e : Entry) (q : List Entry) (c : Completion) (fault : ChannelFault)
      (current : c.answers e) (result : c.result = .error fault) :
      Iteration fired (.calling w e q) (.completed c) (.vacant false)
        ((State.calling w e q).collapse fired ⟨e.generation, fault.message, c.exitCode⟩)
  | exited (s : State) (g : Nat) (exit : Exit) (live : s.ended = false)
      (h : s.attached = some g) :
      Iteration fired s (.exited exit) (.vacant false)
        (s.collapse fired ⟨g, exit.message, exit.code⟩)
  | exitedAlone (exit : Exit) : Iteration fired (.vacant false) (.exited exit) (.vacant false) []
  | ended (s : State) (input : Input) (h : input = .command .shutdown ∨ input = .closed)
      (live : s.ended = false) :
      Iteration fired s input (.vacant true) (s.pending.map Entry.closed)

/-! ## The rules lead from shapes to shapes -/

/-- While a request is being answered, the ones behind it are of its generation. -/
theorem Settled.same {w : ProcessId} {e : Entry} {q : List Entry} (h : Settled (.calling w e q)) :
    ∀ x ∈ q, x.generation = e.generation := by
  -- `cases` needs a variable for the state
  generalize hs : State.calling w e q = s at h
  cases h with
  | vacant | resting => simp [State.calling, State.vacant, State.resting] at hs
  | calling _ _ _ same =>
    simp only [State.calling, State.mk.injEq, Option.some.injEq] at hs
    obtain ⟨rfl, -, -, -, rfl, -⟩ := hs
    exact same

/-- **Every rule leaves the dispatcher settled.** -/
theorem Iteration.settled {fired : Token → Bool} {s s' : State} {input : Input}
    {effects : List Effect} (h : Iteration fired s input s' effects) (hs : Settled s) :
    Settled s' := by
  cases h with
  | refused | unheard => exact hs
  | firedBefore | notWaiting | otherDetached | tooLate => exact hs
  | turnedAway | detached | failed | exited | exitedAlone => exact .vacant false
  | ended => exact .vacant true
  | attached | answered => exact .resting _ _ _
  | calledAtOnce => exact .calling _ _ [] (by simp)
  | queued w e q =>
    refine .calling w e _ ?_
    intro x hx
    rcases List.mem_append.mp hx with hx | hx
    · exact hs.same x hx
    · rw [List.mem_singleton.mp hx]
  | takenBack w e x q₁ q₂ =>
    refine .calling w e _ ?_
    intro y hy
    refine hs.same y ?_
    rcases List.mem_append.mp hy with hy | hy
    · exact List.mem_append_left _ hy
    · exact List.mem_append_right _ (List.mem_cons_of_mem _ hy)
  | answeredAndCalled w e x q₁ q₂ =>
    have hx : x.generation = e.generation := hs.same x (by simp)
    refine .calling w x q₂ ?_
    intro y hy
    rw [hx]
    exact hs.same y (List.mem_append_right _ (List.mem_cons_of_mem _ hy))

/-! ## Every step is by one of the rules

First the two functions that look at the queue, then one lemma for each kind of input.
`pump` has something to do only when a process is idle and requests wait, so for all inputs
but a submission and an answer it leaves the state alone. -/

section Step

variable (fired : Token → Bool)

/-- Requests that were cancelled are skipped. -/
theorem startNext_append (s : State) (p : ProcessId) {q₁ : List Entry} (q₂ : List Entry)
    (h : ∀ x ∈ q₁, fired x.token = true) :
    startNext fired s p (q₁ ++ q₂) =
      ((startNext fired s p q₂).1, q₁.map Entry.cancelled ++ (startNext fired s p q₂).2) := by
  induction q₁ with
  | nil => rfl
  | cons x q₁ ih =>
    rw [List.cons_append, startNext, if_pos (h x List.mem_cons_self),
      ih fun y hy => h y (List.mem_cons_of_mem _ hy)]
    rfl

/-- The first request that was not cancelled is called. -/
theorem startNext_cons (s : State) (p : ProcessId) (x : Entry) (q : List Entry)
    (unfired : fired x.token = false) (same : s.attached = some x.generation) :
    startNext fired s p (x :: q) =
      ({ s with queue := q, idle := none, inFlight := some x }, [.called x p]) := by
  rw [startNext, if_neg (by simp [unfired]), if_neg (by simp [same])]

/-- A queue is cut at its first request that was not cancelled. -/
theorem queue_cut (q : List Entry) :
    (∀ x ∈ q, fired x.token = true) ∨
      ∃ q₁ x q₂, q = q₁ ++ x :: q₂ ∧ (∀ y ∈ q₁, fired y.token = true) ∧ fired x.token = false := by
  induction q with
  | nil => exact .inl (by simp)
  | cons x q ih =>
    by_cases hx : fired x.token = true
    · rcases ih with all | ⟨q₁, y, q₂, rfl, before, unfired⟩
      · exact .inl (by simpa [hx] using all)
      · exact .inr ⟨x :: q₁, y, q₂, rfl, by simpa [hx] using before, unfired⟩
    · exact .inr ⟨[], x, q, rfl, by simp, by simpa using hx⟩

/-- A queue is cut at its first request of some number. -/
theorem queue_find (q : List Entry) (id : RequestId) :
    (∀ x ∈ q, x.id ≠ id) ∨
      ∃ q₁ x q₂, q = q₁ ++ x :: q₂ ∧ x.id = id ∧ ∀ y ∈ q₁, y.id ≠ id := by
  induction q with
  | nil => exact .inl (by simp)
  | cons x q ih =>
    by_cases hx : x.id = id
    · exact .inr ⟨[], x, q, rfl, hx, by simp⟩
    · rcases ih with none | ⟨q₁, y, q₂, rfl, hy, before⟩
      · exact .inl (by simpa [hx] using none)
      · exact .inr ⟨x :: q₁, y, q₂, rfl, hy, by simpa [hx] using before⟩

/-- A dispatcher that is settled has nothing to start. -/
theorem pump_settled {s : State} (hs : Settled s) : pump fired s = (s, []) := by
  cases hs with
  | vacant | resting | calling => rfl

/-- A step is the input itself when that leads to a settled state. -/
theorem step_of_handle {s s' : State} {input : Input} {effects : List Effect}
    (live : s.ended = false) (h : handle fired s input = (s', effects)) (hs : Settled s') :
    step fired s input = (s', effects) := by
  simp only [step, live, h, pump_settled fired hs, List.append_nil]
  simp only [Bool.false_eq_true, if_false, ite_self]

/-- The step that an input makes is by one of the rules. -/
def ByRule (s : State) (input : Input) : Prop :=
  Iteration fired s input (step fired s input).1 (step fired s input).2

/-- A step is by a rule, if its result is that of the rule. -/
theorem ByRule.of_step {s s' : State} {input : Input} {effects : List Effect}
    (rule : Iteration fired s input s' effects) (h : step fired s input = (s', effects)) :
    ByRule fired s input := by
  rw [ByRule, h]
  exact rule

/-- A step is by a rule if handling its input is and leaves nothing to start. -/
theorem ByRule.of_handle {s s' : State} {input : Input} {effects : List Effect}
    (rule : Iteration fired s input s' effects) (hs : Settled s) (live : s.ended = false)
    (h : handle fired s input = (s', effects)) : ByRule fired s input :=
  .of_step fired rule (step_of_handle fired live h (rule.settled hs))

variable {s : State} (hs : Settled s) (live : s.ended = false)

include hs live

/-- A request that is submitted is turned away, cancelled, called, or put into the queue. -/
theorem byRule_submit (id : RequestId) (request : Request) (token : Token) :
    ByRule fired s (.command (.submit id request token)) := by
  by_cases h : fired token = true
  · refine .of_handle fired (.firedBefore s id request token live h) hs live ?_
    simp only [handle, submit, h, if_true]
  · rw [Bool.not_eq_true] at h
    cases hs with
    | vacant ended =>
      obtain rfl : ended = false := live
      refine .of_handle fired (.turnedAway id request token h) (.vacant false) rfl ?_
      simp [handle, submit, h, State.vacant]
    | resting g p w =>
      refine .of_step fired (.calledAtOnce g p w id request token h) ?_
      simp [step, handle, submit, pump, startNext, State.resting, State.calling, h]
    | calling w e q same =>
      refine .of_handle fired (.queued w e q id request token h) (.calling w e q same) rfl ?_
      simp [handle, submit, h, State.calling]

/-- A cancellation resolves what waits in the queue and has been cancelled. -/
theorem byRule_cancel (id : RequestId) : ByRule fired s (.command (.cancel id)) := by
  rcases queue_find s.queue id with none | ⟨q₁, x, q₂, hq, rfl, before⟩
  · refine .of_handle fired (.notWaiting s id live none) hs live ?_
    simp only [handle, cancel]
    rw [if_neg (by simpa using none)]
  · cases hs with
    | vacant | resting => simp [State.vacant, State.resting] at hq
    | calling w e q same =>
      obtain rfl : q = q₁ ++ x :: q₂ := hq
      refine .of_handle fired (.takenBack w e x q₁ q₂ before) (.calling w e _ same) rfl ?_
      have erased : (q₁ ++ x :: q₂).eraseP (fun y => decide (y.id = x.id)) = q₁ ++ q₂ := by
        rw [List.eraseP_append_right _ (by simpa using before), List.eraseP_cons_of_pos (by simp)]
      simp only [handle, cancel, State.calling, erased]
      rw [if_pos (by simp)]
      rfl

/-- A channel that is attached takes the place of the one before, whose requests become stale. -/
theorem byRule_attach (g : Nat) (p : ProcessId) (asker : OperationId) :
    ByRule fired s (.command (.attach g p asker)) := by
  refine .of_handle fired (.attached s g p asker live) hs live ?_
  cases hs with
  | vacant ended =>
    obtain rfl : ended = false := live
    rfl
  | resting | calling => rfl

/-- A channel that is detached goes, if it is the one that is attached. -/
theorem byRule_detach (g : Nat) (asker : OperationId) :
    ByRule fired s (.command (.detach g asker)) := by
  by_cases h : s.attached = some g
  · refine .of_handle fired (.detached s g asker live h) hs live ?_
    simp only [handle, detach, h, if_true, letGo, resolveAll, State.pending, State.vacant, live]
    rfl
  · refine .of_handle fired (.otherDetached s g asker live h) hs live ?_
    simp only [handle, detach, if_neg h]

/-- A dispatcher that is told to end, or that nobody can tell anything any more, ends. -/
theorem byRule_ended (input : Input) (h : input = .command .shutdown ∨ input = .closed) :
    ByRule fired s input := by
  refine .of_handle fired (.ended s input h live) hs live ?_
  rcases h with rfl | rfl <;> rfl

omit hs in
/-- A channel that is lost leaves nothing behind. -/
theorem loseChannel_eq (loss : Loss) :
    loseChannel fired s loss = (.vacant false, s.collapse fired loss) := by
  simp only [loseChannel, letGo, resolveAll, State.pending, State.vacant, State.collapse, live,
    Option.toList_none, List.nil_append]
  rfl

/-- An exit is a loss if something is attached, and no matter otherwise. -/
theorem byRule_exited (exit : Exit) : ByRule fired s (.exited exit) := by
  cases h : s.attached with
  | none =>
    cases hs with
    | vacant ended =>
      obtain rfl : ended = false := live
      exact .exitedAlone exit
    | resting | calling => cases h
  | some g =>
    refine .of_handle fired (.exited s g exit live h) hs live ?_
    simp only [handle, processExited, h, loseChannel_eq fired live]

omit hs live in
/-- The answer to the request in flight makes the channel free, or shows that it is lost. -/
theorem byRule_current (w : ProcessId) (e : Entry) (q : List Entry) (c : Completion)
    (hs : Settled (.calling w e q)) (current : c.answers e) :
    ByRule fired (.calling w e q) (.completed c) := by
  have he : (State.calling w e q).inFlight = some e := rfl
  have isCurrent : isCurrent (.calling w e q) c = true := by
    simp [Dispatch.isCurrent, State.calling, current.1, current.2]
  cases result : c.result with
  | error fault =>
    refine .of_handle fired (.failed w e q c fault current result) hs rfl ?_
    have lost := loseChannel_eq fired (s := .calling w e q) rfl
      ⟨e.generation, fault.message, c.exitCode⟩
    simp only [handle, complete, he, isCurrent, if_true, result, lost]
  | ok r =>
    -- the channel is idle again, and only then `pump` looks at the queue
    have handled : handle fired (.calling w e q) (.completed c) =
        (⟨q, some e.generation, some c.process, some w, none, false⟩,
          [.resolved e.id (answerOutcome (fired e.token) r)]) := by
      simp only [handle, complete, he, isCurrent, if_true, result]
      rfl
    have live : (State.calling w e q).ended = false := rfl
    rcases queue_cut fired q with all | ⟨q₁, x, q₂, rfl, before, unfired⟩
    -- all that wait were cancelled, or the first that was not is called
    · refine .of_step fired (.answered w e q c r current result all) ?_
      have next := startNext_append fired
        ⟨q, some e.generation, some c.process, some w, none, false⟩ c.process [] all
      rw [List.append_nil, startNext, List.append_nil] at next
      simp only [step, live, handled, pump, next, Bool.false_eq_true, if_false]
      rfl
    · refine .of_step fired (.answeredAndCalled w e x q₁ q₂ c r current result before unfired) ?_
      have hx : x.generation = e.generation := hs.same x (by simp)
      have next := startNext_append fired
        ⟨q₁ ++ x :: q₂, some e.generation, some c.process, some w, none, false⟩ c.process
        (x :: q₂) before
      rw [startNext_cons fired _ _ x q₂ unfired (by rw [hx])] at next
      simp only [step, live, handled, pump, next, Bool.false_eq_true, if_false]
      simp only [State.calling, hx]
      rfl

/-- Any other answer comes late and is no matter. -/
theorem byRule_completed (c : Completion) : ByRule fired s (.completed c) := by
  by_cases current : ∃ e, s.inFlight = some e ∧ c.answers e
  · obtain ⟨e', he, current⟩ := current
    cases hs with
    | vacant | resting => cases he
    | calling w e q same =>
      obtain rfl := Option.some.inj he
      exact byRule_current fired w e q c (.calling w e q same) current
  · have late : ∀ e, s.inFlight = some e → ¬ c.answers e := fun e he hc => current ⟨e, he, hc⟩
    refine .of_handle fired (.tooLate s c live late) hs live ?_
    cases he : s.inFlight with
    | none => simp only [handle, complete, he]
    | some e =>
      have other : isCurrent s c = false := by
        simpa [Dispatch.isCurrent, he, Completion.answers] using fun _ => late e he
      simp only [handle, complete, he, other, Bool.false_eq_true, if_false]

omit live in
/-- **Every step is by one of the rules.** -/
theorem step_iteration (input : Input) :
    Iteration fired s input (step fired s input).1 (step fired s input).2 := by
  cases live : s.ended with
  | true =>
    cases hs with
    | resting | calling => cases live
    | vacant ended =>
      obtain rfl : ended = true := live
      cases input with
      | command c => exact .refused c
      | completed | exited | closed => exact .unheard _ (by simp)
  | false =>
    cases input with
    | command c =>
      cases c with
      | submit id request token => exact byRule_submit fired hs live id request token
      | cancel id => exact byRule_cancel fired hs live id
      | attach g p asker => exact byRule_attach fired hs live g p asker
      | detach g asker => exact byRule_detach fired hs live g asker
      | shutdown => exact byRule_ended fired hs live _ (.inl rfl)
    | completed c => exact byRule_completed fired hs live c
    | exited exit => exact byRule_exited fired hs live exit
    | closed => exact byRule_ended fired hs live _ (.inr rfl)

end Step

/-! ## The dispatcher as a machine -/

/-- **What reaches the dispatcher at one moment**: an input, while certain tokens have
fired. -/
structure Stimulus where
  fired : Token → Bool
  input : Input

/-- **The dispatcher.** -/
def machine : Machine State Stimulus Effect where
  start := .initial
  step := fun s x => step x.fired s x.input

/-- Every run of the dispatcher stays within the shapes. -/
theorem run_settled (xs : List Stimulus) : Settled (machine.run xs) := by
  induction xs using List.reverseRecOn with
  | nil => exact .vacant false
  | append_singleton xs x hs =>
    rw [machine.run_concat]
    exact (step_iteration x.fired hs x.input).settled hs

/-- An event in a settled state is by one of the rules. -/
theorem Settled.iteration {e : machine.Event} (hs : Settled e.before) :
    Iteration e.action.fired e.before e.action.input e.after e.outputs :=
  step_iteration e.action.fired hs e.action.input

/-- Every event of a run is by one of the rules. -/
theorem event_iteration (xs : List Stimulus) (x : Stimulus) :
    Iteration x.fired (machine.run xs) x.input (machine.run (xs ++ [x]))
      (Machine.Event.outputs (m := machine) ⟨machine.run xs, x⟩) := by
  rw [machine.run_concat]
  exact step_iteration x.fired (run_settled xs) x.input

end CompilerSession.Dispatch
