import CompilerSession.Proofs.Dispatch.Iteration

/-
The parts of the dispatcher fit together.

The dispatcher keeps five things, and different inputs write different ones of them: the
attached generation, its idle channel, the exit that it watches, the request in flight and
the queue. `Fits` says how they depend on each other between two inputs.

Within a step they fit less well. A submission leaves a request waiting before an idle
channel, and an answer leaves an idle channel before the requests that wait. The loop that
starts calls puts this right. `State.pass` is one pass of that loop, with the two ways out
that it has for requests that should not be there: one for a request of another generation,
and one for a request without a channel. The second half of this file shows that no step of
a run takes either of them, whatever tokens fire between two passes.
-/

set_option autoImplicit false

namespace CompilerSession.Dispatch

/-! ## Between two inputs -/

/-- **The parts fit together.** -/
structure Fits (s : State) : Prop where
  /-- Where nothing is attached there is nothing else. -/
  vacant : s.attached = none →
    s.idle = none ∧ s.watched = none ∧ s.inFlight = none ∧ s.queue = []
  watched : ∀ g, s.attached = some g → ∃ w, s.watched = some w
  /-- Either the channel is idle or a request is in flight. -/
  channel : ∀ g, s.attached = some g → ((∃ p, s.idle = some p) ↔ s.inFlight = none)
  inFlight : ∀ g, s.attached = some g → ∀ e, s.inFlight = some e → e.generation = g
  queue : ∀ g, s.attached = some g → ∀ e ∈ s.queue, e.generation = g
  /-- Nobody waits before an idle channel. -/
  busy : s.queue ≠ [] → ∃ e, s.inFlight = some e

/-- **The parts of a settled dispatcher fit together.** -/
theorem Settled.fits {s : State} (hs : Settled s) : Fits s := by
  cases hs with
  | vacant ended =>
    exact ⟨fun _ => ⟨rfl, rfl, rfl, rfl⟩, nofun, nofun, nofun, nofun, fun h => absurd rfl h⟩
  | resting g p w =>
    have idle : (∃ q, (State.resting g p w).idle = some q) ↔
        (State.resting g p w).inFlight = none := ⟨fun _ => rfl, fun _ => ⟨p, rfl⟩⟩
    exact ⟨nofun, fun _ _ => ⟨w, rfl⟩, fun _ _ => idle, nofun, nofun, fun h => absurd rfl h⟩
  | calling w e q same =>
    refine ⟨nofun, fun _ _ => ⟨w, rfl⟩, fun _ _ => ⟨?_, nofun⟩, ?_, ?_, fun _ => ⟨e, rfl⟩⟩
    · rintro ⟨p, idle⟩
      cases idle
    · rintro g ⟨⟩ x ⟨⟩
      rfl
    · rintro g ⟨⟩ x hx
      exact same x hx

/-! ## The loop that starts calls -/

/-- **What a pass of the loop comes to.** -/
inductive Pass where
  /-- The loop is over: the channel is not idle, or nobody waits. -/
  | finished
  | cancelled (e : Entry)
  /-- The request is not of the attached generation. -/
  | foreign (e : Entry)
  /-- The request was taken, and then there is no channel for it. -/
  | channelless (e : Entry)
  | called (e : Entry) (p : ProcessId)

/-- Which way a pass takes. -/
def State.pass (fired : Token → Bool) (s : State) : Pass :=
  if s.inFlight.isNone && s.idle.isSome then
    match s.queue with
    | [] => .finished
    | e :: _ =>
      if fired e.token then .cancelled e
      else if s.attached ≠ some e.generation then .foreign e
      else match s.idle with
        | none => .channelless e
        | some p => .called e p
  else .finished

/-- What a pass leaves, and what it brings about. -/
def State.passed (s : State) : Pass → State × List Effect
  | .finished => (s, [])
  | .cancelled e => ({ s with queue := s.queue.tail }, [e.cancelled])
  | .foreign e => ({ s with queue := s.queue.tail }, [e.stale])
  | .channelless _ => ({ s with queue := s.queue.tail }, [])
  | .called e p =>
    ({ s with queue := s.queue.tail, idle := none, inFlight := some e }, [.called e p])

/-- **Passes**, one after the other. Between two of them more tokens may fire. -/
inductive Passes (s : State) : State → List Effect → Prop where
  | start : Passes s s []
  | next {t : State} {effects : List Effect} (fired : Token → Bool) (before : Passes s t effects) :
      Passes s (t.passed (t.pass fired)).1 (effects ++ (t.passed (t.pass fired)).2)

section Loop

variable {fired : Token → Bool} {s t : State} {p : ProcessId}

/-- With an idle channel, the way of a pass is decided by the first request. -/
theorem State.pass_cons (free : s.inFlight = none) (idle : s.idle = some p) (e : Entry)
    (q : List Entry) :
    State.pass fired { s with queue := e :: q } =
      if fired e.token then .cancelled e
      else if s.attached ≠ some e.generation then .foreign e else .called e p := by
  simp only [State.pass, free, idle, Option.isNone_none, Option.isSome_some, Bool.and_self,
    if_true]

/-- To start what comes next is a number of passes of the pump, each over one request of the queue.
-/
theorem passes_startNext {effects : List Effect} (free : t.inFlight = none)
    (idle : t.idle = some p) (q : List Entry) (before : Passes s { t with queue := q } effects) :
    Passes s (startNext fired t p q).1 (effects ++ (startNext fired t p q).2) := by
  induction q generalizing effects with
  | nil =>
    rw [startNext, List.append_nil]
    exact before
  | cons e q ih =>
    have next := before.next fired
    rw [State.pass_cons free idle] at next
    rw [startNext]
    -- the three ways of `startNext` are three ways of a pass
    by_cases cancelled : fired e.token = true
    · rw [if_pos cancelled] at next ⊢
      have rest := ih next
      rw [List.append_assoc] at rest
      exact rest
    · rw [if_neg cancelled] at next ⊢
      by_cases foreign : t.attached ≠ some e.generation
      · rw [if_pos foreign] at next ⊢
        have rest := ih next
        rw [List.append_assoc] at rest
        exact rest
      · rw [if_neg foreign] at next ⊢
        exact next

/-- **Calls are started by passes.** -/
theorem passes_pump (fired : Token → Bool) (s : State) :
    Passes s (pump fired s).1 (pump fired s).2 := by
  unfold pump
  split
  · rename_i p free idle
    exact passes_startNext free idle s.queue .start
  · exact .start

/-! ## The ways that no step takes -/

/-- All that wait are of the attached generation. -/
def State.Aligned (s : State) : Prop :=
  ∀ e ∈ s.queue, s.attached = some e.generation

/-- With an empty queue nothing is out of line. -/
theorem State.Aligned.of_empty (empty : s.queue = []) : s.Aligned := by
  rw [State.Aligned, empty]
  exact List.forall_mem_nil _

/-- A settled dispatcher is aligned. -/
theorem Settled.aligned (hs : Settled s) : s.Aligned := by
  cases hs with
  | vacant | resting => exact .of_empty rfl
  | calling w e q same => exact fun x hx => congrArg some (same x hx).symm

/-- A pass of the pump leaves the queue in line. -/
theorem State.Aligned.passed (aligned : s.Aligned) (pass : Pass) :
    (s.passed pass).1.Aligned := by
  have fewer : ∀ e ∈ s.queue.tail, s.attached = some e.generation :=
    fun e he => aligned e (List.mem_of_mem_tail he)
  cases pass with
  | finished => exact aligned
  | cancelled | foreign | channelless | called => exact fewer

/-- **All passes together keep the dispatcher aligned.** -/
theorem Passes.aligned {effects : List Effect} (passes : Passes s t effects)
    (aligned : s.Aligned) : t.Aligned := by
  induction passes with
  | start => exact aligned
  | next fired _ ih => exact ih.passed _

/-- **An input leaves all that wait with the attached generation**, even before calls are
started. -/
theorem Settled.handle_aligned (hs : Settled s) (fired : Token → Bool) (input : Input) :
    (handle fired s input).1.Aligned := by
  have aligned := hs.aligned
  -- whatever empties the queue leaves it aligned
  have lost (loss : Loss) : (loseChannel fired s loss).1.Aligned := .of_empty rfl
  cases input with
  | command c =>
    cases c with
    | submit id request token =>
      simp only [handle, submit]
      split
      · exact aligned
      · split
        · exact aligned
        · rename_i g attached
          intro e he
          -- a request is put into the queue with the generation that is attached
          rcases List.mem_append.mp he with he | he
          · exact aligned e he
          · rw [List.mem_singleton.mp he]
            exact attached
    | cancel id =>
      simp only [handle, cancel]
      split
      · exact fun e he => aligned e (List.mem_of_mem_eraseP he)
      · exact aligned
    | attach g p asker =>
      simp only [handle, attach]
      split
      · exact .of_empty rfl
      · rename_i vacant
        exact .of_empty (hs.fits.vacant vacant).2.2.2
    | detach g asker =>
      simp only [handle, detach]
      split
      · exact .of_empty rfl
      · exact aligned
    | shutdown => exact .of_empty rfl
  | completed c =>
    simp only [handle, complete]
    split
    · exact aligned
    · split
      · split
        · exact aligned
        · exact lost _
      · exact aligned
  | exited exit =>
    simp only [handle, processExited]
    split
    · exact aligned
    · exact lost _
  | closed => exact .of_empty rfl

/-- A pass over requests of the attached generation finds their channel. -/
theorem State.Aligned.pass (aligned : s.Aligned) (fired : Token → Bool) (e : Entry) :
    s.pass fired ≠ .foreign e ∧ s.pass fired ≠ .channelless e := by
  unfold State.pass
  split
  · rename_i looping
    obtain ⟨-, idle⟩ := Bool.and_eq_true_iff.mp looping
    obtain ⟨p, idle⟩ := Option.isSome_iff_exists.mp idle
    split
    · exact ⟨nofun, nofun⟩
    · rename_i x q hq
      have same : s.attached = some x.generation := aligned x (by rw [hq]; exact List.mem_cons_self)
      simp only [same, idle, ne_eq, not_true_eq_false, if_false]
      split <;> exact ⟨nofun, nofun⟩
  · exact ⟨nofun, nofun⟩

end Loop

/-! ## The law -/

/-- **The parts fit together in every run.** Between two inputs, without an attached generation
there is no channel, no watched exit and no request, and with one the exit is watched, either
the channel is idle or a request is in flight, and all requests are of that generation; nobody
waits before an idle channel.

So the loop that starts calls, which is made of passes, never meets a request of another
generation, or one for which there is no channel. -/
theorem parts_fit_together (xs : List Stimulus) :
    Fits (machine.run xs) ∧
    ∀ x : Stimulus,
      let handled := (handle x.fired (machine.run xs) x.input).1
      Passes handled (pump x.fired handled).1 (pump x.fired handled).2 ∧
      ∀ t effects, Passes handled t effects →
        ∀ fired e, t.pass fired ≠ .foreign e ∧ t.pass fired ≠ .channelless e := by
  have settled := run_settled xs
  refine ⟨settled.fits, fun x => ⟨passes_pump _ _, ?_⟩⟩
  intro t effects passes fired e
  have handled := settled.handle_aligned x.fired x.input
  exact (passes.aligned handled).pass fired e

/-- One request is being answered and another one waits. -/
def waitingRun : List Stimulus :=
  [ ⟨fun _ => false, .command (.attach 1 0 0)⟩,
    ⟨fun _ => false, .command (.submit 1 ⟨"", ["check"], none⟩ 1)⟩,
    ⟨fun _ => false, .command (.submit 2 ⟨"", ["check"], none⟩ 2)⟩ ]

/-- In this run a request waits behind another one, and the pump meets no foreign one when its turn
comes. -/
theorem waitingRun_fits :
    (machine.run waitingRun).queue.map (·.id) = [2] ∧ Fits (machine.run waitingRun) ∧
      ∀ e, (handle (fun _ => false) (machine.run waitingRun)
        (.completed ⟨1, 1, 0, .ok ⟨"1", [], false⟩, none⟩)).1.pass (fun _ => false) ≠
          .foreign e := by
  obtain ⟨fits, loop⟩ := parts_fit_together waitingRun
  obtain ⟨-, met⟩ := loop ⟨fun _ => false, .completed ⟨1, 1, 0, .ok ⟨"1", [], false⟩, none⟩⟩
  exact ⟨rfl, fits, fun e => (met _ [] .start _ e).1⟩

end CompilerSession.Dispatch
