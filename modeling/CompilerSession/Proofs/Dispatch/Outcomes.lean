import CompilerSession.Proofs.Dispatch.Iteration
import Mathlib.Data.List.Nodup

/-
Every request has one outcome.

A request that was submitted is at any time in one of three places: it has its outcome, it
waits, or the process is answering it. The law behind this is a conservation law of single
steps, `Iteration.conserves`: what a step resolves it takes from the pending requests, and
only a submission adds to them. It needs no assumption at all. That requests have different
numbers only matters when one wants to speak of *the* request of a number.

The second half says what three of the outcomes mean. "Not running", "stale" and "closed"
each tell the caller something about the dispatcher, and what they tell is true.
-/

set_option autoImplicit false

namespace CompilerSession.Dispatch

open Machine (outputs)

/-! ## Counting -/

def Input.submitted? : Input → Option RequestId
  | .command (.submit id _ _) => some id
  | _ => none

/-- The requests that were submitted, in order. -/
def submissions (xs : List Stimulus) : List RequestId :=
  xs.filterMap fun x => x.input.submitted?

def Effect.resolves (id : RequestId) : Effect → Bool
  | .resolved i _ => i = id
  | _ => false

/-- How often a request got an outcome. -/
def resolutions (id : RequestId) (effects : List Effect) : Nat :=
  effects.countP (Effect.resolves id)

/-- How often a request waits. -/
def State.waits (s : State) (id : RequestId) : Nat :=
  s.queue.countP (·.id = id)

/-- How often a request is being answered. -/
def State.answers (s : State) (id : RequestId) : Nat :=
  s.inFlight.toList.countP (·.id = id)

/-- **Where a request is** after a run: how often it was resolved, how often it waits, and
how often it is being answered. -/
def tally (xs : List Stimulus) (id : RequestId) : Nat × Nat × Nat :=
  (resolutions id (outputs (machine.history xs)), (machine.run xs).waits id,
    (machine.run xs).answers id)

section Counting

variable (id : RequestId)

@[simp] theorem resolutions_nil : resolutions id [] = 0 := rfl

/-- Resolutions add up. -/
@[simp] theorem resolutions_append (es fs : List Effect) :
    resolutions id (es ++ fs) = resolutions id es + resolutions id fs :=
  List.countP_append

@[simp] theorem resolutions_cons (e : Effect) (es : List Effect) :
    resolutions id (e :: es) = resolutions id es + if e.resolves id then 1 else 0 :=
  List.countP_cons

/-- When every request of a list gets an outcome, those of a number get as many as there
are of them. -/
theorem resolutions_map {f : Entry → Effect} (h : ∀ e, (f e).resolves id = decide (e.id = id))
    (q : List Entry) : resolutions id (q.map f) = q.countP (·.id = id) := by
  rw [resolutions, List.countP_map]
  exact List.countP_congr (fun e _ => by rw [Function.comp_apply, h e])

@[simp] theorem resolutions_cancelled (q : List Entry) :
    resolutions id (q.map Entry.cancelled) = q.countP (·.id = id) :=
  resolutions_map id (fun _ => rfl) q

@[simp] theorem resolutions_stale (q : List Entry) :
    resolutions id (q.map Entry.stale) = q.countP (·.id = id) :=
  resolutions_map id (fun _ => rfl) q

@[simp] theorem resolutions_closed (q : List Entry) :
    resolutions id (q.map Entry.closed) = q.countP (·.id = id) :=
  resolutions_map id (fun _ => rfl) q

/-- A channel that is lost resolves all that was pending. -/
@[simp] theorem resolutions_collapse (fired : Token → Bool) (s : State) (loss : Loss) :
    resolutions id (s.collapse fired loss) = s.pending.countP (·.id = id) := by
  rw [State.collapse, resolutions_append, resolutions_append, resolutions_stale,
    resolutions_map id (fun _ => rfl), State.pending, List.countP_append]
  rfl

/-- Who is pending waits in the queue or is in flight. -/
theorem waits_add_answers (s : State) :
    s.waits id + s.answers id = s.pending.countP (·.id = id) := by
  rw [State.waits, State.answers, State.pending, List.countP_append, Nat.add_comm]

end Counting

/-- **Conservation.** What a step resolves it takes from the pending requests, and only a
submission adds one. -/
theorem Iteration.conserves {fired : Token → Bool} {s s' : State} {input : Input}
    {effects : List Effect} (h : Iteration fired s input s' effects) (id : RequestId) :
    resolutions id effects + s'.pending.countP (·.id = id) =
      s.pending.countP (·.id = id) + if input.submitted? = some id then 1 else 0 := by
  -- one equation of counts for each rule; where the queue is cut in two, `omega` adds up
  cases h with
  | refused c => cases c <;> simp [refuse, Effect.resolves, Input.submitted?]
  | unheard input h =>
    cases input with
    | command c => exact absurd rfl (h c)
    | completed | exited | closed => simp [Input.submitted?]
  | firedBefore | turnedAway => simp [Effect.resolves, Input.submitted?, Nat.add_comm]
  | calledAtOnce => simp [Effect.resolves, Input.submitted?, List.countP_cons]
  | queued =>
    simp [Input.submitted?, List.countP_cons]
    omega
  | takenBack =>
    simp [Entry.cancelled, Effect.resolves, Input.submitted?, List.countP_cons]
    omega
  | notWaiting | tooLate | exitedAlone => simp [Input.submitted?]
  | attached | detached | otherDetached => simp [Effect.resolves, Input.submitted?]
  | answered => simp [Effect.resolves, Input.submitted?, List.countP_cons]
  | answeredAndCalled =>
    simp [Effect.resolves, Input.submitted?, List.countP_cons]
    omega
  | failed | exited => simp [Input.submitted?]
  | ended s input h => rcases h with rfl | rfl <;> simp [Input.submitted?]

/-- Requests that have different numbers had different ones before. -/
theorem distinct_before {xs ys : List Stimulus} (distinct : (submissions (xs ++ ys)).Nodup) :
    (submissions xs).Nodup := by
  rw [submissions, List.filterMap_append] at distinct
  exact distinct.of_append_left

/-- One more submission counts for its own request. -/
theorem submissions_concat (xs : List Stimulus) (x : Stimulus) (id : RequestId) :
    (submissions (xs ++ [x])).count id =
      (submissions xs).count id + if x.input.submitted? = some id then 1 else 0 := by
  rw [submissions, List.filterMap_append, List.count_append]
  cases hx : x.input.submitted? with
  | none => simp [submissions, hx]
  | some i => simp [submissions, hx, List.count_cons]

/-- **No request is lost and none is made up**: it was resolved as often as it was submitted, but
for what is pending. -/
theorem run_conserves (xs : List Stimulus) (id : RequestId) :
    resolutions id (outputs (machine.history xs)) +
      (machine.run xs).pending.countP (·.id = id) = (submissions xs).count id := by
  -- on the run, from its end: both sides grow by what the last step did
  induction xs using List.reverseRecOn with
  | nil => rfl
  | append_singleton xs x counted =>
    have conserved := (event_iteration xs x).conserves id
    rw [machine.history_concat, Machine.outputs_append, Machine.outputs_singleton,
      resolutions_append, submissions_concat]
    omega

/-! ## What failures tell

A caller learns from a failure in which state the dispatcher was. `Cause` lists what each
failure goes with, and `Iteration.cause` says that no step gives one without its cause. -/

/-- **Why a request fails** in a step from `s` to `s'`. -/
inductive Cause (s s' : State) (input : Input) (id : RequestId) : Failure → Prop where
  | cancelled : Cause s s' input id .cancelled
  | subprocess (reason : String) (code : Option Int) :
      Cause s s' input id (.subprocess reason code)
  /-- Nothing was attached when the request arrived. -/
  | turnedAway (request : Request) (token : Token)
      (arrives : input = .command (.submit id request token)) (vacant : s.attached = none) :
      Cause s s' input id .notRunning
  /-- The request was pending, under the generation that is named. -/
  | stale (x : Entry) (pending : x ∈ s.pending) (named : x.id = id) :
      Cause s s' input id (.stale x.generation)
  | closed (ended : s'.ended = true) : Cause s s' input id .workerClosed

section Causes

variable {fired : Token → Bool} {s s' : State} {input : Input} {id : RequestId}
  {failure : Failure}

/-- A request that an answer resolves without success was cancelled, or the process said so. -/
theorem cause_of_answer {f : Bool} {r : Response} (h : .error failure = answerOutcome f r) :
    Cause s s' input id failure := by
  unfold answerOutcome at h
  split at h
  · obtain rfl := Except.error.inj h
    exact .cancelled
  · split at h
    · obtain rfl := Except.error.inj h
      exact .subprocess _ _
    · cases h

/-- A request that becomes stale was pending when its channel went. -/
theorem cause_of_stale {q : List Entry} (hq : ∀ x ∈ q, x ∈ s.pending)
    (h : .resolved id (.error failure) ∈ q.map Entry.stale) : Cause s s' input id failure := by
  obtain ⟨x, hx, stale⟩ := List.mem_map.mp h
  obtain ⟨named, hf⟩ := Effect.resolved.inj stale
  obtain rfl := Except.error.inj hf
  exact .stale x (hq x hx) named

/-- A request that fails with its channel was in flight or waited. -/
theorem cause_of_collapse {loss : Loss}
    (h : .resolved id (.error failure) ∈ s.collapse fired loss) : Cause s s' input id failure := by
  rw [State.collapse, List.mem_append, List.mem_append] at h
  rcases h with (blamed | stale) | lost
  · -- the request in flight was cancelled, or bears the blame
    obtain ⟨x, -, hx⟩ := List.mem_map.mp blamed
    have hf := Except.error.inj (Effect.resolved.inj hx).2
    split at hf
    · subst hf
      exact .cancelled
    · subst hf
      exact .subprocess _ _
  · exact cause_of_stale (fun x hx => List.mem_append_right _ hx) stale
  · cases List.mem_singleton.mp lost

/-- A request that is cancelled was pending and had been withdrawn. -/
theorem cause_of_cancelled {q : List Entry}
    (h : .resolved id (.error failure) ∈ q.map Entry.cancelled) : Cause s s' input id failure := by
  obtain ⟨x, -, hx⟩ := List.mem_map.mp h
  obtain rfl := Except.error.inj (Effect.resolved.inj hx).2
  exact .cancelled

/-- **No request fails without a cause.** -/
theorem Iteration.cause {effects : List Effect} (h : Iteration fired s input s' effects)
    (ho : .resolved id (.error failure) ∈ effects) : Cause s s' input id failure := by
  cases h with
  | refused c =>
    cases c with
    | submit i =>
      obtain ⟨-, hf⟩ := Effect.resolved.inj (List.mem_singleton.mp ho)
      obtain rfl := Except.error.inj hf
      exact .closed rfl
    | cancel | attach | detach | shutdown => simp [refuse] at ho
  | unheard | queued | notWaiting | tooLate | exitedAlone => cases ho
  | calledAtOnce | otherDetached => simp at ho
  | firedBefore =>
    obtain rfl := Except.error.inj (Effect.resolved.inj (List.mem_singleton.mp ho)).2
    exact .cancelled
  | turnedAway i request token =>
    obtain ⟨rfl, hf⟩ := Effect.resolved.inj (List.mem_singleton.mp ho)
    obtain rfl := Except.error.inj hf
    exact .turnedAway request token rfl rfl
  | takenBack w e x => exact cause_of_cancelled (q := [x]) ho
  -- what follows the drained requests is the answer to whoever asked, and resolves nobody
  | attached | detached =>
    rcases List.mem_append.mp ho with ho | ho
    · exact cause_of_stale (fun x hx => hx) ho
    · cases List.mem_singleton.mp ho
  | answered =>
    rcases List.mem_cons.mp ho with ho | ho
    · exact cause_of_answer (Effect.resolved.inj ho).2
    · exact cause_of_cancelled ho
  | answeredAndCalled =>
    rcases List.mem_cons.mp ho with ho | ho
    · exact cause_of_answer (Effect.resolved.inj ho).2
    · rcases List.mem_append.mp ho with ho | ho
      · exact cause_of_cancelled ho
      · cases List.mem_singleton.mp ho
  | failed | exited => exact cause_of_collapse ho
  | ended =>
    obtain ⟨x, -, hx⟩ := List.mem_map.mp ho
    obtain rfl := Except.error.inj (Effect.resolved.inj hx).2
    exact .closed rfl

end Causes

/-! ## Where pending requests come from -/

/-- Only a submission makes a request pending, and stamps it with the attached generation. -/
theorem Iteration.pending {fired : Token → Bool} {s s' : State} {input : Input}
    {effects : List Effect} (h : Iteration fired s input s' effects) {x : Entry}
    (hx : x ∈ s'.pending) :
    x ∈ s.pending ∨
      input = .command (.submit x.id x.request x.token) ∧ s.attached = some x.generation := by
  cases h with
  -- rules after which nothing is pending, rules that leave it alone, and then those that change it
  | refused | unheard | turnedAway | attached | detached | answered | failed | exited |
      exitedAlone | ended =>
    cases hx
  | firedBefore | notWaiting | otherDetached | tooLate => exact .inl hx
  | calledAtOnce g p w id request token =>
    rw [State.pending_calling, List.mem_singleton] at hx
    subst hx
    exact .inr ⟨rfl, rfl⟩
  | queued w e q id request token =>
    rw [State.pending_calling, List.mem_cons, List.mem_append, List.mem_singleton] at hx
    rcases hx with rfl | hx | rfl
    · exact .inl List.mem_cons_self
    · exact .inl (List.mem_cons_of_mem _ hx)
    · exact .inr ⟨rfl, rfl⟩
  | takenBack w e y q₁ q₂ =>
    refine .inl ?_
    simp only [State.pending_calling, List.mem_cons, List.mem_append] at hx ⊢
    rcases hx with hx | hx | hx
    · exact .inl hx
    · exact .inr (.inl hx)
    · exact .inr (.inr (.inr hx))
  | answeredAndCalled w e y q₁ q₂ =>
    refine .inl ?_
    simp only [State.pending_calling, List.mem_cons, List.mem_append] at hx ⊢
    exact .inr (.inr hx)

/-- **A request was taken**: it was submitted just as it is, while its generation was
attached. -/
def Taken (h : List machine.Event) (x : Entry) : Prop :=
  ∃ f ∈ h, f.action.input = .command (.submit x.id x.request x.token) ∧
    f.before.attached = some x.generation

def Stamped (h : List machine.Event) (s : State) : Prop :=
  ∀ x ∈ s.pending, Taken h x

/-- **Every request keeps the stamp of its submission**, in every run. -/
theorem run_stamped (xs : List Stimulus) : Stamped (machine.history xs) (machine.run xs) := by
  -- a step makes one request pending at most, and its own event is the witness for that one
  induction xs using List.reverseRecOn with
  | nil =>
    intro x hx
    cases hx
  | append_singleton xs x stamped =>
    intro y hy
    rw [machine.history_concat]
    rcases (event_iteration xs x).pending hy with old | new
    · obtain ⟨f, hf, arrived⟩ := stamped y old
      exact ⟨f, List.mem_append_left _ hf, arrived⟩
    · exact ⟨_, List.mem_append_right _ List.mem_cons_self, new⟩

/-! ## The law -/

def submits (e : machine.Event) (id : RequestId) : Prop :=
  ∃ request token, e.action.input = .command (.submit id request token)

/-- The three places of a request, as a sum. -/
theorem tally_sum (xs : List Stimulus) (id : RequestId) :
    (tally xs id).1 + ((tally xs id).2.1 + (tally xs id).2.2) = (submissions xs).count id := by
  rw [← run_conserves xs id, ← waits_add_answers]
  rfl

/-- After its end the dispatcher has nothing pending. -/
theorem pending_of_ended {s : State} (hs : Settled s) (ended : s.ended = true) :
    s.pending = [] := by
  cases hs with
  | vacant => rfl
  | resting | calling => cases ended

/-- **Every request that was taken has one outcome.** In every run in which requests have
different numbers, a submitted request is in exactly one of three places, and once the
dispatcher has ended, in the first of them: resolved once, waiting once, or being answered.
A request that fails is told the truth: it is not running only if nothing was attached as it
arrived, it goes stale only under the generation that was attached as it arrived, and it is
closed only by a dispatcher that has ended. Every moment of a run is the end of a shorter
run, so this holds at every moment. -/
theorem every_request_resolves_once (xs : List Stimulus) (distinct : (submissions xs).Nodup) :
    (∀ id ∈ submissions xs, tally xs id ∈ [(1, 0, 0), (0, 1, 0), (0, 0, 1)]) ∧
    ((machine.run xs).ended = true → ∀ id ∈ submissions xs, tally xs id = (1, 0, 0)) ∧
    ∀ past e later, machine.history xs = past ++ e :: later →
      ∀ id failure, .resolved id (.error failure) ∈ e.outputs →
        (failure = .notRunning → submits e id ∧ e.before.attached = none) ∧
        (∀ g, failure = .stale g → ∃ f ∈ past, submits f id ∧ f.before.attached = some g) ∧
        (failure = .workerClosed → e.after.ended = true) := by
  -- every submission is counted in one of the three places
  have sum : ∀ id ∈ submissions xs,
      (tally xs id).1 + ((tally xs id).2.1 + (tally xs id).2.2) = 1 := by
    intro id hid
    rw [tally_sum, List.count_eq_one_of_mem distinct hid]
  refine ⟨?_, ?_, ?_⟩
  · -- three numbers with the sum one
    intro id hid
    have one := sum id hid
    generalize tally xs id = t at one ⊢
    obtain ⟨r, w, a⟩ := t
    simp only [List.mem_cons, Prod.mk.injEq, List.not_mem_nil, or_false] at one ⊢
    omega
  · -- nothing is pending, so the first number is the whole sum
    intro ended id hid
    have one := sum id hid
    have none := pending_of_ended (run_settled xs) ended
    have empty : (tally xs id).2.1 + (tally xs id).2.2 = 0 := by
      have count := waits_add_answers id (machine.run xs)
      rw [none] at count
      exact count
    generalize tally xs id = t at one empty ⊢
    obtain ⟨r, w, a⟩ := t
    simp only [Prod.mk.injEq] at one empty ⊢
    omega
  · -- the event was taken at the end of a shorter run, and its rule names the cause
    intro past e later cut id failure ho
    obtain ⟨ys, zs, -, rfl, before, -⟩ := machine.history_split cut
    have settled : Settled e.before := before ▸ run_settled ys
    cases settled.iteration.cause ho with
    | cancelled | subprocess => exact ⟨nofun, nofun, nofun⟩
    | turnedAway request token arrives vacant =>
      exact ⟨fun _ => ⟨⟨request, token, arrives⟩, vacant⟩, nofun, nofun⟩
    | stale x pending named =>
      refine ⟨nofun, ?_, nofun⟩
      rintro g ⟨⟩
      obtain ⟨f, hf, arrives, attached⟩ := run_stamped ys x (before ▸ pending)
      exact ⟨f, hf, ⟨x.request, x.token, named ▸ arrives⟩, attached⟩
    | closed ended => exact ⟨nofun, nofun, fun _ => ended⟩

/-- A run with something of everything: a request is turned away, one is answered, one is
taken back, one is skipped because its token fired, one goes stale with its session, one is
blamed for a lost channel, and one is closed. -/
def crowdedRun : List Stimulus :=
  let submit (id : RequestId) : Input := .command (.submit id ⟨"", ["echo"], none⟩ id)
  let quiet (input : Input) : Stimulus := ⟨fun _ => false, input⟩
  [ quiet (submit 1), quiet (.command (.attach 1 0 0)), quiet (submit 2), quiet (submit 3),
    quiet (submit 4), quiet (.command (.cancel 3)),
    ⟨fun t => t = 4, .completed ⟨2, 1, 0, .ok ⟨"2", [], false⟩, none⟩⟩, quiet (submit 5),
    quiet (submit 6), quiet (.command (.detach 1 1)), quiet (.command (.attach 2 1 2)),
    quiet (submit 7), quiet (.exited ⟨some 9⟩), quiet (.command (.attach 3 2 3)),
    quiet (submit 8), quiet (submit 9), quiet .closed ]

/-- In this run requests are in all three places for a while, and at its end each of them has its
one outcome. -/
theorem crowdedRun_resolves_once :
    (submissions crowdedRun).Nodup ∧ (machine.run crowdedRun).ended = true ∧
      tally (crowdedRun.take 9) 5 = (0, 0, 1) ∧ tally (crowdedRun.take 9) 6 = (0, 1, 0) ∧
      ∀ id ∈ [1, 2, 3, 4, 5, 6, 7, 8, 9], tally crowdedRun id = (1, 0, 0) := by
  have distinct : (submissions crowdedRun).Nodup := by decide
  have ended : (machine.run crowdedRun).ended = true := rfl
  exact ⟨distinct, ended, rfl, rfl, (every_request_resolves_once crowdedRun distinct).2.1 ended⟩

end CompilerSession.Dispatch
