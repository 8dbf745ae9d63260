import CompilerSession.Proofs.Session.Draining
import CompilerSession.Proofs.Session.Statuses

/-
What is left after a shutdown.

A shutdown that is done has handed the lock on and has told the dispatcher to end, in two moves with
others between them. What there is of sessions and processes from then on is in `Session.Shutdown`;
here it is put together for the time when nobody is at work any more. If no generation was handed
out between the two moves, nothing is left. If one was, its session may be left, behind a dispatcher
that takes no more commands.

Requests fare the same in both cases. One that is submitted when the shutdown is done stands behind
the command to end (`Late`), so it is turned away, at once or when the dispatcher gets to it.
-/

set_option autoImplicit false

namespace CompilerSession.Supervisor

open Dispatch (Effect Input Stimulus Settled submissions resolutions)
open Machine (outputs)

/-! ## Turned away

Outcomes come from the dispatcher when it takes an input. At any other move there is one thing that
a caller can learn: that the dispatcher has ended. -/

/-- Nobody learns of an outcome. -/
def Signal.silent : Signal → Bool
  | .resolved _ _ => false
  | _ => true

/-- Whoever learns of an outcome learns that the dispatcher has ended. -/
def TurnsAway (signals : List Signal) : Prop :=
  ∀ id outcome, .resolved id outcome ∈ signals → outcome = .error .workerClosed

section TurnsAway

variable (s : Supervisor) (o : Operation)

theorem TurnsAway.append {xs ys : List Signal} (first : TurnsAway xs) (rest : TurnsAway ys) :
    TurnsAway (xs ++ ys) :=
  fun id outcome h => (List.mem_append.mp h).elim (first id outcome) (rest id outcome)

/-- Where no request is resolved there is nothing to show. -/
theorem turnsAway_of_silent {signals : List Signal} (silent : signals.all Signal.silent = true) :
    TurnsAway signals :=
  fun _ _ h => by cases List.all_eq_true.mp silent _ h

/-- A request is resolved by an effect that says so. -/
theorem resolved_of_absorbOne {e : Effect} {id : RequestId} {outcome : Outcome}
    (h : .resolved id outcome ∈ (s.absorbOne e).2) : e = .resolved id outcome := by
  cases e with
  | resolved => cases List.mem_singleton.mp h; rfl
  | called | lost => cases List.mem_singleton.mp h
  | attached | detached | refused =>
    simp only [absorbOne] at h
    split at h <;> simp at h

/-- Outcomes that callers learn of are those of the dispatcher. -/
theorem resolved_of_absorb {es : List Effect} {id : RequestId} {outcome : Outcome}
    (h : .resolved id outcome ∈ (s.absorb es).2) : .resolved id outcome ∈ es := by
  induction es generalizing s with
  | nil => cases h
  | cons e es ih =>
    rcases List.mem_append.mp h with now | later
    · exact List.mem_cons.mpr (.inl (resolved_of_absorbOne s now).symm)
    · exact List.mem_cons_of_mem _ (ih _ later)

/-- A dispatcher that has ended tells a request that it is closed. -/
theorem closed_of_refuse {c : Dispatch.Command} {id : RequestId} {outcome : Outcome}
    (h : .resolved id outcome ∈ Dispatch.refuse c) : outcome = .error .workerClosed := by
  cases c with
  | submit => cases List.mem_singleton.mp h; rfl
  | cancel | attach | detach | shutdown => simp [Dispatch.refuse] at h

/-- A command that comes when the dispatcher has ended turns away the request that it brings. -/
theorem post_turnsAway (c : Dispatch.Command) : TurnsAway (s.post c).2 := by
  unfold post
  split
  · exact fun id outcome h => closed_of_refuse (resolved_of_absorb s h)
  · exact turnsAway_of_silent rfl

theorem release_turnsAway : TurnsAway s.release.2 := by
  unfold release
  split
  · exact turnsAway_of_silent rfl
  · exact turnsAway_of_silent rfl

theorem finish_turnsAway (result : Result) : TurnsAway (s.finish o result).2 := by
  have released := release_turnsAway (s.setStage o.id (o.purpose.last result))
  revert released
  unfold finish
  cases o.purpose <;> exact id

theorem conclude_turnsAway (outcome : Except Failure Info) : TurnsAway (s.conclude o outcome).2 :=
  finish_turnsAway _ o _

theorem beginTeardown_turnsAway (l : Live) : TurnsAway (s.beginTeardown o l).2 :=
  post_turnsAway _ _

theorem entered_turnsAway : TurnsAway (s.entered o).2 := by
  unfold entered
  split
  · split
    · exact finish_turnsAway s o _
    · exact turnsAway_of_silent rfl
  · split
    · exact beginTeardown_turnsAway _ o _
    · exact finish_turnsAway s o _
  · split
    · exact beginTeardown_turnsAway _ o _
    · exact finish_turnsAway s o _
  · split
    · exact finish_turnsAway s o _
    · simp only
      split
      · exact beginTeardown_turnsAway _ o _
      · exact turnsAway_of_silent rfl
  · split
    · split
      · exact turnsAway_of_silent rfl
      · exact finish_turnsAway s o _
    · exact finish_turnsAway s o _

theorem afterKill_turnsAway (next : Aftermath) : TurnsAway (s.afterKill o next).2 := by
  cases next with
  | launchFailed failure => exact conclude_turnsAway _ o _
  | crashed l loss =>
    exact (turnsAway_of_silent rfl).append (finish_turnsAway _ o _)
  | tornDown l =>
    cases h : o.purpose with
    | restart =>
      simp only [afterKill, h]
      exact turnsAway_of_silent rfl
    | start | stop | shutdown | crash =>
      simp only [afterKill, h]
      exact (turnsAway_of_silent rfl).append (finish_turnsAway _ o _)

/-- **No operation resolves a request**, but for turning it away. -/
theorem proceed_turnsAway (id : OperationId) (seen : Observation) :
    TurnsAway (s.proceed id seen).2 := by
  unfold proceed
  split
  · exact turnsAway_of_silent rfl
  · rename_i o _
    split
    · exact entered_turnsAway s o
    · exact turnsAway_of_silent rfl
    · exact afterKill_turnsAway s o _
    · rename_i outcome _
      cases outcome with
      | error failure => exact conclude_turnsAway _ o _
      | ok launched => exact turnsAway_of_silent rfl
    · unfold afterProbe
      split
      · exact turnsAway_of_silent rfl
      · exact post_turnsAway _ _
    · exact (turnsAway_of_silent rfl).append (conclude_turnsAway _ o _)
    · exact turnsAway_of_silent rfl
    · exact post_turnsAway _ _
    · exact turnsAway_of_silent rfl

/-- **Nobody but the dispatcher decides outcomes.** -/
theorem step_turnsAway {move : Move} (other : ∀ fired, move ≠ .dispatch fired) :
    TurnsAway (s.step move).2 := by
  cases move with
  | dispatch fired => exact absurd rfl (other fired)
  | submit | withdraw => exact post_turnsAway _ _
  | proceed id seen => exact proceed_turnsAway s id seen
  -- the ends of calls are told to the dispatcher, and outcomes are its own
  | answer id result =>
    show TurnsAway (s.answer id result).2
    unfold answer
    split
    · exact turnsAway_of_silent rfl
    · split
      · exact turnsAway_of_silent rfl
      · exact turnsAway_of_silent rfl
      · exact turnsAway_of_silent rfl
      · exact turnsAway_of_silent rfl
  | settle id =>
    show TurnsAway (s.settle id).2
    unfold settle
    split
    · split
      · exact turnsAway_of_silent rfl
      · exact turnsAway_of_silent rfl
    · exact turnsAway_of_silent rfl
  | abandon id =>
    show TurnsAway (s.abandon id).2
    simp only [abandon]
    split
    · exact release_turnsAway _
    · exact turnsAway_of_silent rfl
  | begin | draw | ask | monitor | exit | collect | tick => exact turnsAway_of_silent rfl

end TurnsAway

/-! ## Late requests -/

/-- **The request comes too late**: the dispatcher is not to take it before the command to end. -/
structure Late (id : RequestId) (s : Supervisor) : Prop where
  notPending : ∀ x ∈ s.dispatch.pending, x.id ≠ id
  behind : s.dispatch.ended = true ∨ ∃ first rest, s.inbox = first ++ .shutdown :: rest ∧
    ∀ request token, .submit id request token ∉ first

/-- The dispatcher did not take the request yet. -/
def Asked (id : RequestId) (s : Supervisor) : Prop :=
  ∃ request token, .submit id request token ∈ s.inbox

section Late

variable {s : Supervisor} {id : RequestId}

/-- What the dispatcher does with a command, and what callers learn of it. -/
theorem runDispatcher_command {c : Dispatch.Command} {rest : List Dispatch.Command}
    (fired : Token → Bool) (inbox : s.inbox = c :: rest) :
    (s.runDispatcher fired).1.dispatch = (Dispatch.step fired s.dispatch (.command c)).1 ∧
      ∀ id outcome, .resolved id outcome ∈ (s.runDispatcher fired).2 ↔
        .resolved id outcome ∈ (Dispatch.step fired s.dispatch (.command c)).2 := by
  have next : s.nextInput? = some (.command c, { s with inbox := rest }) := by
    simp only [nextInput?, inbox]
  simp only [runDispatcher, next]
  refine ⟨?_, fun id outcome => ⟨resolved_of_absorb _, resolved_absorb _⟩⟩
  exact congrArg Traffic.dispatch (absorb_calls _ _).1

/-- A request that is neither pending nor submitted now gets no outcome. -/
theorem unresolved_of_iteration {fired : Token → Bool} {d d' : Dispatch.State} {input : Input}
    {effects : List Effect} (rule : Dispatch.Iteration fired d input d' effects)
    (notPending : ∀ x ∈ d.pending, x.id ≠ id) (other : input.submitted? ≠ some id) :
    (∀ outcome, .resolved id outcome ∉ effects) ∧ ∀ x ∈ d'.pending, x.id ≠ id := by
  have conserved := rule.conserves id
  have before : d.pending.countP (·.id = id) = 0 :=
    List.countP_eq_zero.mpr fun x hx => by simpa using notPending x hx
  rw [before, if_neg other, Nat.add_zero, Nat.add_eq_zero_iff] at conserved
  constructor
  · intro outcome h
    exact List.countP_eq_zero.mp conserved.1 _ h (decide_eq_true rfl)
  · intro x hx
    simpa using List.countP_eq_zero.mp conserved.2 x hx

/-- An ended dispatcher turns away whoever asks, and does nothing else. -/
theorem step_of_ended {fired : Token → Bool} {d : Dispatch.State} (ended : d.ended = true)
    (c : Dispatch.Command) : Dispatch.step fired d (.command c) = (d, Dispatch.refuse c) := by
  unfold Dispatch.step
  rw [if_pos ended]

/-- What the dispatcher does not take waits on. -/
theorem Asked.dispatch {c : Dispatch.Command} {rest : List Dispatch.Command}
    (fired : Token → Bool) (asked : Asked id s) (inbox : s.inbox = c :: rest) :
    Asked id (s.runDispatcher fired).1 ∨ ∃ request token, c = .submit id request token := by
  obtain ⟨request, token, member⟩ := asked
  rw [inbox] at member
  rcases List.mem_cons.mp member with same | later
  · exact .inr ⟨request, token, same.symm⟩
  · exact .inl ⟨request, token, inbox_dispatch fired inbox ▸ later⟩

/-- While the dispatcher goes on, the first command is not the late request. It is the command to
end, or stands before it. -/
theorem Late.first (late : Late id s) (live : s.dispatch.ended = false) :
    ∃ c rest, s.inbox = c :: rest ∧ (∀ request token, c ≠ .submit id request token) ∧
      (c = .shutdown ∨ ∃ first later, rest = first ++ .shutdown :: later ∧
        ∀ request token, .submit id request token ∉ first) := by
  obtain ⟨first, later, cut, notFirst⟩ := late.behind.resolve_left (by simp [live])
  cases first with
  | nil => exact ⟨_, later, cut, nofun, .inl rfl⟩
  | cons c first =>
    refine ⟨c, _, cut, ?_, .inr ⟨first, later, rfl, fun request token member => ?_⟩⟩
    · rintro request token rfl
      exact notFirst request token List.mem_cons_self
    · exact notFirst request token (List.mem_cons_of_mem _ member)

/-- **What becomes of a late request** from one state to another: it stays late, and it waits on or
is turned away. -/
structure StaysLate (id : RequestId) (s s' : Supervisor) (signals : List Signal) : Prop where
  late : Late id s'
  closed : ∀ outcome, .resolved id outcome ∈ signals → outcome = .error .workerClosed
  asked : Asked id s → Asked id s' ∨ .resolved id (.error .workerClosed) ∈ signals

/-- An ended dispatcher turns a late request away. -/
theorem Late.dispatch_ended (late : Late id s) (ended : s.dispatch.ended = true)
    (fired : Token → Bool) :
    StaysLate id s (s.runDispatcher fired).1 (s.runDispatcher fired).2 := by
  cases inbox : s.inbox with
  | nil =>
    have idle : s.runDispatcher fired = (s, []) := by
      simp only [runDispatcher, nextInput?, inbox, ended, if_true]
    rw [idle]
    exact ⟨late, fun _ none => absurd none List.not_mem_nil, .inl⟩
  | cons c rest =>
    obtain ⟨dispatch, told⟩ := runDispatcher_command fired inbox
    rw [step_of_ended ended c] at dispatch told
    refine ⟨⟨dispatch ▸ late.notPending, .inl (dispatch ▸ ended)⟩,
      fun outcome h => closed_of_refuse ((told id outcome).mp h), fun asked => ?_⟩
    refine (asked.dispatch fired inbox).imp_right ?_
    rintro ⟨request, token, rfl⟩
    exact (told id _).mpr (List.mem_singleton_self _)

/-- Until the dispatcher ends, it does not look at a late request. -/
theorem Late.dispatch_live (late : Late id s) (settled : Settled s.dispatch)
    (live : s.dispatch.ended = false) (fired : Token → Bool) :
    StaysLate id s (s.runDispatcher fired).1 (s.runDispatcher fired).2 := by
  obtain ⟨c, rest, inbox, other, next⟩ := late.first live
  obtain ⟨dispatch, told⟩ := runDispatcher_command fired inbox
  have unsubmitted : (Input.command c).submitted? ≠ some id := by
    cases c with
    | submit i request token => exact fun same => other request token (by cases same; rfl)
    | cancel | attach | detach | shutdown => nofun
  obtain ⟨unresolved, notPending⟩ := unresolved_of_iteration
    (Dispatch.step_iteration fired settled (.command c)) late.notPending unsubmitted
  refine ⟨⟨dispatch ▸ notPending, ?_⟩,
    fun outcome h => absurd ((told id outcome).mp h) (unresolved outcome),
    fun asked => .inl ((asked.dispatch fired inbox).resolve_right fun ⟨_, _, same⟩ =>
      other _ _ same)⟩
  rcases next with rfl | ⟨first, later, rfl, notFirst⟩
  · exact .inl (ended_of_shutdown fired inbox)
  · exact .inr ⟨first, later, inbox_dispatch fired inbox, notFirst⟩

/-- **A late request stays late**, whatever happens. -/
theorem Late.step {xs : List Move} (late : Late id (machine.run xs)) (x : Move) :
    StaysLate id (machine.run xs) (machine.run (xs ++ [x]))
      (machine.step (machine.run xs) x).2 := by
  rw [machine.run_concat]
  -- only the dispatcher resolves requests; the other moves put commands behind the late one
  by_cases dispatches : ∃ fired, x = .dispatch fired
  · obtain ⟨fired, rfl⟩ := dispatches
    cases ended : (machine.run xs).dispatch.ended with
    | true => exact late.dispatch_ended ended fired
    | false =>
      have settled : Settled (machine.run xs).dispatch := by
        rw [show (machine.run xs).dispatch = _ from (run_fair xs).dispatch]
        exact Dispatch.run_settled _
      exact late.dispatch_live settled ended fired
  · have other (fired : Token → Bool) : x ≠ .dispatch fired := fun h => dispatches ⟨fired, h⟩
    have dispatch : ((machine.run xs).step x).1.dispatch = (machine.run xs).dispatch := by
      rcases (step_flow ⟨machine.run xs, x⟩).dispatch with ⟨-, same⟩ | ⟨z, -, same, -⟩
      · exact same
      · exact absurd same (other _)
    have more := inbox_step (machine.run xs) other
    refine ⟨⟨dispatch ▸ late.notPending, ?_⟩, fun outcome => step_turnsAway _ other id outcome,
      fun ⟨request, token, member⟩ => .inl ⟨request, token, more.subset member⟩⟩
    rcases late.behind with ended | ⟨first, rest, inbox, notFirst⟩
    · exact .inl (dispatch ▸ ended)
    · obtain ⟨added, same⟩ := more
      refine .inr ⟨first, rest ++ added, same.symm.trans ?_, notFirst⟩
      rw [inbox, List.append_assoc, List.cons_append]

/-- **A late request is turned away**, if the dispatcher gets to it at all. -/
theorem Late.append {xs : List Move} (late : Late id (machine.run xs)) (ys : List Move) :
    StaysLate id (machine.run xs) (machine.run (xs ++ ys))
      (outputs (machine.historyFrom (machine.run xs) ys)) := by
  induction ys using List.reverseRecOn with
  | nil => rw [List.append_nil]; exact ⟨late, nofun, .inl⟩
  | append_singleton ys y ih =>
    have next := ih.late.step y
    have told : outputs (machine.historyFrom (machine.run xs) (ys ++ [y])) =
        outputs (machine.historyFrom (machine.run xs) ys) ++
          (machine.step (machine.run (xs ++ ys)) y).2 := by
      rw [machine.historyFrom_append, Machine.outputs_append, Machine.run, Machine.run,
        machine.runFrom_append]
      exact congrArg _ (Machine.outputs_singleton _)
    rw [← List.append_assoc, told]
    refine ⟨next.late, fun outcome h => ?_, fun asked => ?_⟩
    · exact (List.mem_append.mp h).elim (ih.closed outcome) (next.closed outcome)
    · rcases ih.asked asked with waits | turnedAway
      · exact (next.asked waits).imp_right (List.mem_append_right _)
      · exact .inr (List.mem_append_left _ turnedAway)

/-- The number of the next request was not given to any other. -/
theorem next_is_fresh (xs : List Move) :
    (∀ x ∈ (machine.run xs).dispatch.pending, x.id ≠ (machine.run xs).nextRequest) ∧
      ∀ request token,
        .submit (machine.run xs).nextRequest request token ∉ (machine.run xs).inbox := by
  have fair := run_fair xs
  have fresh : (machine.run xs).nextRequest ∉
      submissions (stimuli (machine.history xs)) ++ (machine.run xs).traffic.asked :=
    fun h => Nat.lt_irrefl _ (fair.bounded _ h)
  rw [List.mem_append, not_or] at fresh
  constructor
  · have conserved := Dispatch.run_conserves (stimuli (machine.history xs))
      (machine.run xs).nextRequest
    rw [List.count_eq_zero.mpr fresh.1, Nat.add_eq_zero_iff, ← fair.dispatch] at conserved
    intro x hx
    simpa using List.countP_eq_zero.mp conserved.2 x hx
  · exact fun request token member => fresh.2 (List.mem_filterMap.mpr ⟨_, member, rfl⟩)

/-- **Who asks when the dispatcher is to end comes too late**, and waits or is turned away. -/
theorem late_of_submit {xs : List Move} {g : Nat} (sealed : Sealed g (machine.run xs))
    (request : Request) (token : Token) :
    Late (machine.run xs).nextRequest (machine.run (xs ++ [.submit request token])) ∧
      (Asked (machine.run xs).nextRequest (machine.run (xs ++ [.submit request token])) ∨
        .resolved (machine.run xs).nextRequest (.error .workerClosed) ∈
          (machine.step (machine.run xs) (.submit request token)).2) := by
  obtain ⟨notPending, notAsked⟩ := next_is_fresh xs
  rw [machine.run_concat]
  generalize machine.run xs = s at *
  show Late _ (s.submit request token).1 ∧ (Asked _ (s.submit request token).1 ∨
    _ ∈ (s.submit request token).2)
  -- the request is refused by a dispatcher that has ended, or it waits behind the command to end
  cases ended : s.dispatch.ended with
  | true =>
    have refused : s.submit request token = ({ s with nextRequest := s.nextRequest + 1 },
        [.resolved s.nextRequest (.error .workerClosed)]) := by
      simp only [submit, post, ended, if_true]
      rfl
    rw [refused]
    exact ⟨⟨notPending, .inl ended⟩, .inr (List.mem_singleton_self _)⟩
  | false =>
    have sent : s.submit request token = ({ s with
        nextRequest := s.nextRequest + 1
        inbox := s.inbox ++ [.submit s.nextRequest request token] }, [.posted]) := by
      simp only [submit, post, ended]
      rfl
    obtain ⟨first, rest, inbox, -⟩ := sealed.barred.resolve_left (by simp [ended])
    rw [sent]
    refine ⟨⟨notPending, .inr ⟨first, rest ++ [.submit s.nextRequest request token], ?_, ?_⟩⟩,
      .inl ⟨request, token, List.mem_append_right _ (List.mem_singleton_self _)⟩⟩
    · show s.inbox ++ [_] = _
      rw [inbox, List.append_assoc, List.cons_append]
    · intro request token member
      exact notAsked request token (inbox ▸ List.mem_append_left _ member)

/-- **A request is turned away** that is submitted after the moves `xs`, when the moves `ys` follow.
Its caller learns of nothing but the end of the dispatcher, and has learned of it when the
dispatcher has taken all its commands. -/
structure TurnedAway (xs : List Move) (request : Request) (token : Token) (ys : List Move) :
    Prop where
  only : ∀ outcome, .resolved (machine.run xs).nextRequest outcome ∈
      outputs (machine.historyFrom (machine.run xs) (.submit request token :: ys)) →
    outcome = .error .workerClosed
  told : (machine.run (xs ++ .submit request token :: ys)).inbox = [] →
    .resolved (machine.run xs).nextRequest (.error .workerClosed) ∈
      outputs (machine.historyFrom (machine.run xs) (.submit request token :: ys))

/-- **Who asks after a shutdown is turned away.** -/
theorem Sealed.turnsAway {xs : List Move} {g : Nat} (sealed : Sealed g (machine.run xs))
    (request : Request) (token : Token) (ys : List Move) : TurnedAway xs request token ys := by
  obtain ⟨late, asked⟩ := late_of_submit sealed request token
  have later := late.append ys
  have turnedAway := @step_turnsAway (machine.run xs) (.submit request token) nofun
  have told : outputs (machine.historyFrom (machine.run xs) (.submit request token :: ys)) =
      (machine.step (machine.run xs) (.submit request token)).2 ++
        outputs (machine.historyFrom (machine.run (xs ++ [.submit request token])) ys) := by
    rw [machine.run_concat]
    exact List.flatMap_cons
  rw [List.append_assoc, List.singleton_append] at later
  constructor
  · intro outcome h
    rw [told] at h
    exact (List.mem_append.mp h).elim (turnedAway _ outcome) (later.closed outcome)
  · intro empty
    rw [told]
    rcases asked with asked | now
    · rcases later.asked asked with ⟨_, _, waits⟩ | then_
      · rw [empty] at waits
        cases waits
      · exact List.mem_append_right _ then_
    · exact List.mem_append_left _ now

end Late

/-! ## What is left -/

/-- **What is left** when nobody is at work any more: nothing, or a session of a generation later
than `first` and not later than `last`. -/
inductive Left (first last : Nat) (h : List machine.Event) (s : Supervisor) : Prop where
  | nothing (shutDown : ShutDown h s) (current : s.current = none)
  | session (l : Live) (session : s.session = some l) (later : first < l.generation)
      (within : l.generation ≤ last) (status : s.status = .ready) (current : s.current = some l.info)
      (others : ∀ p, Spawned p h → p ≠ l.process → kills p h = 1 ∧ Buried p h)

/-- When nobody is at work, there is a session and its process, or there is nothing. -/
theorem left_of_calm {xs : List Move} (orderly : OrderlyRun xs)
    (calm : (machine.run xs).lock.Calm) {first last : Nat} (since : Since first (machine.run xs))
    (sealed : Sealed last (machine.run xs)) :
    Left first last (machine.history xs) (machine.run xs) := by
  obtain ⟨status, current⟩ := (Affairs.standing_of_calm calm).mp (run_standing orderly).1
  have ward := (ward_of_calm (a := (machine.run xs).affairs) calm).1
  cases session : (machine.run xs).session with
  | none =>
    rw [show (machine.run xs).affairs.session = none from session] at current
    exact .nothing (shutDown_of_calm orderly calm session) current
  | some l =>
    rw [show (machine.run xs).affairs.session = some l from session] at status current ward
    refine .session l session (since.session l session) (sealed.session l session) status current
      fun p spawned other => ?_
    refine orderly.dead spawned ?_
    rw [ward]
    exact fun same => other (Option.some.inj same).symm

/-! ## The law -/

/-- **What comes between is all that a shutdown leaves.** Once a shutdown is done, it has handed the
lock on, in a move `x` at which nothing was left of all that had been before, and it has told the
dispatcher to end, in a later move.

Whenever nobody is at work after that, nothing is left, or one session, of a generation that was
handed out between these two moves, and of all processes only the one of this session. If no
generation was handed out between them, nothing is left.

Whoever submits a request after that is turned away. -/
theorem shutdown_leaves_what_came_between (xs later : List Move) (orderly : OrderlyRun (xs ++ later))
    (id : OperationId) (purpose : (machine.run xs).lock.purpose? id = some .shutdown)
    (result : Result) (done : (machine.run xs).stage? id = some (.done result)) :
    ∃ past x gap seen rest i, xs = past ++ x :: (gap ++ .proceed i seen :: rest) ∧
      HandedOn past x gap i ∧ (machine.run (past ++ x :: gap)).stage? i = some .leaving ∧
      ((machine.run (xs ++ later)).lock.Calm →
        Left (machine.run (past ++ [x])).generation (machine.run (past ++ x :: gap)).generation
            (machine.history (xs ++ later)) (machine.run (xs ++ later)) ∧
          ((machine.run (past ++ x :: gap)).generation = (machine.run (past ++ [x])).generation →
            ShutDown (machine.history (xs ++ later)) (machine.run (xs ++ later)) ∧
              (machine.run (xs ++ later)).current = none)) ∧
      ∀ first request token last, later = first ++ .submit request token :: last →
        TurnedAway (xs ++ first) request token last := by
  obtain ⟨past, x, gap, seen, rest, i, cut, handedOn, leaving, since, sealed⟩ :=
    run_shutDown orderly.shorter id _ done purpose result rfl
  have since := since.append orderly
  have sealed := fun ys (shorter : OrderlyRun (xs ++ ys)) => sealed.append shorter
  refine ⟨past, x, gap, seen, rest, i, cut, handedOn, leaving, fun calm => ?_, ?_⟩
  · have left := left_of_calm orderly calm since (sealed later orderly)
    refine ⟨left, fun none => ?_⟩
    cases left with
    | nothing shutDown current => exact ⟨shutDown, current⟩
    -- its generation would be one of those that were handed out in between
    | session l _ later within => omega
  · rintro first request token last rfl
    rw [← List.append_assoc] at orderly
    exact (sealed first orderly.shorter).turnsAway request token last

/-- A session is shut down while somebody asks for another one. The start has its turn when the lock
is handed on, and has handed its process over when the dispatcher is told to end. -/
def interposedRun : List Move :=
  [.begin .start, .proceed 0 .nothing] ++ launching 0 7 ++
    [ .begin .shutdown, .begin .start, .proceed 1 .nothing, .dispatch fun _ => false,
      .proceed 1 .nothing, .proceed 1 .killed, .proceed 2 .nothing,
      .proceed 2 (.launched (.ok (.default, 8))),
      .proceed 2 (.probed (.answered ⟨"4.2.1", [], false⟩)), .proceed 1 .nothing ]

/-- The dispatcher takes the process, and ends. Then the start is done. -/
def interposedEnd : List Move :=
  [.dispatch fun _ => false, .dispatch fun _ => false, .proceed 2 .nothing]

/-- In this run a start has its turn between the two parts of a shutdown. It leaves a session
behind, and a request that comes later is turned away all the same. -/
theorem interposedRun_leaves_session :
    OrderlyRun (interposedRun ++ (interposedEnd ++ [.submit ⟨"", ["check"], none⟩ 0])) ∧
      (machine.run interposedRun).lock.purpose? 1 = some .shutdown ∧
      (machine.run interposedRun).stage? 1 = some (.done .stopped) ∧
      (∃ first last, first < last ∧
        Left first last
          (machine.history (interposedRun ++ (interposedEnd ++ [.submit ⟨"", ["check"], none⟩ 0])))
          (machine.run (interposedRun ++ (interposedEnd ++ [.submit ⟨"", ["check"], none⟩ 0])))) ∧
      TurnedAway (interposedRun ++ interposedEnd) ⟨"", ["check"], none⟩ 0 [] := by
  have orderly : OrderlyRun
      (interposedRun ++ (interposedEnd ++ [.submit ⟨"", ["check"], none⟩ 0])) := by
    refine orderlyRun_of_keeps ?_
    decide
  obtain ⟨past, x, gap, -, -, i, -, -, -, calm, turnedAway⟩ :=
    shutdown_leaves_what_came_between interposedRun _ orderly 1 rfl .stopped rfl
  obtain ⟨left, -⟩ := calm (Lock.calm_of_free rfl)
  refine ⟨orderly, rfl, rfl, ⟨_, _, ?_, left⟩, turnedAway interposedEnd _ 0 [] rfl⟩
  cases left with
  | nothing shutDown => cases shutDown.session
  | session l _ later within => exact Nat.lt_of_lt_of_le later within

/-- **A shutdown can leave a session behind.** The shutdown and the start are both done, nobody is
at work or waits, and the dispatcher has ended. Still the status is ready, there are facts of a
session, and its process was spawned and never killed. -/
theorem shutdown_leaves_session_behind :
    OrderlyRun (interposedRun ++ interposedEnd) ∧
      (machine.run (interposedRun ++ interposedEnd)).lock.purpose? 1 = some .shutdown ∧
      (∀ id ∈ [0, 1, 2], ∃ result,
        (machine.run (interposedRun ++ interposedEnd)).stage? id = some (.done result)) ∧
      (machine.run (interposedRun ++ interposedEnd)).nextOperation = 3 ∧
      (machine.run (interposedRun ++ interposedEnd)).inbox = [] ∧
      (machine.run (interposedRun ++ interposedEnd)).dispatch.ended = true ∧
      (machine.run (interposedRun ++ interposedEnd)).status = .ready ∧
      (machine.run (interposedRun ++ interposedEnd)).current.isSome = true ∧
      Spawned 1 (machine.history (interposedRun ++ interposedEnd)) ∧
      kills 1 (machine.history (interposedRun ++ interposedEnd)) = 0 := by
  have orderly : OrderlyRun (interposedRun ++ interposedEnd) := by
    refine orderlyRun_of_keeps ?_
    decide
  refine ⟨orderly, rfl, ?_, rfl, rfl, rfl, rfl, rfl, ?_, rfl⟩
  · rintro id (_ | ⟨_, _ | ⟨_, _ | ⟨_, ⟨⟩⟩⟩⟩) <;> exact ⟨_, rfl⟩
  · show Deed.spawned 1 ∈ deeds (outputs (machine.history (interposedRun ++ interposedEnd)))
    decide

end CompilerSession.Supervisor
