import CompilerSession.Proofs.Session.Chronicle
import CompilerSession.Proofs.Session.Processes
import CompilerSession.Proofs.Session.Progress
import CompilerSession.Proofs.Session.Restarts

/-
Shutting down.

A shutdown takes the session down like a stop and hands the lock on, and then it tells the
dispatcher to end. It launches nothing on its way (`Lock.Modest`), so there is no session when it
hands the lock on, and with the invariants that are known already this says the rest: the status is
stopped, and every process was killed and is gone (`ShutDown`).

Between these two moments others may come first: the lock is free and the dispatcher takes orders
still. What comes to be in the gap is of a generation that is handed out in the gap, and no other
session comes to be any more: the command to end stands behind the orders that were given before,
and what comes later stands behind the command (`Sealed`, `Since`). Who launches a process later is
refused, and the process is killed. If no generation was handed out in the gap, there is no session
from then on.
-/

set_option autoImplicit false

namespace CompilerSession.Supervisor

open Dispatch (Loss Effect Settled)

/-! ## The way of a shutdown -/

/-- The operation is about to launch a process, or has launched one. -/
def Stage.launches : Stage → Bool
  | .launching | .probing _ _ | .attaching _ | .attached _ | .refused _ => true
  | _ => false

/-- Who goes on holds the lock still, and who hands it on does not. -/
theorem Lock.Sound.reach_ne_finish {k : Lock} (sound : k.Sound) {id : OperationId}
    (holder : k.holder = some id) {stage last : Stage} (holds : stage.holds = true)
    (isOver : last.over = true) : k.reach id stage ≠ k.finish id last := by
  intro same
  obtain ⟨before, was, -⟩ := (sound.held id).mp holder
  have stages := congrFun (congrArg Lock.stage? same) id
  rw [Lock.stage?_reach _ (by simp [was]), Function.update_self,
    sound.stage?_finish holder] at stages
  obtain rfl := Option.some.inj stages
  rw [(Stage.over_spec isOver).1] at holds
  cases holds

/-- The stage that was reached can be read off the lock. -/
theorem Lock.reach_inj {k : Lock} {id : OperationId} {now now' : Stage}
    (known : k.stage? id ≠ none) (same : k.reach id now = k.reach id now') : now = now' := by
  have stages := congrFun (congrArg Lock.stage? same) id
  rw [Lock.stage?_reach _ known, Lock.stage?_reach _ known, Function.update_self,
    Function.update_self] at stages
  exact Option.some.inj stages

section Modest

variable {a a' : Affairs}

/-- Who did nothing yet launches nothing. -/
theorem launches_of_begun {stage : Stage} (quiet : stage.begun = false) :
    stage.launches = false := by
  cases stage with
  | drawn | waiting | entered => rfl
  | detaching | detached | killing | leaving | done => rfl
  | launching | probing | attaching | attached | refused => cases quiet

/-- An answer makes nobody launch a process. -/
theorem answered_launches {e : Effect} {before after : Stage}
    (h : before.answered e = some after) (modest : before.launches = false) :
    after.launches = false := by
  unfold Stage.answered at h
  split at h
  -- who is to be attached has launched a process, and who is to be detached has not
  · cases modest
  · cases h
    rfl
  · cases modest
  · cases h
    rfl
  · cases h

/-- **A shutdown goes on** without launching anything, or it hands the lock on. Then there is no
session. -/
theorem Advance.modest {o : Operation} {seen : Observation} (rule : Advance a o seen a')
    (purpose : o.purpose = .shutdown) (modest : o.stage.launches = false)
    (phase : a.Phase (some o.stage)) :
    (∃ now, now.launches = false ∧ now.holds = true ∧ a'.lock = a.lock.reach o.id now) ∨
      a'.lock = a.lock.finish o.id .leaving ∧ a'.session = none := by
  have last (b : Affairs) (result : Result) (lock : b.lock = a.lock) :
      (b.finish o result).lock = a.lock.finish o.id .leaving := by
    simp only [Affairs.finish, purpose, Purpose.last, lock]
  cases rule with
  | nothingToStop _ _ session => exact .inr ⟨last _ _ rfl, session⟩
  | stop =>
    rcases lock_order (a := _) o.id _ _ _ with lock | lock
    · exact .inl ⟨_, rfl, rfl, lock⟩
    · exact .inl ⟨_, rfl, rfl, lock⟩
  | tearDown => exact .inl ⟨_, rfl, rfl, rfl⟩
  | stopped _ _ stage | crashed _ _ _ _ stage =>
    rw [stage] at phase
    exact .inr ⟨last _ _ rfl, phase.session⟩
  | launchFailed _ _ stage =>
    rw [stage] at phase
    refine .inr ⟨?_, phase.session⟩
    simp only [Affairs.conclude, purpose]
    exact last _ _ rfl
  -- the rules of other operations, and of operations that launch
  | found _ _ other => cases purpose.symm.trans other
  | launch _ other => cases purpose.symm.trans other
  | coalesce _ _ _ other => cases purpose.symm.trans other
  | restart _ _ _ other => cases purpose.symm.trans other
  | restartAlone _ _ other => cases purpose.symm.trans other
  | crash _ _ _ other => cases purpose.symm.trans other
  | outdated _ _ other => cases purpose.symm.trans other
  | tornDown _ _ _ _ other => cases purpose.symm.trans other
  | unlaunched _ stage | spawned _ _ stage | unfit _ _ _ _ stage | fit _ _ _ stage
  | ready _ stage | refused _ stage =>
    rw [stage] at modest
    cases modest

end Modest

/-- No shutdown launches anything. -/
def Lock.Modest : Lock → Prop :=
  Lock.All fun _ purpose stage => purpose = some .shutdown → stage.launches = false

/-- **No change makes a shutdown launch anything.** -/
theorem Change.modest {a a' : Affairs} {move : Move} (change : Change a move a')
    (sound : a.lock.Sound) (attuned : a.Attuned) (modest : a.lock.Modest) : a'.lock.Modest := by
  refine change.all sound (fun _ _ _ quiet _ => launches_of_begun quiet) modest
    (fun _ _ handled => ?_) (fun o seen now known rule lock holds mine => ?_)
    (fun o _ _ _ _ _ _ => by cases o.purpose <;> rfl) (fun _ _ _ _ _ _ => rfl)
  · rcases handled.lock with same | ⟨asker, e, before, after, stage, answered, lock⟩
    · exact same ▸ modest
    · rw [lock]
      refine modest.reach (by simp [stage]) fun mine => ?_
      exact answered_launches answered (modest asker before stage mine)
  · have stage := Lock.stage?_of_known known
    have holder := rule.holder sound known
    have before := modest o.id o.stage stage ((Lock.purpose?_of_known known).trans mine)
    rcases rule.modest (Option.some.inj mine) before (attuned.phase_at holder stage) with
      ⟨now', quiet, -, lock'⟩ | ⟨lock', -⟩
    · -- the stage that is reached is the one that launches nothing
      exact Lock.reach_inj (by simp [stage]) (lock'.symm.trans lock) ▸ quiet
    · exact absurd (lock.symm.trans lock') (sound.reach_ne_finish holder holds rfl)

/-- In every orderly run, only starts and restarts launch processes. -/
theorem run_modest {xs : List Move} (orderly : OrderlyRun xs) : (machine.run xs).lock.Modest := by
  induction xs using List.reverseRecOn with
  | nil => nofun
  | append_singleton xs x ih =>
    have before := (orderlyRun_concat.mp orderly).1
    exact (event_change orderly).modest (run_inOrder before).sound (run_attuned before) (ih before)

/-! ## What a shutdown leaves -/

/-- **What a shutdown leaves** when it hands the lock on: no session, the status to say so, and all
processes killed and gone. -/
structure ShutDown (h : List machine.Event) (s : Supervisor) : Prop where
  session : s.session = none
  status : s.status = .stopped
  processes : ∀ p, Spawned p h → kills p h = 1 ∧ Buried p h

/-- Without a session nothing is left, when nobody is at work. -/
theorem shutDown_of_calm {xs : List Move} (orderly : OrderlyRun xs)
    (calm : (machine.run xs).lock.Calm) (session : (machine.run xs).session = none) :
    ShutDown (machine.history xs) (machine.run xs) := by
  have rest := (Affairs.phase_of_calm calm).mp (run_attuned orderly).phase
  have status : (machine.run xs).status =
      if (machine.run xs).session.isSome then .ready else .stopped := rest.status
  rw [session] at status
  have nobody : (machine.run xs).affairs.ward = none := by
    rw [(ward_of_calm calm).1, show (machine.run xs).affairs.session = none from session]
    rfl
  exact ⟨session, status, fun p spawned => orderly.dead spawned (by simp [nobody])⟩

/-- **A shutdown that hands the lock on has shut down.** -/
theorem Advance.shutDown {xs : List Move} {x : Move} (orderly : OrderlyRun (xs ++ [x]))
    {o : Operation} {seen : Observation} {result : Result}
    (known : (machine.run xs).affairs.lock.operation? o.id = some o)
    (rule : Advance (machine.run xs).affairs o seen (machine.run (xs ++ [x])).affairs)
    (lock : (machine.run (xs ++ [x])).affairs.lock =
      (machine.run xs).affairs.lock.finish o.id (o.purpose.last result))
    (purpose : o.purpose = .shutdown) :
    ShutDown (machine.history (xs ++ [x])) (machine.run (xs ++ [x])) := by
  have before := (orderlyRun_concat.mp orderly).1
  have sound := (run_inOrder before).sound
  have holder := rule.holder sound known
  have stage := Lock.stage?_of_known known
  have mine : (machine.run xs).lock.purpose? o.id = some .shutdown :=
    purpose ▸ Lock.purpose?_of_known known
  have modest := run_modest before o.id o.stage stage mine
  have phase := (run_attuned before).phase_at holder stage
  have calm : (machine.run (xs ++ [x])).affairs.lock.Calm := lock ▸ sound.calm_finish holder _
  rcases rule.modest purpose modest phase with ⟨now, -, holds, lock'⟩ | ⟨-, session⟩
  · have other := sound.reach_ne_finish holder holds (over_last o.purpose result)
    exact absurd (lock'.symm.trans lock) other
  · exact shutDown_of_calm orderly calm session

/-! ## Behind the command to end -/

/-- The dispatcher takes the command to end before it takes an order to attach a later generation
than `g`. -/
def Barred (g : Nat) (inbox : List Dispatch.Command) : Prop :=
  ∃ first rest, inbox = first ++ .shutdown :: rest ∧
    ∀ g' p asker, .attach g' p asker ∈ first → g' ≤ g

/-- What is barred stays barred when more commands are sent. -/
theorem Barred.mono {g : Nat} {inbox inbox' : List Dispatch.Command} (barred : Barred g inbox)
    (more : inbox <+: inbox') : Barred g inbox' := by
  obtain ⟨first, rest, rfl, older⟩ := barred
  obtain ⟨more, rfl⟩ := more
  exact ⟨first, rest ++ more, by simp, older⟩

section Inbox

variable (s : Supervisor)

/-- A command is put behind the others. -/
theorem inbox_post (c : Dispatch.Command) : s.inbox <+: (s.post c).1.inbox := by
  unfold post
  split
  · exact (inbox_absorb s _).symm ▸ List.prefix_rfl
  · exact List.prefix_append _ _

theorem inbox_release : s.release.1.inbox = s.inbox := by
  unfold release
  split <;> rfl

theorem inbox_finish (o : Operation) (result : Result) :
    s.inbox <+: (s.finish o result).1.inbox := by
  have released : (s.setStage o.id (o.purpose.last result)).release.1.inbox = s.inbox :=
    inbox_release _
  revert released
  unfold finish
  cases o.purpose <;> exact fun released => released ▸ List.prefix_rfl

theorem inbox_leave (o : Operation) : s.inbox <+: (s.leave o).1.inbox :=
  inbox_post (s.setStage o.id (.done .stopped)) _

theorem inbox_conclude (o : Operation) (outcome : Except Failure Info) :
    s.inbox <+: (s.conclude o outcome).1.inbox := by
  cases h : o.purpose with
  | restart =>
    simp only [conclude, h]
    exact inbox_finish { s with lastRestart := some outcome } o _
  | start | stop | shutdown | crash =>
    simp only [conclude, h]
    exact inbox_finish s o _

theorem inbox_fail (o : Operation) (failure : Failure) : s.inbox <+: (s.fail o failure).1.inbox :=
  inbox_conclude (s.setStatus .stopped) o _

theorem inbox_beginTeardown (o : Operation) (l : Live) :
    s.inbox <+: (s.beginTeardown o l).1.inbox :=
  inbox_post ({ s with session := none }.setStage o.id (.detaching l)) _

theorem inbox_entered (o : Operation) : s.inbox <+: (s.entered o).1.inbox := by
  unfold entered
  split
  · split
    · exact inbox_finish s o _
    · exact List.prefix_rfl
  · split
    · exact inbox_beginTeardown (s.setStatus .stopping) o _
    · exact inbox_finish s o _
  · split
    · exact inbox_beginTeardown (s.setStatus .stopping) o _
    · exact inbox_finish s o _
  · split
    · exact inbox_finish s o _
    · simp only
      split
      · exact inbox_beginTeardown ({ s with covered := s.tickets }.setStatus .restarting) o _
      · exact List.prefix_rfl
  · split
    · split
      · exact List.prefix_rfl
      · exact inbox_finish s o _
    · exact inbox_finish s o _

theorem inbox_afterKill (o : Operation) (next : Aftermath) :
    s.inbox <+: (s.afterKill o next).1.inbox := by
  cases next with
  | launchFailed failure => exact inbox_fail s o failure
  | tornDown l =>
    have done := inbox_finish
      (({ s with current := none }.announce (.stopped l.generation)).1.setStatus .stopped) o
      .stopped
    cases h : o.purpose with
    | restart =>
      simp only [afterKill, h]
      exact List.prefix_rfl
    | start | stop | shutdown | crash =>
      simp only [afterKill, h]
      exact done
  | crashed l loss =>
    simp only [afterKill]
    exact inbox_finish (({ s with current := none }.setStatus .stopped).announce _).1 o _

/-- **Operations only send commands**, and take none away. -/
theorem inbox_proceed (id : OperationId) (seen : Observation) :
    s.inbox <+: (s.proceed id seen).1.inbox := by
  unfold proceed
  split
  · exact List.prefix_rfl
  · rename_i o _
    split
    · exact inbox_entered s o
    · exact List.prefix_rfl
    · exact inbox_afterKill s o _
    · rename_i outcome _
      cases outcome with
      | error failure => exact inbox_fail s o failure
      | ok launched => exact List.prefix_rfl
    · unfold afterProbe
      split
      · exact List.prefix_rfl
      · exact inbox_post (setStage { s with generation := s.generation + 1 } o.id _) _
    · rename_i l _
      exact inbox_conclude (({ s with current := some l.info, session := some l }.setStatus
        .ready).announce (.ready l.generation l.version)).1 o _
    · exact List.prefix_rfl
    · exact inbox_leave s o
    · exact List.prefix_rfl

theorem inbox_enter (purpose : Purpose) : (s.enter purpose).inbox = s.inbox := by
  cases h : s.holder <;> simp only [enter, h]

/-- **Commands are only added**, but by the dispatcher itself. -/
theorem inbox_step {move : Move} (other : ∀ fired, move ≠ .dispatch fired) :
    s.inbox <+: (s.step move).1.inbox := by
  cases move with
  | dispatch fired => exact absurd rfl (other fired)
  | submit request token => exact inbox_post { s with nextRequest := s.nextRequest + 1 } _
  | withdraw id => exact inbox_post s _
  | proceed id seen => exact inbox_proceed s id seen
  -- the other moves leave the inbox as it is
  | begin errand =>
    have same : (s.begin errand).inbox = s.inbox := by
      cases errand with
      | start | stop | shutdown => exact s.inbox_enter _
      | restart => exact inbox_enter { s with tickets := s.tickets + 1 } _
    exact same ▸ List.prefix_rfl
  | monitor =>
    have same : s.monitorNext.inbox = s.inbox := by
      unfold monitorNext
      split
      · exact inbox_enter _ _
      · rfl
    exact same ▸ List.prefix_rfl
  | ask id =>
    have same : (s.ask id).inbox = s.inbox := by
      unfold ask
      split <;> rfl
    exact same ▸ List.prefix_rfl
  | answer id result =>
    have same : (s.answer id result).1.inbox = s.inbox := by
      unfold answer
      split
      · rfl
      · split <;> rfl
    exact same ▸ List.prefix_rfl
  | settle id =>
    have same : (s.settle id).1.inbox = s.inbox := by
      unfold settle
      split
      · split <;> rfl
      · rfl
    exact same ▸ List.prefix_rfl
  | abandon id =>
    have same : (s.abandon id).1.inbox = s.inbox := by
      simp only [abandon]
      split
      · exact inbox_release _
      · rfl
    exact same ▸ List.prefix_rfl
  | draw | exit | collect | tick => exact List.prefix_rfl

end Inbox

/-! The dispatcher takes what stands before the command to end, and then it ends. -/

section Dispatcher

variable {s : Supervisor} {a a' : Affairs}

/-- An answer changes neither the session nor the orders. -/
theorem session_reply (a : Affairs) (asker : OperationId) (e : Effect) :
    (a.reply asker e).session = a.session ∧ (a.reply asker e).orders = a.orders := by
  unfold Affairs.reply
  split <;> exact ⟨rfl, rfl⟩

/-- What the dispatcher handles does not change the session. -/
theorem Handled.session (handled : Handled a a') : a'.session = a.session := by
  cases handled with
  | noMatter | lost | closed => rfl
  | attached | detached | refused => exact (session_reply _ _ _).1

/-- Only the answer to an order attaches, and only who waits for it. -/
theorem answered_attached {e : Effect} {before after : Stage} {l : Live}
    (h : before.answered e = some after) (attached : after = .attaching l ∨ after = .attached l) :
    before = .attaching l ∧ ∃ i, e = .attached i := by
  unfold Stage.answered at h
  split at h <;> cases h <;> rcases attached with same | same <;> cases same
  exact ⟨rfl, _, rfl⟩

/-- Who is attached by an answer waited for it. -/
theorem attached_of_reply {asker id : OperationId} {e : Effect} {l : Live}
    (h : (a.reply asker e).lock.stage? id = some (.attached l)) :
    a.lock.stage? id = some (.attached l) ∨
      id = asker ∧ (∃ i, e = .attached i) ∧ a.lock.stage? asker = some (.attaching l) := by
  rcases lock_reply a asker e with same | ⟨before, after, stage, answered, lock⟩
  · exact .inl (same ▸ h)
  rw [lock, Lock.stage?_reach _ (by simp [stage]), Function.update_apply] at h
  split at h
  · obtain ⟨rfl, order⟩ := answered_attached answered (.inr (Option.some.inj h))
    exact .inr ⟨‹_›, order, stage⟩
  · exact .inl h

/-- **Who is attached now** was so before, or the dispatcher took its order. -/
theorem Handled.attached_of (handled : Handled a a') (attuned : a.Attuned) {id : OperationId}
    {l : Live} (h : a'.lock.stage? id = some (.attached l)) :
    a.lock.stage? id = some (.attached l) ∨
      a.lock.stage? id = some (.attaching l) ∧ a.dispatch.ended = false ∧
        a.orders = .attach l.generation l.process id :: a'.orders := by
  cases handled with
  | noMatter | lost | closed => exact .inl h
  | detached | refused =>
    exact (attached_of_reply h).imp_right fun ⟨_, ⟨_, other⟩, _⟩ => nomatch other
  | attached d g p asker rest first live =>
    refine (attached_of_reply h).imp_right ?_
    rintro ⟨rfl, -, stage⟩
    refine ⟨stage, live, ?_⟩
    obtain ⟨l', id', -, rfl, ⟨-, other⟩ | ⟨stage', order⟩⟩ := attuned.ordered first
    · cases other
    · obtain ⟨-, -, rfl⟩ := Dispatch.Command.attach.inj order
      obtain rfl := Stage.attaching.inj (Option.some.inj (stage'.symm.trans stage))
      rw [first, order, (session_reply _ _ _).2]

/-- The dispatcher ends when it takes the command to do so. -/
theorem ended_of_shutdown {rest : List Dispatch.Command} (fired : Token → Bool)
    (h : s.inbox = .shutdown :: rest) : (s.runDispatcher fired).1.dispatch.ended = true := by
  have next : s.nextInput? = some (.command .shutdown, { s with inbox := rest }) := by
    simp only [nextInput?, h]
  have ended : (Dispatch.step fired s.dispatch (.command .shutdown)).1.ended = true := by
    unfold Dispatch.step
    split
    · rename_i ended
      exact ended
    · simp [Dispatch.handle, Dispatch.shutDown]
  simp only [runDispatcher, next]
  have heard := congrArg Affairs.dispatch (affairs_absorb
    { s with inbox := rest, dispatch := (Dispatch.step fired s.dispatch (.command .shutdown)).1 }
    (Dispatch.step fired s.dispatch (.command .shutdown)).2)
  exact (congrArg Dispatch.State.ended (heard.trans (dispatch_hear _ _))).trans ended

end Dispatcher

/-! ## Sealed -/

/-- **No later session than that of generation `g` comes to be any more**: there is none, and
nobody who launched a process for one is to get it. -/
structure Sealed (g : Nat) (s : Supervisor) : Prop where
  session : ∀ l, s.session = some l → l.generation ≤ g
  attached : s.lock.All fun _ _ stage => ∀ l, stage = .attached l → l.generation ≤ g
  barred : s.dispatch.ended = true ∨ Barred g s.inbox

/-- **All sessions are later** than generation `g`, also those that are still to be. -/
structure Since (g : Nat) (s : Supervisor) : Prop where
  session : ∀ l, s.session = some l → g < l.generation
  attaching : s.lock.All fun _ _ stage =>
    ∀ l, stage = .attaching l ∨ stage = .attached l → g < l.generation
  generation : g ≤ s.generation

section Sealed

variable {s : Supervisor} {a a' : Affairs} {o : Operation} {seen : Observation} {g : Nat}

/-- Only who is attached gets a session. -/
theorem Advance.session (rule : Advance a o seen a') {l : Live} (h : a'.session = some l) :
    a.session = some l ∨ o.stage = .attached l := by
  cases rule with
  | ready l' stage => exact .inr (Option.some.inj h ▸ stage)
  | stop | restart =>
    unfold Affairs.order at h
    split at h <;> cases h
  | fit =>
    unfold Affairs.order at h
    split at h <;> exact .inl h
  | crash => cases h
  | found | launch | nothingToStop | coalesce | restartAlone | outdated | tearDown | launchFailed |
      tornDown | stopped | crashed | unlaunched | spawned | unfit | refused =>
    exact .inl h

/-- **A session is new only after it was attached.** -/
theorem Change.session {move : Move} (change : Change a move a') {l : Live}
    (h : a'.session = some l) :
    a.session = some l ∨ ∃ id, a.lock.stage? id = some (.attached l) := by
  cases change with
  | dispatch _ _ handled => exact .inl (handled.session ▸ h)
  | proceed o _ _ known rule =>
    refine (rule.session h).imp_right fun stage => ⟨o.id, ?_⟩
    exact (Lock.stage?_of_known known).trans (congrArg some stage)
  | aside | begin | draw | ask | askInVain | noInput | monitor | noLoss | leave | stuck | collect =>
    exact .inl h

/-- Who goes on is not attached by that, and who hands a process over does so under a generation of
its own. -/
theorem Advance.hands_over {now : Stage} (rule : Advance a o seen a')
    (known : a.lock.stage? o.id ≠ none) (lock : a'.lock = a.lock.reach o.id now)
    (sound : a.lock.Sound) (holder : a.lock.holder = some o.id) (holds : now.holds = true)
    (l : Live) : now ≠ .attached l ∧ (now = .attaching l → a.generation < l.generation) := by
  have reached {now' : Stage} (lock' : a'.lock = a.lock.reach o.id now') : now' = now :=
    Lock.reach_inj known (lock'.symm.trans lock)
  cases rule with
  | found | nothingToStop | coalesce | outdated | launchFailed | stopped | crashed | unlaunched |
      ready =>
    exact absurd lock.symm (sound.reach_ne_finish holder holds (over_last _ _))
  | stop | restart =>
    rcases lock_order (a := _) o.id _ _ _ with lock' | lock'
    · exact reached lock' ▸ ⟨nofun, nofun⟩
    · exact reached lock' ▸ ⟨nofun, nofun⟩
  | fit _ _ l' _ _ _ fresh =>
    rcases lock_order (a := _) o.id _ _ _ with lock' | lock'
    · obtain rfl := reached lock'
      refine ⟨nofun, ?_⟩
      rintro ⟨⟩
      exact fresh ▸ Nat.lt_succ_self _
    · exact reached lock' ▸ ⟨nofun, nofun⟩
  | launch | restartAlone | crash | tearDown | tornDown | spawned | unfit | refused =>
    exact reached rfl ▸ ⟨nofun, nofun⟩

/-- While the lock is calm nobody attaches a session. -/
theorem attached_of_calm {k : Lock} (sound : k.Sound) (calm : k.Calm) {id : OperationId}
    {l : Live} : k.stage? id ≠ some (.attaching l) ∧ k.stage? id ≠ some (.attached l) := by
  have busy {stage : Stage} (known : k.stage? id = some stage) (holds : stage.holds = true)
      (begun : stage ≠ .entered) : False :=
    begun (calm stage ((Lock.at?_of_holder (sound.holder known holds)).trans known))
  exact ⟨fun known => busy known rfl (by rintro ⟨⟩), fun known => busy known rfl (by rintro ⟨⟩)⟩

/-- An order that is taken was the first command of all. -/
theorem taken_first {c order : Dispatch.Command} {rest : List Dispatch.Command}
    (fired : Token → Bool) (inbox : s.inbox = c :: rest)
    (taken : s.affairs.orders = order :: (s.runDispatcher fired).1.affairs.orders) : c = order := by
  have before : s.affairs.orders = (c :: rest).filter isOrder :=
    congrArg (List.filter isOrder) inbox
  have after : (s.runDispatcher fired).1.affairs.orders = rest.filter isOrder :=
    congrArg (List.filter isOrder) (inbox_dispatch fired inbox)
  rw [before, after, List.filter_cons] at taken
  split at taken
  · exact (List.cons.inj taken).1
  · exact absurd taken.symm (List.cons_ne_self _ _)

/-- What the dispatcher takes from a sealed inbox attaches no later generation. -/
theorem Sealed.dispatch (sealed : Sealed g s) (inOrder : InOrder s) (attuned : s.affairs.Attuned)
    (fired : Token → Bool) : Sealed g (s.runDispatcher fired).1 := by
  rcases runDispatcher_handled fired inOrder.settled with same | ⟨handled, -⟩
  · rw [same]
    exact sealed
  · have session : (s.runDispatcher fired).1.session = s.session := handled.session
    -- what has been there before is of no later generation
    refine ⟨session ▸ sealed.session, ?_, ?_⟩
    · rintro id _ known l rfl
      rcases handled.attached_of attuned known with old | ⟨-, live, orders⟩
      · exact sealed.attached id _ old l rfl
      · rcases sealed.barred with ended | ⟨first, rest, inbox, older⟩
        · cases ended.symm.trans live
        · cases first with
          | nil => cases taken_first fired inbox orders
          | cons c first =>
            obtain rfl := taken_first fired inbox orders
            exact older _ _ _ List.mem_cons_self
    · rcases sealed.barred with ended | ⟨first, rest, inbox, older⟩
      · exact .inl (handled.ended ended)
      · cases first with
        | nil => exact .inl (ended_of_shutdown fired inbox)
        | cons c first =>
          refine .inr ⟨first, rest, inbox_dispatch fired inbox, fun g' p asker member => ?_⟩
          exact older g' p asker (List.mem_cons_of_mem _ member)

/-- **What is sealed stays sealed.** -/
theorem Sealed.step {xs : List Move} {x : Move} (orderly : OrderlyRun (xs ++ [x]))
    (sealed : Sealed g (machine.run xs)) : Sealed g (machine.run (xs ++ [x])) := by
  have before := (orderlyRun_concat.mp orderly).1
  have inOrder := run_inOrder before
  -- the dispatcher takes what is barred, and all others add to it from behind
  by_cases dispatches : ∃ fired, x = .dispatch fired
  · obtain ⟨fired, rfl⟩ := dispatches
    rw [machine.run_concat]
    exact sealed.dispatch inOrder (run_attuned before) fired
  · have other (fired : Token → Bool) : x ≠ .dispatch fired := fun h => dispatches ⟨fired, h⟩
    have change := event_change orderly
    refine ⟨fun l hl => ?_, ?_, ?_⟩
    · rcases change.session hl with old | ⟨id, stage⟩
      · exact sealed.session l old
      · exact sealed.attached id _ stage l rfl
    · refine change.all inOrder.sound ?_ sealed.attached
        (fun fired same _ => absurd same (other fired)) ?_
        (fun o _ result _ _ _ l attached => absurd attached (last_ne o.purpose result rfl))
        (fun _ _ _ _ _ => nofun)
      · rintro _ _ _ quiet l rfl
        cases quiet
      · intro o seen now known rule lock holds l attached
        have stage := Lock.stage?_of_known known
        have holder := rule.holder inOrder.sound known
        exact absurd attached
          (rule.hands_over (by simp [stage]) lock inOrder.sound holder holds l).1
    · rcases sealed.barred with ended | barred
      · exact .inl (change.ended ended)
      · refine .inr (barred.mono ?_)
        rw [machine.run_concat]
        exact inbox_step _ other

/-- When nobody is at work and there is no session, all that is to come is later. -/
theorem since_of_calm (sound : s.lock.Sound) (calm : s.lock.Calm) (session : s.session = none) :
    Since s.generation s where
  session := fun l h => by cases session.symm.trans h
  generation := Nat.le_refl _
  attaching := by
    rintro id _ known l (rfl | rfl)
    · exact absurd known (attached_of_calm sound calm).1
    · exact absurd known (attached_of_calm sound calm).2

/-- Generations only grow. -/
theorem Change.generation_le {move : Move} (change : Change a move a') :
    a.generation ≤ a'.generation := by
  cases change with
  | dispatch _ _ handled =>
    cases handled with
    | noMatter | lost | closed => exact Nat.le_refl _
    | attached | detached | refused =>
      unfold Affairs.reply
      split <;> exact Nat.le_refl _
  | proceed _ _ _ _ rule => exact rule.generation_le
  | aside | begin | draw | ask | askInVain | noInput | monitor | noLoss | leave | stuck | collect =>
    exact Nat.le_refl _

/-- **Generations are handed out in order**, so all sessions stay later. -/
theorem Since.step {xs : List Move} {x : Move} (orderly : OrderlyRun (xs ++ [x]))
    (since : Since g (machine.run xs)) : Since g (machine.run (xs ++ [x])) := by
  have sound := (run_inOrder (orderlyRun_concat.mp orderly).1).sound
  have change := event_change orderly
  refine ⟨fun l hl => ?_, ?_, Nat.le_trans since.generation change.generation_le⟩
  · rcases change.session hl with old | ⟨id, stage⟩
    · exact since.session l old
    · exact since.attaching id _ stage l (.inr rfl)
  · refine change.all sound ?_ since.attaching (fun _ _ handled => ?_) ?_ ?_ ?_
    · rintro _ _ _ quiet l (rfl | rfl) <;> cases quiet
    · rcases handled.lock with same | ⟨asker, e, before, after, stage, answered, lock⟩
      · exact same ▸ since.attaching
      · rw [lock]
        have known : (machine.run xs).lock.stage? asker = some before := stage
        refine since.attaching.reach (by simp [known]) fun l attached => ?_
        exact since.attaching asker _ known l (.inl (answered_attached answered attached).1)
    · intro o seen now known rule lock holds l attached
      have stage := Lock.stage?_of_known known
      -- whoever hands its process over has just got the next generation
      obtain ⟨notYet, later⟩ :=
        rule.hands_over (by simp [stage]) lock sound (rule.holder sound known) holds l
      exact Nat.lt_of_le_of_lt since.generation (later (attached.resolve_right notYet))
    · rintro o _ result _ _ _ l (attaching | attached)
      · exact absurd attaching (last_ne o.purpose result rfl)
      · exact absurd attached (last_ne o.purpose result rfl)
    · rintro _ _ _ _ _ l (attaching | attached)
      · cases attaching
      · cases attached

/-- What is sealed stays sealed, however the run goes on. -/
theorem Sealed.append {xs ys : List Move} (orderly : OrderlyRun (xs ++ ys))
    (sealed : Sealed g (machine.run xs)) : Sealed g (machine.run (xs ++ ys)) :=
  orderly.keeps (P := fun zs => Sealed g (machine.run zs))
    (fun now sealed => sealed.step now) sealed

/-- What holds since the shutdown was sent holds on, however the run goes on. -/
theorem Since.append {xs ys : List Move} (orderly : OrderlyRun (xs ++ ys))
    (since : Since g (machine.run xs)) : Since g (machine.run (xs ++ ys)) :=
  orderly.keeps (P := fun zs => Since g (machine.run zs)) (fun now since => since.step now) since

end Sealed

/-! ## What remains of a shutdown -/

/-- **A shutdown on its way out**: after some moves, `x` is the one at which it handed the lock on.
It has left what it is to leave, and all sessions that came to be since are later. -/
structure HandedOn (past : List Move) (x : Move) (gap : List Move) (id : OperationId) : Prop where
  purpose : (machine.run past).lock.purpose? id = some .shutdown
  atWork : ∃ stage, (machine.run past).lock.stage? id = some stage ∧ stage.holds = true
  leaving : (machine.run (past ++ [x])).lock.stage? id = some .leaving
  shutDown : ShutDown (machine.history (past ++ [x])) (machine.run (past ++ [x]))
  since : Since (machine.run (past ++ [x])).generation (machine.run (past ++ x :: gap))

/-- **The supervisor was shut down** in the run: a shutdown has handed the lock on and told the
dispatcher to end. Sessions that came to be since are of generations that were handed out between
these two moments. -/
def WasShutDown (xs : List Move) : Prop :=
  ∃ past x gap seen later id, xs = past ++ x :: (gap ++ .proceed id seen :: later) ∧
    HandedOn past x gap id ∧
    (machine.run (past ++ x :: gap)).lock.stage? id = some .leaving ∧
    Since (machine.run (past ++ [x])).generation (machine.run xs) ∧
    Sealed (machine.run (past ++ x :: gap)).generation (machine.run xs)

/-- **Between the two parts of a shutdown**, one move more keeps what is known of the gap. -/
theorem HandedOn.step {past gap : List Move} {x y : Move} {id : OperationId}
    (handedOn : HandedOn past x gap id) (orderly : OrderlyRun (past ++ x :: gap ++ [y])) :
    HandedOn past x (gap ++ [y]) id := by
  refine ⟨handedOn.purpose, handedOn.atWork, handedOn.leaving, handedOn.shutDown, ?_⟩
  rw [← List.cons_append, ← List.append_assoc]
  exact handedOn.since.step orderly

/-- Whoever is leaving has handed the lock on. -/
theorem run_handedOn {xs : List Move} (orderly : OrderlyRun xs) :
    (machine.run xs).lock.All fun id _ stage => stage = .leaving →
      ∃ past x gap, xs = past ++ x :: gap ∧ HandedOn past x gap id := by
  induction xs using List.reverseRecOn with
  | nil => nofun
  | append_singleton xs x ih =>
    have before := (orderlyRun_concat.mp orderly).1
    have sound := (run_inOrder before).sound
    -- who was leaving before is leaving still, after one move more
    have earlier : (machine.run xs).lock.All fun id _ stage => stage = .leaving →
        ∃ past y gap, xs ++ [x] = past ++ y :: gap ∧ HandedOn past y gap id := by
      intro id stage known leaving
      obtain ⟨past, y, gap, rfl, handedOn⟩ := ih before id stage known leaving
      exact ⟨past, y, gap ++ [x], by simp, handedOn.step orderly⟩
    refine (event_change orderly).all sound ?_ earlier (fun _ _ handled => ?_) ?_ ?_
      (fun _ _ _ _ _ => nofun)
    · rintro _ _ _ quiet rfl
      cases quiet
    · rcases handled.lock with same | ⟨asker, e, _, after, stage, answered, lock⟩
      · exact same ▸ earlier
      · rw [lock]
        refine Lock.All.reach earlier (by simp [stage]) ?_
        rintro rfl
        cases (answered_nears answered none).holds
    · rintro _ _ _ - - - holds rfl
      cases holds
    · intro o seen result known rule lock last
      have holder := rule.holder sound known
      -- among the last stages only that of a shutdown is to leave
      have purpose : o.purpose = .shutdown := by
        cases purpose : o.purpose with
        | shutdown => rfl
        | start | stop | restart | crash =>
          rw [purpose] at last
          cases last
      have shutDown := rule.shutDown orderly known lock purpose
      have calm : (machine.run (xs ++ [x])).affairs.lock.Calm := lock ▸ sound.calm_finish holder _
      refine ⟨xs, x, [], rfl, ?_, ⟨o.stage, Lock.stage?_of_known known, rule.holds⟩, ?_,
        shutDown, ?_⟩
      · exact purpose ▸ Lock.purpose?_of_known known
      · have stages := congrFun (congrArg Lock.stage? lock) o.id
        exact (stages.trans (sound.stage?_finish holder _)).trans (congrArg some last)
      · exact since_of_calm (run_inOrder orderly).sound calm shutDown.session

/-- Everything that was ordered before the command to end is of a generation that was handed out
already. -/
theorem sealed_of_told {xs : List Move} (orderly : OrderlyRun xs) {id : OperationId}
    {seen : Observation} (leaving : (machine.run xs).lock.stage? id = some .leaving) :
    Sealed (machine.run xs).generation (machine.run (xs ++ [.proceed id seen])) := by
  have told := run_told orderly.careful fun _ : True => orderly
  have attuned := run_attuned orderly
  have sound := (run_inOrder orderly).sound
  obtain ⟨o, known, stage⟩ := Option.map_eq_some_iff.mp leaving
  obtain rfl := operation?_id known
  have affairs := proceed_leaving seen known stage
  have proceeded : (machine.run xs).proceed o.id seen = (machine.run xs).leave o := by
    simp only [proceed, show (machine.run xs).operation? o.id = some o from known, stage]
  rw [machine.run_concat]
  generalize machine.run xs = s at *
  -- the session, then whoever is about to open one, then what the dispatcher is still to hear
  refine ⟨fun l hl => ?_, ?_, ?_⟩
  · exact told.session_le ((congrArg Affairs.session affairs).symm.trans hl)
  · have lock : (s.proceed o.id seen).1.lock = s.lock.reach o.id (.done .stopped) :=
      congrArg Affairs.lock affairs
    have attached : s.lock.All fun _ _ stage =>
        ∀ l, stage = .attached l → l.generation ≤ s.generation := by
      rintro id _ at_ l rfl
      exact Nat.le_of_eq (told.chapter (sound.holder at_ rfl) at_).2.2.1
    show (s.proceed o.id seen).1.lock.All _
    rw [lock]
    exact attached.reach (by simp [leaving]) (by rintro l ⟨⟩)
  · show (s.proceed o.id seen).1.dispatch.ended = true ∨ Barred _ (s.proceed o.id seen).1.inbox
    rw [proceeded]
    cases ended : s.dispatch.ended with
    | true => exact .inl ((congrArg (·.dispatch.ended) (s.affairs_leave o)).trans ended)
    | false =>
      refine .inr ⟨s.inbox, [], ?_, fun g' p asker member => ?_⟩
      · simp [leave, post, setStage, ended]
      · -- there is one order at most, that of who holds the lock
        have order : .attach g' p asker ∈ s.affairs.orders := List.mem_filter.mpr ⟨member, rfl⟩
        obtain ⟨c, rest, orders⟩ := List.exists_cons_of_ne_nil (List.ne_nil_of_mem order)
        obtain ⟨l, id, holder, rfl, ⟨-, rfl⟩ | ⟨at_, rfl⟩⟩ := attuned.ordered orders
        · rw [orders] at order
          cases List.mem_singleton.mp order
        · rw [orders] at order
          obtain ⟨rfl, -, -⟩ := Dispatch.Command.attach.inj (List.mem_singleton.mp order)
          exact (attuned.phase_at holder at_).2.2.2.1

/-- A run that was shut down stays so after one move more. -/
theorem WasShutDown.step {xs : List Move} {x : Move} (orderly : OrderlyRun (xs ++ [x]))
    (was : WasShutDown xs) : WasShutDown (xs ++ [x]) := by
  obtain ⟨past, y, gap, seen, later, id, cut, handedOn, leaving, since, sealed⟩ := was
  refine ⟨past, y, gap, seen, later ++ [x], id, ?_, handedOn, leaving, since.step orderly,
    sealed.step orderly⟩
  simp [cut]

/-- **A run that was shut down stays so**, however it goes on. -/
theorem WasShutDown.append {xs ys : List Move} (orderly : OrderlyRun (xs ++ ys))
    (was : WasShutDown xs) : WasShutDown (xs ++ ys) :=
  orderly.keeps (fun now was => was.step now) was

/-- **Whenever a shutdown is done, the supervisor was shut down.** -/
theorem run_shutDown {xs : List Move} (orderly : OrderlyRun xs) :
    (machine.run xs).lock.All fun _ purpose stage =>
      purpose = some .shutdown → ∀ result, stage = .done result → WasShutDown xs := by
  induction xs using List.reverseRecOn with
  | nil => nofun
  | append_singleton xs x ih =>
    have before := (orderlyRun_concat.mp orderly).1
    have change := event_change orderly
    have sound := (run_inOrder before).sound
    have earlier : (machine.run xs).lock.All fun _ purpose stage =>
        purpose = some .shutdown → ∀ result, stage = .done result → WasShutDown (xs ++ [x]) :=
      fun id stage known mine result done =>
        (ih before id stage known mine result done).step orderly
    refine change.all sound ?_ earlier (fun _ _ handled => ?_) ?_ ?_ ?_
    · rintro _ _ _ quiet - result rfl
      cases quiet
    · rcases handled.lock with same | ⟨asker, e, before, after, stage, answered, lock⟩
      · exact same ▸ earlier
      · rw [lock]
        refine Lock.All.reach earlier (by simp [stage]) ?_
        rintro - result rfl
        cases (answered_nears answered none).holds
    · rintro _ _ _ - - - holds - result rfl
      cases holds
    · -- a shutdown is not done yet when it hands the lock on
      rintro o _ _ - - - purpose result last
      rw [Option.some.inj purpose] at last
      cases last
    · rintro id seen rfl leaving - - _ -
      -- it is done when it leaves, and then the command to end has been sent
      obtain ⟨past, y, gap, rfl, handedOn⟩ := run_handedOn before id _ leaving rfl
      refine ⟨past, y, gap, seen, [], id, by simp, handedOn, leaving, ?_,
        sealed_of_told before leaving⟩
      exact handedOn.since.step orderly

/-! Who waits for a shutdown need not know when it was done. -/

/-- The operation was begun for this purpose, and perhaps its result was collected. -/
structure Devoted (s : Supervisor) (id : OperationId) (purpose : Purpose) : Prop where
  given : id < s.nextOperation
  mine : ∀ p, s.lock.purpose? id = some p → p = purpose

section Devoted

variable {xs : List Move} {id : OperationId} {purpose : Purpose}

/-- A shutdown is devoted to its purpose when it begins. -/
theorem devoted_begin (orderly : OrderlyRun xs) :
    Devoted (machine.run (xs ++ [Move.begin .shutdown])) (machine.run xs).nextOperation
      .shutdown := by
  have free := (run_inOrder orderly).sound.fresh _ (Nat.le_refl _)
  have lock : (machine.run (xs ++ [Move.begin .shutdown])).lock =
      (machine.run xs).lock.enter .shutdown := by
    rw [machine.run_concat]
    exact lock_enter _ _
  refine ⟨?_, fun p known => ?_⟩
  · show (machine.run xs).lock.next < (machine.run (xs ++ [Move.begin .shutdown])).lock.next
    rw [lock, Lock.next_enter]
    exact Nat.lt_succ_self _
  · have here : (machine.run (xs ++ [Move.begin .shutdown])).lock.purpose?
        (machine.run xs).lock.next = some .shutdown := by
      rw [lock, Lock.purpose?_enter _ free, Function.update_self]
    exact Option.some.inj (known.symm.trans here)

/-- An operation keeps its purpose as long as it is known. -/
theorem Devoted.step {x : Move} (orderly : OrderlyRun (xs ++ [x]))
    (devoted : Devoted (machine.run xs) id purpose) :
    Devoted (machine.run (xs ++ [x])) id purpose := by
  have before := (orderlyRun_concat.mp orderly).1
  have change := event_change orderly
  refine ⟨Nat.lt_of_lt_of_le devoted.given change.next_le, fun p known => ?_⟩
  rcases change.purpose? (run_inOrder before).sound devoted.given with same | gone
  · exact devoted.mine p (same.symm.trans known)
  · cases gone.symm.trans known

/-- An operation keeps its purpose, however the run goes on. -/
theorem Devoted.append {ys : List Move} (orderly : OrderlyRun (xs ++ ys))
    (devoted : Devoted (machine.run xs) id purpose) :
    Devoted (machine.run (xs ++ ys)) id purpose :=
  orderly.keeps (P := fun zs => Devoted (machine.run zs) id purpose)
    (fun now devoted => devoted.step now) devoted

/-- **Who waited for a shutdown** finds that the supervisor was shut down. -/
theorem Devoted.wasShutDown {result : Result} (orderly : OrderlyRun xs)
    (devoted : Devoted (machine.run xs) id .shutdown)
    (done : (machine.run xs).stage? id = some (.done result)) : WasShutDown xs := by
  obtain ⟨o, known, stage⟩ := Option.map_eq_some_iff.mp done
  have mine := Lock.purpose?_of_known (k := (machine.run xs).lock) known
  refine run_shutDown orderly id _ done ?_ result rfl
  rw [mine, devoted.mine _ mine]

end Devoted

end CompilerSession.Supervisor
