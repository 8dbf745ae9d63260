import CompilerSession.Proofs.Session.Attachment

/-
Nobody waits in vain.

Whatever happened before, an operation that holds the lock can come to its end: either it goes
on as soon as it is told what it waits for, or it waits for the dispatcher, and then its order is
among the commands that the dispatcher takes one after the other. Every step brings it nearer to
its end (`Stage.Nears`). Then the lock is handed on, so who waits for the lock has its turn some
time. No step of the way asks anything of others: the moves are those of the operations
themselves and of the dispatcher.
-/

set_option autoImplicit false

namespace CompilerSession.Supervisor

/-! ## The lock is handed on -/

/-- While somebody waits for the lock, somebody holds it. -/
def Lock.Busy (k : Lock) : Prop :=
  k.holder = none → k.waiting = []

namespace Lock

variable {k : Lock} {id : OperationId}

theorem busy_release : k.release.Busy := by
  cases h : k.waiting with
  | nil =>
    intro free
    simp only [release, h]
  | cons n rest =>
    intro free
    simp only [release, h] at free
    cases free

theorem busy_enter (purpose : Purpose) : (k.enter purpose).Busy := by
  cases h : k.holder <;> simp only [enter, h] <;> intro free
  · cases free
  · cases h.symm.trans free

theorem busy_ask : (k.ask id).Busy := by
  cases h : k.holder <;> simp only [ask, h] <;> intro free <;> cases free

/-- When the holder finishes the first of those who wait has the lock. -/
theorem finish_waiting {n : OperationId} {rest : List OperationId} (last : Stage)
    (h : k.waiting = n :: rest) :
    (k.finish id last).holder = some n ∧ (k.finish id last).waiting = rest := by
  have waiting : (k.reach id last).waiting = n :: rest := h
  simp only [finish, release, waiting]
  exact ⟨rfl, rfl⟩

end Lock

/-- **Nobody waits for a free lock.** -/
theorem Change.busy {a a' : Affairs} {move : Move} (change : Change a move a')
    (busy : a.lock.Busy) : a'.lock.Busy := by
  cases change with
  | aside | askInVain | noInput | noLoss | stuck => exact busy
  | begin | monitor => exact Lock.busy_enter _
  | ask => exact Lock.busy_ask
  | draw | collect | leave => exact busy
  | dispatch _ _ handled =>
    rcases handled.lock with same | ⟨_, _, _, _, -, -, lock⟩
    · exact same ▸ busy
    · exact lock ▸ busy
  | proceed o seen _ known rule =>
    rcases rule.lock with ⟨now, -, lock⟩ | ⟨result, lock⟩
    · exact lock ▸ busy
    · exact lock ▸ Lock.busy_release

/-- In every orderly run, nobody waits for a free lock. -/
theorem run_busy {xs : List Move} (orderly : OrderlyRun xs) : (machine.run xs).lock.Busy := by
  induction xs using List.reverseRecOn with
  | nil => exact fun _ => rfl
  | append_singleton xs x ih =>
    exact (event_change orderly).busy (ih (orderlyRun_concat.mp orderly).1)

/-! ## Who holds the lock goes on -/

/-- Who holds the lock can go on when it is told so, or waits for the dispatcher. -/
theorem Stage.hears {stage : Stage} (holds : stage.holds = true) :
    (∃ seen, stage.goesOn seen = true) ∨ ∃ l, stage = .detaching l ∨ stage = .attaching l := by
  cases stage with
  | drawn | waiting | leaving | done => cases holds
  | entered | detached | attached | refused => exact .inl ⟨.nothing, rfl⟩
  | killing => exact .inl ⟨.killed, rfl⟩
  | launching => exact .inl ⟨.launched (.error .workerClosed), rfl⟩
  | probing => exact .inl ⟨.probed (.answered ⟨"", [], false⟩), rfl⟩
  | detaching l => exact .inr ⟨l, .inl rfl⟩
  | attaching l => exact .inr ⟨l, .inr rfl⟩

/-- An operation that is at a stage comes nearer to its end, and nobody else is touched. -/
def Lock.Nearer (k k' : Lock) (id : OperationId) (stage : Stage) : Prop :=
  (∃ now, stage.Nears now (k.purpose? id) ∧ k' = k.reach id now) ∨
    ∃ last : Stage, last.over = true ∧ k' = k.finish id last

theorem inbox_absorb (s : Supervisor) (es : List Dispatch.Effect) :
    (s.absorb es).1.inbox = s.inbox := by
  induction es generalizing s with
  | nil => rfl
  | cons e es ih =>
    have first : (s.absorbOne e).1.inbox = s.inbox := by
      cases e with
      | resolved | called | lost => rfl
      | attached | detached | refused =>
        simp only [absorbOne]
        split <;> rfl
    exact (ih _).trans first

/-- The dispatcher takes the first command. -/
theorem inbox_dispatch {s : Supervisor} {c : Dispatch.Command} {rest : List Dispatch.Command}
    (fired : Token → Bool) (h : s.inbox = c :: rest) : (s.runDispatcher fired).1.inbox = rest := by
  have next : s.nextInput? = some (.command c, { s with inbox := rest }) := by
    simp only [nextInput?, h]
  simp only [runDispatcher, next]
  exact inbox_absorb _ _

section GoesOn

variable {xs : List Move} {id : OperationId} {stage : Stage}

/-- Where an operation can go on with what it was told, it comes nearer to its end. -/
theorem goes_on_told {seen : Observation} (orderly : OrderlyRun xs)
    (h : (machine.run xs).lock.stage? id = some stage) (holds : stage.holds = true)
    (goes : stage.goesOn seen = true) :
    OrderlyRun (xs ++ [Move.proceed id seen]) ∧
      Lock.Nearer (machine.run xs).lock (machine.run (xs ++ [Move.proceed id seen])).lock id
        stage := by
  have longer : OrderlyRun (xs ++ [Move.proceed id seen]) :=
    orderlyRun_concat.mpr ⟨orderly, trivial⟩
  refine ⟨longer, ?_⟩
  obtain ⟨o, known, rfl⟩ := Option.map_eq_some_iff.mp h
  have change := event_change longer
  generalize ha : (machine.run (xs ++ [Move.proceed id seen])).affairs = a' at change
  have lock : (machine.run (xs ++ [Move.proceed id seen])).lock = a'.lock :=
    congrArg Affairs.lock ha
  rw [lock]
  -- it was told what it waits for, so it is neither stuck nor on its way out
  cases change with
  | aside _ h => cases h
  | stuck _ _ stuck =>
    rw [stuck o known] at goes
    cases goes
  | proceed o' _ _ known' rule =>
    obtain rfl := Option.some.inj (known.symm.trans known')
    have purpose : (machine.run xs).lock.purpose? o.id = some o.purpose := by
      simp [Lock.purpose?, known]
    rcases rule.lock with ⟨now, nears, lock⟩ | ⟨result, lock⟩
    · exact .inl ⟨now, purpose.symm ▸ nears, lock⟩
    · exact .inr ⟨_, over_last _ result, lock⟩
  | leave _ _ leaving =>
    rw [Option.some.inj (h.symm.trans leaving)] at holds
    cases holds

/-- The dispatcher takes one command after the other, until it answers. -/
theorem goes_on_asked (orderly : OrderlyRun xs) (holder : (machine.run xs).lock.holder = some id)
    (h : (machine.run xs).lock.stage? id = some stage)
    (asked : ∃ l, stage = .detaching l ∨ stage = .attaching l) :
    ∃ ys, OrderlyRun (xs ++ ys) ∧
      Lock.Nearer (machine.run xs).lock (machine.run (xs ++ ys)).lock id stage := by
  -- on the commands that are under way; other moves are not needed
  generalize hn : (machine.run xs).inbox = inbox
  induction inbox generalizing xs with
  | nil =>
    -- the order is among the commands
    have phase := (run_attuned orderly).phase_at holder h
    have none : (machine.run xs).affairs.orders = [] := congrArg (List.filter isOrder) hn
    obtain ⟨l, rfl | rfl⟩ := asked
    · obtain ⟨-, ⟨_, -, orders⟩, -⟩ := phase
      cases none.symm.trans orders
    · obtain ⟨-, ⟨_, -, orders⟩, -⟩ := phase
      cases none.symm.trans orders
  | cons c rest ih =>
    have longer : OrderlyRun (xs ++ [Move.dispatch fun _ => false]) :=
      orderlyRun_concat.mpr ⟨orderly, trivial⟩
    have shorter : (machine.run (xs ++ [Move.dispatch fun _ => false])).inbox = rest := by
      rw [machine.run_concat]
      exact inbox_dispatch _ hn
    have change := event_change longer
    -- a command that is not the order of `id` leaves it waiting, with one command less
    have waits
        (same : (machine.run (xs ++ [Move.dispatch fun _ => false])).lock = (machine.run xs).lock) :
        ∃ ys, OrderlyRun (xs ++ ys) ∧
          Lock.Nearer (machine.run xs).lock (machine.run (xs ++ ys)).lock id stage := by
      obtain ⟨ys, orderly', nearer⟩ := ih longer (same ▸ holder) (same ▸ h) shorter
      rw [List.append_assoc] at orderly' nearer
      exact ⟨_, orderly', same ▸ nearer⟩
    generalize ha : (machine.run (xs ++ [Move.dispatch fun _ => false])).affairs = a' at change
    have lock : (machine.run (xs ++ [Move.dispatch fun _ => false])).lock = a'.lock :=
      congrArg Affairs.lock ha
    cases change with
    | aside _ h => cases h
    | noInput => exact waits lock
    | dispatch _ _ handled =>
      rcases handled.lock with same | ⟨asker, e, before, after, stage', answered, now⟩
      · exact waits (lock.trans same)
      · -- only who holds the lock is answered
        have sound := (run_inOrder orderly).sound
        have mine := sound.holder stage' (answered_holds answered).1
        obtain rfl := Option.some.inj (holder.symm.trans mine)
        obtain rfl := Option.some.inj (h.symm.trans stage')
        exact ⟨_, longer, .inl ⟨after, answered_nears answered _, lock.trans now⟩⟩

/-- **Who holds the lock can go on.** -/
theorem goes_on (orderly : OrderlyRun xs) (holder : (machine.run xs).lock.holder = some id)
    (h : (machine.run xs).lock.stage? id = some stage) (holds : stage.holds = true) :
    ∃ ys, OrderlyRun (xs ++ ys) ∧
      Lock.Nearer (machine.run xs).lock (machine.run (xs ++ ys)).lock id stage := by
  rcases Stage.hears holds with ⟨seen, goes⟩ | asked
  · exact ⟨_, goes_on_told orderly h holds goes⟩
  · exact goes_on_asked orderly holder h asked

/-- **Who holds the lock can come to hand it on.** -/
theorem comes_to_end (orderly : OrderlyRun xs) (holder : (machine.run xs).lock.holder = some id) :
    ∃ ys, ∃ last : Stage, last.over = true ∧ OrderlyRun (xs ++ ys) ∧
      (machine.run (xs ++ ys)).lock = (machine.run xs).lock.finish id last := by
  obtain ⟨stage, h, holds⟩ := ((run_inOrder orderly).sound.held id).mp holder
  -- on the stages that it has before it
  induction hn : stage.distance using Nat.strongRecOn generalizing xs stage with
  | ind n ih =>
    obtain ⟨ys, longer, ⟨now, nears, lock⟩ | ⟨last, isOver, lock⟩⟩ := goes_on orderly holder h holds
    · have stage' : (machine.run (xs ++ ys)).lock.stage? id = some now := by
        rw [lock, Lock.stage?_reach _ (by simp [h]), Function.update_self]
      obtain ⟨zs, last, isOver, longer', finished⟩ :=
        ih now.distance (hn ▸ nears.nearer) longer (lock ▸ holder) now stage' nears.holds rfl
      refine ⟨ys ++ zs, last, isOver, List.append_assoc xs ys zs ▸ longer', ?_⟩
      rw [← List.append_assoc, finished, lock, Lock.finish, Lock.finish, Lock.reach_reach]
    · exact ⟨ys, last, isOver, longer, lock⟩

/-- **Who waits for the lock can have its turn.** -/
theorem comes_to_turn {before after : List OperationId} (orderly : OrderlyRun xs)
    (h : (machine.run xs).lock.waiting = before ++ id :: after) :
    ∃ ys, OrderlyRun (xs ++ ys) ∧ (machine.run (xs ++ ys)).lock.holder = some id := by
  -- on those who wait before it: the holder comes to its end, and the queue moves up
  induction before generalizing xs with
  | nil =>
    cases holder : (machine.run xs).lock.holder with
    | none => cases (run_busy orderly holder).symm.trans h
    | some j =>
      obtain ⟨ys, last, -, longer, lock⟩ := comes_to_end orderly holder
      exact ⟨ys, longer, lock ▸ (Lock.finish_waiting last h).1⟩
  | cons n before ih =>
    cases holder : (machine.run xs).lock.holder with
    | none => cases (run_busy orderly holder).symm.trans h
    | some j =>
      obtain ⟨ys, last, -, longer, lock⟩ := comes_to_end orderly holder
      obtain ⟨zs, longer', turn⟩ := ih longer (lock ▸ (Lock.finish_waiting last h).2)
      rw [List.append_assoc] at longer' turn
      exact ⟨_, longer', turn⟩

/-- A shutdown that has handed the lock on can end the dispatcher. -/
theorem leaves (orderly : OrderlyRun xs)
    (h : (machine.run xs).lock.stage? id = some .leaving) :
    OrderlyRun (xs ++ [Move.proceed id .nothing]) ∧
      (machine.run (xs ++ [Move.proceed id .nothing])).lock.stage? id =
        some (.done .stopped) := by
  have longer : OrderlyRun (xs ++ [Move.proceed id .nothing]) :=
    orderlyRun_concat.mpr ⟨orderly, trivial⟩
  refine ⟨longer, ?_⟩
  have change := event_change longer
  generalize ha : (machine.run (xs ++ [Move.proceed id .nothing])).affairs = a' at change
  have lock : (machine.run (xs ++ [Move.proceed id .nothing])).lock = a'.lock :=
    congrArg Affairs.lock ha
  rw [lock]
  -- at this stage it neither holds the lock nor is it stuck
  cases change with
  | aside _ h => cases h
  | stuck _ _ stuck =>
    obtain ⟨o, known, stage⟩ := Option.map_eq_some_iff.mp h
    have goes := stuck o known
    rw [stage] at goes
    cases goes
  | proceed o _ _ known rule =>
    have stage := Option.some.inj (h.symm.trans (Lock.stage?_of_known known))
    have holds := rule.holds
    rw [← stage] at holds
    cases holds
  | leave _ _ leaving =>
    exact (congrFun (Lock.stage?_reach _ (by simp [leaving])) id).trans (Function.update_self ..)

/-- **The holder can come to its end.** -/
theorem holder_can_be_done (orderly : OrderlyRun xs)
    (holder : (machine.run xs).lock.holder = some id) :
    ∃ ys result, OrderlyRun (xs ++ ys) ∧
      (machine.run (xs ++ ys)).lock.stage? id = some (.done result) := by
  obtain ⟨ys, last, isOver, longer, lock⟩ := comes_to_end orderly holder
  have stage : (machine.run (xs ++ ys)).lock.stage? id = some last :=
    lock ▸ (run_inOrder orderly).sound.stage?_finish holder last
  cases last with
  | done result => exact ⟨ys, result, longer, stage⟩
  | leaving =>
    obtain ⟨longer', done⟩ := leaves longer stage
    rw [List.append_assoc] at longer' done
    exact ⟨_, _, longer', done⟩
  | _ => cases isOver

/-- **Whoever waits can come to its end**, after all those before it. -/
theorem waiter_can_be_done (orderly : OrderlyRun xs)
    (waits : id ∈ (machine.run xs).lock.waiting) :
    ∃ ys result, OrderlyRun (xs ++ ys) ∧
      (machine.run (xs ++ ys)).lock.stage? id = some (.done result) := by
  obtain ⟨before, after, queue⟩ := List.append_of_mem waits
  obtain ⟨ys, longer, holder⟩ := comes_to_turn orderly queue
  obtain ⟨zs, result, longer', done⟩ := holder_can_be_done longer holder
  rw [List.append_assoc] at longer' done
  exact ⟨_, result, longer', done⟩

/-- **Nobody waits in vain**: an operation that was begun and is not done can still be done. -/
theorem can_be_done (orderly : OrderlyRun xs)
    (h : (machine.run xs).lock.stage? id = some stage) :
    ∃ ys result, OrderlyRun (xs ++ ys) ∧
      (machine.run (xs ++ ys)).lock.stage? id = some (.done result) := by
  have sound := (run_inOrder orderly).sound
  cases hs : stage with
  | done result => exact ⟨[], result, by rwa [List.append_nil], by rw [List.append_nil, h, hs]⟩
  | waiting => exact waiter_can_be_done orderly ((sound.waits id).mpr (hs ▸ h))
  | leaving => exact ⟨_, _, leaves orderly (hs ▸ h)⟩
  | drawn =>
    -- it asks for the lock first
    have longer : OrderlyRun (xs ++ [Move.ask id]) := orderlyRun_concat.mpr ⟨orderly, trivial⟩
    have change := event_change longer
    generalize ha : (machine.run (xs ++ [Move.ask id])).affairs = a' at change
    have lock : (machine.run (xs ++ [Move.ask id])).lock = a'.lock := congrArg Affairs.lock ha
    have asked : ∃ ys result, OrderlyRun (xs ++ [Move.ask id] ++ ys) ∧
        (machine.run (xs ++ [Move.ask id] ++ ys)).lock.stage? id = some (.done result) := by
      cases change with
      | aside _ h => cases h
      | askInVain _ known => exact absurd (hs ▸ h) known
      | ask =>
        have lock : (machine.run (xs ++ [Move.ask id])).lock = (machine.run xs).lock.ask id := lock
        cases free : (machine.run xs).lock.holder with
        | none =>
          refine holder_can_be_done longer ?_
          simp only [lock, Lock.ask, free]
          rfl
        | some j =>
          refine waiter_can_be_done longer ?_
          simp only [lock, Lock.ask, free]
          exact List.mem_append_right _ List.mem_cons_self
    obtain ⟨ys, result, longer', done⟩ := asked
    rw [List.append_assoc] at longer' done
    exact ⟨_, result, longer', done⟩
  | _ => exact holder_can_be_done orderly ((sound.held id).mpr ⟨stage, h, by rw [hs]; rfl⟩)

end GoesOn

end CompilerSession.Supervisor
