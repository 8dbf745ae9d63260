import CompilerSession.Proofs.Session.Channels

/-
Who looks after a process.

A process is spawned by the operation that launches it, belongs to the session that comes of that,
and is killed by the operation that ends the session, or by the one that launched it in vain. At
every moment there is at most one process that has not been seen to its end: the `ward`. `Tends`
has one rule for each thing that can happen to the ward, with what is done to processes at that
move, and `Custody` is the account that the rules keep: all processes but the ward were killed
once, and their ends awaited, but for those whose operation was given up in the middle
(`GivenUp`).

What the dispatcher has to do with processes is that it calls them. An operation kills only what is
parted from the dispatcher, and stays so (`run_parted`), so a process whose end has begun is never
called again, whatever was given up.
-/

set_option autoImplicit false

namespace CompilerSession.Supervisor

open Dispatch (Loss Effect Input Stimulus Settled)
open Machine (outputs)

/-! ## The ward -/

def Stage.kills : Stage → Bool
  | .killing _ _ => true
  | _ => false

namespace Affairs

/-- **The ward**: the process that the operation at work deals with, or that of the session. -/
def ward (a : Affairs) : Option ProcessId :=
  (a.lock.at?.bind Stage.process?).or (a.session.map (·.process))

/-- The ward was killed, and its end is awaited. -/
def dying (a : Affairs) : Bool :=
  a.lock.at?.any Stage.kills

end Affairs

/-- **What becomes of the ward** at a move. -/
inductive Tends (a : Affairs) : Move → Affairs → List Deed → Prop where
  | keeps (move : Move) (a' : Affairs) (ds : List Deed) (ward : a'.ward = a.ward)
      (dying : a'.dying = a.dying) (spawned : a'.spawned = a.spawned)
      (calls : ∀ d ∈ ds, ∃ y p, d = .called y p) : Tends a move a' ds
  | spawns (id : OperationId) (seen : Observation) (a' : Affairs) (free : a.ward = none)
      (ward : a'.ward = some a.spawned) (alive : a'.dying = false)
      (spawned : a'.spawned = a.spawned + 1) :
      Tends a (.proceed id seen) a' [.spawned a.spawned]
  | kills (id : OperationId) (seen : Observation) (a' : Affairs) (p : ProcessId)
      (was : a.ward = some p) (alive : a.dying = false) (ward : a'.ward = some p)
      (dying : a'.dying = true) (spawned : a'.spawned = a.spawned) :
      Tends a (.proceed id seen) a' [.killing p]
  /-- The end of the ward has come. -/
  | buries (id : OperationId) (a' : Affairs) (p : ProcessId) (next : Aftermath)
      (stage : a.lock.stage? id = some (.killing p next)) (was : a.ward = some p)
      (dying : a.dying = true) (ward : a'.ward = none) (alive : a'.dying = false)
      (spawned : a'.spawned = a.spawned) : Tends a (.proceed id .killed) a' []
  /-- Nobody looks after the ward any more: the operation that did is given up. -/
  | deserts (id : OperationId) (a' : Affairs) (p : ProcessId) (stage : Stage)
      (holder : a.lock.holder = some id) (here : a.lock.stage? id = some stage)
      (mine : stage.process? = some p) (was : a.ward = some p) (ward : a'.ward = none)
      (alive : a'.dying = false) (spawned : a'.spawned = a.spawned) : Tends a (.abandon id) a' []

section Tends

variable {a a' : Affairs}

/-- Nothing is done to the processes. -/
theorem Tends.rest (move : Move) : Tends a move a [] :=
  .keeps move a [] rfl rfl rfl nofun

/-- While the lock is free the ward is the session's process. -/
theorem ward_of_calm (calm : a.lock.Calm) :
    a.ward = a.session.map (·.process) ∧ a.dying = false := by
  unfold Affairs.ward Affairs.dying
  cases h : a.lock.at? with
  | none => exact ⟨rfl, rfl⟩
  | some stage =>
    rw [calm stage h]
    exact ⟨rfl, rfl⟩

/-- The stage of the lock tells the ward, and whether it is dying. -/
theorem ward_of_at {stage : Stage} (h : a.lock.at? = some stage) :
    a.ward = stage.process?.or (a.session.map (·.process)) ∧ a.dying = stage.kills := by
  unfold Affairs.ward Affairs.dying
  rw [h]
  exact ⟨rfl, rfl⟩

/-- The stage of the holder tells the ward, and whether it is dying. -/
theorem ward_of_stage {id : OperationId} {stage : Stage} (holder : a.lock.holder = some id)
    (h : a.lock.stage? id = some stage) :
    a.ward = stage.process?.or (a.session.map (·.process)) ∧ a.dying = stage.kills :=
  ward_of_at ((Lock.at?_of_holder holder).trans h)

/-- Who disturbs nobody at work leaves the ward alone. -/
theorem ward_undisturbed (session : a'.session = a.session)
    (lock : Lock.Undisturbed a.lock a'.lock) : a'.ward = a.ward ∧ a'.dying = a.dying := by
  rcases lock with ⟨-, same⟩ | ⟨calm, calm'⟩
  · unfold Affairs.ward Affairs.dying
    rw [same, session]
    exact ⟨rfl, rfl⟩
  · obtain ⟨ward, dying⟩ := ward_of_calm calm
    obtain ⟨ward', dying'⟩ := ward_of_calm calm'
    exact ⟨by rw [ward', ward, session], by rw [dying', dying]⟩

/-- Who comes to a new stage deals with the process of that. -/
theorem ward_of_reach {id : OperationId} {before now : Stage} (holder : a.lock.holder = some id)
    (stage : a.lock.stage? id = some before) (lock : a'.lock = a.lock.reach id now) :
    a'.ward = now.process?.or (a'.session.map (·.process)) ∧ a'.dying = now.kills :=
  ward_of_at (by rw [lock, Lock.at?_reach stage holder])

/-- Who hands the lock on has nobody but the session to look after the ward. -/
theorem ward_of_finish {id : OperationId} {last : Stage} (sound : a.lock.Sound)
    (holder : a.lock.holder = some id) (lock : a'.lock = a.lock.finish id last) :
    a'.ward = a'.session.map (·.process) ∧ a'.dying = false :=
  ward_of_calm (lock ▸ sound.calm_finish holder last)

/-- An order is about the process of the operation that gives it. -/
theorem ward_order {id : OperationId} {before : Stage} {p : ProcessId}
    (stage : a.lock.stage? id = some before) (holder : a.lock.holder = some id)
    (c : Dispatch.Command) (asked told : Stage)
    (hasked : asked.process? = some p ∧ asked.kills = false)
    (htold : told.process? = some p ∧ told.kills = false) :
    (a.order id c asked told).ward = some p ∧ (a.order id c asked told).dying = false ∧
      (a.order id c asked told).spawned = a.spawned := by
  unfold Affairs.order
  split
  · obtain ⟨ward, dying⟩ := ward_of_at (a := { a with lock := a.lock.reach id told })
      (Lock.at?_reach stage holder)
    exact ⟨by rw [ward, htold.1]; rfl, dying.trans htold.2, rfl⟩
  · obtain ⟨ward, dying⟩ := ward_of_at
      (a := { a with lock := a.lock.reach id asked, orders := a.orders ++ [c] })
      (Lock.at?_reach stage holder)
    exact ⟨by rw [ward, hasked.1]; rfl, dying.trans hasked.2, rfl⟩

/-- An operation that deals with no process may come to another such stage. -/
theorem Tends.go_on {id : OperationId} {seen : Observation} {before now : Stage}
    (holder : a.lock.holder = some id) (stage : a.lock.stage? id = some before)
    (lock : a'.lock = a.lock.reach id now) (session : a'.session = a.session)
    (spawned : a'.spawned = a.spawned)
    (same : now.process? = before.process? ∧ now.kills = before.kills) :
    Tends a (.proceed id seen) a' [] := by
  obtain ⟨ward, dying⟩ := ward_of_stage holder stage
  obtain ⟨ward', dying'⟩ := ward_of_reach holder stage lock
  exact .keeps _ _ [] (by rw [ward', ward, same.1, session]) (by rw [dying', dying, same.2]) spawned
    (List.forall_mem_nil _)

/-- An operation that deals with no process may hand the lock on. -/
theorem Tends.hand_on {id : OperationId} {seen : Observation} {before last : Stage}
    (sound : a.lock.Sound) (holder : a.lock.holder = some id)
    (stage : a.lock.stage? id = some before) (lock : a'.lock = a.lock.finish id last)
    (session : a'.session = a.session) (spawned : a'.spawned = a.spawned)
    (idle : before.process? = none ∧ before.kills = false) :
    Tends a (.proceed id seen) a' [] := by
  obtain ⟨ward, dying⟩ := ward_of_stage holder stage
  obtain ⟨ward', dying'⟩ := ward_of_finish sound holder lock
  exact .keeps _ _ [] (by rw [ward', ward, idle.1, session, Option.none_or])
    (by rw [dying', dying, idle.2]) spawned (List.forall_mem_nil _)

/-- The ward may be killed. -/
theorem Tends.strike {id : OperationId} {seen : Observation} {before : Stage} {p : ProcessId}
    {next : Aftermath} (holder : a.lock.holder = some id) (stage : a.lock.stage? id = some before)
    (lock : a'.lock = a.lock.reach id (.killing p next)) (was : a.ward = some p)
    (alive : a.dying = false) (spawned : a'.spawned = a.spawned) :
    Tends a (.proceed id seen) a' [.killing p] := by
  obtain ⟨ward', dying'⟩ := ward_of_reach holder stage lock
  exact .kills id seen _ p was alive ward' dying' spawned

/-- **An operation tends the ward.** -/
theorem Advance.tends {o : Operation} {seen : Observation} {heard : List (Nat × ProcessId)}
    (rule : Advance a o seen a') (sound : a.lock.Sound)
    (known : a.lock.operation? o.id = some o) (bonds : a.Bonds heard) :
    Tends a (.proceed o.id seen) a' (o.deeds seen a.session a.spawned) := by
  have stage := Lock.stage?_of_known known
  have holder := rule.holder sound known
  have knows : a.Knows heard (some o.stage) := bonds.knows_at holder stage
  obtain ⟨ward, dying⟩ := ward_of_stage holder stage
  have reach {now : Stage} (lock : a'.lock = a.lock.reach o.id now) :=
    ward_of_reach holder stage lock
  have finish {last : Stage} (lock : a'.lock = a.lock.finish o.id last) :=
    ward_of_finish sound holder lock
  have keeps (none : o.deeds seen a.session a.spawned = []) (ward : a'.ward = a.ward)
      (dying : a'.dying = a.dying) (spawned : a'.spawned = a.spawned) :
      Tends a (.proceed o.id seen) a' (o.deeds seen a.session a.spawned) := by
    rw [none]
    exact .keeps _ _ [] ward dying spawned nofun
  cases rule with
  | found l hs purpose | coalesce _ _ hs purpose =>
    have deeds : o.deeds seen a.session a.spawned = [] := by simp [Operation.deeds, hs, purpose]
    rw [deeds]
    exact .hand_on sound holder stage rfl rfl rfl (hs ▸ ⟨rfl, rfl⟩)
  | nothingToStop hs purpose =>
    have deeds : o.deeds seen a.session a.spawned = [] := by
      rcases purpose with purpose | purpose <;> simp [Operation.deeds, hs, purpose]
    rw [deeds]
    exact .hand_on sound holder stage rfl rfl rfl (hs ▸ ⟨rfl, rfl⟩)
  | outdated loss hs purpose other =>
    have deeds : o.deeds seen a.session a.spawned = [] := by
      simp only [Operation.deeds, hs, purpose]
      cases session : a.session with
      | none => rfl
      | some l => exact if_neg (other l session)
    rw [deeds]
    exact .hand_on sound holder stage rfl rfl rfl (hs ▸ ⟨rfl, rfl⟩)
  | unlaunched failure hs told =>
    have deeds : o.deeds seen a.session a.spawned = [] := by simp [Operation.deeds, hs, told]
    rw [deeds]
    exact .hand_on sound holder stage rfl rfl rfl (hs ▸ ⟨rfl, rfl⟩)
  | launch hs purpose | restartAlone _ hs purpose =>
    have deeds : o.deeds seen a.session a.spawned = [] := by simp [Operation.deeds, hs, purpose]
    rw [deeds]
    exact .go_on holder stage rfl rfl rfl (hs ▸ ⟨rfl, rfl⟩)
  | ready l hs =>
    -- the process is that of the session from now on
    rw [hs] at ward dying
    obtain ⟨ward', dying'⟩ := finish rfl
    exact keeps (by simp [Operation.deeds, hs]) (ward'.trans ward.symm)
      (dying'.trans dying.symm) rfl
  | stop l hs purpose session =>
    rw [hs] at ward dying
    rw [session] at ward
    obtain ⟨ward', dying', spawned⟩ := ward_order
      (a := { a.setStatus .stopping with session := none }) stage holder
      (.detach l.generation o.id) (.detaching l) (.detached l) ⟨rfl, rfl⟩ ⟨rfl, rfl⟩
    refine keeps ?_ (ward'.trans ward.symm) (dying'.trans dying.symm) spawned
    rcases purpose with purpose | purpose <;> simp [Operation.deeds, hs, purpose]
  | restart ticket l hs purpose uncovered session =>
    rw [hs] at ward dying
    rw [session] at ward
    obtain ⟨ward', dying', spawned⟩ := ward_order
      (a := { a.setStatus .restarting with covered := a.tickets, session := none })
      stage holder (.detach l.generation o.id) (.detaching l) (.detached l) ⟨rfl, rfl⟩ ⟨rfl, rfl⟩
    exact keeps (by simp [Operation.deeds, hs, purpose]) (ward'.trans ward.symm)
      (dying'.trans dying.symm) spawned
  | crash loss l hs purpose session same =>
    have deeds : o.deeds seen a.session a.spawned = [.killing l.process] := by
      simp [Operation.deeds, hs, purpose, session, same]
    rw [hs] at ward dying
    rw [session] at ward
    rw [deeds]
    exact .strike holder stage rfl ward dying rfl
  | tearDown l hs | refused l hs =>
    have deeds : o.deeds seen a.session a.spawned = [.killing l.process] := by
      simp [Operation.deeds, hs]
    rw [hs] at ward dying
    rw [deeds]
    exact .strike holder stage rfl ward dying rfl
  | unfit p toolchain outcome failure hs told verdict =>
    have deeds : o.deeds seen a.session a.spawned = [.killing p] := by
      simp [Operation.deeds, hs, told, verdict]
    rw [hs] at ward dying
    rw [deeds]
    exact .strike holder stage rfl ward dying rfl
  | launchFailed p _ hs killed | stopped p _ hs _ killed | crashed p _ _ _ hs killed =>
    subst killed
    have deeds : o.deeds .killed a.session a.spawned = [] := by
      simp [Operation.deeds, hs]
    rw [hs] at ward dying knows
    obtain ⟨ward', dying'⟩ := finish rfl
    have none : a.session = none := knows.1
    rw [deeds]
    refine .buries o.id _ p _ (hs ▸ stage) ward dying (ward'.trans ?_) dying' rfl
    exact Option.map_eq_none_iff.mpr none
  | tornDown p l ticket hs purpose killed =>
    subst killed
    have deeds : o.deeds .killed a.session a.spawned = [] := by
      simp [Operation.deeds, hs]
    rw [hs] at ward dying knows
    obtain ⟨ward', dying'⟩ := reach rfl
    have none : a.session = none := knows.1
    rw [deeds]
    refine .buries o.id _ p _ (hs ▸ stage) ward dying (ward'.trans ?_) dying' rfl
    exact Option.map_eq_none_iff.mpr none
  | spawned toolchain pid hs told =>
    have deeds : o.deeds seen a.session a.spawned = [.spawned a.spawned] := by
      simp [Operation.deeds, hs, told]
    rw [hs] at ward dying knows
    obtain ⟨ward', dying'⟩ := reach rfl
    have none : a.session = none := knows
    rw [deeds]
    refine .spawns o.id seen _ (ward.trans ?_) ward' dying' rfl
    rw [none]
    rfl
  | fit toolchain outcome l hs told verdict fresh =>
    rw [hs] at ward dying
    obtain ⟨ward', dying', spawned⟩ := ward_order (a := { a with generation := l.generation })
      stage holder (.attach l.generation l.process o.id) (.attaching l) (.refused l) ⟨rfl, rfl⟩
      ⟨rfl, rfl⟩
    exact keeps (by simp [Operation.deeds, hs, told, verdict]) (ward'.trans ward.symm)
      (dying'.trans dying.symm) spawned

/-- An answer changes neither the process nor its fate. -/
theorem answered_process {e : Effect} {before after : Stage}
    (h : before.answered e = some after) :
    after.process? = before.process? ∧ after.kills = before.kills := by
  unfold Stage.answered at h
  split at h <;> cases h <;> exact ⟨rfl, rfl⟩

/-- The dispatcher leaves the ward alone. -/
theorem Handled.ward (handled : Handled a a') (sound : a.lock.Sound) :
    a'.ward = a.ward ∧ a'.dying = a.dying ∧ a'.spawned = a.spawned := by
  have same : a'.session = a.session ∧ a'.spawned = a.spawned := by
    cases handled with
    | noMatter | lost | closed => exact ⟨rfl, rfl⟩
    | attached | detached | refused =>
      unfold Affairs.reply
      split <;> exact ⟨rfl, rfl⟩
  rcases handled.lock with lock | ⟨asker, e, before, after, hb, answered, lock⟩
  · obtain ⟨ward, dying⟩ := ward_undisturbed same.1 (.inl ⟨by rw [lock], by rw [lock]⟩)
    exact ⟨ward, dying, same.2⟩
  · -- the operation that is answered deals with the same process before and after
    have holder := sound.holder hb (answered_holds answered).1
    obtain ⟨ward, dying⟩ := ward_of_stage holder hb
    obtain ⟨ward', dying'⟩ := ward_of_at (a := a') (lock ▸ Lock.at?_reach hb holder)
    obtain ⟨process, kills⟩ := answered_process answered
    exact ⟨by rw [ward', ward, process, same.1], by rw [dying', dying, kills], same.2⟩

/-- Only operations take a process up or give it away. -/
theorem Change.ward {move : Move} (change : Change a move a') (sound : a.lock.Sound)
    (collects : ∀ id, move = .collect id → a.lock.Done id)
    (other : ∀ id seen, move ≠ .proceed id seen) :
    a'.ward = a.ward ∧ a'.dying = a.dying ∧ a'.spawned = a.spawned := by
  have undisturbed (session : a'.session = a.session) (spawned : a'.spawned = a.spawned)
      (lock : Lock.Undisturbed a.lock a'.lock) :
      a'.ward = a.ward ∧ a'.dying = a.dying ∧ a'.spawned = a.spawned := by
    obtain ⟨ward, dying⟩ := ward_undisturbed session lock
    exact ⟨ward, dying, spawned⟩
  cases change with
  | aside | askInVain | noInput | noLoss | stuck => exact ⟨rfl, rfl, rfl⟩
  | proceed o seen => exact absurd rfl (other o.id seen)
  | leave id seen => exact absurd rfl (other id seen)
  | dispatch _ _ handled => exact handled.ward sound
  | begin | monitor => exact undisturbed rfl rfl (sound.undisturbed_enter _)
  | draw => exact undisturbed rfl rfl (sound.undisturbed_add _ _)
  | ask id drawn => exact undisturbed rfl rfl (sound.undisturbed_ask drawn)
  | collect id => exact undisturbed rfl rfl (sound.undisturbed_drop (collects id rfl))

/-- An operation that does not go on does nothing. -/
theorem deeds_stuck {o : Operation} {seen : Observation} (stuck : o.stage.goesOn seen = false)
    (session : Option Live) (next : ProcessId) : o.deeds seen session next = [] := by
  unfold Operation.deeds
  cases h : o.stage <;> cases seen <;> simp_all [Stage.goesOn]

/-- **An operation that goes on tends the processes**, one case for each rule. -/
theorem proceed_tends {s : Supervisor} {heard : List (Nat × ProcessId)} (inOrder : InOrder s)
    (bonds : s.affairs.Bonds heard) (id : OperationId) (seen : Observation) :
    Tends s.affairs (.proceed id seen) (s.proceed id seen).1.affairs
      (deeds (s.proceed id seen).2) := by
  cases h : s.operation? id with
  | none =>
    simp only [proceed, h]
    exact Tends.rest _
  | some o =>
    obtain rfl := operation?_id h
    rw [(proceed_does s h seen).deeds]
    by_cases leaving : o.stage = .leaving
    · -- the ward is nobody's concern who has handed the lock on
      have known : s.affairs.lock.stage? o.id = some .leaving := leaving ▸ Lock.stage?_of_known h
      have none : o.deeds seen s.session s.processes.length = [] := by
        simp [Operation.deeds, leaving]
      rw [proceed_leaving seen h leaving, none]
      have same : (s.affairs.leave o.id).ward = s.affairs.ward ∧
          (s.affairs.leave o.id).dying = s.affairs.dying :=
        ward_undisturbed rfl (inOrder.sound.undisturbed_over known rfl)
      exact .keeps _ _ [] same.1 same.2 rfl (List.forall_mem_nil _)
    rcases proceed_advance seen h leaving with ⟨stuck, same⟩ | rule
    · rw [same, deeds_stuck stuck]
      exact Tends.rest _
    · exact rule.tends inOrder.sound h bonds

/-- **Who is given up deserts the ward**, if it had one to look after. -/
theorem forsake_tends {heard : List (Nat × ProcessId)} (sound : a.lock.Sound)
    (bonds : a.Bonds heard) (id : OperationId) :
    Tends a (.abandon id) { a with lock := a.lock.forsake id } [] := by
  have keeps (same : Affairs.ward { a with lock := a.lock.forsake id } = a.ward ∧
      Affairs.dying { a with lock := a.lock.forsake id } = a.dying) :
      Tends a (.abandon id) { a with lock := a.lock.forsake id } [] :=
    .keeps _ _ [] same.1 same.2 rfl (List.forall_mem_nil _)
  -- only whoever holds the lock has somebody to look after
  rcases sound.forsake_calm id with undisturbed | ⟨holder, calm⟩
  · exact keeps (ward_undisturbed rfl undisturbed)
  obtain ⟨stage, here, -⟩ := (sound.held id).mp holder
  obtain ⟨ward, dying⟩ := ward_of_stage holder here
  obtain ⟨ward', dying'⟩ :=
    ward_of_calm (a := { a with lock := a.lock.forsake id }) calm
  have knows := bonds.knows_at holder here
  cases mine : stage.process? with
  | none =>
    rw [mine] at ward
    refine keeps ⟨ward'.trans ward.symm, dying'.trans (dying.trans ?_).symm⟩
    cases stage with
    | killing => cases mine
    | _ => rfl
  | some p =>
    rw [mine] at ward
    have alone : a.session = none := knows.alone mine
    refine .deserts id _ p stage holder here mine ward (ward'.trans ?_) dying' rfl
    exact Option.map_eq_none_iff.mpr alone

end Tends

/-- **Every move tends the ward**, also when operations are given up. -/
theorem event_tends {xs : List Move} {x : Move} (careful : CarefulRun (xs ++ [x])) :
    Tends (machine.run xs).affairs x (machine.run (xs ++ [x])).affairs
      (deeds (machine.step (machine.run xs) x).2) := by
  have before := (carefulRun_concat.mp careful).1
  have inOrder := before.inOrder
  by_cases operation : ∃ id seen, x = .proceed id seen
  · obtain ⟨id, seen, rfl⟩ := operation
    rw [machine.run_concat]
    exact proceed_tends inOrder (run_bonds before) id seen
  have other : ∀ id seen, x ≠ .proceed id seen := fun id seen h => operation ⟨id, seen, h⟩
  have calls := (step_flow ⟨machine.run xs, x⟩).calls_only other
  rcases careful.change with ⟨id, rfl, affairs⟩ | ⟨change, collects⟩
  · -- giving up does nothing to processes
    have none : deeds (machine.step (machine.run xs) (.abandon id)).2 = [] :=
      (plain_abandon (machine.run xs) id).deeds
    rw [none, affairs]
    exact forsake_tends inOrder.sound (run_bonds before) id
  · obtain ⟨ward, dying, spawned⟩ := change.ward inOrder.sound collects other
    exact .keeps x _ _ ward dying spawned calls

/-! ## The account -/

/-- How often a process was killed. -/
def kills (p : ProcessId) (h : List machine.Event) : Nat :=
  (deeds (outputs h)).count (.killing p)

/-- The process was spawned. -/
def Spawned (p : ProcessId) (h : List machine.Event) : Prop :=
  .spawned p ∈ deeds (outputs h)

/-- The process was killed, and it is gone. -/
def Buried (p : ProcessId) (h : List machine.Event) : Prop :=
  ∃ e ∈ h, ∃ id next, e.action = .proceed id .killed ∧
    e.before.stage? id = some (.killing p next)

/-- The operation that dealt with the process was given up, in the middle of that. -/
def GivenUp (p : ProcessId) (h : List machine.Event) : Prop :=
  ∃ e ∈ h, ∃ id stage, e.action = .abandon id ∧ e.before.holder = some id ∧
    e.before.stage? id = some stage ∧ stage.process? = some p

/-- **The account of all processes.** Each was killed once and is gone, or its operation was given
up, but for the ward, which was killed once if it is dying and not at all otherwise. -/
structure Custody (h : List machine.Event) (a : Affairs) : Prop where
  spawned : ∀ p, Spawned p h ↔ p < a.spawned
  ward : ∀ p, a.ward = some p → p < a.spawned
  unborn : ∀ p, a.spawned ≤ p → kills p h = 0
  once : ∀ p, kills p h ≤ 1
  alive : ∀ p, a.ward = some p → kills p h = if a.dying then 1 else 0
  dead : ∀ p, p < a.spawned → a.ward ≠ some p → GivenUp p h ∨ kills p h = 1 ∧ Buried p h

theorem kills_concat (p : ProcessId) (h : List machine.Event) (e : machine.Event) :
    kills p (h ++ [e]) = kills p h + (deeds e.outputs).count (.killing p) := by
  rw [kills, Machine.outputs_append, Machine.outputs_singleton, deeds_append, List.count_append]
  rfl

theorem spawned_concat (p : ProcessId) (h : List machine.Event) (e : machine.Event) :
    Spawned p (h ++ [e]) ↔ Spawned p h ∨ .spawned p ∈ deeds e.outputs := by
  rw [Spawned, Machine.outputs_append, Machine.outputs_singleton, deeds_append, List.mem_append]
  rfl

theorem Buried.append {p : ProcessId} {h : List machine.Event} (buried : Buried p h)
    (e : machine.Event) : Buried p (h ++ [e]) := by
  obtain ⟨f, hf, rest⟩ := buried
  exact ⟨f, List.mem_append_left _ hf, rest⟩

theorem GivenUp.append {p : ProcessId} {h : List machine.Event} (givenUp : GivenUp p h)
    (e : machine.Event) : GivenUp p (h ++ [e]) := by
  obtain ⟨f, hf, rest⟩ := givenUp
  exact ⟨f, List.mem_append_left _ hf, rest⟩

/-- In an orderly run nothing is given up. -/
theorem not_givenUp {xs : List Move} (orderly : OrderlyRun xs) (p : ProcessId) :
    ¬ GivenUp p (machine.history xs) := by
  rintro ⟨e, he, id, stage, action, -⟩
  have kept := orderly e he
  rw [action] at kept
  exact kept

/-- Who is not killed now was killed as often before. -/
theorem kills_spared {p : ProcessId} (h : List machine.Event) {e : machine.Event}
    (spared : .killing p ∉ deeds e.outputs) : kills p (h ++ [e]) = kills p h := by
  rw [kills_concat, List.count_eq_zero.mpr spared]
  rfl

section Custody

variable {h : List machine.Event} {e : machine.Event} {a a' : Affairs}

/-- What is gone stays gone, if it is not killed again. -/
theorem Custody.stays_dead (custody : Custody h a) {p : ProcessId} (born : p < a.spawned)
    (other : a.ward ≠ some p) (spared : .killing p ∉ deeds e.outputs) :
    GivenUp p (h ++ [e]) ∨ kills p (h ++ [e]) = 1 ∧ Buried p (h ++ [e]) := by
  rcases custody.dead p born other with givenUp | ⟨once, buried⟩
  · exact .inl (givenUp.append e)
  · exact .inr ⟨(kills_spared h spared).trans once, buried.append e⟩

/-- **Where nobody is spawned or killed** the account is kept, if it is told what has become of a
ward that there was and is no more. -/
theorem Custody.unhurt (custody : Custody h a) (unborn : ∀ p, .spawned p ∉ deeds e.outputs)
    (spared : ∀ p, .killing p ∉ deeds e.outputs) (spawned : a'.spawned = a.spawned)
    (ward : ∀ p, a'.ward = some p → a.ward = some p ∧ a'.dying = a.dying)
    (left : ∀ p, a.ward = some p → a'.ward ≠ some p →
      GivenUp p (h ++ [e]) ∨ kills p (h ++ [e]) = 1 ∧ Buried p (h ++ [e])) :
    Custody (h ++ [e]) a' := by
  constructor
  case spawned =>
    intro p
    rw [spawned_concat, spawned, custody.spawned p]
    exact or_iff_left (unborn p)
  case ward =>
    intro p mine
    exact spawned ▸ custody.ward p (ward p mine).1
  case unborn =>
    intro p late
    rw [kills_spared h (spared p), custody.unborn p (spawned ▸ late)]
  case once =>
    intro p
    rw [kills_spared h (spared p)]
    exact custody.once p
  case alive =>
    intro p mine
    obtain ⟨was, dying⟩ := ward p mine
    rw [kills_spared h (spared p), dying, custody.alive p was]
  case dead =>
    intro p born other
    by_cases was : a.ward = some p
    · exact left p was other
    · exact custody.stays_dead (spawned ▸ born) was (spared p)

/-- **Whoever tends the ward keeps the account.** -/
theorem Custody.step (custody : Custody h a) (before : e.before.affairs = a)
    (tends : Tends a e.action a' (deeds e.outputs)) : Custody (h ++ [e]) a' := by
  have births (p : ProcessId) := spawned_concat p h e
  have counts (p : ProcessId) := kills_concat p h e
  have unhurt := @Custody.unhurt h e a a' custody
  have stays := @Custody.stays_dead h e a custody
  generalize action : e.action = move at tends
  generalize deeds e.outputs = ds at births counts unhurt stays tends
  cases tends with
  | keeps _ _ _ ward dying spawned calls =>
    refine unhurt (fun p member => ?_) (fun p member => ?_) spawned
      (fun p mine => ⟨ward ▸ mine, dying⟩) fun p was other => absurd (ward.trans was) other
    all_goals
      obtain ⟨y, q, same⟩ := calls _ member
      cases same
  | spawns id seen _ free ward alive spawned =>
    have spared (p : ProcessId) : kills p (h ++ [e]) = kills p h := counts p
    constructor
    case spawned =>
      intro p
      rw [births, spawned, custody.spawned p, List.mem_singleton, Deed.spawned.injEq]
      exact Nat.lt_succ_iff_lt_or_eq.symm
    case ward =>
      intro p mine
      obtain rfl := Option.some.inj (ward.symm.trans mine)
      exact spawned ▸ Nat.lt_succ_self _
    case unborn =>
      intro p late
      rw [spared, custody.unborn p (by omega)]
    case once =>
      intro p
      rw [spared]
      exact custody.once p
    case alive =>
      intro p mine
      obtain rfl := Option.some.inj (ward.symm.trans mine)
      rw [spared, custody.unborn _ (Nat.le_refl _), alive]
      rfl
    case dead =>
      intro p born other
      have different : p ≠ a.spawned := by
        rintro rfl
        exact other ward
      rw [spawned] at born
      have older : p < a.spawned := Nat.lt_of_le_of_ne (Nat.le_of_lt_succ born) different
      exact stays older (by simp [free]) (by simp)
  | kills id seen _ p was alive ward dying spawned =>
    have struck : kills p (h ++ [e]) = 1 := by
      rw [counts, custody.alive p was, alive, List.count_singleton_self]
      rfl
    have spared {q : ProcessId} (other : q ≠ p) : kills q (h ++ [e]) = kills q h := by
      rw [counts, List.count_eq_zero.mpr (by simpa using other)]
      rfl
    constructor
    case spawned =>
      intro q
      rw [births, spawned, custody.spawned q]
      exact or_iff_left (by simp)
    case ward =>
      rw [ward, spawned, ← was]
      exact custody.ward
    case unborn =>
      intro q late
      have unborn : a.spawned ≤ q := spawned ▸ late
      rw [spared (Nat.ne_of_gt (Nat.lt_of_lt_of_le (custody.ward p was) unborn)),
        custody.unborn q unborn]
    case once =>
      intro q
      by_cases same : q = p
      · exact Nat.le_of_eq (same ▸ struck)
      · rw [spared same]
        exact custody.once q
    case alive =>
      intro q mine
      obtain rfl := Option.some.inj (ward.symm.trans mine)
      rw [struck, dying]
      rfl
    case dead =>
      intro q born other
      have different : q ≠ p := fun same => other (same ▸ ward)
      exact stays (spawned ▸ born) (by rw [was, ← ward]; exact other) (by simpa using different)
  | buries id _ p next stage was dying ward alive spawned =>
    refine unhurt (fun _ => List.not_mem_nil) (fun _ => List.not_mem_nil) spawned
      (fun q mine => absurd (ward.symm.trans mine) (Option.some_ne_none q).symm) fun q mine _ => ?_
    -- the ward is the one that joins those that are gone
    obtain rfl := Option.some.inj (was.symm.trans mine)
    have once : kills p (h ++ [e]) = 1 := by
      rw [counts, custody.alive p was, dying]
      rfl
    rw [← before] at stage
    exact .inr ⟨once, e, List.mem_append_right _ List.mem_cons_self, id, next, action, stage⟩
  | deserts id _ p stage holder here mine was ward alive spawned =>
    refine unhurt (fun _ => List.not_mem_nil) (fun _ => List.not_mem_nil) spawned
      (fun q mine => absurd (ward.symm.trans mine) (Option.some_ne_none q).symm) fun q hers _ => ?_
    -- nobody looks after the ward from now on
    obtain rfl := Option.some.inj (was.symm.trans hers)
    rw [← before] at holder here
    exact .inl
      ⟨e, List.mem_append_right _ List.mem_cons_self, id, stage, action, holder, here, mine⟩

end Custody

/-- **The account is kept in every careful run.** -/
theorem run_custody {xs : List Move} (careful : CarefulRun xs) :
    Custody (machine.history xs) (machine.run xs).affairs := by
  induction xs using List.reverseRecOn with
  | nil =>
    have nobody (p : ProcessId) : ¬ p < (machine.run []).affairs.spawned := Nat.not_lt_zero p
    refine ⟨fun p => iff_of_false nofun (nobody p), nofun, fun _ _ => rfl, fun _ => Nat.zero_le 1,
      nofun, ?_⟩
    exact fun p born => absurd born (nobody p)
  | append_singleton xs x ih =>
    rw [machine.history_concat]
    exact (ih (carefulRun_concat.mp careful).1).step rfl (event_tends careful)

/-- Where nothing is given up, all processes but the ward were killed and are gone. -/
theorem OrderlyRun.dead {xs : List Move} (orderly : OrderlyRun xs) {p : ProcessId}
    (spawned : Spawned p (machine.history xs)) (other : (machine.run xs).affairs.ward ≠ some p) :
    kills p (machine.history xs) = 1 ∧ Buried p (machine.history xs) := by
  have custody := run_custody orderly.careful
  have born := (custody.spawned p).mp spawned
  exact (custody.dead p born other).resolve_left (not_givenUp orderly p)

/-! ## Parted before it is killed -/

/-- A process is watched only while a generation is attached. -/
theorem attached_of_watched {d : Dispatch.State} (settled : Settled d) {w : ProcessId}
    (watched : d.watched = some w) : ∃ g, d.attached = some g := by
  cases settled with
  | vacant => cases watched
  | resting g => exact ⟨g, rfl⟩
  | calling _ e => exact ⟨e.generation, rfl⟩

/-- While the ward is dying, nothing is attached. -/
theorem Affairs.Attuned.unattached_of_dying {a : Affairs} (attuned : a.Attuned)
    (dying : a.dying = true) : a.dispatch.attached = none := by
  have phase := attuned.phase
  unfold Affairs.dying at dying
  cases here : a.lock.at? with
  | none =>
    rw [here] at dying
    cases dying
  | some stage =>
    rw [here] at dying phase
    cases stage with
    | killing => exact phase.vacant
    | _ => cases dying

/-- A ward that is dying is parted from the dispatcher. -/
theorem parted_of_dying {a : Affairs} {heard : List (Nat × ProcessId)} (bonds : a.Bonds heard)
    {p : ProcessId} (ward : a.ward = some p) (dying : a.dying = true) : a.Parted heard p := by
  have knows := bonds.knows
  unfold Affairs.dying at dying
  cases here : a.lock.at? with
  | none =>
    rw [here] at dying
    cases dying
  | some stage =>
    rw [here] at dying knows
    cases stage with
    | killing q next =>
      rw [(ward_of_at here).1] at ward
      obtain rfl : q = p := Option.some.inj ward
      exact knows.2
    | _ => cases dying

/-- **Who was killed is parted from the dispatcher**, from then on. -/
theorem run_parted {xs : List Move} (careful : CarefulRun xs) {p : ProcessId}
    (killed : 0 < kills p (machine.history xs)) :
    (machine.run xs).affairs.Parted (told (stimuli (machine.history xs))) p := by
  induction xs using List.reverseRecOn with
  | nil => exact absurd killed (Nat.lt_irrefl 0)
  | append_singleton xs x ih =>
    have before := (carefulRun_concat.mp careful).1
    by_cases earlier : 0 < kills p (machine.history xs)
    · refine careful.parted (ih before earlier) fun toolchain here => ?_
      -- who is about to get a channel is the ward, and it was not killed
      obtain ⟨ward, dying⟩ := ward_of_at (a := (machine.run xs).affairs) here
      have unharmed := (run_custody before).alive p ward
      rw [dying] at unharmed
      exact Nat.ne_of_gt earlier unharmed
    · have deed : .killing p ∈ deeds (machine.step (machine.run xs) x).2 := by
        rw [machine.history_concat, kills_concat] at killed
        refine List.count_pos_iff.mp ?_
        change 0 < _ + (deeds (machine.step (machine.run xs) x).2).count _ at killed
        omega
      have tends := event_tends careful
      generalize deeds (machine.step (machine.run xs) x).2 = ds at deed tends
      cases tends with
      | keeps _ _ _ _ _ _ calls =>
        obtain ⟨y, q, same⟩ := calls _ deed
        cases same
      | spawns => cases List.mem_singleton.mp deed
      | buries | deserts => cases deed
      | kills id seen _ q _ _ ward dying =>
        obtain rfl := Deed.killing.inj (List.mem_singleton.mp deed)
        exact parted_of_dying (run_bonds careful) ward dying

/-! ## After the killing -/

def Deed.process : Deed → ProcessId
  | .called _ p | .spawned p | .killing p => p

/-- Whatever is done to a process is done before it is killed. -/
theorem kills_of_deed {xs : List Move} {x : Move} (careful : CarefulRun (xs ++ [x])) {deed : Deed}
    (h : deed ∈ deeds (machine.step (machine.run xs) x).2) :
    kills deed.process (machine.history xs) = 0 := by
  have before := (carefulRun_concat.mp careful).1
  have custody := run_custody before
  have attends {y : Dispatch.Entry} {p : ProcessId} := called_watched xs x (y := y) (p := p)
  have tends := event_tends careful
  generalize deeds (machine.step (machine.run xs) x).2 = ds at h attends tends
  cases tends with
  | keeps _ _ _ _ _ _ calls =>
    -- who is called has its channel attached, so it is not parted from the dispatcher
    obtain ⟨y, p, rfl⟩ := calls _ h
    have watched := attends h
    obtain ⟨g, attached⟩ := attached_of_watched before.inOrder.settled watched
    obtain ⟨w, watched', member⟩ := attached_watched before attached
    obtain rfl := Option.some.inj (watched'.symm.trans watched)
    by_contra killed
    exact (run_parted before (Nat.pos_of_ne_zero killed)).unattached g member attached
  | spawns =>
    obtain rfl := List.mem_singleton.mp h
    exact custody.unborn _ (Nat.le_refl _)
  | kills _ _ _ p ward alive =>
    obtain rfl := List.mem_singleton.mp h
    have unharmed := custody.alive p ward
    rw [alive] at unharmed
    exact unharmed
  | buries | deserts => cases h

theorem deeds_concat (xs : List Move) (x : Move) :
    deeds (outputs (machine.history (xs ++ [x]))) =
      deeds (outputs (machine.history xs)) ++ deeds (machine.step (machine.run xs) x).2 := by
  rw [machine.history_concat, Machine.outputs_append, Machine.outputs_singleton, deeds_append]
  rfl

/-- Whatever is done after the killing of a process is done to others. -/
theorem nothing_after_killing {xs : List Move} (careful : CarefulRun xs) {p : ProcessId}
    {first rest : List Deed}
    (cut : deeds (outputs (machine.history xs)) = first ++ .killing p :: rest) :
    ∀ deed ∈ rest, deed.process ≠ p := by
  induction xs using List.reverseRecOn generalizing rest with
  | nil => exact absurd cut (by simp [Machine.history, Machine.historyFrom, outputs])
  | append_singleton xs x ih =>
    have tends := event_tends careful
    have unharmed : ∀ deed ∈ deeds (machine.step (machine.run xs) x).2,
        kills deed.process (machine.history xs) = 0 := fun _ => kills_of_deed careful
    rw [deeds_concat] at cut
    generalize deeds (machine.step (machine.run xs) x).2 = ds at cut tends unharmed
    -- a killing is all that is done at its move
    have alone (mid : List Deed) (now : ds = mid ++ .killing p :: rest) : rest = [] := by
      have done : .killing p ∈ ds := by
        rw [now]
        exact List.mem_append_right _ List.mem_cons_self
      cases tends with
      | keeps _ _ _ _ _ _ calls =>
        obtain ⟨y, q, same⟩ := calls _ done
        cases same
      | spawns => cases List.mem_singleton.mp done
      | buries | deserts => cases done
      | kills =>
        have one := congrArg List.length now
        rw [List.length_singleton, List.length_append, List.length_cons] at one
        exact List.length_eq_zero_iff.mp (by omega)
    rcases List.append_eq_append_iff.mp cut with ⟨mid, -, now⟩ | ⟨mid, past, later⟩
    · rw [alone mid now]
      exact List.forall_mem_nil _
    · cases mid with
      | nil =>
        rw [alone [] later.symm]
        exact List.forall_mem_nil _
      | cons d mid =>
        rw [List.cons_append] at later
        obtain ⟨rfl, rfl⟩ := List.cons.inj later
        refine List.forall_mem_append.mpr ⟨ih (carefulRun_concat.mp careful).1 past, ?_⟩
        rintro deed done rfl
        refine List.count_eq_zero.mp (unharmed deed done) ?_
        rw [past]
        exact List.mem_append_right _ List.mem_cons_self

/-! ## The law -/

/-- An operation that is to launch a process is between two sessions and has no other one. -/
theorem ward_of_launching {xs : List Move} (careful : CarefulRun xs) {id : OperationId}
    (launching : (machine.run xs).stage? id = some .launching) :
    (machine.run xs).affairs.ward = none := by
  have holder := careful.inOrder.sound.holder launching rfl
  have alone : (machine.run xs).affairs.session = none :=
    (run_bonds careful).knows_at holder launching
  rw [(ward_of_stage (a := (machine.run xs).affairs) holder launching).1, alone]
  rfl

/-- A process is spawned only where there is no other one. -/
theorem ward_of_spawned {xs : List Move} {x : Move} (careful : CarefulRun (xs ++ [x]))
    {p : ProcessId} (birth : .spawned p ∈ deeds (machine.step (machine.run xs) x).2) :
    (machine.run xs).affairs.ward = none := by
  have tends := event_tends careful
  generalize deeds (machine.step (machine.run xs) x).2 = ds at birth tends
  cases tends with
  | spawns _ _ _ free => exact free
  | buries | deserts => cases birth
  | kills => cases List.mem_singleton.mp birth
  | keeps _ _ _ _ _ _ calls =>
    obtain ⟨y, q, same⟩ := calls _ birth
    cases same

/-- Who gives up the lock leaves nothing half done. -/
theorem Change.calm_of_released {a a' : Affairs} {move : Move} (change : Change a move a')
    (sound : a.lock.Sound) (collects : ∀ id, move = .collect id → a.lock.Done id)
    {id : OperationId} (holder : a.lock.holder = some id) (released : a'.lock.holder ≠ some id) :
    a'.lock.Calm := by
  have undisturbed (lock : Lock.Undisturbed a.lock a'.lock) : a'.lock.Calm := by
    rcases lock with ⟨same, -⟩ | ⟨-, calm⟩
    · exact absurd (same.trans holder) released
    · exact calm
  cases change with
  | aside | askInVain | noInput | noLoss | stuck => exact absurd holder released
  | begin | monitor => exact undisturbed (sound.undisturbed_enter _)
  | draw => exact undisturbed (sound.undisturbed_add _ _)
  | ask id drawn => exact undisturbed (sound.undisturbed_ask drawn)
  | collect id => exact undisturbed (sound.undisturbed_drop (collects id rfl))
  | dispatch _ _ handled =>
    rcases handled.lock with same | ⟨_, _, _, after, -, -, lock⟩
    · exact absurd (same ▸ holder) released
    · exact absurd (lock ▸ holder) released
  | proceed o seen _ known rule =>
    rcases rule.lock with ⟨stage, -, lock⟩ | ⟨result, lock⟩
    · exact absurd (lock ▸ holder) released
    · exact lock ▸ sound.calm_finish (rule.holder sound known) _
  | leave id _ leaving => exact undisturbed (sound.undisturbed_over leaving rfl)

/-- Nobody is at work just after the lock was given up, or its holder was. -/
theorem CarefulRun.calm_of_released {xs : List Move} {x : Move} (careful : CarefulRun (xs ++ [x]))
    {id : OperationId} (holder : (machine.run xs).holder = some id)
    (released : (machine.run (xs ++ [x])).holder ≠ some id) :
    (machine.run (xs ++ [x])).lock.Calm := by
  have sound := (carefulRun_concat.mp careful).1.inOrder.sound
  rcases careful.change with ⟨j, -, affairs⟩ | ⟨change, collects⟩
  · have lock : (machine.run (xs ++ [x])).lock = (machine.run xs).lock.forsake j :=
      congrArg Affairs.lock affairs
    rw [lock]
    rcases sound.forsake_calm j with (⟨same, -⟩ | ⟨-, calm⟩) | ⟨-, calm⟩
    · have released : (machine.run (xs ++ [x])).lock.holder ≠ some id := released
      rw [lock] at released
      exact absurd (same.trans holder) released
    · exact calm
    · exact calm
  · exact change.calm_of_released sound collects holder released

/-- **Every process is killed once, and nothing is done to it afterwards.** In every careful run,
with a shutdown or without, and also when operations are given up:

* As long as an operation is to spawn a process, even in vain, and when one is spawned, every
  process that was spawned before was killed once and is gone, but for those whose operation was
  given up while it dealt with them.
* No process is killed twice.
* When an operation gives up the lock, or is given up while it has it, every process but that of
  the session was killed once and is gone, whether its launch failed or its session was removed,
  with the same exception. That of the session was not killed.
* Once a process was killed, nothing is done to it any more; in particular it is not called.
* And the dispatcher is not attached to it under any generation.
* Where no operation is given up there is no exception. -/
theorem processes_are_killed_once (xs : List Move) (careful : CarefulRun xs) :
    (∀ past e later, machine.history xs = past ++ e :: later →
      (∃ id, e.before.stage? id = some .launching) ∨ (∃ q, .spawned q ∈ deeds e.outputs) →
      ∀ p, Spawned p past → GivenUp p past ∨ kills p past = 1 ∧ Buried p past) ∧
    (∀ p, kills p (machine.history xs) ≤ 1) ∧
    (∀ past e later id, machine.history xs = past ++ e :: later →
      e.before.holder = some id → e.after.holder ≠ some id → ∀ p, Spawned p (past ++ [e]) →
      if e.after.session.map (·.process) = some p then kills p (past ++ [e]) = 0
      else GivenUp p (past ++ [e]) ∨ kills p (past ++ [e]) = 1 ∧ Buried p (past ++ [e])) ∧
    (∀ p first rest, deeds (outputs (machine.history xs)) = first ++ .killing p :: rest →
      ∀ deed ∈ rest, deed.process ≠ p) ∧
    (∀ p, 0 < kills p (machine.history xs) → ∀ x ∈ stimuli (machine.history xs),
      ∀ g, x.input.channel? = some (g, p) → (machine.run xs).dispatch.attached ≠ some g) ∧
    (OrderlyRun xs → ∀ p, ¬ GivenUp p (machine.history xs)) := by
  refine ⟨?_, (run_custody careful).once, ?_, fun p _ _ => nothing_after_killing careful, ?_,
    fun orderly p => not_givenUp orderly p⟩
  · intro past e later cut spawning p spawned
    obtain ⟨ys, x, rfl, rfl, now⟩ := careful.upTo cut
    have before := (carefulRun_concat.mp now).1
    have custody := run_custody before
    -- whoever launches a process has none in its care, so all the others are dead
    have nobody : (machine.run ys).affairs.ward = none := by
      rcases spawning with ⟨id, launching⟩ | ⟨q, birth⟩
      · exact ward_of_launching before launching
      · exact ward_of_spawned now birth
    exact custody.dead p ((custody.spawned p).mp spawned) (by simp [nobody])
  · intro past e later id cut holder released p spawned
    obtain ⟨ys, x, rfl, rfl, now⟩ := careful.upTo cut
    have after : (⟨machine.run ys, x⟩ : machine.Event).after = machine.run (ys ++ [x]) :=
      (machine.run_concat ys x).symm
    rw [after] at released ⊢
    rw [← machine.history_concat] at spawned ⊢
    have custody := run_custody now
    -- when the lock is handed on nobody is at work, and the ward is the session's process
    have calm : (machine.run (ys ++ [x])).affairs.lock.Calm :=
      now.calm_of_released holder released
    obtain ⟨ward, alive⟩ := ward_of_calm calm
    have ward : (machine.run (ys ++ [x])).affairs.ward =
      (machine.run (ys ++ [x])).session.map (·.process) := ward
    rw [← ward]
    split
    · rename_i mine
      rw [custody.alive p mine, alive]
      rfl
    · rename_i other
      exact custody.dead p ((custody.spawned p).mp spawned) other
  · intro p killed x heard g channel
    exact (run_parted careful killed).unattached g (mem_told.mpr ⟨x, heard, channel⟩)

/-- A process ends by itself, the one that is launched next does not tell its version, and the
third one stays. -/
def troubledRun : List Move :=
  [.begin .start, .proceed 0 .nothing] ++ launching 0 7 ++
    [.exit 0 ⟨some 9⟩, .dispatch fun _ => false, .monitor, .proceed 1 .nothing,
      .proceed 1 .killed, .begin .restart, .proceed 2 .nothing,
      .proceed 2 (.launched (.ok (.default, 8))), .proceed 2 (.probed .timedOut),
      .proceed 2 .killed, .begin .start, .proceed 3 .nothing] ++ (launching 3 9).dropLast

/-- In this run one session's process crashes and another one is torn down. Both are killed once,
and the third is that of the session. -/
theorem troubledRun_kills_once :
    OrderlyRun (troubledRun ++ [.proceed 3 .nothing]) ∧
      (machine.run (troubledRun ++ [.proceed 3 .nothing])).session.map (·.process) = some 2 ∧
      kills 2 (machine.history (troubledRun ++ [.proceed 3 .nothing])) = 0 ∧
      ∀ p, p < 2 → kills p (machine.history (troubledRun ++ [.proceed 3 .nothing])) = 1 ∧
        Buried p (machine.history (troubledRun ++ [.proceed 3 .nothing])) := by
  have orderly : OrderlyRun (troubledRun ++ [.proceed 3 .nothing]) := by
    refine orderlyRun_of_keeps ?_
    decide
  have cut := machine.history_concat troubledRun (.proceed 3 .nothing)
  obtain ⟨-, -, released, -, -, kept⟩ := processes_are_killed_once _ orderly.careful
  have law := released _ _ [] 3 cut rfl (by decide)
  rw [← cut] at law
  have spawned : ∀ p, p < 3 →
      Spawned p (machine.history (troubledRun ++ [.proceed 3 .nothing])) := by
    unfold Spawned
    decide +kernel
  refine ⟨orderly, rfl, ?_, fun p hp => ?_⟩
  · exact (if_pos rfl).mp (law 2 (spawned 2 (by decide)))
  · have other : some 2 ≠ some p := fun stays => absurd (Option.some.inj stays) (Nat.ne_of_gt hp)
    have gone := (if_neg other).mp (law p (spawned p (Nat.lt_succ_of_lt hp)))
    exact gone.resolve_left (kept orderly p)

/-- **A process may be left alive.** A stop that is given up after it has taken the session away,
and before it kills the process, leaves that to nobody: the next process is spawned beside it. -/
theorem givenUpRun_spares :
    CarefulRun givenUpRun ∧ ∃ past e later, machine.history givenUpRun = past ++ e :: later ∧
      Spawned 0 past ∧ .spawned 1 ∈ deeds e.outputs ∧
      kills 0 (machine.history givenUpRun) = 0 := by
  refine ⟨carefulRun_of_uncollected (by decide), ?_⟩
  have cut := machine.history_cut ([Move.begin .start, .proceed 0 .nothing] ++ launching 0 7)
    [Move.begin .stop, .proceed 1 .nothing, .abandon 1, .dispatch fun _ => false, .begin .start,
      .proceed 2 .nothing]
    ((launching 2 8).drop 1) (.proceed 2 (.launched (.ok (.default, 8))))
  refine ⟨_, _, _, cut, ?_, ?_, ?_⟩
  · unfold Spawned
    decide +kernel
  · decide +kernel
  · decide +kernel

end CompilerSession.Supervisor
