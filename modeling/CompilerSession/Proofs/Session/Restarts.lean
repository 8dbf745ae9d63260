import CompilerSession.Proofs.Session.Moves

/-
What changes mean to restarts.

A restart draws a ticket before it asks for the lock. When its turn comes it either begins to
tear the session down and to launch another one, or it finds its ticket covered and takes over
what the latest restart came to. `Course` says of every change which of these things happens,
if any. Two facts carry the rest: a restart that begins covers all tickets that were drawn by
then, and a restart that comes to something has loaded its settings before.

Tickets and numbers of operations only grow, and an operation that returned stays where it is.
That is the second half of this file.
-/

set_option autoImplicit false

namespace CompilerSession.Supervisor

open Dispatch (Loss Effect)

/-! ## Restarts at work -/

namespace Lock

def IsRestart (k : Lock) (id : OperationId) : Prop :=
  ∃ ticket, k.purpose? id = some (.restart ticket)

/-- **A restart is at work**: it holds the lock and is on its way to a new session. -/
def Restarting (k : Lock) (id : OperationId) (loaded : Bool) : Prop :=
  k.holder = some id ∧ k.IsRestart id ∧ k.at?.bind Stage.loaded? = some loaded

variable {k k' : Lock} {id : OperationId} {stage : Stage}

/-- The stage of the holder tells whether a restart is at work. -/
theorem restarting_at (holder : k.holder = some id) (h : k.stage? id = some stage)
    (r : OperationId) (b : Bool) :
    k.Restarting r b ↔ r = id ∧ k.IsRestart id ∧ stage.loaded? = some b := by
  have at_ := (at?_of_holder holder).trans h
  rw [Restarting, holder, at_, Option.bind_some]
  constructor
  · rintro ⟨same, restart, loaded⟩
    obtain rfl := Option.some.inj same
    exact ⟨rfl, restart, loaded⟩
  · rintro ⟨rfl, restart, loaded⟩
    exact ⟨rfl, restart, loaded⟩

/-- The stage that the holder reaches tells whether a restart is at work. -/
theorem restarting_reach (holder : k.holder = some id) (known : k.stage? id ≠ none)
    (r : OperationId) (b : Bool) :
    (k.reach id stage).Restarting r b ↔ r = id ∧ k.IsRestart id ∧ stage.loaded? = some b := by
  have stages : (k.reach id stage).stage? id = some stage := by
    rw [stage?_reach _ known, Function.update_self]
  rw [restarting_at (k := k.reach id stage) holder stages, IsRestart, purpose?_reach, IsRestart]

/-- While the lock is calm no restart is at work. -/
theorem Calm.not_restarting (calm : k.Calm) (r : OperationId) (b : Bool) : ¬ k.Restarting r b := by
  rintro ⟨-, -, loaded⟩
  obtain ⟨stage, h, loaded⟩ := Option.bind_eq_some_iff.mp loaded
  rw [calm stage h] at loaded
  cases loaded

/-- Who is not disturbed goes on with a restart, if it is one. -/
theorem Undisturbed.restarting (h : Undisturbed k k')
    (purposes : ∀ r, k.holder = some r → k'.purpose? r = k.purpose? r) (r : OperationId)
    (b : Bool) : k'.Restarting r b ↔ k.Restarting r b := by
  rcases h with ⟨holder, same⟩ | ⟨calm, calm'⟩
  · rw [Restarting, Restarting, holder, same]
    refine and_congr_right fun held => ?_
    rw [IsRestart, IsRestart, purposes r held]
  · exact iff_of_false (calm'.not_restarting r b) (calm.not_restarting r b)

end Lock

/-! ## What happens to restarts -/

/-- **The rules of restarts.** -/
inductive Course (a : Affairs) (move : Move) (a' : Affairs) : Prop where
  /-- A restart has its turn, and its ticket is not covered. -/
  | begun (r : OperationId) (ticket : Nat) (seen : Observation) (turn : move = .proceed r seen)
      (purpose : a.lock.purpose? r = some (.restart ticket))
      (stage : a.lock.stage? r = some .entered)
      (uncovered : ticket ≤ a.covered → a.lastRestart = none)
      (covered : a'.covered = a.tickets) (now : a'.lock.Restarting r false)
  /-- A restart has its turn, and its ticket is covered. -/
  | coalesced (r : OperationId) (ticket : Nat) (outcome : Except Failure Info) (seen : Observation)
      (turn : move = .proceed r seen) (purpose : a.lock.purpose? r = some (.restart ticket))
      (stage : a.lock.stage? r = some .entered) (old : ticket ≤ a.covered)
      (last : a.lastRestart = some outcome)
      (done : a'.lock.stage? r = some (.done (.launched outcome)))
      (covered : a'.covered = a.covered) (kept : a'.lastRestart = a.lastRestart)
      (before : ∀ r b, ¬ a.lock.Restarting r b) (after : ∀ r b, ¬ a'.lock.Restarting r b)
  /-- A restart goes on. -/
  | carriedOn (r : OperationId) (b b' : Bool) (seen : Observation) (turn : move = .proceed r seen)
      (before : a.lock.Restarting r b) (after : a'.lock.Restarting r b')
      (loads : b' = b ∨
        a.lock.stage? r = some .launching ∧ ∃ outcome, seen = .launched outcome)
      (covered : a'.covered = a.covered) (kept : a'.lastRestart = a.lastRestart)
  /-- A restart comes to something. -/
  | concluded (r : OperationId) (b : Bool) (outcome : Except Failure Info) (seen : Observation)
      (turn : move = .proceed r seen) (before : a.lock.Restarting r b)
      (loads : b = true ∨
        a.lock.stage? r = some .launching ∧ ∃ outcome, seen = .launched outcome)
      (done : a'.lock.stage? r = some (.done (.launched outcome)))
      (last : a'.lastRestart = some outcome) (covered : a'.covered = a.covered)
      (after : ∀ r b, ¬ a'.lock.Restarting r b)
  /-- Nothing happens to restarts that are at work or have their turn. -/
  | aside (covered : a'.covered = a.covered) (kept : a'.lastRestart = a.lastRestart)
      (same : ∀ r b, a'.lock.Restarting r b ↔ a.lock.Restarting r b)
      (noTurn : ∀ r seen, move = .proceed r seen → a.lock.IsRestart r →
        a.lock.stage? r ≠ some .entered)
      (noReturn : ∀ r seen outcome, move = .proceed r seen → a.lock.IsRestart r →
        a'.lock.stage? r = some (.done (.launched outcome)) →
        a.lock.stage? r = some (.done (.launched outcome)))

section Step

variable {a a' : Affairs} {o : Operation} {seen : Observation}

/-- Only restarts write down what they cover and what they come to. -/
theorem Advance.keeps_restarts (rule : Advance a o seen a')
    (other : ∀ ticket, o.purpose ≠ .restart ticket) :
    a'.covered = a.covered ∧ a'.lastRestart = a.lastRestart := by
  cases rule with
  | coalesce ticket _ _ purpose => exact absurd purpose (other ticket)
  | restart ticket _ _ purpose => exact absurd purpose (other ticket)
  | restartAlone ticket _ purpose => exact absurd purpose (other ticket)
  | tornDown _ _ ticket _ purpose => exact absurd purpose (other ticket)
  | stop | fit =>
    unfold Affairs.order
    split <;> exact ⟨rfl, rfl⟩
  | launchFailed | unlaunched | ready =>
    refine ⟨rfl, ?_⟩
    cases h : o.purpose with
    | restart ticket => exact absurd h (other ticket)
    | start | stop | shutdown | crash =>
      simp only [Affairs.conclude, Affairs.finish, Affairs.setStatus, h]
  | _ => exact ⟨rfl, rfl⟩

/-- Operations that are no restarts do nothing to restarts. -/
theorem Advance.course_other (rule : Advance a o seen a') (sound : a.lock.Sound)
    (known : a.lock.operation? o.id = some o) (other : ∀ ticket, o.purpose ≠ .restart ticket) :
    Course a (.proceed o.id seen) a' := by
  obtain ⟨covered, kept⟩ := rule.keeps_restarts other
  have stage := Lock.stage?_of_known known
  have holder := rule.holder sound known
  have notRestart : ¬ a.lock.IsRestart o.id := by
    rintro ⟨ticket, purpose⟩
    rw [Lock.purpose?, known] at purpose
    exact other ticket (Option.some.inj purpose)
  -- the holder is no restart, so no restart is at work before or after
  have before (r : OperationId) (b : Bool) : ¬ a.lock.Restarting r b := fun h =>
    notRestart ((Lock.restarting_at holder stage r b).mp h).2.1
  have after (r : OperationId) (b : Bool) : ¬ a'.lock.Restarting r b := by
    rcases rule.lock with ⟨now, -, lock⟩ | ⟨result, lock⟩
    · rw [lock, Lock.restarting_reach holder (by simp [stage])]
      exact fun h => notRestart h.2.1
    · rw [lock]
      exact (sound.calm_finish holder _).not_restarting r b
  refine .aside covered kept (fun r b => iff_of_false (after r b) (before r b)) ?_ ?_
  · rintro r seen' turn restart
    obtain ⟨rfl, -⟩ := Move.proceed.inj turn
    exact absurd restart notRestart
  · rintro r seen' outcome turn restart
    obtain ⟨rfl, -⟩ := Move.proceed.inj turn
    exact absurd restart notRestart

/-- **What a restart does.** -/
theorem Advance.course_restart (rule : Advance a o seen a') (sound : a.lock.Sound)
    (known : a.lock.operation? o.id = some o) {ticket : Nat} (mine : o.purpose = .restart ticket) :
    Course a (.proceed o.id seen) a' := by
  have stage := Lock.stage?_of_known known
  have purpose : a.lock.purpose? o.id = some (.restart ticket) :=
    mine ▸ Lock.purpose?_of_known known
  have restart : a.lock.IsRestart o.id := ⟨ticket, purpose⟩
  have holder := rule.holder sound known
  -- at work before the move, and at work after it: by an ordinary step, or by an order
  have before {now : Stage} {b : Bool} (hs : o.stage = now) (h : now.loaded? = some b) :
      a.lock.Restarting o.id b :=
    (Lock.restarting_at holder stage o.id b).mpr ⟨rfl, restart, by rw [hs, h]⟩
  have reached {now : Stage} {b : Bool} {k : Lock} (lock : k = a.lock.reach o.id now)
      (h : now.loaded? = some b) : k.Restarting o.id b :=
    lock ▸ (Lock.restarting_reach holder (by simp [stage]) o.id b).mpr ⟨rfl, restart, h⟩
  have ordered {b : Affairs} {c : Dispatch.Command} {asked told : Stage} {l : Bool}
      (lock : b.lock = a.lock) (h : asked.loaded? = some l) (h' : told.loaded? = some l) :
      (b.order o.id c asked told).lock.Restarting o.id l := by
    rcases lock_order (a := b) o.id c asked told with now | now
    · exact reached (lock ▸ now) h
    · exact reached (lock ▸ now) h'
  have finished (last : Stage) (r : OperationId) (b : Bool) :
      ¬ (a.lock.finish o.id last).Restarting r b :=
    (sound.calm_finish holder last).not_restarting r b
  have returned (result : Result) : o.purpose.last result = .done result := by rw [mine]; rfl
  -- the two ways to return: with what another restart came to, and with what this one came to
  have concluded {now : Stage} {b : Bool} {outcome : Except Failure Info} {x : Affairs}
      (hs : o.stage = now) (h : now.loaded? = some b)
      (loads : b = true ∨
        a.lock.stage? o.id = some .launching ∧ ∃ outcome, seen = .launched outcome)
      (lock : x.lock = a.lock) (covered : x.covered = a.covered) :
      Course a (.proceed o.id seen) (x.conclude o outcome) := by
    have done : (x.conclude o outcome).lock =
        a.lock.finish o.id (.done (.launched outcome)) := by
      simp only [Affairs.conclude, Affairs.finish, lock, returned]
    refine .concluded o.id b outcome seen rfl (before hs h) loads ?_ ?_ covered (done ▸ finished _)
    · exact done ▸ sound.stage?_finish holder _
    · simp only [Affairs.conclude, Affairs.finish, mine]
  cases rule with
  -- the rules of other operations
  | found _ _ other => cases mine.symm.trans other
  | launch _ other => cases mine.symm.trans other
  | crash _ _ _ other => cases mine.symm.trans other
  | outdated _ _ other => cases mine.symm.trans other
  | stop _ _ other => rcases other with other | other <;> cases mine.symm.trans other
  | nothingToStop _ other => rcases other with other | other <;> cases mine.symm.trans other
  | stopped _ _ _ other => exact absurd mine (other ticket)
  -- its turn
  | coalesce ticket' outcome hs hp old last =>
    obtain rfl := Purpose.restart.inj (mine.symm.trans hp)
    rw [hs] at stage
    refine .coalesced o.id ticket outcome seen rfl purpose stage old last ?_ rfl rfl
      (fun r b h => ?_) (finished _)
    · exact returned (.launched outcome) ▸ sound.stage?_finish holder _
    cases ((Lock.restarting_at holder stage r b).mp h).2.2
  | restart ticket' l hs hp uncovered session =>
    obtain rfl := Purpose.restart.inj (mine.symm.trans hp)
    refine .begun o.id ticket seen rfl purpose (hs ▸ stage) uncovered ?_ (ordered rfl rfl rfl)
    unfold Affairs.order
    split <;> rfl
  | restartAlone ticket' hs hp uncovered session =>
    obtain rfl := Purpose.restart.inj (mine.symm.trans hp)
    exact .begun o.id ticket seen rfl purpose (hs ▸ stage) uncovered rfl (reached rfl rfl)
  -- its way to a new session; the settings are loaded as the process is spawned
  | tearDown l hs =>
    exact .carriedOn o.id false false seen rfl (before hs rfl) (reached rfl rfl) (.inl rfl) rfl rfl
  | tornDown p l ticket' hs =>
    exact .carriedOn o.id false false seen rfl (before hs rfl) (reached rfl rfl) (.inl rfl) rfl rfl
  | spawned toolchain pid hs told =>
    exact .carriedOn o.id false true seen rfl (before hs rfl) (reached rfl rfl)
      (.inr ⟨hs ▸ stage, _, told⟩) rfl rfl
  | unfit p toolchain outcome failure hs =>
    exact .carriedOn o.id true true seen rfl (before hs rfl) (reached rfl rfl) (.inl rfl) rfl rfl
  | refused l hs =>
    exact .carriedOn o.id true true seen rfl (before hs rfl) (reached rfl rfl) (.inl rfl) rfl rfl
  | fit toolchain outcome l hs =>
    refine .carriedOn o.id true true seen rfl (before hs rfl) (ordered rfl rfl rfl) (.inl rfl) ?_ ?_
    all_goals
      unfold Affairs.order
      split <;> rfl
  -- its return
  | launchFailed p failure hs => exact concluded hs rfl (.inl rfl) rfl rfl
  | unlaunched failure hs told =>
    exact concluded hs rfl (.inr ⟨hs ▸ stage, _, told⟩) rfl rfl
  | ready l hs => exact concluded hs rfl (.inl rfl) rfl rfl
  | crashed p l loss code hs =>
    -- no restart comes here, but if one did, it would return nothing
    rw [hs] at stage
    refine .aside rfl rfl (fun r b => iff_of_false (finished _ r b) fun h => ?_) ?_ ?_
    · cases ((Lock.restarting_at holder stage r b).mp h).2.2
    · rintro r seen' turn -
      obtain ⟨rfl, -⟩ := Move.proceed.inj turn
      rw [stage]
      intro entered
      cases entered
    · rintro r seen' outcome turn - done
      obtain ⟨rfl, -⟩ := Move.proceed.inj turn
      have recorded := (sound.stage?_finish holder _).trans (congrArg some (returned .recorded))
      cases recorded.symm.trans done

/-- The dispatcher's inputs leave the books of the restarts alone. -/
theorem Handled.keeps_restarts (handled : Handled a a') :
    a'.covered = a.covered ∧ a'.lastRestart = a.lastRestart ∧ a'.tickets = a.tickets := by
  cases handled with
  | noMatter | lost | closed => exact ⟨rfl, rfl, rfl⟩
  | attached | detached | refused =>
    unfold Affairs.reply
    split <;> exact ⟨rfl, rfl, rfl⟩

/-- The dispatcher's inputs bring no restart to work, or to its end. -/
theorem Handled.restarting (handled : Handled a a') (sound : a.lock.Sound) (r : OperationId)
    (b : Bool) : a'.lock.Restarting r b ↔ a.lock.Restarting r b := by
  rcases handled.lock with same | ⟨asker, e, before, after, stage, answered, lock⟩
  · rw [same]
  · have holder := sound.holder stage (answered_holds answered).1
    rw [lock, Lock.restarting_reach holder (by simp [stage]), Lock.restarting_at holder stage,
      (answered_loaded answered).1]

/-- A move that is not an operation's is nothing to restarts if it leaves those at work alone. -/
theorem Course.elsewhere {move : Move} (other : ∀ r seen, move ≠ .proceed r seen)
    (covered : a'.covered = a.covered) (kept : a'.lastRestart = a.lastRestart)
    (same : ∀ r b, a'.lock.Restarting r b ↔ a.lock.Restarting r b) : Course a move a' :=
  .aside covered kept same (fun r seen turn => absurd turn (other r seen))
    (fun r seen _ turn => absurd turn (other r seen))

/-- **Every change is one of these.** -/
theorem Change.course {move : Move} (change : Change a move a') (sound : a.lock.Sound)
    (collects : ∀ id, move = .collect id → a.lock.Done id) :
    Course a move a' := by
  -- who holds the lock is known already, so its purpose is not touched by a newcomer
  have fresh : ∀ r, a.lock.holder = some r → r ≠ a.lock.next := fun r h =>
    Nat.ne_of_lt (sound.holder_lt h)
  have free := sound.fresh a.lock.next (Nat.le_refl _)
  have entered (purpose : Purpose) (r : OperationId) (h : a.lock.holder = some r) :
      (a.lock.enter purpose).purpose? r = a.lock.purpose? r := by
    rw [Lock.purpose?_enter _ free, Function.update_of_ne (fresh r h)]
  cases change with
  | proceed o seen _ known rule =>
    cases mine : o.purpose with
    | restart ticket => exact rule.course_restart sound known mine
    | start | stop | shutdown | crash => exact rule.course_other sound known (by simp [mine])
  | stuck id seen h =>
    refine .aside rfl rfl (fun _ _ => Iff.rfl) ?_ (fun _ _ _ _ _ h => h)
    rintro r seen' turn - stage
    obtain ⟨rfl, rfl⟩ := Move.proceed.inj turn
    obtain ⟨o, known, entered⟩ := Option.map_eq_some_iff.mp stage
    cases (entered ▸ h o known : Stage.goesOn .entered seen = false)
  | leave id seen leaving =>
    have purposes : (a.leave id).lock.purpose? = a.lock.purpose? := Lock.purpose?_reach
    have undisturbed : Lock.Undisturbed a.lock (a.leave id).lock :=
      sound.undisturbed_over leaving rfl
    refine .aside rfl rfl (undisturbed.restarting fun r _ => by rw [purposes]) ?_ ?_
    · rintro r seen' turn -
      obtain ⟨rfl, -⟩ := Move.proceed.inj turn
      rw [leaving]
      nofun
    · rintro r seen' outcome turn - done
      obtain ⟨rfl, -⟩ := Move.proceed.inj turn
      have stopped : (a.leave id).lock.stage? id = some (.done .stopped) :=
        (congrFun (Lock.stage?_reach _ (by simp [leaving])) id).trans (Function.update_self ..)
      cases stopped.symm.trans done
  | dispatch fired _ handled =>
    obtain ⟨covered, kept, -⟩ := handled.keeps_restarts
    exact .elsewhere nofun covered kept (handled.restarting sound)
  | aside move h =>
    refine .elsewhere ?_ rfl rfl fun _ _ => Iff.rfl
    rintro r seen rfl
    cases h
  | askInVain | noInput | noLoss => exact .elsewhere nofun rfl rfl fun _ _ => Iff.rfl
  | begin errand =>
    exact .elsewhere nofun rfl rfl ((sound.undisturbed_enter _).restarting (entered _))
  | monitor =>
    exact .elsewhere nofun rfl rfl ((sound.undisturbed_enter _).restarting (entered _))
  | draw =>
    refine .elsewhere nofun rfl rfl ((sound.undisturbed_add _ _).restarting fun r h => ?_)
    rw [Lock.purpose?_add _ free, Function.update_of_ne (fresh r h)]
  | ask id drawn =>
    refine .elsewhere nofun rfl rfl ((sound.undisturbed_ask drawn).restarting fun r _ => ?_)
    rw [Lock.purpose?_ask]
  | collect id =>
    have done := collects id rfl
    refine .elsewhere nofun rfl rfl ((sound.undisturbed_drop done).restarting fun r h => ?_)
    obtain ⟨stage, hs, holds⟩ := (sound.held r).mp h
    have other : r ≠ id := by
      rintro rfl
      obtain ⟨result, rfl⟩ := done stage hs
      cases holds
    rw [Lock.purpose?_drop, Function.update_of_ne other]

end Step

/-! ## What only grows -/

section Growth

variable {a a' : Affairs} {move : Move} {id : OperationId}

theorem Lock.next_finish (k : Lock) (id : OperationId) (last : Stage) :
    (k.finish id last).next = k.next := by
  cases h : (k.reach id last).waiting <;>
    simp only [Lock.finish, Lock.release, h] <;> rfl

theorem Lock.next_enter (k : Lock) (purpose : Purpose) : (k.enter purpose).next = k.next + 1 := by
  cases h : k.holder <;> simp only [Lock.enter, h] <;> rfl

theorem Lock.next_ask (k : Lock) (id : OperationId) : (k.ask id).next = k.next := by
  cases h : k.holder <;> simp only [Lock.ask, h] <;> rfl

/-- No number is given twice. -/
theorem Change.next_le (change : Change a move a') : a.lock.next ≤ a'.lock.next := by
  cases change with
  | aside | askInVain | noInput | noLoss | leave | stuck | collect => exact Nat.le_refl _
  | begin | monitor => exact Lock.next_enter _ _ ▸ Nat.le_succ _
  | draw => exact Nat.le_succ _
  | ask => exact Nat.le_of_eq (Lock.next_ask _ _).symm
  | dispatch _ _ handled =>
    rcases handled.lock with same | ⟨_, _, _, _, -, -, lock⟩
    · exact same ▸ Nat.le_refl _
    · exact lock ▸ Nat.le_refl _
  | proceed o seen _ known rule =>
    rcases rule.lock with ⟨now, -, lock⟩ | ⟨result, lock⟩
    · exact lock ▸ Nat.le_refl _
    · exact lock ▸ Nat.le_of_eq (Lock.next_finish _ _ _).symm

/-- What an operation is for never changes, but it may be forgotten. -/
theorem Change.purpose? (change : Change a move a') (sound : a.lock.Sound)
    (given : id < a.lock.next) :
    a'.lock.purpose? id = a.lock.purpose? id ∨ a'.lock.purpose? id = none := by
  have free := sound.fresh a.lock.next (Nat.le_refl _)
  have other := Nat.ne_of_lt given
  cases change with
  | aside | askInVain | noInput | noLoss | stuck => exact .inl rfl
  | begin | monitor => exact .inl (by rw [Lock.purpose?_enter _ free, Function.update_of_ne other])
  | draw => exact .inl (by rw [Lock.purpose?_add _ free, Function.update_of_ne other])
  | ask => exact .inl (by rw [Lock.purpose?_ask])
  | leave => exact .inl (congrFun Lock.purpose?_reach id)
  | collect j =>
    rw [Lock.purpose?_drop]
    by_cases same : id = j
    · exact .inr (by rw [same, Function.update_self])
    · exact .inl (Function.update_of_ne same _ _)
  | dispatch _ _ handled =>
    rcases handled.lock with same | ⟨_, _, _, _, -, -, lock⟩
    · exact .inl (by rw [same])
    · exact .inl (by rw [lock, Lock.purpose?_reach])
  | proceed o seen _ known rule =>
    rcases rule.lock with ⟨now, -, lock⟩ | ⟨result, lock⟩
    · exact .inl (by rw [lock, Lock.purpose?_reach])
    · exact .inl (by rw [lock, Lock.purpose?_finish])

/-- Operations that go on draw no tickets. -/
theorem Advance.tickets {o : Operation} {seen : Observation} (rule : Advance a o seen a') :
    a'.tickets = a.tickets := by
  cases rule with
  | stop | restart | fit =>
    unfold Affairs.order
    split <;> rfl
  | _ => rfl

/-- Tickets are only drawn. -/
theorem Change.tickets_le (change : Change a move a') : a.tickets ≤ a'.tickets := by
  cases change with
  | begin => exact Nat.le_add_right _ _
  | draw => exact Nat.le_succ _
  | dispatch _ _ handled => exact Nat.le_of_eq handled.keeps_restarts.2.2.symm
  | proceed _ _ _ _ rule => exact Nat.le_of_eq rule.tickets.symm
  | _ => exact Nat.le_refl _

/-- Only tickets that were drawn are covered. -/
theorem Change.covered_le (change : Change a move a') (course : Course a move a')
    (h : a.covered ≤ a.tickets) : a'.covered ≤ a'.tickets := by
  have more := change.tickets_le
  cases course with
  | begun _ _ _ _ _ _ _ covered => exact covered ▸ more
  | coalesced _ _ _ _ _ _ _ _ _ _ covered => exact covered ▸ Nat.le_trans h more
  | carriedOn _ _ _ _ _ _ _ _ covered => exact covered ▸ Nat.le_trans h more
  | concluded _ _ _ _ _ _ _ _ _ covered => exact covered ▸ Nat.le_trans h more
  | aside covered => exact covered ▸ Nat.le_trans h more

end Growth

/-! ## The way of one operation -/

/-- **What a change does to one operation.** -/
inductive Passage (move : Move) (id : OperationId) (purpose : Option Purpose)
    (before : Option Stage) : Option Stage → Prop where
  | stays : Passage move id purpose before before
  | waits (a b : Stage) (h : before = some a) (quiet : a.begun = false) (still : b.begun = false) :
      Passage move id purpose before (some b)
  | works (a b : Stage) (h : before = some a) (holds : a.holds = true) (nears : a.Nears b purpose) :
      Passage move id purpose before (some b)
  | returns (a : Stage) (p : Purpose) (result : Result) (seen : Observation)
      (turn : move = .proceed id seen) (mine : purpose = some p) (h : before = some a)
      (holds : a.holds = true) : Passage move id purpose before (some (p.last result))
  | departs (h : before = some .leaving) :
      Passage move id purpose before (some (.done .stopped))
  | leaves (h : ∀ stage, before = some stage → ∃ result, stage = .done result) :
      Passage move id purpose before none

section Passage

variable {a a' : Affairs} {move : Move} {id : OperationId}

/-- Where one stage changes, only the passage of its operation is to be shown. -/
theorem Passage.of_update {k k' : Lock} {j : OperationId} {now : Option Stage}
    {purpose : Option Purpose} (stages : k'.stage? = Function.update k.stage? j now)
    (h : id = j → Passage move id purpose (k.stage? id) now) :
    Passage move id purpose (k.stage? id) (k'.stage? id) := by
  rw [stages]
  by_cases same : id = j
  · rw [← same, Function.update_self]
    exact h same
  · rw [Function.update_of_ne same]
    exact .stays

/-- **Every operation goes its way.** -/
theorem Change.passage (change : Change a move a') (sound : a.lock.Sound)
    (collects : ∀ id, move = .collect id → a.lock.Done id)
    (given : id < a.lock.next) :
    Passage move id (a.lock.purpose? id) (a.lock.stage? id) (a'.lock.stage? id) := by
  have free := sound.fresh a.lock.next (Nat.le_refl _)
  -- an operation that was known is not the one that comes
  have other : id ≠ a.lock.next := Nat.ne_of_lt given
  cases change with
  | aside | askInVain | noInput | noLoss | stuck => exact .stays
  | begin errand =>
    obtain ⟨stage, -, stages⟩ := Lock.stage?_enter (errand.purpose a.tickets) free
    exact .of_update stages fun same => absurd same other
  | monitor loss =>
    obtain ⟨stage, -, stages⟩ := Lock.stage?_enter (.crash loss) free
    exact .of_update stages fun same => absurd same other
  | draw => exact .of_update (Lock.stage?_add _ _ free) fun same => absurd same other
  | ask j drawn =>
    obtain ⟨stage, quiet, stages⟩ := Lock.stage?_ask drawn
    refine .of_update stages ?_
    rintro rfl
    exact .waits .drawn stage drawn rfl quiet
  | collect j =>
    refine .of_update Lock.stage?_drop ?_
    rintro rfl
    exact .leaves (collects id rfl)
  -- only the one who asked is answered
  | dispatch _ _ handled =>
    rcases handled.lock with same | ⟨asker, e, before, after, stage, answered, lock⟩
    · exact same ▸ .stays
    · rw [lock]
      refine .of_update (Lock.stage?_reach _ (by simp [stage])) ?_
      rintro rfl
      exact .works before after stage (answered_holds answered).1 (answered_nears answered _)
  | leave j _ leaving =>
    refine .of_update (Lock.stage?_reach _ (by simp [leaving])) ?_
    rintro rfl
    exact .departs leaving
  | proceed o seen _ known rule =>
    have stage := Lock.stage?_of_known known
    have holder := rule.holder sound known
    rcases rule.lock with ⟨now, nears, lock⟩ | ⟨result, lock⟩
    · have purpose : a.lock.purpose? o.id = some o.purpose := Lock.purpose?_of_known known
      rw [lock]
      refine .of_update (Lock.stage?_reach _ (by simp [stage])) ?_
      rintro rfl
      exact .works o.stage now stage rule.holds (purpose.symm ▸ nears)
    · -- one operation returns, and another one may have waited for that
      have returned (same : id = o.id) :
          Passage (.proceed o.id seen) id (a.lock.purpose? id) (a.lock.stage? id)
            (some (o.purpose.last result)) := by
        subst same
        exact .returns o.stage o.purpose result seen rfl (Lock.purpose?_of_known known) stage
          rule.holds
      rw [lock]
      rcases sound.finish_cases holder (o.purpose.last result) with
        ⟨-, stages⟩ | ⟨n, later, waited, -, stages⟩
      · exact .of_update stages returned
      · rw [stages]
        by_cases next : id = n
        · subst next
          rw [Function.update_self]
          exact .waits .waiting .entered waited rfl rfl
        · rw [Function.update_of_ne next, Function.update_apply]
          split
          · rename_i same
            exact returned same
          · exact .stays

/-- The operation is over: it returned, and perhaps its result was collected. -/
structure Lock.Over (k : Lock) (id : OperationId) : Prop where
  given : id < k.next
  done : k.Done id

/-- What is over stays over until it is collected. -/
theorem Change.keeps_over (change : Change a move a') (sound : a.lock.Sound)
    (collects : ∀ id, move = .collect id → a.lock.Done id)
    (done : a.lock.Over id) : a'.lock.Over id := by
  refine ⟨Nat.lt_of_lt_of_le done.given change.next_le, ?_⟩
  have passage := change.passage sound collects done.given
  unfold Lock.Done
  generalize a'.lock.stage? id = after at passage ⊢
  cases passage with
  | stays => exact done.done
  | waits a _ h quiet =>
    obtain ⟨result, rfl⟩ := done.done a h
    cases quiet
  | works a _ h holds =>
    obtain ⟨result, rfl⟩ := done.done a h
    cases holds
  | returns a _ _ _ _ _ h holds =>
    obtain ⟨result, rfl⟩ := done.done a h
    cases holds
  | departs =>
    rintro stage ⟨⟩
    exact ⟨.stopped, rfl⟩
  | leaves =>
    intro stage h
    cases h

end Passage

end CompilerSession.Supervisor
