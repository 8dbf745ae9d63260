import CompilerSession.Proofs.Session.Affairs

/-
What moves do.

`Change` says for every kind of move what it does to the affairs of a supervisor. For the move
of an operation that is `Advance`; for the move of the dispatcher it is `Handled`, which is read
off the rules of the dispatcher; callers, calls and exits change nothing.

`Orderly` is what is asked of moves here: nobody gives up an operation, and a result is collected
only when it is there. Under that condition every step is a `Change` (`step_change`), and laws
of runs are proved by cases on it.
-/

set_option autoImplicit false

namespace CompilerSession.Supervisor

open Dispatch (Loss Effect Input Iteration Settled)

/-! ## The dispatcher -/

/-- **What an input of the dispatcher does** to the affairs. It is no matter, or a channel is
lost, or the dispatcher ends, or it takes an order. -/
inductive Handled (a : Affairs) : Affairs → Prop where
  | noMatter (d : Dispatch.State) (attached : d.attached = a.dispatch.attached)
      (ended : d.ended = a.dispatch.ended) : Handled a { a with dispatch := d }
  | lost (d : Dispatch.State) (loss : Loss) (was : a.dispatch.attached = some loss.generation)
      (now : d.attached = none) (ended : d.ended = a.dispatch.ended) :
      Handled a { a with dispatch := d, losses := a.losses ++ [loss] }
  | closed (d : Dispatch.State) (closing : Bool) (told : a.closing = true)
      (now : d.attached = none) (ended : d.ended = true) :
      Handled a { a with dispatch := d, closing }
  | attached (d : Dispatch.State) (g : Nat) (p : ProcessId) (asker : OperationId)
      (rest : List Dispatch.Command) (first : a.orders = .attach g p asker :: rest)
      (live : a.dispatch.ended = false) (now : d.attached = some g) (ended : d.ended = false) :
      Handled a (Affairs.reply { a with dispatch := d, orders := rest } asker (.attached asker))
  | detached (d : Dispatch.State) (g n : Nat) (asker : OperationId) (rest : List Dispatch.Command)
      (first : a.orders = .detach g asker :: rest) (live : a.dispatch.ended = false)
      (now : d.attached = if a.dispatch.attached = some g then none else a.dispatch.attached)
      (ended : d.ended = false) :
      Handled a (Affairs.reply { a with dispatch := d, orders := rest } asker (.detached asker n))
  | refused (c : Dispatch.Command) (asker : OperationId) (rest : List Dispatch.Command)
      (first : a.orders = c :: rest) (refused : Dispatch.refuse c = [.refused asker])
      (ended : a.dispatch.ended = true) :
      Handled a (Affairs.reply { a with orders := rest } asker (.refused asker))

/-- An effect that is no matter. -/
def Quiet (e : Effect) : Prop := ∀ a : Affairs, a.hear e = a

@[simp] theorem quiet_resolved (id : RequestId) (outcome : Outcome) :
    Quiet (.resolved id outcome) := fun _ => rfl

@[simp] theorem quiet_called (e : Dispatch.Entry) (p : ProcessId) : Quiet (.called e p) :=
  fun _ => rfl

/-- Quiet effects leave the affairs alone. -/
theorem hear_quiet {es : List Effect} (quiet : ∀ e ∈ es, Quiet e) (a : Affairs) :
    es.foldl Affairs.hear a = a := by
  induction es with
  | nil => rfl
  | cons e es ih =>
    rw [List.foldl_cons, quiet e List.mem_cons_self]
    exact ih fun f hf => quiet f (List.mem_cons_of_mem _ hf)

/-- Outcomes are no matter, so only the last effect counts. -/
theorem hear_outcomes {f : Dispatch.Entry → Effect} (quiet : ∀ x, Quiet (f x))
    (q : List Dispatch.Entry) (es : List Effect) (a : Affairs) :
    (q.map f ++ es).foldl Affairs.hear a = es.foldl Affairs.hear a := by
  have skipped : ∀ e ∈ q.map f, Quiet e := by
    intro e he
    obtain ⟨x, -, rfl⟩ := List.mem_map.mp he
    exact quiet x
  rw [List.foldl_append, hear_quiet skipped]

/-- **A channel that is lost** reports one loss, and nothing else is heard of it. -/
theorem hear_collapse (fired : Token → Bool) (d : Dispatch.State) (loss : Loss) (a : Affairs) :
    (d.collapse fired loss).foldl Affairs.hear a = { a with losses := a.losses ++ [loss] } := by
  have blamed (x : Dispatch.Entry) : Quiet (x.blamed fired loss) := quiet_resolved _ _
  have stale (x : Dispatch.Entry) : Quiet x.stale := quiet_resolved _ _
  rw [Dispatch.State.collapse, List.append_assoc, hear_outcomes blamed, hear_outcomes stale]
  rfl

/-- To hear the effects does not change the dispatcher. -/
theorem dispatch_hear (es : List Effect) (a : Affairs) :
    (es.foldl Affairs.hear a).dispatch = a.dispatch := by
  induction es generalizing a with
  | nil => rfl
  | cons e es ih =>
    rw [List.foldl_cons, ih]
    cases e with
    | resolved | called | lost => rfl
    | attached | detached | refused =>
      simp only [Affairs.hear, Affairs.reply]
      split <;> rfl

/-- **An input is taken**: what it is, and what remains to be taken. -/
inductive Takes (a : Affairs) : Input → Affairs → Prop where
  | order (c : Dispatch.Command) (rest : List Dispatch.Command) (first : a.orders = c :: rest)
      (order : isOrder c = true) : Takes a (.command c) { a with orders := rest }
  | shutdown (closing : Bool) (told : a.closing = true) :
      Takes a (.command .shutdown) { a with closing }
  | caller (c : Dispatch.Command) (noOrder : isOrder c = false) (noEnd : isShutdown c = false) :
      Takes a (.command c) a
  | completed (c : Dispatch.Completion) : Takes a (.completed c) a
  | exited (exit : Exit) : Takes a (.exited exit) a

section Handled

variable {fired : Token → Bool} {a : Affairs} {d₀ d : Dispatch.State} {effects : List Effect}

/-- An order is obeyed, or refused after the end. -/
theorem handled_order {c : Dispatch.Command} {rest : List Dispatch.Command}
    (rule : Iteration fired d₀ (.command c) d effects) (before : a.dispatch = d₀)
    (first : a.orders = c :: rest) (order : isOrder c = true) :
    Handled a (effects.foldl Affairs.hear { a with dispatch := d, orders := rest }) := by
  have stale (x : Dispatch.Entry) : Quiet x.stale := quiet_resolved _ _
  -- of the rules that take an order, only the ones below are about this kind of order
  cases c with
  | submit | cancel | shutdown => cases order
  | attach g p asker =>
    cases rule with
    | refused =>
      rw [← before]
      exact .refused _ asker rest first rfl (by rw [before]; rfl)
    | unheard _ h => exact absurd rfl (h _)
    | ended _ _ h => rcases h with h | h <;> cases h
    | attached _ _ _ _ live =>
      rw [hear_outcomes stale]
      exact .attached _ g p asker rest first (before ▸ live) rfl rfl
  | detach g asker =>
    cases rule with
    | refused =>
      rw [← before]
      exact .refused _ asker rest first rfl (by rw [before]; rfl)
    | unheard _ h => exact absurd rfl (h _)
    | ended _ _ h => rcases h with h | h <;> cases h
    | detached _ _ _ live attached =>
      rw [hear_outcomes stale]
      refine .detached _ g _ asker rest first (before ▸ live) ?_ rfl
      rw [before, if_pos attached]
      rfl
    | otherDetached _ _ _ live attached =>
      refine .detached _ g 0 asker rest first (before ▸ live) ?_ live
      rw [before, if_neg attached]

/-- Callers, calls and exits are no matter, or the channel is lost. -/
theorem handled_other {input : Input} (rule : Iteration fired d₀ input d effects)
    (before : a.dispatch = d₀) (settled : Settled d₀)
    (other : ∀ c, input = .command c → isOrder c = false ∧ isShutdown c = false)
    (notClosed : input ≠ .closed) :
    Handled a (effects.foldl Affairs.hear { a with dispatch := d }) := by
  have noMatter (quiet : ∀ e ∈ effects, Quiet e) (attached : d.attached = d₀.attached)
      (ended : d.ended = d₀.ended) :
      Handled a (effects.foldl Affairs.hear { a with dispatch := d }) := by
    rw [hear_quiet quiet]
    exact .noMatter d (before ▸ attached) (before ▸ ended)
  have lost {loss : Loss} (was : d₀.attached = some loss.generation) (now : d.attached = none)
      (ended : d.ended = d₀.ended) :
      Handled a ((d₀.collapse fired loss).foldl Affairs.hear { a with dispatch := d }) := by
    rw [hear_collapse]
    exact .lost d loss (before ▸ was) now (before ▸ ended)
  cases rule with
  | refused c =>
    obtain ⟨noOrder, noEnd⟩ := other c rfl
    cases c with
    | attach | detach => cases noOrder
    | shutdown => cases noEnd
    | submit | cancel => exact noMatter (by simp [Dispatch.refuse]) rfl rfl
  | unheard | notWaiting | tooLate | exitedAlone | queued => exact noMatter (by simp) rfl rfl
  | firedBefore | turnedAway | calledAtOnce => exact noMatter (by simp) rfl rfl
  | takenBack => exact noMatter (by simp [Dispatch.Entry.cancelled]) rfl rfl
  | attached | detached | otherDetached => cases (other _ rfl).1
  | answered => exact noMatter (by simp [Dispatch.Entry.cancelled]) rfl rfl
  | answeredAndCalled w e x q₁ q₂ =>
    -- the next call is of the same generation, so the same one stays attached
    have same : x.generation = e.generation := settled.same x (by simp)
    refine noMatter ?_ (congrArg some same) rfl
    rw [List.forall_mem_cons, List.forall_mem_append, List.forall_mem_map]
    exact ⟨quiet_resolved _ _, fun _ _ => quiet_resolved _ _, by simp⟩
  | failed => exact lost rfl rfl rfl
  | exited s g exit live attached => exact lost attached rfl live.symm
  | ended s input h =>
    rcases h with rfl | rfl
    · cases (other _ rfl).2
    · exact absurd rfl notClosed

/-- A dispatcher that was told to end handles it. -/
theorem handled_shutdown {closing : Bool}
    (rule : Iteration fired d₀ (.command .shutdown) d effects) (before : a.dispatch = d₀)
    (told : a.closing = true) :
    Handled a (effects.foldl Affairs.hear { a with dispatch := d, closing }) := by
  have closed (x : Dispatch.Entry) : Quiet x.closed := quiet_resolved _ _
  cases rule with
  | refused => exact .closed _ closing told rfl rfl
  | unheard _ h => exact absurd rfl (h _)
  | ended =>
    have heard := hear_outcomes closed d₀.pending [] { a with dispatch := .vacant true, closing }
    rw [List.append_nil] at heard
    rw [heard]
    exact .closed _ closing told rfl rfl

/-- **Whatever the dispatcher takes it handles**, one case for each rule. -/
theorem handled_of_takes {a' : Affairs} {input : Input} (taken : Takes a input a')
    (rule : Iteration fired a.dispatch input d effects) (settled : Settled a.dispatch) :
    Handled a (effects.foldl Affairs.hear { a' with dispatch := d }) := by
  cases taken with
  | order c rest first order => exact handled_order rule rfl first order
  | shutdown closing told => exact handled_shutdown rule rfl told
  | caller c noOrder noEnd =>
    refine handled_other rule rfl settled ?_ nofun
    rintro c' ⟨⟩
    exact ⟨noOrder, noEnd⟩
  | completed | exited => exact handled_other rule rfl settled nofun nofun

end Handled

section Dispatcher

variable {s : Supervisor}

/-- The next input is taken from the orders, the requests or the completions. -/
theorem nextInput?_takes {input : Input} {s' : Supervisor} (h : s.nextInput? = some (input, s')) :
    Takes s.affairs input s'.affairs ∧ s'.dispatch = s.dispatch := by
  unfold nextInput? at h
  cases inbox : s.inbox with
  | cons c rest =>
    simp only [inbox, Option.some.injEq, Prod.mk.injEq] at h
    obtain ⟨rfl, rfl⟩ := h
    refine ⟨?_, rfl⟩
    have left : affairs { s with inbox := rest } =
        { s.affairs with orders := rest.filter isOrder, closing := rest.any isShutdown } := rfl
    have orders : s.affairs.orders = (c :: rest).filter isOrder := by simp only [affairs, inbox]
    have closing : s.affairs.closing = (c :: rest).any isShutdown := by simp only [affairs, inbox]
    -- the orders and the end of the dispatcher are two views of the inbox: a command is taken
    -- from one of them or from none
    cases c with
    | submit | cancel =>
      have same : affairs { s with inbox := rest } = s.affairs := by
        rw [left, ← show s.affairs.orders = rest.filter isOrder from orders,
          ← show s.affairs.closing = rest.any isShutdown from closing]
      rw [same]
      exact .caller _ rfl rfl
    | attach | detach =>
      rw [left, ← show s.affairs.closing = rest.any isShutdown from closing]
      exact .order _ _ orders rfl
    | shutdown =>
      rw [left, ← show s.affairs.orders = rest.filter isOrder from orders]
      exact .shutdown _ closing
  | nil =>
    simp only [inbox] at h
    split at h
    · cases h
    · cases completions : s.completions with
      | cons c rest =>
        simp only [completions, Option.some.injEq, Prod.mk.injEq] at h
        obtain ⟨rfl, rfl⟩ := h
        have same : affairs { s with completions := rest, inbox := [] } = s.affairs := by
          simp only [affairs, inbox]
          rfl
        refine ⟨?_, rfl⟩
        rw [same]
        exact .completed c
      | nil =>
        simp only [completions] at h
        obtain ⟨exit, -, h⟩ := Option.map_eq_some_iff.mp h
        obtain ⟨rfl, rfl⟩ := Prod.mk.inj h
        exact ⟨.exited exit, rfl⟩

/-- **The move of the dispatcher.** -/
theorem runDispatcher_handled (fired : Token → Bool) (settled : Settled s.dispatch) :
    (s.runDispatcher fired).1 = s ∨
      Handled s.affairs (s.runDispatcher fired).1.affairs ∧
        Settled (s.runDispatcher fired).1.dispatch := by
  unfold runDispatcher
  cases next : s.nextInput? with
  | none => exact .inl rfl
  | some taken =>
    obtain ⟨input, s'⟩ := taken
    obtain ⟨takes, same⟩ := nextInput?_takes next
    have rule := Dispatch.step_iteration fired settled input
    -- taking the input leaves the dispatcher alone, and so does hearing what came of it
    simp only [same]
    have heard := affairs_absorb { s' with dispatch := (Dispatch.step fired s.dispatch input).1 }
      (Dispatch.step fired s.dispatch input).2
    refine .inr ⟨heard ▸ handled_of_takes takes rule settled, ?_⟩
    have dispatch := (congrArg Affairs.dispatch heard).trans (dispatch_hear _ _)
    exact Eq.mpr (congrArg Settled dispatch) (rule.settled settled)

end Dispatcher

/-! ## All moves -/

/-- What an operation is for that was begun by an errand, when so many tickets were drawn. -/
def Errand.purpose (tickets : Nat) : Errand → Purpose
  | .start => .start
  | .stop => .stop
  | .restart => .restart (tickets + 1)
  | .shutdown => .shutdown

def Errand.draws : Errand → Nat
  | .restart => 1
  | .start | .stop | .shutdown => 0

/-- The move has nothing to do with operations. -/
def Move.aside : Move → Bool
  | .submit _ _ | .withdraw _ | .answer _ _ | .settle _ | .exit _ _ | .tick _ => true
  | _ => false

/-- **What moves do.** -/
inductive Change (a : Affairs) : Move → Affairs → Prop where
  | aside (move : Move) (h : move.aside = true) : Change a move a
  | begin (errand : Errand) :
      Change a (.begin errand)
        { a with
          tickets := a.tickets + errand.draws, lock := a.lock.enter (errand.purpose a.tickets) }
  | draw :
      Change a .draw
        { a with
          tickets := a.tickets + 1, lock := a.lock.add (.restart (a.tickets + 1)) .drawn }
  | ask (id : OperationId) (h : a.lock.stage? id = some .drawn) :
      Change a (.ask id) { a with lock := a.lock.ask id }
  | askInVain (id : OperationId) (h : a.lock.stage? id ≠ some .drawn) : Change a (.ask id) a
  | dispatch (fired : Token → Bool) (a' : Affairs) (h : Handled a a')
      (settled : Settled a'.dispatch) : Change a (.dispatch fired) a'
  | noInput (fired : Token → Bool) : Change a (.dispatch fired) a
  | monitor (loss : Loss) (rest : List Loss) (h : a.losses = loss :: rest) :
      Change a .monitor { a with losses := rest, lock := a.lock.enter (.crash loss) }
  | noLoss : Change a .monitor a
  | proceed (o : Operation) (seen : Observation) (a' : Affairs)
      (h : a.lock.operation? o.id = some o) (rule : Advance a o seen a') :
      Change a (.proceed o.id seen) a'
  | leave (id : OperationId) (seen : Observation) (h : a.lock.stage? id = some .leaving) :
      Change a (.proceed id seen) (a.leave id)
  | stuck (id : OperationId) (seen : Observation)
      (h : ∀ o, a.lock.operation? id = some o → o.stage.goesOn seen = false) :
      Change a (.proceed id seen) a
  | collect (id : OperationId) : Change a (.collect id) { a with lock := a.lock.drop id }

/-- **Nobody gives up**: an operation goes its way to the end, and its result is collected when
it is there. -/
def Orderly (s : Supervisor) : Move → Prop
  | .abandon _ => False
  | .collect id => ∀ stage, s.stage? id = some stage → ∃ result, stage = .done result
  | _ => True

section Step

variable {s : Supervisor}

/-- Commands of callers do not concern the affairs. -/
theorem affairs_post_caller {c : Dispatch.Command} (noOrder : isOrder c = false)
    (noEnd : isShutdown c = false) : (s.post c).1.affairs = s.affairs := by
  rw [affairs_post]
  cases c with
  | attach | detach => cases noOrder
  | shutdown => cases noEnd
  | submit | cancel =>
    split
    · rfl
    · simp [isOrder, isShutdown]

theorem affairs_answer (id : RequestId) (result : Except ChannelFault Response) :
    (s.answer id result).1.affairs = s.affairs := by
  unfold answer
  split
  · rfl
  · split <;> rfl

theorem affairs_settle (id : RequestId) : (s.settle id).1.affairs = s.affairs := by
  unfold settle
  split
  · split <;> rfl
  · rfl

theorem affairs_exit (p : ProcessId) (exit : Exit) :
    (s.processExit p exit).affairs = s.affairs := by
  simp [processExit, affairs]
  rfl

/-- An operation begins by coming to the lock. -/
theorem begin_change (errand : Errand) :
    Change s.affairs (.begin errand) (s.begin errand).affairs := by
  have rule := Change.begin (a := s.affairs) errand
  cases errand with
  | start | stop | shutdown => exact s.affairs_enter _ ▸ rule
  | restart => exact affairs_enter { s with tickets := s.tickets + 1 } _ ▸ rule

theorem draw_change : Change s.affairs .draw s.draw.affairs := by
  have same : s.draw.affairs =
      { s.affairs with
        tickets := s.tickets + 1, lock := s.lock.add (.restart (s.tickets + 1)) .drawn } :=
    Affairs.ext s.lock_draw rfl rfl rfl rfl rfl rfl rfl rfl rfl rfl rfl rfl rfl rfl
  rw [same]
  exact .draw

theorem ask_change (id : OperationId) : Change s.affairs (.ask id) (s.ask id).affairs := by
  by_cases h : s.stage? id = some .drawn
  · have same : (s.ask id).affairs = { s.affairs with lock := s.lock.ask id } := by
      refine Affairs.ext (s.lock_ask id h) ?_ ?_ ?_ ?_ ?_ ?_ ?_ ?_ ?_ ?_ ?_ ?_ ?_ ?_ <;>
        cases holder : s.holder <;> simp only [ask, h, holder] <;> rfl
    rw [same]
    exact .ask id h
  · have same : s.ask id = s := by
      unfold ask
      split
      · rename_i drawn _
        exact absurd drawn h
      · rename_i drawn _
        exact absurd drawn h
      · rfl
    rw [same]
    exact .askInVain id h

/-- The monitor turns a loss into an operation that reports it. -/
theorem monitor_change : Change s.affairs .monitor s.monitorNext.affairs := by
  unfold monitorNext
  split
  · rename_i loss rest _ losses
    rw [affairs_enter]
    exact .monitor loss rest losses
  · exact .noLoss

/-- **An operation that goes on does so by a rule**, or it does not go on at all. -/
theorem proceed_change (id : OperationId) (seen : Observation) :
    Change s.affairs (.proceed id seen) (s.proceed id seen).1.affairs := by
  cases h : s.operation? id with
  | none =>
    have same : (s.proceed id seen).1 = s := by simp only [proceed, h]
    rw [same]
    refine .stuck id seen fun o ho => ?_
    cases h.symm.trans ho
  | some o =>
    obtain rfl := operation?_id h
    by_cases stage : o.stage = .leaving
    · exact proceed_leaving seen h stage ▸
        .leave o.id seen (stage ▸ Lock.stage?_of_known (k := s.lock) h)
    rcases proceed_advance seen h stage with ⟨stuck, same⟩ | rule
    · rw [same]
      refine .stuck o.id seen fun o' ho => ?_
      exact Option.some.inj (h.symm.trans ho) ▸ stuck
    · exact .proceed o seen _ h rule

/-- **Every orderly move is a change.** -/
theorem step_change {move : Move} (orderly : Orderly s move) (settled : Settled s.dispatch) :
    Change s.affairs move (s.step move).1.affairs := by
  cases move with
  | begin errand => exact begin_change errand
  | draw => exact draw_change
  | ask id => exact ask_change id
  | submit request token =>
    have same := affairs_post_caller (s := { s with nextRequest := s.nextRequest + 1 })
      (c := .submit s.nextRequest request token) rfl rfl
    exact same ▸ .aside _ rfl
  | withdraw id => exact affairs_post_caller (s := s) (c := .cancel id) rfl rfl ▸ .aside _ rfl
  | dispatch fired =>
    rcases runDispatcher_handled fired settled with same | ⟨handled, settled⟩
    · exact same.symm ▸ .noInput fired
    · exact .dispatch fired _ handled settled
  | monitor => exact monitor_change
  | proceed id seen => exact proceed_change id seen
  | answer id result => exact s.affairs_answer id result ▸ .aside _ rfl
  | settle id => exact s.affairs_settle id ▸ .aside _ rfl
  | exit p exit => exact s.affairs_exit p exit ▸ .aside _ rfl
  | abandon id => exact orderly.elim
  | collect id => exact s.affairs_collect id ▸ .collect id
  | tick ms => exact .aside _ rfl

end Step

/-! ## Order is kept -/

section Lock

variable {a a' : Affairs}

/-- Who is answered holds the lock, and has begun. -/
theorem answered_holds {e : Effect} {before after : Stage}
    (h : before.answered e = some after) : before.holds = true ∧ before.begun = true := by
  unfold Stage.answered at h
  split at h <;> cases h <;> exact ⟨rfl, rfl⟩

/-- An answer loads no settings; they were loaded, or are not needed. -/
theorem answered_loaded {e : Effect} {before after : Stage} (h : before.answered e = some after) :
    after.loaded? = before.loaded? ∧ after.loaded? ≠ none := by
  unfold Stage.answered at h
  split at h <;> cases h <;> exact ⟨rfl, nofun⟩

/-- An answer brings an operation nearer to its end. -/
theorem answered_nears {e : Effect} {before after : Stage} (h : before.answered e = some after)
    (purpose : Option Purpose) : before.Nears after purpose := by
  refine ⟨?_, ?_, ?_, fun none => absurd none (answered_loaded h).2⟩
  all_goals
    unfold Stage.answered at h
    split at h <;> cases h <;> simp [Stage.holds, Stage.begun, Stage.distance]

/-- An answer moves an operation that is at work, or nothing. -/
theorem lock_reply (a : Affairs) (asker : OperationId) (e : Effect) :
    (a.reply asker e).lock = a.lock ∨ ∃ before after, a.lock.stage? asker = some before ∧
      before.answered e = some after ∧ (a.reply asker e).lock = a.lock.reach asker after := by
  unfold Affairs.reply
  cases h : (a.lock.stage? asker).bind (Stage.answered e) with
  | none => exact .inl rfl
  | some after =>
    obtain ⟨before, hb, answered⟩ := Option.bind_eq_some_iff.mp h
    exact .inr ⟨before, after, hb, answered, rfl⟩

/-- **An input of the dispatcher answers at most one operation**, and changes nothing else of the
lock. -/
theorem Handled.lock (handled : Handled a a') :
    a'.lock = a.lock ∨ ∃ asker e before after, a.lock.stage? asker = some before ∧
      before.answered e = some after ∧ a'.lock = a.lock.reach asker after := by
  cases handled with
  | noMatter | lost | closed => exact .inl rfl
  | attached | detached | refused =>
    rcases lock_reply _ _ _ with same | ⟨before, after, hb, answered, lock⟩
    · exact .inl same
    · exact .inr ⟨_, _, before, after, hb, answered, lock⟩

/-- **Every change keeps the lock sound.** -/
theorem Change.sound {move : Move} (change : Change a move a') (sound : a.lock.Sound)
    (collects : ∀ id, move = .collect id → a.lock.Done id) :
    a'.lock.Sound := by
  cases change with
  | aside | askInVain | noInput | noLoss | stuck => exact sound
  | begin | monitor => exact sound.enter _
  | draw => exact sound.add rfl nofun
  | ask id drawn => exact sound.ask drawn
  | collect id => exact sound.drop (collects id rfl)
  | dispatch _ _ handled =>
    rcases handled.lock with same | ⟨asker, e, before, after, hb, answered, lock⟩
    · exact same ▸ sound
    · have holder := sound.holder hb (answered_holds answered).1
      exact lock ▸ sound.reach holder (answered_nears answered none).holds
  | proceed o seen _ known rule =>
    have holder := rule.holder sound known
    rcases rule.lock with ⟨stage, nears, lock⟩ | ⟨result, lock⟩
    · exact lock ▸ sound.reach holder nears.holds
    · exact lock ▸ sound.finish holder (over_last o.purpose result)
  | leave id seen h => exact sound.reach_over h rfl rfl

/-- Every change leaves the dispatcher settled. -/
theorem Change.settled {move : Move} (change : Change a move a') (settled : Settled a.dispatch) :
    Settled a'.dispatch := by
  cases change with
  | dispatch _ _ _ settled => exact settled
  | proceed o seen _ known rule => exact rule.dispatch.symm ▸ settled
  | aside | begin | draw | ask | askInVain | noInput | monitor | noLoss | leave | stuck |
      collect =>
    exact settled

end Lock

/-! ## What is true of all operations

A law about operations and their stages needs to be proved for who goes on, for who hands the lock
on, for a shutdown that ends the dispatcher, and for who is answered by the dispatcher. Who has not
begun is no concern of such a law. -/

/-- All operations are as they should be. -/
def Lock.All (P : OperationId → Option Purpose → Stage → Prop) (k : Lock) : Prop :=
  ∀ id stage, k.stage? id = some stage → P id (k.purpose? id) stage

section All

variable {P : OperationId → Option Purpose → Stage → Prop} {a a' : Affairs}

/-- What holds of all stages holds after one of them has changed, if it holds of the new one. -/
theorem Lock.All.update {k k' : Lock} {id : OperationId} {now : Option Stage} (all : k.All P)
    (stages : k'.stage? = Function.update k.stage? id now)
    (purposes : ∀ j, j ≠ id → k'.purpose? j = k.purpose? j)
    (here : ∀ stage, now = some stage → P id (k'.purpose? id) stage) : k'.All P := by
  intro j stage at_
  rw [stages] at at_
  by_cases same : j = id
  · subst same
    rw [Function.update_self] at at_
    exact here stage at_
  · rw [Function.update_of_ne same] at at_
    rw [purposes j same]
    exact all j stage at_

/-- What holds of all stages holds on when an operation comes to a stage of which it holds. -/
theorem Lock.All.reach {k : Lock} {id : OperationId} {now : Stage} (all : k.All P)
    (known : k.stage? id ≠ none) (here : P id (k.purpose? id) now) : (k.reach id now).All P := by
  refine all.update (Lock.stage?_reach _ known) (fun j _ => by rw [Lock.purpose?_reach]) ?_
  rintro _ ⟨⟩
  rw [Lock.purpose?_reach]
  exact here

/-- What holds of all stages holds on when the holder finishes, if it holds of its last stage and of
all that did nothing yet. -/
theorem Lock.All.finish {k : Lock} {id : OperationId} {last : Stage} (all : k.All P)
    (fresh : ∀ id purpose stage, stage.begun = false → P id purpose stage) (sound : k.Sound)
    (holder : k.holder = some id) (here : P id (k.purpose? id) last) :
    (k.finish id last).All P := by
  -- who has the lock next has not begun
  intro j stage at_
  rw [Lock.purpose?_finish]
  rcases sound.finish_cases holder last with ⟨-, stages⟩ | ⟨n, -, -, -, stages⟩
  · rw [stages, Function.update_apply] at at_
    split at at_
    · rename_i same
      cases at_
      exact same ▸ here
    · exact all j stage at_
  · rw [stages, Function.update_apply, Function.update_apply] at at_
    split at at_
    · cases at_
      exact fresh _ _ _ rfl
    · split at at_
      · rename_i same
        cases at_
        exact same ▸ here
      · exact all j stage at_

/-- **All operations stay as they should be**, if those do that go on, hand the lock on, leave or
are answered. -/
theorem Change.all {move : Move} (change : Change a move a') (sound : a.lock.Sound)
    (fresh : ∀ id purpose stage, stage.begun = false → P id purpose stage) (all : a.lock.All P)
    (answers : ∀ fired, move = .dispatch fired → Handled a a' → a'.lock.All P)
    (advances : ∀ o seen now, a.lock.operation? o.id = some o → Advance a o seen a' →
      a'.lock = a.lock.reach o.id now → now.holds = true → P o.id (some o.purpose) now)
    (finishes : ∀ o seen result, a.lock.operation? o.id = some o → Advance a o seen a' →
      a'.lock = a.lock.finish o.id (o.purpose.last result) →
        P o.id (some o.purpose) (o.purpose.last result))
    (leaves : ∀ id seen, move = .proceed id seen → a.lock.stage? id = some .leaving →
      a' = a.leave id → P id (a.lock.purpose? id) (.done .stopped)) :
    a'.lock.All P := by
  have free := sound.fresh a.lock.next (Nat.le_refl _)
  -- one who comes did nothing yet, whether it waits or has the lock at once
  have entered (purpose : Purpose) : (a.lock.enter purpose).All P := by
    obtain ⟨stage, quiet, stages⟩ := Lock.stage?_enter purpose free
    refine all.update stages (fun j other => ?_) ?_
    · rw [Lock.purpose?_enter _ free, Function.update_of_ne other]
    · rintro _ ⟨⟩
      exact fresh _ _ _ quiet
  cases change with
  | aside | askInVain | noInput | noLoss | stuck => exact all
  | begin | monitor => exact entered _
  | draw =>
    refine all.update (Lock.stage?_add _ _ free) (fun j other => ?_) ?_
    · rw [Lock.purpose?_add _ free, Function.update_of_ne other]
    · rintro _ ⟨⟩
      exact fresh _ _ _ rfl
  | ask id drawn =>
    obtain ⟨stage, quiet, stages⟩ := Lock.stage?_ask drawn
    refine all.update stages (fun j _ => by rw [Lock.purpose?_ask]) ?_
    rintro _ ⟨⟩
    exact fresh _ _ _ quiet
  | collect id =>
    refine all.update Lock.stage?_drop (fun j other => ?_) nofun
    rw [Lock.purpose?_drop, Function.update_of_ne other]
  | dispatch fired _ handled => exact answers fired rfl handled
  | leave id _ leaving => exact all.reach (by simp [leaving]) (leaves id _ rfl leaving rfl)
  | proceed o seen _ known rule =>
    have stage := Lock.stage?_of_known known
    have mine := Lock.purpose?_of_known known
    -- it comes to a stage, or it hands the lock on and the next one has its turn
    rcases rule.lock with ⟨now, nears, lock⟩ | ⟨result, lock⟩
    · rw [lock]
      refine all.reach (by simp [stage]) ?_
      rw [mine]
      exact advances o seen now known rule lock nears.holds
    · rw [lock]
      refine all.finish fresh sound (rule.holder sound known) ?_
      rw [mine]
      exact finishes o seen result known rule lock

end All

/-! ## Moves that are no matter to who is at work

What an operation does when it goes on is `Advance`, and what the dispatcher does is `Handled`. All
other moves leave the work that is under way alone, and all that comes of work. -/

/-- **The move is no matter** to who is at work. -/
structure Affairs.Bystands (a a' : Affairs) : Prop where
  lock : Lock.Undisturbed a.lock a'.lock
  task : ∀ id, a.lock.holder = some id → a'.lock.purpose? id = a.lock.purpose? id
  session : a'.session = a.session
  covered : a'.covered = a.covered
  lastRestart : a'.lastRestart = a.lastRestart
  generation : a'.generation = a.generation
  status : a'.status = a.status
  statuses : a'.statuses = a.statuses
  current : a'.current = a.current
  events : a'.events = a.events
  spawned : a'.spawned = a.spawned
  dispatch : a'.dispatch = a.dispatch
  orders : a'.orders = a.orders

section Bystands

variable {a a' : Affairs} {move : Move}

/-- Whatever changes the lock alone, and leaves the holder undisturbed, stands by. -/
theorem bystands_lock (lock : Lock.Undisturbed a.lock a'.lock)
    (task : ∀ id, a.lock.holder = some id → a'.lock.purpose? id = a.lock.purpose? id)
    (same : a' = { a with
      lock := a'.lock, tickets := a'.tickets, losses := a'.losses, closing := a'.closing }) :
    a.Bystands a' := by
  rw [same]
  exact ⟨lock, task, rfl, rfl, rfl, rfl, rfl, rfl, rfl, rfl, rfl, rfl, rfl⟩

/-- **Every change** is made by an operation that goes on, or by the dispatcher, or it is no matter
to who is at work. -/
theorem Change.trichotomy (change : Change a move a') (sound : a.lock.Sound)
    (collects : ∀ id, move = .collect id → a.lock.Done id) :
    (∃ o seen, move = .proceed o.id seen ∧ a.lock.operation? o.id = some o ∧
        Advance a o seen a') ∨
      (∃ fired, move = .dispatch fired ∧ Handled a a') ∨ a.Bystands a' := by
  have nothing : a.Bystands a := bystands_lock (.inl ⟨rfl, rfl⟩) (fun _ _ => rfl) rfl
  -- who holds the lock is known already, so its purpose is not touched by a newcomer
  have free := sound.fresh a.lock.next (Nat.le_refl _)
  have fresh : ∀ id, a.lock.holder = some id → id ≠ a.lock.next := fun id h =>
    Nat.ne_of_lt (sound.holder_lt h)
  have entered (purpose : Purpose) (id : OperationId) (h : a.lock.holder = some id) :
      (a.lock.enter purpose).purpose? id = a.lock.purpose? id := by
    rw [Lock.purpose?_enter _ free, Function.update_of_ne (fresh id h)]
  cases change with
  | proceed o seen _ known rule => exact .inl ⟨o, seen, rfl, known, rule⟩
  | dispatch fired _ handled => exact .inr (.inl ⟨fired, rfl, handled⟩)
  | aside | askInVain | noInput | noLoss | stuck => exact .inr (.inr nothing)
  | begin | monitor =>
    exact .inr (.inr (bystands_lock (sound.undisturbed_enter _) (entered _) rfl))
  | draw =>
    refine .inr (.inr (bystands_lock (sound.undisturbed_add _ _) (fun id h => ?_) rfl))
    rw [Lock.purpose?_add _ free, Function.update_of_ne (fresh id h)]
  | ask id drawn =>
    refine .inr (.inr (bystands_lock (sound.undisturbed_ask drawn) (fun _ _ => ?_) rfl))
    rw [Lock.purpose?_ask]
  | leave id _ leaving =>
    refine .inr (.inr (bystands_lock (sound.undisturbed_over leaving rfl) (fun j _ => ?_) rfl))
    exact congrFun Lock.purpose?_reach j
  | collect id =>
    have done := collects id rfl
    refine .inr (.inr (bystands_lock (sound.undisturbed_drop done) (fun j h => ?_) rfl))
    obtain ⟨stage, hs, holds⟩ := (sound.held j).mp h
    have other : j ≠ id := by
      rintro rfl
      obtain ⟨result, rfl⟩ := done stage hs
      cases holds
    rw [Lock.purpose?_drop, Function.update_of_ne other]

end Bystands

/-! ## Runs -/

/-- **The supervisor as a machine.** -/
def machine : Machine Supervisor Move Signal where
  start := .initial
  step := Supervisor.step

/-- The supervisor is in order: its dispatcher is settled and its lock is sound. -/
structure InOrder (s : Supervisor) : Prop where
  settled : Settled s.dispatch
  sound : s.lock.Sound

/-- In the beginning everything is in order. -/
theorem inOrder_initial : InOrder initial where
  settled := .vacant false
  sound := by
    refine ⟨fun _ _ => rfl, fun id => ?_, fun id => ?_, List.nodup_nil⟩
    · simp [initial, lock, operation?, Lock.stage?]
    · simp [initial, lock, operation?, Lock.stage?]

/-- **An orderly move keeps everything in order.** -/
theorem InOrder.step {s : Supervisor} {move : Move} (inOrder : InOrder s)
    (orderly : Orderly s move) : InOrder (s.step move).1 := by
  have change := step_change orderly inOrder.settled
  refine ⟨change.settled inOrder.settled, change.sound inOrder.sound ?_⟩
  rintro id rfl
  exact orderly

def OrderlyRun (xs : List Move) : Prop :=
  ∀ e ∈ machine.history xs, Orderly e.before e.action

/-- A run is orderly if it was before and its last move is. -/
theorem orderlyRun_concat {xs : List Move} {x : Move} :
    OrderlyRun (xs ++ [x]) ↔ OrderlyRun xs ∧ Orderly (machine.run xs) x := by
  rw [OrderlyRun, OrderlyRun, machine.history_concat, List.forall_mem_append,
    List.forall_mem_singleton]

/-- The beginning of an orderly run is orderly. -/
theorem OrderlyRun.shorter {xs ys : List Move} (orderly : OrderlyRun (xs ++ ys)) :
    OrderlyRun xs := by
  rw [OrderlyRun, Machine.history, Machine.historyFrom_append, List.forall_mem_append] at orderly
  exact orderly.1

/-- An orderly run is orderly up to each of its events. -/
theorem OrderlyRun.upTo {xs : List Move} (orderly : OrderlyRun xs)
    {past later : List machine.Event} {e : machine.Event}
    (cut : machine.history xs = past ++ e :: later) :
    ∃ ys x, past = machine.history ys ∧ e = ⟨machine.run ys, x⟩ ∧ OrderlyRun (ys ++ [x]) :=
  machine.history_upTo orderly cut

/-- **What orderly moves keep is kept to the end**: if it holds after some moves of an orderly run,
it holds after all of them. -/
theorem OrderlyRun.keeps {P : List Move → Prop} {xs ys : List Move}
    (orderly : OrderlyRun (xs ++ ys))
    (step : ∀ {zs z}, OrderlyRun (zs ++ [z]) → P zs → P (zs ++ [z])) (holds : P xs) :
    P (xs ++ ys) := by
  induction ys using List.reverseRecOn with
  | nil => rwa [List.append_nil]
  | append_singleton ys y ih =>
    rw [← List.append_assoc] at orderly ⊢
    exact step orderly (ih (orderlyRun_concat.mp orderly).1)

/-- **Order is kept in every orderly run.** -/
theorem run_inOrder {xs : List Move} (orderly : OrderlyRun xs) : InOrder (machine.run xs) := by
  induction xs using List.reverseRecOn with
  | nil => exact inOrder_initial
  | append_singleton xs x ih =>
    obtain ⟨before, now⟩ := orderlyRun_concat.mp orderly
    rw [machine.run_concat]
    exact (ih before).step now

/-- **Every event of an orderly run is one of the changes.** -/
theorem event_change {xs : List Move} {x : Move} (orderly : OrderlyRun (xs ++ [x])) :
    Change (machine.run xs).affairs x (machine.run (xs ++ [x])).affairs := by
  obtain ⟨before, now⟩ := orderlyRun_concat.mp orderly
  rw [machine.run_concat]
  exact step_change now (run_inOrder before).settled

/-- Only a shutdown has something left to do when it has handed the lock on. -/
def Lock.Departs : Lock → Prop :=
  Lock.All fun _ purpose stage => stage = .leaving → purpose = some .shutdown

/-- Operations keep to the stages of their purpose. -/
theorem Change.departs {a a' : Affairs} {move : Move} (change : Change a move a')
    (sound : a.lock.Sound) (departs : a.lock.Departs) : a'.lock.Departs := by
  refine change.all sound ?_ departs (fun _ _ handled => ?_) ?_ ?_ (fun _ _ _ _ _ => nofun)
  · rintro _ _ _ quiet rfl
    cases quiet
  · rcases handled.lock with same | ⟨asker, e, before, after, stage, answered, lock⟩
    · exact same ▸ departs
    · rw [lock]
      refine departs.reach (by simp [stage]) ?_
      rintro rfl
      cases (answered_nears answered none).holds
  · rintro _ _ _ - - - holds rfl
    cases holds
  · rintro o _ _ - - - last
    cases purpose : o.purpose with
    | shutdown => rfl
    | start | stop | restart | crash =>
      rw [purpose] at last
      cases last

/-- In every orderly run they do. -/
theorem run_departs {xs : List Move} (orderly : OrderlyRun xs) :
    (machine.run xs).lock.Departs := by
  induction xs using List.reverseRecOn with
  | nil => nofun
  | append_singleton xs x ih =>
    have before := (orderlyRun_concat.mp orderly).1
    exact (event_change orderly).departs (run_inOrder before).sound (ih before)

/-- The move neither gives up an operation nor collects a result. -/
def Move.keeps : Move → Bool
  | .abandon _ | .collect _ => false
  | _ => true

/-- A run in which nothing is given up and nothing collected is orderly. -/
theorem orderlyRun_of_keeps {xs : List Move} (h : ∀ x ∈ xs, x.keeps = true) : OrderlyRun xs := by
  intro e he
  have keeps := h _ (machine.action_mem he)
  cases hx : e.action with
  | abandon | collect =>
    rw [hx] at keeps
    cases keeps
  | _ => trivial

/-- The moves by which an operation that is to launch a process comes to a session. -/
def launching (id : OperationId) (pid : UInt32) : List Move :=
  [ .proceed id (.launched (.ok (.default, pid))),
    .proceed id (.probed (.answered ⟨"4.2.1", [], false⟩)),
    .dispatch fun _ => false, .proceed id .nothing ]

end CompilerSession.Supervisor
