import CompilerSession.Proofs.Session.Restarts
import CompilerSession.Proofs.Session.Progress

/-
Restarts share their work.

A restart that is asked for while another one waits is not carried out twice: one of them does
the work for both, and both return what it came to. This file says exactly when. What a caller
may rely on is that the settings were loaded after it drew its ticket, whoever loaded them; that
is the first part of the main statement, and the second says when a restart does the work
itself. The third is about bursts.

The proof follows one ticket from the moment at which it was drawn. `Stretch` says what can have
happened since: no restart has begun, and the ticket is not covered; or one has begun, is still
at work, and covers it; or one that began after the ticket was drawn has come to something, and
that is what the supervisor remembers. Every event leads from one of these to one of these.
-/

set_option autoImplicit false

namespace CompilerSession.Supervisor

/-! ## Events of restarts -/

def Draws (e : machine.Event) (id : OperationId) : Prop :=
  (e.action = .draw ∨ e.action = .begin .restart) ∧ id = e.before.nextOperation

/-- A restart has its turn: it holds the lock and did nothing yet. -/
def HasTurn (e : machine.Event) (id : OperationId) : Prop :=
  (∃ seen, e.action = .proceed id seen) ∧ e.before.lock.IsRestart id ∧
    e.before.lock.stage? id = some .entered

/-- **A restart begins**: it has its turn, and after that it is on its way to a new session. -/
def Begins (e : machine.Event) (id : OperationId) : Prop :=
  HasTurn e id ∧ e.after.lock.Restarting id false

/-- An operation loads the settings. -/
def Loads (e : machine.Event) (id : OperationId) : Prop :=
  (∃ outcome, e.action = .proceed id (.launched outcome)) ∧
    e.before.lock.stage? id = some .launching

/-- **A restart returns.** -/
def Returns (e : machine.Event) (id : OperationId) (outcome : Except Failure Info) : Prop :=
  e.before.lock.IsRestart id ∧ (∀ result, e.before.lock.stage? id ≠ some (.done result)) ∧
    e.after.lock.stage? id = some (.done (.launched outcome))

/-- **A restart was performed**: it began, then loaded the settings, and then returned. -/
def Performed (r : OperationId) (outcome : Except Failure Info) (h : List machine.Event) : Prop :=
  ∃ past b mid l later, h = past ++ b :: (mid ++ l :: later) ∧ Begins b r ∧ Loads l r ∧
    ∃ c ∈ l :: later, Returns c r outcome

/-- What is known of every event of an orderly run. -/
structure Regular (e : machine.Event) : Prop where
  inOrder : InOrder e.before
  orderly : Orderly e.before e.action
  covered : e.before.covered ≤ e.before.tickets

section Events

variable {e : machine.Event} {id r : OperationId} {outcome : Except Failure Info} {b : Bool}

/-- A restart that is at work has a stage of the work. -/
theorem Lock.Restarting.stage {k : Lock} (h : k.Restarting id b) :
    ∃ stage, k.stage? id = some stage ∧ stage.loaded? = some b := by
  obtain ⟨holder, -, loaded⟩ := h
  obtain ⟨stage, at_, loaded⟩ := Option.bind_eq_some_iff.mp loaded
  exact ⟨stage, (at?_of_holder holder).symm.trans at_, loaded⟩

/-- **At most one restart is at work.** -/
theorem Lock.Restarting.unique {k : Lock} {b' : Bool} (h : k.Restarting id b)
    (h' : k.Restarting r b') : r = id ∧ b' = b :=
  ⟨Option.some.inj (h'.1.symm.trans h.1), Option.some.inj (h'.2.2.symm.trans h.2.2)⟩

/-- A restart that is at work has no result yet. -/
theorem Lock.Restarting.not_done {k : Lock} (h : k.Restarting id b) (result : Result) :
    k.stage? id ≠ some (.done result) := by
  obtain ⟨stage, hs, loaded⟩ := h.stage
  rintro done
  obtain rfl := Option.some.inj (hs.symm.trans done)
  cases loaded

/-- No restart returns in the step in which it begins. -/
theorem Begins.not_returns (begins : Begins e id) : ¬ Returns e id outcome :=
  fun returns => begins.2.not_done _ returns.2.2

/-- While a restart is at work, nobody has a turn. -/
theorem Lock.Restarting.not_turn (h : e.before.lock.Restarting id b)
    (sound : e.before.lock.Sound) : ¬ HasTurn e r := by
  rintro ⟨-, -, entered⟩
  obtain ⟨stage, hs, loaded⟩ := h.stage
  have same := sound.holder entered rfl
  obtain rfl := Option.some.inj (h.1.symm.trans same)
  obtain rfl := Option.some.inj (hs.symm.trans entered)
  cases loaded

namespace Regular

/-- What happens in an ordinary event is one of the changes. -/
theorem change (regular : Regular e) : Change e.before.affairs e.action e.after.affairs :=
  step_change regular.orderly regular.inOrder.settled

/-- In an ordinary event only results are collected. -/
theorem collects (regular : Regular e) (id : OperationId) (h : e.action = .collect id) :
    ∀ stage, e.before.lock.stage? id = some stage → ∃ result, stage = .done result := by
  have orderly := regular.orderly
  rw [h] at orderly
  exact orderly

/-- An ordinary event keeps to the course of restarts. -/
theorem course (regular : Regular e) : Course e.before.affairs e.action e.after.affairs :=
  regular.change.course regular.inOrder.sound regular.collects

/-- Who has its turn begins, or returns at once with what the latest restart came to. -/
theorem on_turn (regular : Regular e) (turn : HasTurn e id) :
    ∃ ticket, e.before.lock.purpose? id = some (.restart ticket) ∧
      ((ticket ≤ e.before.covered → e.before.lastRestart = none) ∧ Begins e id ∨
        ticket ≤ e.before.covered ∧ (∀ r b, ¬ e.before.lock.Restarting r b) ∧
          ∃ outcome, e.before.lastRestart = some outcome ∧ Returns e id outcome) := by
  have sound := regular.inOrder.sound
  have parts := turn
  obtain ⟨⟨seen, action⟩, restart, entered⟩ := parts
  cases regular.course with
  | begun r ticket seen' act purpose stage uncovered covered now =>
    obtain ⟨rfl, -⟩ := Move.proceed.inj (action.symm.trans act)
    exact ⟨ticket, purpose, .inl ⟨uncovered, turn, now⟩⟩
  | coalesced r ticket outcome seen' act purpose stage old last done _ _ before =>
    obtain ⟨rfl, -⟩ := Move.proceed.inj (action.symm.trans act)
    refine ⟨ticket, purpose, .inr ⟨old, before, outcome, last, restart, fun result h => ?_, done⟩⟩
    cases entered.symm.trans h
  | carriedOn r b b' seen' act before => exact absurd turn (before.not_turn sound)
  | concluded r b outcome seen' act before => exact absurd turn (before.not_turn sound)
  | aside _ _ _ noTurn => exact absurd entered (noTurn id seen action restart)

/-- A restart returns when it goes on. -/
theorem returning (regular : Regular e) (returns : Returns e id outcome) :
    ∃ seen, e.action = .proceed id seen := by
  have sound := regular.inOrder.sound
  obtain ⟨⟨ticket, purpose⟩, undone, done⟩ := returns
  obtain ⟨o, known, -⟩ := Option.map_eq_some_iff.mp purpose
  have given : id < e.before.lock.next := sound.lt_next (by simp [Lock.stage?, known])
  have passage : Passage e.action id (e.before.lock.purpose? id) (e.before.lock.stage? id)
      (e.after.lock.stage? id) :=
    regular.change.passage sound regular.collects given
  generalize e.after.lock.stage? id = after at passage done
  cases passage with
  | stays => exact absurd done (undone _)
  | waits _ _ _ _ still =>
    obtain rfl := Option.some.inj done
    cases still
  | works _ _ _ _ nears =>
    obtain rfl := Option.some.inj done
    cases nears.holds
  | returns _ _ _ seen turn => exact ⟨seen, turn⟩
  | departs | leaves => cases done

/-- Who returns has its turn, or is at work and has loaded the settings. -/
theorem on_return (regular : Regular e) (returns : Returns e id outcome) :
    HasTurn e id ∨ ∃ b, e.before.lock.Restarting id b ∧ (b = true ∨ Loads e id) := by
  obtain ⟨seen, action⟩ := regular.returning returns
  have ⟨restart, undone, done⟩ := returns
  cases regular.course with
  | begun r ticket seen' act _ _ _ _ now =>
    obtain ⟨rfl, -⟩ := Move.proceed.inj (action.symm.trans act)
    exact absurd done (now.not_done _)
  | coalesced r ticket outcome' seen' act purpose stage =>
    obtain ⟨rfl, -⟩ := Move.proceed.inj (action.symm.trans act)
    exact .inl ⟨⟨seen, action⟩, restart, stage⟩
  | carriedOn r b b' seen' act before after =>
    obtain ⟨rfl, -⟩ := Move.proceed.inj (action.symm.trans act)
    exact absurd done (after.not_done _)
  | concluded r b outcome' seen' act before loads =>
    obtain ⟨rfl, rfl⟩ := Move.proceed.inj (action.symm.trans act)
    refine .inr ⟨b, before, loads.imp_right ?_⟩
    rintro ⟨stage, told, rfl⟩
    exact ⟨⟨told, action⟩, stage⟩
  | aside _ _ _ _ noReturn =>
    exact absurd (noReturn id seen outcome action restart done) (undone _)

end Regular

end Events

/-! ## What happened since a ticket was drawn -/

/-- A restart is on its way: it waits, or it is at work. -/
def Lock.OnItsWay (k : Lock) (id : OperationId) : Prop :=
  k.IsRestart id ∧ ∃ stage, k.stage? id = some stage ∧ (stage.begun = false ∨ stage.loaded? ≠ none)

/-- The operation is a restart with this ticket, or it was forgotten. -/
structure Affairs.Ticketed (a : Affairs) (id : OperationId) (ticket : Nat) : Prop where
  given : id < a.lock.next
  mine : ∀ purpose, a.lock.purpose? id = some purpose → purpose = .restart ticket
  drawn : ticket ≤ a.tickets

/-- **What can have happened since a ticket was drawn.** -/
inductive Stretch (id : OperationId) (ticket : Nat) (h : List machine.Event) (a : Affairs) :
    Prop where
  /-- No restart has begun. -/
  | untouched (nobody : ∀ b ∈ h, ∀ r, ¬ Begins b r) (uncovered : a.covered < ticket)
      (idle : ∀ b, ¬ a.lock.Restarting id b)
  /-- A restart has begun and is still at work. -/
  | underway (r : OperationId) (past : List machine.Event) (b : machine.Event)
      (mid : List machine.Event) (loaded : Bool) (cut : h = past ++ b :: mid) (begins : Begins b r)
      (covered : ticket ≤ a.covered) (atWork : a.lock.Restarting r loaded)
      (load : loaded = true → ∃ l ∈ mid, Loads l r)
  /-- A restart was performed. -/
  | performed (r : OperationId) (outcome : Except Failure Info) (performed : Performed r outcome h)
      (covered : ticket ≤ a.covered) (last : a.lastRestart = some outcome)
      (nobody : ∀ r b, ¬ a.lock.Restarting r b)

section Since

variable {id r : OperationId} {ticket : Nat} {h : List machine.Event} {e : machine.Event}
  {outcome : Except Failure Info}

/-- A restart on its way has no result yet. -/
theorem Lock.OnItsWay.not_done {k : Lock} (way : k.OnItsWay id) (result : Result) :
    k.stage? id ≠ some (.done result) := by
  obtain ⟨-, stage, h, still⟩ := way
  intro done
  obtain rfl := Option.some.inj (h.symm.trans done)
  rcases still with quiet | loaded
  · cases quiet
  · exact loaded rfl

/-- A ticket that was drawn stays drawn. -/
theorem Affairs.Ticketed.step {a a' : Affairs} {move : Move} (ticketed : a.Ticketed id ticket)
    (change : Change a move a') (sound : a.lock.Sound) : a'.Ticketed id ticket where
  given := Nat.lt_of_lt_of_le ticketed.given change.next_le
  drawn := Nat.le_trans ticketed.drawn change.tickets_le
  mine := by
    rcases change.purpose? sound ticketed.given with same | none
    · rw [same]
      exact ticketed.mine
    · rw [none]
      nofun

/-- A restart that draws a ticket gets a number and a ticket that were not given before. -/
theorem Change.ticketed {a a' : Affairs} {move : Move} (change : Change a move a')
    (sound : a.lock.Sound) (draws : move = .draw ∨ move = .begin .restart) :
    a'.Ticketed a.lock.next (a.tickets + 1) ∧ a'.covered = a.covered ∧
      a'.lock.OnItsWay a.lock.next := by
  have free := sound.fresh a.lock.next (Nat.le_refl _)
  -- to draw alone and to draw and ask at once differ in the first stage only
  have taken {b : Affairs} {stage : Stage} (next : b.lock.next = a.lock.next + 1)
      (purposes : b.lock.purpose? = Function.update a.lock.purpose? a.lock.next
        (some (.restart (a.tickets + 1))))
      (stages : b.lock.stage? = Function.update a.lock.stage? a.lock.next (some stage))
      (quiet : stage.begun = false) (tickets : b.tickets = a.tickets + 1)
      (covered : b.covered = a.covered) :
      b.Ticketed a.lock.next (a.tickets + 1) ∧ b.covered = a.covered ∧
        b.lock.OnItsWay a.lock.next := by
    have purpose : b.lock.purpose? a.lock.next = some (.restart (a.tickets + 1)) := by
      rw [purposes, Function.update_self]
    refine ⟨⟨?_, fun p found => ?_, Nat.le_of_eq tickets.symm⟩, covered, ⟨_, purpose⟩, stage, ?_⟩
    · rw [next]
      exact Nat.lt_succ_self _
    · exact (Option.some.inj (purpose.symm.trans found)).symm
    · exact ⟨by rw [stages, Function.update_self], .inl quiet⟩
  rcases draws with rfl | rfl
  · cases change with
    | aside _ h => cases h
    | draw => exact taken rfl (Lock.purpose?_add _ free) (Lock.stage?_add _ _ free) rfl rfl rfl
  · cases change with
    | aside _ h => cases h
    | begin =>
      obtain ⟨stage, quiet, stages⟩ := Lock.stage?_enter (.restart (a.tickets + 1)) free
      exact taken (Lock.next_enter _ _) (Lock.purpose?_enter _ free) stages quiet rfl rfl

/-- What was performed stays performed. -/
theorem Performed.append (performed : Performed r outcome h) (k : List machine.Event) :
    Performed r outcome (h ++ k) := by
  obtain ⟨past, b, mid, l, later, rfl, begins, loads, c, hc, returns⟩ := performed
  refine ⟨past, b, mid, l, later ++ k, by simp, begins, loads, c, ?_, returns⟩
  rw [← List.cons_append]
  exact List.mem_append_left _ hc

/-- A restart that began, and has loaded the settings, is performed when it returns. -/
theorem performed_of_returns {past mid : List machine.Event} {b : machine.Event}
    (begins : Begins b r) (loads : (∃ l ∈ mid, Loads l r) ∨ Loads e r)
    (returns : Returns e r outcome) : Performed r outcome ((past ++ b :: mid) ++ [e]) := by
  rcases loads with ⟨l, hl, loads⟩ | loads
  · obtain ⟨mid, later, rfl⟩ := List.append_of_mem hl
    exact ⟨past, b, mid, l, later ++ [e], by simp, begins, loads, e, by simp, returns⟩
  · exact ⟨past, b, mid, e, [], by simp, begins, loads, e, by simp, returns⟩

/-- **One event more.** -/
theorem Stretch.step (stretch : Stretch id ticket h e.before.affairs)
    (drawn : ticket ≤ e.before.affairs.tickets) (regular : Regular e) :
    Stretch id ticket (h ++ [e]) e.after.affairs := by
  have sound := regular.inOrder.sound
  -- if no restart begins now, none has begun if none has before
  have nobody (before : ∀ b ∈ h, ∀ r, ¬ Begins b r) (now : ∀ r, ¬ Begins e r) :
      ∀ b ∈ h ++ [e], ∀ r, ¬ Begins b r := by
    rw [List.forall_mem_append, List.forall_mem_singleton]
    exact ⟨before, now⟩
  -- each case of the course meets the case of the stretch; those that do not fit together
  -- disagree about who is at work
  cases regular.course with
  | begun r ticket' seen turn purpose stage _ covered now =>
    -- whatever came before, this restart covers all tickets
    exact .underway r h e [] false rfl ⟨⟨⟨seen, turn⟩, ⟨ticket', purpose⟩, stage⟩, now⟩
      (covered ▸ drawn) now nofun
  | coalesced _ _ _ _ _ _ _ _ _ _ covered kept before after =>
    cases stretch with
    | untouched none uncovered =>
      exact .untouched (nobody none fun r begins => after r false begins.2)
        (covered ▸ uncovered) (after id)
    | underway r _ _ _ _ _ _ _ atWork => exact absurd atWork (before r _)
    | performed r outcome performed old last none =>
      exact .performed r outcome (performed.append _) (covered ▸ old) (kept ▸ last) after
  | carriedOn r b b' seen turn before after loads covered kept =>
    cases stretch with
    | untouched none uncovered idle =>
      -- a restart that began before the ticket was drawn goes on, and it is another one
      refine .untouched (nobody none fun r begins => before.not_turn sound begins.1)
        (covered ▸ uncovered) fun b'' now => ?_
      obtain ⟨rfl, -⟩ := now.unique after
      exact idle b before
    | underway r' past b'' mid loaded cut begins old atWork load =>
      obtain ⟨rfl, rfl⟩ := atWork.unique before
      refine .underway r past b'' (mid ++ [e]) b' (by simp [cut]) begins (covered ▸ old) after ?_
      rintro rfl
      rcases loads with same | ⟨stage, told, rfl⟩
      · obtain ⟨l, hl, loads⟩ := load same.symm
        exact ⟨l, List.mem_append_left _ hl, loads⟩
      · exact ⟨e, by simp, ⟨told, turn⟩, stage⟩
    | performed _ _ _ _ _ none => exact absurd before (none r b)
  | concluded r b outcome seen turn before loads done last covered after =>
    cases stretch with
    | untouched none uncovered =>
      -- what it comes to is no good for this ticket, which it does not cover
      exact .untouched (nobody none fun r begins => after r false begins.2)
        (covered ▸ uncovered) (after id)
    | underway r' past b'' mid loaded cut begins old atWork load =>
      obtain ⟨rfl, rfl⟩ := atWork.unique before
      have returns : Returns e r outcome := ⟨before.2.1, before.not_done, done⟩
      refine .performed r outcome (cut ▸ performed_of_returns begins ?_ returns) (covered ▸ old)
        last after
      refine loads.imp load ?_
      rintro ⟨stage, told, rfl⟩
      exact ⟨⟨told, turn⟩, stage⟩
    | performed _ _ _ _ _ none => exact absurd before (none r b)
  | aside covered kept same noTurn =>
    cases stretch with
    | untouched none uncovered idle =>
      refine .untouched (nobody none fun r begins => ?_) (covered ▸ uncovered)
        fun b now => idle b ((same id b).mp now)
      obtain ⟨⟨⟨seen, turn⟩, restart, stage⟩, -⟩ := begins
      exact noTurn r seen turn restart stage
    | underway r past b mid loaded cut begins old atWork load =>
      refine .underway r past b (mid ++ [e]) loaded (by simp [cut]) begins (covered ▸ old)
        ((same r loaded).mpr atWork) fun yes => ?_
      obtain ⟨l, hl, loads⟩ := load yes
      exact ⟨l, List.mem_append_left _ hl, loads⟩
    | performed r outcome performed old last none =>
      exact .performed r outcome (performed.append _) (covered ▸ old) (kept ▸ last)
        fun r b now => none r b ((same r b).mp now)

end Since

/-! ## Runs -/

section Runs

variable {xs : List Move} {past mid later : List machine.Event} {d e : machine.Event}
  {id r : OperationId} {outcome : Except Failure Info} {b : Bool}

/-- **No ticket is covered before it is drawn.** -/
theorem run_covered (orderly : OrderlyRun xs) :
    (machine.run xs).covered ≤ (machine.run xs).tickets := by
  induction xs using List.reverseRecOn with
  | nil => exact Nat.le_refl 0
  | append_singleton xs x ih =>
    obtain ⟨before, now⟩ := orderlyRun_concat.mp orderly
    have regular : Regular ⟨machine.run xs, x⟩ := ⟨run_inOrder before, now, ih before⟩
    rw [machine.run_concat]
    exact regular.change.covered_le regular.course (ih before)

/-- **Every event of an orderly run is regular.** -/
theorem event_regular (orderly : OrderlyRun xs) (h : e ∈ machine.history xs) : Regular e := by
  obtain ⟨past, later, cut⟩ := List.append_of_mem h
  obtain ⟨ys, x, -, rfl, upTo⟩ := orderly.upTo cut
  obtain ⟨before, now⟩ := orderlyRun_concat.mp upTo
  exact ⟨run_inOrder before, now, run_covered before⟩

/-- A stretch begins where a ticket is drawn. -/
theorem Draws.stretch (draws : Draws d id) (regular : Regular d) :
    ∃ ticket, d.after.affairs.Ticketed id ticket ∧ Stretch id ticket [] d.after.affairs := by
  obtain ⟨action, number⟩ := draws
  have new : id = d.before.affairs.lock.next := number
  have sound := regular.inOrder.sound
  have uncovered : d.before.affairs.covered ≤ d.before.affairs.tickets := regular.covered
  obtain ⟨ticketed, covered, -⟩ := regular.change.ticketed sound action
  have other (r : OperationId) (seen : Observation) : d.action ≠ .proceed r seen := by
    rcases action with h | h <;> simp [h]
  -- a new operation does not hold the lock
  have idle (b : Bool) : ¬ d.after.affairs.lock.Restarting id b := by
    cases regular.course with
    | begun r _ seen turn => exact absurd turn (other r seen)
    | coalesced r _ _ seen turn => exact absurd turn (other r seen)
    | carriedOn r _ _ seen turn => exact absurd turn (other r seen)
    | concluded r _ _ seen turn => exact absurd turn (other r seen)
    | aside _ _ same =>
      rw [same]
      exact fun now => Nat.lt_irrefl _ (new ▸ sound.holder_lt now.1)
  refine ⟨d.before.affairs.tickets + 1, new ▸ ticketed, .untouched ?_ ?_ idle⟩
  · exact fun _ none => absurd none List.not_mem_nil
  · rw [covered]
    exact Nat.lt_succ_of_le uncovered

/-- **What happened between the drawing of a ticket and a later event.** -/
theorem stretch_between (orderly : OrderlyRun xs)
    (cut : machine.history xs = past ++ d :: (mid ++ e :: later)) (draws : Draws d id) :
    ∃ ticket, e.before.affairs.Ticketed id ticket ∧ Stretch id ticket mid e.before.affairs := by
  have regular {f : machine.Event} (h : f ∈ d :: (mid ++ e :: later)) : Regular f :=
    event_regular orderly (by rw [cut]; exact List.mem_append_right _ h)
  obtain ⟨ticket, first⟩ := draws.stretch (regular List.mem_cons_self)
  -- the ticket stays that of the operation on the whole stretch
  refine ⟨ticket, machine.stretch_induction (A := Regular)
    (P := fun h s => s.affairs.Ticketed id ticket ∧ Stretch id ticket h s.affairs)
    cut first ?_ ?_⟩
  · rintro h f regular ⟨ticketed, stretch⟩
    exact ⟨ticketed.step regular.change regular.inOrder.sound, stretch.step ticketed.drawn regular⟩
  · exact fun f hf => regular (List.mem_cons_of_mem _ (List.mem_append_left _ hf))

/-- **The turn of a restart.** If no restart began since it drew its ticket, it begins; otherwise
it returns at once what one of them came to. -/
theorem turn_between (orderly : OrderlyRun xs)
    (cut : machine.history xs = past ++ d :: (mid ++ e :: later)) (draws : Draws d id)
    (turn : HasTurn e id) :
    Begins e id ∧ (∀ b ∈ mid, ∀ r, ¬ Begins b r) ∨
      ∃ r outcome, Performed r outcome mid ∧ Returns e id outcome := by
  have regular : Regular e := event_regular orderly (by rw [cut]; simp)
  obtain ⟨ticket, ticketed, stretch⟩ := stretch_between orderly cut draws
  obtain ⟨ticket', purpose, way⟩ := regular.on_turn turn
  obtain rfl := Purpose.restart.inj (ticketed.mine _ purpose)
  -- three cases of the stretch, and two of the turn: covered, or not
  cases stretch with
  | untouched nobody uncovered =>
    rcases way with ⟨-, begins⟩ | ⟨covered, -⟩
    · exact .inl ⟨begins, nobody⟩
    · exact absurd covered (Nat.not_le_of_lt uncovered)
  | underway r _ _ _ loaded _ _ _ atWork =>
    exact absurd turn (Lock.Restarting.not_turn atWork regular.inOrder.sound)
  | performed r outcome performed covered last =>
    rcases way with ⟨uncovered, -⟩ | ⟨-, -, outcome', last', returns⟩
    · cases last.symm.trans (uncovered covered)
    · obtain rfl := Option.some.inj (last.symm.trans last')
      exact .inr ⟨r, outcome, performed, returns⟩

/-- A restart returns one outcome. -/
theorem Returns.unique {outcome' : Except Failure Info} (returns : Returns e id outcome)
    (returns' : Returns e id outcome') : outcome' = outcome :=
  Result.launched.inj (Stage.done.inj (Option.some.inj (returns'.2.2.symm.trans returns.2.2)))

/-- **The return of a restart.** It returns what a restart came to that was performed since it
drew its ticket. -/
theorem return_between (orderly : OrderlyRun xs)
    (cut : machine.history xs = past ++ d :: (mid ++ e :: later)) (draws : Draws d id)
    (returns : Returns e id outcome) : ∃ r, Performed r outcome (mid ++ [e]) := by
  have regular : Regular e := event_regular orderly (by rw [cut]; simp)
  rcases regular.on_return returns with turn | ⟨b, atWork, loads⟩
  -- at its turn it takes over what another restart came to; at work it comes to something itself
  · rcases turn_between orderly cut draws turn with ⟨begins, -⟩ | ⟨r, outcome', performed, same⟩
    · exact absurd returns begins.not_returns
    · obtain rfl := returns.unique same
      exact ⟨r, performed.append _⟩
  · obtain ⟨ticket, -, stretch⟩ := stretch_between orderly cut draws
    cases stretch with
    | untouched _ _ idle => exact absurd atWork (idle b)
    | performed _ _ _ _ _ nobody => exact absurd atWork (nobody id b)
    | underway r m₁ f m₂ loaded hmid begins _ now load =>
      obtain ⟨rfl, rfl⟩ := Lock.Restarting.unique now atWork
      exact ⟨id, hmid ▸ performed_of_returns begins (loads.imp_left load) returns⟩

/-- Only a restart that has begun is at work. -/
theorem run_begun (orderly : OrderlyRun xs) (atWork : (machine.run xs).lock.Restarting r b) :
    ∃ e ∈ machine.history xs, Begins e r := by
  induction xs using List.reverseRecOn generalizing b with
  | nil => cases atWork.1
  | append_singleton xs x ih =>
    have before := (orderlyRun_concat.mp orderly).1
    have regular : Regular ⟨machine.run xs, x⟩ :=
      event_regular orderly (by rw [machine.history_concat]; simp)
    rw [machine.history_concat]
    -- the induction leaves `b` open: the settings may be loaded in between
    have earlier {b : Bool} (was : (machine.run xs).lock.Restarting r b) :
        ∃ e ∈ machine.history xs ++ [⟨machine.run xs, x⟩], Begins e r := by
      obtain ⟨e, he, begins⟩ := ih before was
      exact ⟨e, List.mem_append_left _ he, begins⟩
    rw [machine.run_concat] at atWork
    cases regular.course with
    | begun r' ticket seen turn purpose stage _ _ now =>
      obtain ⟨rfl, -⟩ := now.unique atWork
      have begins : Begins ⟨machine.run xs, x⟩ r :=
        ⟨⟨⟨seen, turn⟩, ⟨ticket, purpose⟩, stage⟩, now⟩
      exact ⟨_, List.mem_append_right _ List.mem_cons_self, begins⟩
    | coalesced _ _ _ _ _ _ _ _ _ _ _ _ _ after => exact absurd atWork (after r b)
    | concluded _ _ _ _ _ _ _ _ _ _ after => exact absurd atWork (after r b)
    | carriedOn r' b₀ _ _ _ was now =>
      obtain ⟨rfl, -⟩ := now.unique atWork
      exact earlier was
    | aside _ _ same => exact earlier ((same r b).mp atWork)

/-- Who returns had its turn before, or has it now. -/
theorem turn_of_returns (orderly : OrderlyRun xs)
    (cut : machine.history xs = past ++ e :: later) (returns : Returns e id outcome) :
    HasTurn e id ∨ ∃ b ∈ past, Begins b id := by
  have regular : Regular e := event_regular orderly (by rw [cut]; simp)
  refine (regular.on_return returns).imp_right ?_
  rintro ⟨b, atWork, -⟩
  obtain ⟨ys, x, rfl, rfl, upTo⟩ := orderly.upTo cut
  exact run_begun (orderlyRun_concat.mp upTo).1 atWork

/-- What has returned is over. -/
theorem run_over (orderly : OrderlyRun xs) (h : e ∈ machine.history xs)
    (returns : Returns e id outcome) : (machine.run xs).lock.Over id := by
  induction xs using List.reverseRecOn with
  | nil => cases h
  | append_singleton xs x ih =>
    have regular : Regular ⟨machine.run xs, x⟩ :=
      event_regular orderly (by rw [machine.history_concat]; simp)
    rw [machine.history_concat, List.mem_append, List.mem_singleton] at h
    rw [machine.run_concat]
    rcases h with old | rfl
    · have done := ih (orderlyRun_concat.mp orderly).1 old
      exact regular.change.keeps_over regular.inOrder.sound regular.collects done
    · have sound := regular.change.sound regular.inOrder.sound regular.collects
      have done := returns.2.2
      refine ⟨sound.lt_next fun none => ?_, fun stage hs => ?_⟩
      · cases none.symm.trans done
      · exact ⟨_, Option.some.inj (hs.symm.trans done)⟩

/-- **Nobody returns twice.** -/
theorem returns_once {e' : machine.Event} {outcome' : Except Failure Info}
    (orderly : OrderlyRun xs) (h : e ∈ machine.history xs) (h' : e' ∈ machine.history xs)
    (returns : Returns e id outcome) (returns' : Returns e' id outcome') : outcome' = outcome := by
  induction xs using List.reverseRecOn with
  | nil => cases h
  | append_singleton xs x ih =>
    have before := (orderlyRun_concat.mp orderly).1
    rw [machine.history_concat, List.mem_append, List.mem_singleton] at h h'
    -- who is over does not return
    have final {o : Except Failure Info} (done : (machine.run xs).lock.Over id)
        (now : Returns ⟨machine.run xs, x⟩ id o) : False := by
      obtain ⟨⟨ticket, purpose⟩, undone, -⟩ := now
      obtain ⟨o, known, -⟩ := Option.map_eq_some_iff.mp purpose
      have stage := Lock.stage?_of_known known
      obtain ⟨result, done⟩ := done.done _ stage
      exact undone result (stage.trans (congrArg some done))
    rcases h with old | rfl <;> rcases h' with old' | rfl
    · exact ih before old old'
    · exact (final (run_over before old returns) returns').elim
    · exact (final (run_over before old' returns') returns).elim
    · exact returns.unique returns'

/-- A restart that is done returned what it or another one came to. -/
theorem Regular.done (regular : Regular e) (way : e.before.lock.OnItsWay id)
    (holder : e.before.lock.holder = some id) {result : Result}
    (h : e.after.lock.stage? id = some (.done result)) {seen : Observation}
    (action : e.action = .proceed id seen) : ∃ outcome, Returns e id outcome := by
  have returned {outcome : Except Failure Info}
      (done : e.after.lock.stage? id = some (.done (.launched outcome))) :
      ∃ outcome, Returns e id outcome :=
    ⟨outcome, way.1, way.not_done, done⟩
  cases regular.course with
  | begun r _ _ act _ _ _ _ now =>
    obtain ⟨rfl, -⟩ := Move.proceed.inj (action.symm.trans act)
    exact absurd h (now.not_done _)
  | coalesced r _ _ _ act _ _ _ _ done =>
    obtain ⟨rfl, -⟩ := Move.proceed.inj (action.symm.trans act)
    exact returned done
  | carriedOn r _ _ _ act _ now =>
    obtain ⟨rfl, -⟩ := Move.proceed.inj (action.symm.trans act)
    exact absurd h (now.not_done _)
  | concluded r _ _ _ act _ _ done =>
    obtain ⟨rfl, -⟩ := Move.proceed.inj (action.symm.trans act)
    exact returned done
  | aside _ _ same noTurn =>
    -- it did not have its turn, so it was at work, and then it still is
    obtain ⟨restart, stage, hs, still⟩ := way
    obtain ⟨a, ha, holds⟩ := (regular.inOrder.sound.held id).mp holder
    obtain rfl := Option.some.inj (hs.symm.trans ha)
    have turn := noTurn id seen action restart
    cases loaded : stage.loaded? with
    | none =>
      have quiet := still.resolve_right (not_not_intro loaded)
      have entered : stage = .entered := by
        revert quiet holds
        cases stage <;> simp [Stage.begun, Stage.holds]
      exact absurd (entered ▸ hs) turn
    | some b =>
      have atWork := (Lock.restarting_at holder hs id b).mpr ⟨rfl, restart, loaded⟩
      exact absurd h (((same id b).mpr atWork).not_done _)

/-- A restart that was on its way is on its way, or returns. -/
theorem Regular.on_way (regular : Regular e) (way : e.before.lock.OnItsWay id) :
    e.after.lock.OnItsWay id ∨ ∃ outcome, Returns e id outcome := by
  have sound := regular.inOrder.sound
  have ⟨⟨ticket, purpose⟩, stage, h, still⟩ := way
  have given : id < e.before.lock.next := sound.lt_next (by simp [h])
  have goesOn {now : Stage} (hs : e.after.lock.stage? id = some now)
      (still : now.begun = false ∨ now.loaded? ≠ none) : e.after.lock.OnItsWay id := by
    refine ⟨?_, now, hs, still⟩
    rcases regular.change.purpose? sound given with same | gone
    · exact ⟨ticket, same.trans purpose⟩
    · have unknown : e.after.lock.operation? id = none := Option.map_eq_none_iff.mp gone
      rw [Lock.stage?, unknown] at hs
      cases hs
  have passage : Passage e.action id (e.before.lock.purpose? id) (e.before.lock.stage? id)
      (e.after.lock.stage? id) :=
    regular.change.passage sound regular.collects given
  generalize hs : e.after.lock.stage? id = after at passage
  cases passage with
  | stays => exact .inl (goesOn (hs.trans h) still)
  | waits _ b _ _ quiet => exact .inl (goesOn hs (.inl quiet))
  | works _ b _ _ nears =>
    -- only who deals with a loss leaves the way to a new session
    refine .inl (goesOn hs (.inr fun none => ?_))
    obtain ⟨loss, crash⟩ := nears.way none
    cases purpose.symm.trans crash
  | returns a p result seen turn mine ha holds =>
    obtain rfl := Option.some.inj (purpose.symm.trans mine)
    exact .inr (regular.done way ((sound.held id).mpr ⟨a, ha, holds⟩) hs turn)
  | departs leaving =>
    obtain rfl := Option.some.inj (h.symm.trans leaving)
    rcases still with quiet | loaded
    · cases quiet
    · exact absurd rfl loaded
  | leaves gone =>
    obtain ⟨result, rfl⟩ := gone stage h
    exact absurd h (way.not_done result)

/-- A restart that drew its ticket is on its way, or it returned. -/
theorem run_drawn (orderly : OrderlyRun xs) (h : d ∈ machine.history xs) (draws : Draws d id) :
    (machine.run xs).lock.OnItsWay id ∨
      ∃ e ∈ machine.history xs, ∃ outcome, Returns e id outcome := by
  induction xs using List.reverseRecOn with
  | nil => cases h
  | append_singleton xs x ih =>
    have regular : Regular ⟨machine.run xs, x⟩ :=
      event_regular orderly (by rw [machine.history_concat]; simp)
    rw [machine.history_concat, List.mem_append, List.mem_singleton] at h
    rw [machine.run_concat, machine.history_concat]
    rcases h with old | rfl
    · rcases ih (orderlyRun_concat.mp orderly).1 old with way | ⟨e, he, returned⟩
      · refine (regular.on_way way).imp_right fun returned => ?_
        exact ⟨_, List.mem_append_right _ List.mem_cons_self, returned⟩
      · exact .inr ⟨e, List.mem_append_left _ he, returned⟩
    · obtain ⟨action, rfl⟩ := draws
      exact .inl (regular.change.ticketed regular.inOrder.sound action).2.2

/-- **No restart is stuck.** Whatever happened, a restart that drew its ticket can return. -/
theorem can_return (orderly : OrderlyRun xs) (h : d ∈ machine.history xs) (draws : Draws d id) :
    ∃ ys, OrderlyRun (xs ++ ys) ∧
      ∃ e ∈ machine.history (xs ++ ys), ∃ outcome, Returns e id outcome := by
  rcases run_drawn orderly h draws with way | returned
  · obtain ⟨-, stage, hs, -⟩ := way
    obtain ⟨ys, result, longer, done⟩ := can_be_done orderly hs
    refine ⟨ys, longer, ?_⟩
    have later : d ∈ machine.history (xs ++ ys) := by
      rw [Machine.history, Machine.historyFrom_append]
      exact List.mem_append_left _ h
    -- done, it is not on its way any more
    exact (run_drawn longer later draws).resolve_left fun still => still.not_done result done
  · exact ⟨[], by rwa [List.append_nil], by rwa [List.append_nil]⟩

end Runs

/-! ## Bursts -/

/-- **A burst**: restarts that all drew their tickets before the first of them had its turn. -/
structure Burst (burst : List OperationId) (past : List machine.Event) (turn : machine.Event) :
    Prop where
  drawn : ∀ id ∈ burst, ∃ d ∈ past, Draws d id
  waiting : ∀ e ∈ past, ∀ id ∈ burst, ¬ HasTurn e id
  first : ∃ id ∈ burst, HasTurn turn id

/-- No other restart gets in between: from the first ticket of the burst, with which `drawing`
begins, until a member of the burst has its turn, only members of the burst begin. -/
def Undivided (burst : List OperationId) (drawing rest : List machine.Event) : Prop :=
  ∀ mid e later id, rest = mid ++ e :: later → id ∈ burst → HasTurn e id →
    ∀ b ∈ drawing ++ mid, ∀ r, Begins b r → r ∈ burst

section Bursts

variable {xs : List Move} {burst : List OperationId} {past later : List machine.Event}
  {turn : machine.Event}

/-- **At most one member of a burst begins**, and that once. -/
theorem Burst.begins_once (members : Burst burst past turn) (orderly : OrderlyRun xs)
    (cut : machine.history xs = past ++ turn :: later) {p q l : List machine.Event}
    {e f : machine.Event} (cut' : machine.history xs = p ++ e :: (q ++ f :: l)) {i j : OperationId}
    (hi : i ∈ burst) (hj : j ∈ burst) (begins : Begins e i) : ¬ Begins f j := by
  intro again
  have late : e ∉ past := fun early => members.waiting e early i hi begins.1
  obtain ⟨mid, rfl⟩ := Machine.before_of_notMem (cut.symm.trans cut') late
  obtain ⟨d, hd, draws⟩ := members.drawn j hj
  obtain ⟨u, v, rfl⟩ := List.append_of_mem hd
  -- the ticket of `j` was drawn before `i` began, so `j` takes over what `i` comes to
  have between : machine.history xs = u ++ d :: ((v ++ mid ++ e :: q) ++ f :: l) := by
    rw [cut']
    simp
  rcases turn_between orderly between draws again.1 with ⟨-, nobody⟩ | ⟨r, outcome, -, returns⟩
  · exact nobody e (by simp) i begins
  · exact again.not_returns returns

/-- If the first turn of a burst is a beginning, no other member of the burst ever begins. -/
theorem Burst.only (members : Burst burst past turn) (orderly : OrderlyRun xs)
    (cut : machine.history xs = past ++ turn :: later) {m : OperationId} (hm : m ∈ burst)
    (begins : Begins turn m) {e : machine.Event} (he : e ∈ machine.history xs) {id : OperationId}
    (hid : id ∈ burst) (other : Begins e id) : id = m := by
  rw [cut, List.mem_append, List.mem_cons] at he
  rcases he with early | rfl | late
  · exact absurd other.1 (members.waiting e early id hid)
  · obtain ⟨⟨seen, act⟩, -⟩ := begins.1
    obtain ⟨⟨seen', act'⟩, -⟩ := other.1
    exact (Move.proceed.inj (act'.symm.trans act)).1
  · obtain ⟨u, v, rfl⟩ := List.append_of_mem late
    exact absurd other (members.begins_once orderly cut cut hm hid begins)

variable {old drawing : List machine.Event}

/-- **An undivided burst begins with its first turn.** -/
theorem Burst.begins (members : Burst burst (old ++ drawing) turn) (orderly : OrderlyRun xs)
    (cut : machine.history xs = (old ++ drawing) ++ turn :: later)
    (drawn : ∀ id ∈ burst, ∃ d ∈ drawing, Draws d id)
    (undivided : Undivided burst drawing (turn :: later)) : ∃ m ∈ burst, Begins turn m := by
  obtain ⟨m, hm, first⟩ := members.first
  obtain ⟨d, hd, draws⟩ := drawn m hm
  obtain ⟨u, v, rfl⟩ := List.append_of_mem hd
  have between : machine.history xs = (old ++ u) ++ d :: (v ++ turn :: later) := by
    rw [cut]
    simp
  rcases turn_between orderly between draws first with ⟨begins, -⟩ | ⟨r, outcome, performed, -⟩
  · exact ⟨m, hm, begins⟩
  · -- whoever was performed would be a member that had its turn before
    obtain ⟨p, b, q, l, k, rfl, begins, -⟩ := performed
    have member := undivided [] turn later m rfl hm first b (by simp) r begins
    exact absurd begins.1 (members.waiting b (by simp) r member)

/-- **All members of an undivided burst return what its first member came to.** -/
theorem Burst.returns (members : Burst burst (old ++ drawing) turn) (orderly : OrderlyRun xs)
    (cut : machine.history xs = (old ++ drawing) ++ turn :: later)
    (drawn : ∀ id ∈ burst, ∃ d ∈ drawing, Draws d id)
    (undivided : Undivided burst drawing (turn :: later)) {m : OperationId} (hm : m ∈ burst)
    (begins : Begins turn m) {e : machine.Event} (he : e ∈ machine.history xs) {id : OperationId}
    (hid : id ∈ burst) {outcome : Except Failure Info} (returns : Returns e id outcome) :
    ∃ c ∈ machine.history xs, Returns c m outcome := by
  have only {b : machine.Event} (hb : b ∈ machine.history xs) {r : OperationId} (hr : r ∈ burst)
      (h : Begins b r) : r = m :=
    members.only orderly cut hm begins hb hr h
  obtain ⟨p, l, cut'⟩ := List.append_of_mem he
  rcases turn_of_returns orderly cut' returns with now | ⟨b, hb, began⟩
  -- at its turn it takes over what a member came to, and only `m` came to anything
  · have late : e ∉ old ++ drawing := fun early => members.waiting e early id hid now
    obtain ⟨mid, rfl⟩ := Machine.before_of_notMem (cut.symm.trans cut') late
    obtain ⟨d, hd, draws⟩ := drawn id hid
    obtain ⟨u, v, rfl⟩ := List.append_of_mem hd
    have rest : turn :: later = mid ++ e :: l := by
      have same := cut.symm.trans cut'
      rw [List.append_assoc _ mid] at same
      exact List.append_cancel_left same
    have between : machine.history xs = (old ++ u) ++ d :: ((v ++ mid) ++ e :: l) := by
      rw [cut']
      simp
    rcases turn_between orderly between draws now with ⟨began, -⟩ | ⟨r, outcome', performed, same⟩
    · exact ⟨e, he, only he hid began ▸ returns⟩
    · obtain rfl := returns.unique same
      obtain ⟨p, b, q, k, w, parts, began, -, c, hc, returned⟩ := performed
      have inside {f : machine.Event} (hf : f ∈ v ++ mid) : f ∈ machine.history xs := by
        rw [between]
        exact List.mem_append_right _ (List.mem_cons_of_mem _ (List.mem_append_left _ hf))
      have hb : b ∈ v ++ mid := by simp [parts]
      have member : r ∈ burst := by
        refine undivided mid e l id rest hid now b ?_ r began
        rw [List.append_cons, List.append_assoc]
        exact List.mem_append_right _ hb
      obtain rfl := only (inside hb) member began
      refine ⟨c, inside ?_, returned⟩
      rw [parts]
      exact List.mem_append_right _ (List.mem_cons_of_mem _ (List.mem_append_right _ hc))
  · have hb' : b ∈ machine.history xs := cut' ▸ List.mem_append_left _ hb
    exact ⟨e, he, only hb' hid began ▸ returns⟩

end Bursts

/-! ## Reading bursts off runs

Of a run that is written down, moves and stages can be computed. That is enough to see who has
its turn and who returns. -/

def Move.actor : Move → List OperationId
  | .proceed id _ => [id]
  | _ => []

def Stage.generation? : Stage → Option Nat
  | .done (.launched (.ok info)) => some info.generation
  | _ => none

section Runs

variable {s : Supervisor} {xs : List Move} {burst : List OperationId} {e : machine.Event}
  {id : OperationId}

/-- Whoever has the turn is the one who acts. -/
theorem HasTurn.actor (turn : HasTurn e id) : id ∈ e.action.actor := by
  obtain ⟨⟨seen, action⟩, -⟩ := turn
  simp [action, Move.actor]

/-- As long as others move, nobody of the burst has its turn. -/
theorem waiting_of_actor (h : ∀ x ∈ xs, ∀ id ∈ burst, id ∉ x.actor) :
    ∀ e ∈ machine.historyFrom s xs, ∀ id ∈ burst, ¬ HasTurn e id :=
  fun e he id hid turn => h e.action (machine.action_mem he) id hid turn.actor

/-- When only the burst moves, no other restart gets in between. -/
theorem undivided_of_actor {drawing rest : List machine.Event}
    (h : ∀ x ∈ (drawing ++ rest).map Machine.Event.action, ∀ id ∈ x.actor, id ∈ burst) :
    Undivided burst drawing rest := by
  rintro mid e later id rfl - - b hb r begins
  refine h b.action (List.mem_map_of_mem ?_) r begins.1.actor
  rw [← List.append_assoc]
  exact List.mem_append_left _ hb

/-- Where a run goes on by drawing a ticket, this is an event of its history. -/
theorem drawn_of (xs ys : List Move) {x : Move} (draws : x = .draw ∨ x = .begin .restart)
    (number : id = (machine.runFrom s xs).nextOperation) :
    ∃ d ∈ machine.historyFrom s (xs ++ x :: ys), Draws d id :=
  ⟨_, machine.mem_historyFrom s xs ys x, draws, number⟩

/-- Whoever holds the lock and has not begun has its turn when it goes on. -/
theorem hasTurn_of (ticket : Nat) {seen : Observation}
    (purpose : s.lock.purpose? id = some (.restart ticket))
    (stage : (s.lock.stage? id).map (fun a => (a.holds, a.begun)) = some (true, false)) :
    HasTurn ⟨s, .proceed id seen⟩ id := by
  refine ⟨⟨seen, rfl⟩, ⟨ticket, purpose⟩, ?_⟩
  obtain ⟨now, hs, h⟩ := Option.map_eq_some_iff.mp stage
  cases now <;> simp [Stage.holds, Stage.begun] at h
  exact hs

/-- Where a restart goes on from its work to a result, it returns it. -/
theorem returned_of (xs ys : List Move) (id : OperationId) (seen : Observation)
    (ticket generation : Nat)
    (purpose : (machine.runFrom s xs).lock.purpose? id = some (.restart ticket))
    (before : ((machine.runFrom s xs).lock.stage? id).map Stage.holds = some true)
    (after : ((machine.runFrom s (xs ++ [.proceed id seen])).lock.stage? id).bind
      Stage.generation? = some generation) :
    ∃ e ∈ machine.historyFrom s (xs ++ .proceed id seen :: ys), ∃ info : Info,
      Returns e id (.ok info) ∧ info.generation = generation := by
  obtain ⟨stage, hs, holds⟩ := Option.map_eq_some_iff.mp before
  obtain ⟨now, done, same⟩ := Option.bind_eq_some_iff.mp after
  unfold Stage.generation? at same
  split at same <;> cases same
  rw [machine.runFrom_append] at done
  -- at work before the move, so it had not returned
  have undone (result : Result) : (machine.runFrom s xs).lock.stage? id ≠ some (.done result) := by
    intro h
    obtain rfl := Option.some.inj (hs.symm.trans h)
    cases holds
  exact ⟨_, machine.mem_historyFrom s xs ys _, _, ⟨⟨ticket, purpose⟩, undone, done⟩, rfl⟩

end Runs

/-! ## The law -/

/-- **Restarts share their work.** In every orderly run: a restart that drew its ticket can
return, whatever happened. What it returns is what a restart came to that began, and loaded the
settings, after the ticket was drawn. A restart that has its turn begins itself exactly if no
restart began since it drew its ticket, and otherwise it returns at once. Of a burst at most one
member begins, and that once; and if no other restart gets in between, the first member to have
its turn begins, and all members return what it comes to. -/
theorem restarts_share_work (xs : List Move) (orderly : OrderlyRun xs) :
    (∀ d ∈ machine.history xs, ∀ id, Draws d id → ∃ ys, OrderlyRun (xs ++ ys) ∧
      ∃ e ∈ machine.history (xs ++ ys), ∃ outcome, Returns e id outcome) ∧
    (∀ past d mid e later id outcome, machine.history xs = past ++ d :: (mid ++ e :: later) →
      Draws d id → Returns e id outcome → ∃ r, Performed r outcome (mid ++ [e])) ∧
    (∀ past d mid e later id, machine.history xs = past ++ d :: (mid ++ e :: later) →
      Draws d id → HasTurn e id →
      (Begins e id ↔ ∀ b ∈ mid, ∀ r, ¬ Begins b r) ∧
      (¬ Begins e id → ∃ outcome, Returns e id outcome)) ∧
    ∀ burst past turn later, machine.history xs = past ++ turn :: later →
      Burst burst past turn →
      (∀ p e q f l, machine.history xs = p ++ e :: (q ++ f :: l) →
        ∀ i ∈ burst, ∀ j ∈ burst, Begins e i → ¬ Begins f j) ∧
      ∀ old drawing, past = old ++ drawing → (∀ id ∈ burst, ∃ d ∈ drawing, Draws d id) →
        Undivided burst drawing (turn :: later) →
        ∃ m ∈ burst, Begins turn m ∧
          ∀ e ∈ machine.history xs, ∀ id ∈ burst, ∀ outcome, Returns e id outcome →
            (∃ c ∈ machine.history xs, Returns c m outcome) ∧
            ∀ e' ∈ machine.history xs, ∀ id' ∈ burst, ∀ outcome', Returns e' id' outcome' →
              outcome' = outcome := by
  refine ⟨?_, ?_, ?_, ?_⟩
  · intro d hd id draws
    exact can_return orderly hd draws
  · intro past d mid e later id outcome cut draws returns
    exact return_between orderly cut draws returns
  · intro past d mid e later id cut draws turn
    rcases turn_between orderly cut draws turn with
      ⟨begins, nobody⟩ | ⟨r, outcome, performed, returns⟩
    · exact ⟨iff_of_true begins nobody, fun other => absurd begins other⟩
    · -- who returns at once does not begin, and what it returns was begun since the ticket
      have own : ¬ Begins e id := fun begins => begins.not_returns returns
      obtain ⟨p, b, q, l, k, rfl, began, -⟩ := performed
      refine ⟨iff_of_false own fun nobody => ?_, fun _ => ⟨outcome, returns⟩⟩
      exact nobody b (by simp) r began
  · intro burst past turn later cut members
    refine ⟨fun p e q f l cut' i hi j hj => members.begins_once orderly cut cut' hi hj, ?_⟩
    rintro old drawing rfl drawn undivided
    obtain ⟨m, hm, begins⟩ := members.begins orderly cut drawn undivided
    refine ⟨m, hm, begins, fun e he id hid outcome returns => ?_⟩
    -- both members return what the one that began came to, and it returns once
    obtain ⟨c, hc, came⟩ :=
      members.returns orderly cut drawn undivided hm begins he hid returns
    refine ⟨⟨c, hc, came⟩, fun e' he' id' hid' outcome' returns' => ?_⟩
    obtain ⟨c', hc', came'⟩ :=
      members.returns orderly cut drawn undivided hm begins he' hid' returns'
    exact returns_once orderly hc hc' came came'

/-- A session, and then three restarts, of which the second is the last to ask for the lock. -/
def sharedBefore : List Move :=
  [.begin .start, .proceed 0 .nothing] ++ launching 0 7

def sharedDrawing : List Move :=
  [.begin .restart, .draw, .begin .restart]

def sharedAfter : List Move :=
  [.dispatch fun _ => false, .proceed 1 .nothing, .proceed 1 .killed] ++ launching 1 8 ++
    [.ask 2, .proceed 3 .nothing]

def sharedRun : List Move :=
  sharedBefore ++ (sharedDrawing ++ .proceed 1 .nothing :: (sharedAfter ++ [.proceed 2 .nothing]))

/-- In this run three restarts share the work of one, and the second of them returns what that one
returned. -/
theorem sharedRun_shares :
    OrderlyRun sharedRun ∧ ∃ turn ∈ machine.history sharedRun, ∃ m ∈ [1, 2, 3], Begins turn m ∧
      ∃ e ∈ machine.history sharedRun, ∃ info : Info, Returns e 2 (.ok info) ∧
        info.generation = 2 ∧ ∃ c ∈ machine.history sharedRun, Returns c m (.ok info) := by
  have orderly : OrderlyRun sharedRun := by
    refine orderlyRun_of_keeps ?_
    decide
  have cut := machine.history_cut sharedBefore sharedDrawing
    (sharedAfter ++ [.proceed 2 .nothing]) (.proceed 1 .nothing)
  have drawn : ∀ id ∈ [1, 2, 3],
      ∃ d ∈ machine.historyFrom (machine.run sharedBefore) sharedDrawing, Draws d id := by
    rintro id (_ | ⟨_, _ | ⟨_, _ | ⟨_, ⟨⟩⟩⟩⟩)
    · exact drawn_of [] (sharedDrawing.drop 1) (.inr rfl) (by decide +kernel)
    · exact drawn_of (sharedDrawing.take 1) (sharedDrawing.drop 2) (.inl rfl) (by decide +kernel)
    · exact drawn_of (sharedDrawing.take 2) [] (.inr rfl) (by decide +kernel)
  have members : Burst [1, 2, 3] (machine.history sharedBefore ++
      machine.historyFrom (machine.run sharedBefore) sharedDrawing)
      ⟨machine.runFrom (machine.run sharedBefore) sharedDrawing, .proceed 1 .nothing⟩ := by
    refine ⟨fun id hid => ?_, ?_, 1, by simp, hasTurn_of 1 (by decide +kernel) (by decide +kernel)⟩
    · obtain ⟨d, hd, draws⟩ := drawn id hid
      exact ⟨d, List.mem_append_right _ hd, draws⟩
    · exact List.forall_mem_append.mpr
        ⟨waiting_of_actor (by decide), waiting_of_actor (by decide)⟩
  obtain ⟨-, -, -, bursts⟩ := restarts_share_work sharedRun orderly
  obtain ⟨m, hm, begins, same⟩ := (bursts _ _ _ _ cut members).2 _ _ rfl drawn
    (undivided_of_actor (by
      rw [List.map_append, List.map_cons, machine.historyFrom_actions, machine.historyFrom_actions]
      decide))
  obtain ⟨e, he, info, returns, second⟩ := returned_of (s := machine.start)
    (sharedBefore ++ (sharedDrawing ++ .proceed 1 .nothing :: sharedAfter)) [] 2 .nothing 2 2
    (by decide +kernel) (by decide +kernel) (by decide +kernel)
  have turn : ⟨machine.runFrom (machine.run sharedBefore) sharedDrawing, .proceed 1 .nothing⟩ ∈
      machine.history sharedRun := cut ▸ List.mem_append_right _ List.mem_cons_self
  exact ⟨orderly, _, turn, m, hm, begins, e, he, info, returns, second,
    (same e he 2 (by simp) (.ok info) returns).1⟩

/-- A restart comes in between two others. -/
def dividedBefore : List Move :=
  [.begin .restart, .begin .restart, .proceed 0 .nothing, .begin .restart] ++ launching 0 7

def dividedAfter : List Move :=
  [.dispatch fun _ => false, .proceed 2 .nothing, .proceed 2 .killed] ++ launching 2 8

def dividedRun : List Move :=
  dividedBefore ++ .proceed 1 .nothing :: .proceed 2 .nothing :: dividedAfter

/-- **A burst can be divided.** Without the condition that no other restart gets in between, its
members need not return the same. -/
theorem burst_divided : ¬ ∀ xs, OrderlyRun xs → ∀ burst past turn later,
    machine.history xs = past ++ turn :: later → Burst burst past turn →
      ∀ e ∈ machine.history xs, ∀ id ∈ burst, ∀ outcome, Returns e id outcome →
        ∀ e' ∈ machine.history xs, ∀ id' ∈ burst, ∀ outcome', Returns e' id' outcome' →
          outcome' = outcome := by
  intro law
  have orderly : OrderlyRun dividedRun := by
    refine orderlyRun_of_keeps ?_
    decide
  have cut : machine.history dividedRun = machine.history dividedBefore ++ _ :: _ :=
    machine.historyFrom_append _ _ _
  have members : Burst [1, 2] (machine.history dividedBefore)
      ⟨machine.run dividedBefore, .proceed 1 .nothing⟩ := by
    refine ⟨?_, waiting_of_actor (by decide), 1, by simp, hasTurn_of 2 ?_ ?_⟩
    · rintro id (_ | ⟨_, _ | ⟨_, ⟨⟩⟩⟩)
      · exact drawn_of (dividedBefore.take 1) (dividedBefore.drop 2) (.inr rfl) (by decide +kernel)
      · exact drawn_of (dividedBefore.take 3) (dividedBefore.drop 4) (.inr rfl) (by decide +kernel)
    · decide +kernel
    · decide +kernel
  obtain ⟨e, he, info, returns, first⟩ := returned_of (s := machine.start) dividedBefore
    (.proceed 2 .nothing :: dividedAfter) 1 .nothing 2 1
    (by decide +kernel) (by decide +kernel) (by decide +kernel)
  obtain ⟨e', he', info', returns', second⟩ := returned_of (s := machine.start)
    (dividedBefore ++ .proceed 1 .nothing :: .proceed 2 .nothing :: dividedAfter.dropLast) []
    2 .nothing 3 2 (by decide +kernel) (by decide +kernel) (by decide +kernel)
  have same := law dividedRun orderly [1, 2] _ _ _ cut members e he 1 (by simp) _ returns
    e' he' 2 (by simp) _ returns'
  rw [Except.ok.inj same, first] at second
  cases second

end CompilerSession.Supervisor
