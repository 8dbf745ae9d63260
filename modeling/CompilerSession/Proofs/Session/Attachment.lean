import CompilerSession.Proofs.Session.Moves

/-
Supervisor and dispatcher agree.

The supervisor has a session, the dispatcher has a channel attached, and each of them changes its
own part at moments of its own: the dispatcher lets go of a channel that fails and tells so by a
loss, and an operation gives orders and waits for the answers. `Attuned` is the invariant that
keeps the two together. What it asks depends on how far the operation is that holds the lock;
`Affairs.Phase` says so stage by stage. When nobody is at work it asks that the channel of the
session is attached, or that its loss is known and still to be dealt with.

The main statement is at the end: while nobody holds the lock, session and attachment go together,
and no channel is ever attached over another one.
-/

set_option autoImplicit false

namespace CompilerSession.Supervisor

open Dispatch (Loss Effect Input Settled)

namespace Affairs

/-! ## What the two sides owe each other -/

/-- The loss is known, and still to be dealt with. -/
def Pending (a : Affairs) (loss : Loss) : Prop :=
  loss ∈ a.losses ∨ a.lock.Expects loss

/-- The channel of a generation is gone, and that is no secret: its loss is pending, or the
dispatcher has ended. -/
def Gone (a : Affairs) (g : Nat) : Prop :=
  a.dispatch.attached = none ∧
    (a.dispatch.ended = true ∨ ∃ loss, a.Pending loss ∧ loss.generation = g)

/-- The channel of a generation is attached, or it is known to be gone. -/
def Serves (a : Affairs) (g : Nat) : Prop :=
  a.dispatch.attached = some g ∨ a.Gone g

/-- **Nobody is at work.** -/
structure AtRest (a : Affairs) : Prop where
  orders : a.orders = []
  serves : ∀ l, a.session = some l → a.Serves l.generation
  vacant : a.session = none → a.dispatch.attached = none
  status : a.status = if a.session.isSome then .ready else .stopped

/-- **Nothing is there**: an operation is between two sessions. -/
structure Between (a : Affairs) : Prop where
  session : a.session = none
  orders : a.orders = []
  vacant : a.dispatch.attached = none

/-- **What holds while an operation is at a stage.** -/
def Phase (a : Affairs) : Option Stage → Prop
  | none | some .entered => a.AtRest
  | some (.detaching l) =>
    a.session = none ∧
      (∃ id, a.lock.holder = some id ∧ a.orders = [.detach l.generation id]) ∧
      (a.dispatch.attached = none ∨ a.dispatch.attached = some l.generation)
  | some (.attaching l) =>
    a.session = none ∧
      (∃ id, a.lock.holder = some id ∧ a.orders = [.attach l.generation l.process id]) ∧
      a.dispatch.attached = none ∧ l.generation ≤ a.generation ∧
      ∀ loss, a.Pending loss → loss.generation ≠ l.generation
  | some (.attached l) => a.session = none ∧ a.orders = [] ∧ a.Serves l.generation
  | some .drawn | some .waiting | some .leaving | some (.done _) => False
  | some _ => a.Between

/-- **The two sides are attuned.** -/
structure Attuned (a : Affairs) : Prop where
  phase : a.Phase a.lock.at?
  bounded : ∀ loss, a.Pending loss → loss.generation ≤ a.generation
  unattached : ∀ loss, a.Pending loss → a.dispatch.attached ≠ some loss.generation
  current : ∀ g, a.dispatch.attached = some g → g ≤ a.generation

/-- When nobody holds the lock, the phase is that of rest. -/
theorem phase_of_calm {a : Affairs} (calm : a.lock.Calm) : a.Phase a.lock.at? ↔ a.AtRest := by
  cases h : a.lock.at? with
  | none => exact Iff.rfl
  | some stage =>
    rw [calm stage h]
    exact Iff.rfl

/-- What is at rest is in the phase of a free lock. -/
theorem AtRest.phase {a : Affairs} (rest : a.AtRest) (calm : a.lock.Calm) :
    a.Phase a.lock.at? :=
  (phase_of_calm calm).mpr rest

end Affairs

open Affairs (Attuned AtRest Between phase_of_calm)

variable {a a' : Affairs}

/-- The holder's stage tells the phase. -/
theorem Affairs.Attuned.phase_at (attuned : a.Attuned) {id : OperationId} {stage : Stage}
    (holder : a.lock.holder = some id) (h : a.lock.stage? id = some stage) :
    a.Phase (some stage) := by
  have at_ := (Lock.at?_of_holder holder).trans h
  exact at_ ▸ attuned.phase

/-! ## Changes that disturb nobody -/

/-- **The frame of the invariant.** A change that leaves both sides alone, expects what was
expected and disturbs nobody at work keeps both sides attuned. -/
theorem Affairs.Attuned.frame (attuned : a.Attuned) (session : a'.session = a.session)
    (attached : a'.dispatch.attached = a.dispatch.attached)
    (ended : a'.dispatch.ended = a.dispatch.ended) (orders : a'.orders = a.orders)
    (status : a'.status = a.status) (generation : a'.generation = a.generation)
    (pending : ∀ loss, a'.Pending loss ↔ a.Pending loss)
    (lock : Lock.Undisturbed a.lock a'.lock) : a'.Attuned := by
  have gone (g : Nat) : a'.Gone g ↔ a.Gone g := by
    simp only [Affairs.Gone, attached, ended, pending]
  have serves (g : Nat) : a'.Serves g ↔ a.Serves g := by
    simp only [Affairs.Serves, attached, gone]
  have atRest (h : a.AtRest) : a'.AtRest := by
    refine ⟨orders.trans h.orders, fun l hl => ?_, fun hn => ?_, ?_⟩
    · exact (serves _).mpr (h.serves l (session ▸ hl))
    · exact attached.trans (h.vacant (session ▸ hn))
    · rw [status, session, h.status]
  have between (h : a.Between) : a'.Between :=
    ⟨session.trans h.session, orders.trans h.orders, attached.trans h.vacant⟩
  refine ⟨?_, ?_, ?_, ?_⟩
  · rcases lock with ⟨holder, same⟩ | ⟨calm, calm'⟩
    -- the holder is just as far, so its phase carries over; else everything is at rest
    · have phase := attuned.phase
      rw [same]
      cases h : a.lock.at? with
      | none =>
        rw [h] at phase
        exact atRest phase
      | some stage =>
        rw [h] at phase
        cases stage with
        | entered => exact atRest phase
        | drawn | waiting | leaving | done => exact phase
        | detaching | attaching | attached =>
          simpa only [Affairs.Phase, session, orders, attached, holder, generation, pending,
            serves] using phase
        | detached | killing | launching | probing | refused => exact between phase
    · exact (atRest ((phase_of_calm calm).mp attuned.phase)).phase calm'
  · intro loss h
    rw [generation]
    exact attuned.bounded loss ((pending loss).mp h)
  · intro loss h
    rw [attached]
    exact attuned.unattached loss ((pending loss).mp h)
  · rw [attached, generation]
    exact attuned.current

/-! ## Operations -/

section Operations

variable {o : Operation} {seen : Observation}

/-- Operations report no losses. -/
theorem Advance.losses (rule : Advance a o seen a') : a'.losses = a.losses := by
  cases rule with
  | stop | restart | fit =>
    unfold Affairs.order
    split <;> rfl
  | _ => rfl

/-- What an operation that goes on leaves pending: all but the loss that it was to deal with,
if it just begins with that. -/
theorem Advance.pending (rule : Advance a o seen a') (sound : a.lock.Sound)
    (known : a.lock.operation? o.id = some o) (loss : Loss) :
    (a'.Pending loss → a.Pending loss) ∧
      (a.Pending loss →
        a'.Pending loss ∨ o.purpose = .crash loss ∧ o.stage = .entered) := by
  have stage := Lock.stage?_of_known known
  have purpose : a.lock.purpose? o.id = some o.purpose := Lock.purpose?_of_known known
  have holder := rule.holder sound known
  have changed : a'.lock.purpose? = a.lock.purpose? ∧
      ∀ j, a'.lock.Idle j ↔ j ≠ o.id ∧ a.lock.Idle j := by
    rcases rule.lock with ⟨now, nears, lock⟩ | ⟨result, lock⟩
    · exact lock ▸ ⟨Lock.purpose?_reach, Lock.idle_reach (by simp [stage]) nears.begun⟩
    · exact lock ▸ ⟨Lock.purpose?_finish, sound.idle_finish holder (over_last o.purpose result)⟩
  obtain ⟨less, rest⟩ := Lock.expects_begun changed.1 changed.2 loss
  -- the list of losses stays as it is, so only expectations count
  unfold Affairs.Pending
  rw [rule.losses]
  refine ⟨Or.imp_right less, ?_⟩
  rintro (new | expected)
  · exact .inl (.inl new)
  · rcases rest expected with still | ⟨mine, now, hs, quiet⟩
    · exact .inl (.inr still)
    · rw [stage] at hs
      rw [purpose] at mine
      obtain rfl := Option.some.inj hs
      -- at work and nothing done yet: it has just entered
      refine .inr ⟨Option.some.inj mine, ?_⟩
      have holds := rule.holds
      revert quiet holds
      cases o.stage <;> simp [Stage.begun, Stage.holds]

/-- Generations only grow. -/
theorem Advance.generation_le (rule : Advance a o seen a') : a.generation ≤ a'.generation := by
  cases rule with
  | stop | restart =>
    unfold Affairs.order
    split <;> exact Nat.le_refl _
  | fit _ _ l _ _ _ fresh =>
    unfold Affairs.order
    split <;> exact fresh ▸ Nat.le_succ _
  | _ => exact Nat.le_refl _

/-- An operation that finds nothing to do leaves everything at rest, if what it was to deal with
is not about the session. -/
theorem Affairs.AtRest.finish {result : Result} (rest : a.AtRest)
    (kept : ∀ l loss, a.session = some l → a.Pending loss → loss.generation = l.generation →
      (a.finish o result).Pending loss) : (a.finish o result).AtRest where
  orders := rest.orders
  vacant := rest.vacant
  status := rest.status
  serves := by
    intro l hl
    rcases rest.serves l hl with attached | ⟨vacant, ended | ⟨loss, pending, same⟩⟩
    · exact .inl attached
    · exact .inr ⟨vacant, .inl ended⟩
    · exact .inr ⟨vacant, .inr ⟨loss, kept l loss hl pending same, same⟩⟩

/-- With nothing there, and the status to say so, everything is at rest. -/
theorem Affairs.Between.atRest (between : a.Between) (status : a.status = .stopped) : a.AtRest where
  orders := between.orders
  vacant := fun _ => between.vacant
  status := by rw [status, between.session]; rfl
  serves := fun l hl => by
    rw [between.session] at hl
    cases hl

/-- A dispatcher that has ended has nothing attached. -/
theorem attached_of_ended {d : Dispatch.State} (settled : Settled d) (ended : d.ended = true) :
    d.attached = none := by
  cases settled with
  | vacant => rfl
  | resting | calling => cases ended

/-- **A teardown leads to the phase of detaching**: the books are clear, and what may still be
attached is what it asks to detach. -/
theorem phase_teardown {id : OperationId} {before : Stage} (l : Live)
    (stage : a.lock.stage? id = some before) (holder : a.lock.holder = some id)
    (settled : Settled a.dispatch) (session : a.session = none) (orders : a.orders = [])
    (attached : a.dispatch.attached = none ∨ a.dispatch.attached = some l.generation) :
    Affairs.Phase (a.order id (.detach l.generation id) (.detaching l) (.detached l))
      (a.order id (.detach l.generation id) (.detaching l) (.detached l)).lock.at? := by
  unfold Affairs.order
  split
  · rename_i ended
    rw [Lock.at?_reach stage holder]
    exact ⟨session, orders, attached_of_ended settled ended⟩
  · rw [Lock.at?_reach stage holder]
    exact ⟨session, ⟨id, holder, by rw [orders]; rfl⟩, attached⟩

/-- **Handing over leads to the phase of attaching**, if no loss of the new generation is pending.
-/
theorem phase_handover {id : OperationId} {before : Stage} (l : Live)
    (stage : a.lock.stage? id = some before) (holder : a.lock.holder = some id)
    (between : a.Between) (fresh : l.generation ≤ a.generation)
    (new : ∀ loss, Affairs.Pending
      (a.order id (.attach l.generation l.process id) (.attaching l) (.refused l)) loss →
        loss.generation ≠ l.generation) :
    Affairs.Phase (a.order id (.attach l.generation l.process id) (.attaching l) (.refused l))
      (a.order id (.attach l.generation l.process id) (.attaching l) (.refused l)).lock.at? := by
  revert new
  unfold Affairs.order
  split <;> intro new <;> rw [Lock.at?_reach stage holder]
  · exact ⟨between.session, between.orders, between.vacant⟩
  · exact ⟨between.session, ⟨id, holder, by rw [between.orders]; rfl⟩, between.vacant, fresh, new⟩

/-- **An operation leaves both sides as its next stage asks.** -/
theorem Advance.phase (rule : Advance a o seen a') (sound : a.lock.Sound)
    (settled : Settled a.dispatch) (known : a.lock.operation? o.id = some o)
    (attuned : a.Attuned) : a'.Phase a'.lock.at? := by
  have stage := Lock.stage?_of_known known
  have holder := rule.holder sound known
  have phase : a.Phase (some o.stage) := attuned.phase_at holder stage
  have pending (loss : Loss) := rule.pending sound known loss
  -- the next stage of an operation that goes on, and of one that hands the lock on
  have reach {now : Stage} (lock : a'.lock = a.lock.reach o.id now) (h : a'.Phase (some now)) :
      a'.Phase a'.lock.at? := by
    rw [lock, Lock.at?_reach stage holder]
    exact h
  have finish {last : Stage} (lock : a'.lock = a.lock.finish o.id last) (rest : a'.AtRest) :
      a'.Phase a'.lock.at? :=
    rest.phase (lock ▸ sound.calm_finish holder last)
  cases rule with
  | found l hs purpose | coalesce _ _ hs purpose =>
    rw [hs] at phase
    refine finish rfl (AtRest.finish phase fun _ loss _ hl _ => ?_)
    exact ((pending loss).2 hl).resolve_right (by simp [purpose])
  | nothingToStop hs purpose =>
    rw [hs] at phase
    refine finish rfl (AtRest.finish phase fun _ loss _ hl _ => ?_)
    exact ((pending loss).2 hl).resolve_right (by rcases purpose with h | h <;> simp [h])
  | outdated loss hs purpose other =>
    -- the loss that is dropped here is not that of the session
    rw [hs] at phase
    refine finish rfl (AtRest.finish phase fun l loss' session hl same => ?_)
    refine ((pending loss').2 hl).resolve_right ?_
    rintro ⟨mine, -⟩
    obtain rfl := Purpose.crash.inj (purpose.symm.trans mine)
    exact other l session same.symm
  | launchFailed _ _ hs | stopped _ _ hs | crashed _ _ _ _ hs | unlaunched _ hs =>
    rw [hs] at phase
    exact finish rfl (Between.atRest ⟨phase.session, phase.orders, phase.vacant⟩ rfl)
  | tearDown _ hs | tornDown _ _ _ hs | spawned _ _ hs | unfit _ _ _ _ hs | refused _ hs =>
    rw [hs] at phase
    exact reach rfl ⟨phase.session, phase.orders, phase.vacant⟩
  | launch hs _ session | restartAlone _ hs _ _ session =>
    rw [hs] at phase
    exact reach rfl ⟨session, phase.orders, phase.vacant session⟩
  | crash loss l hs purpose session same =>
    -- the loss is pending still, so its channel is not attached
    rw [hs] at phase
    have mine : a.Pending loss :=
      .inr ⟨o.id, by simp [Lock.purpose?, known, purpose], .entered, hs ▸ stage, rfl⟩
    have unattached := attuned.unattached loss mine
    refine reach rfl ⟨rfl, phase.orders, ?_⟩
    rcases phase.serves l session with attached | gone
    · exact absurd (same ▸ attached) unattached
    · exact gone.1
  | ready l hs =>
    rw [hs] at phase
    obtain ⟨-, orders, serves⟩ := phase
    refine finish rfl ⟨orders, ?_, ?_, rfl⟩
    case refine_2 =>
      intro free
      cases free
    rintro l' ⟨⟩
    rcases serves with attached | ⟨vacant, ended | ⟨loss, lost, same⟩⟩
    · exact .inl attached
    · exact .inr ⟨vacant, .inl ended⟩
    · have kept := ((pending loss).2 lost).resolve_right (by simp [hs])
      exact .inr ⟨vacant, .inr ⟨loss, kept, same⟩⟩
  | stop l hs _ session | restart _ l hs _ _ session =>
    -- the channel may be gone already, if its loss has not been dealt with
    rw [hs] at phase
    refine phase_teardown l stage holder settled rfl phase.orders ?_
    rcases phase.serves l session with attached | gone
    · exact .inr attached
    · exact .inl gone.1
  | fit toolchain outcome l hs told verdict fresh =>
    rw [hs] at phase
    refine phase_handover l stage holder ⟨phase.session, phase.orders, phase.vacant⟩
      (Nat.le_refl _) ?_
    -- no loss is pending under a generation that is yet to come
    intro loss h
    have old := attuned.bounded loss ((pending loss).1 h)
    omega

/-- **Every rule keeps the books and the dispatcher in tune**, one case for each of the phases. -/
theorem Advance.attuned (rule : Advance a o seen a') (sound : a.lock.Sound)
    (settled : Settled a.dispatch) (known : a.lock.operation? o.id = some o)
    (attuned : a.Attuned) : a'.Attuned where
  phase := rule.phase sound settled known attuned
  bounded := fun loss h =>
    Nat.le_trans (attuned.bounded loss ((rule.pending sound known loss).1 h)) rule.generation_le
  unattached := fun loss h => by
    rw [rule.dispatch]
    exact attuned.unattached loss ((rule.pending sound known loss).1 h)
  current := fun g h => by
    rw [rule.dispatch] at h
    exact Nat.le_trans (attuned.current g h) rule.generation_le

end Operations

/-! ## The dispatcher -/

/-- What orders are under way says how far the operation at work is. -/
theorem Affairs.Attuned.ordered (attuned : a.Attuned) {c : Dispatch.Command}
    {rest : List Dispatch.Command} (first : a.orders = c :: rest) :
    ∃ l id, a.lock.holder = some id ∧ rest = [] ∧
      (a.lock.stage? id = some (.detaching l) ∧ c = .detach l.generation id ∨
        a.lock.stage? id = some (.attaching l) ∧ c = .attach l.generation l.process id) := by
  have phase := attuned.phase
  -- an order is under way at two stages only; at all others the phase has none
  have located {id : OperationId} {stage : Stage} (holder : a.lock.holder = some id)
      (h : a.lock.at? = some stage) : a.lock.stage? id = some stage :=
    (Lock.at?_of_holder holder).symm.trans h
  cases h : a.lock.at? with
  | none =>
    rw [h] at phase
    cases first.symm.trans phase.orders
  | some stage =>
    rw [h] at phase
    cases stage with
    | drawn | waiting | leaving | done => exact phase.elim
    | entered => cases first.symm.trans phase.orders
    | detached | killing | launching | probing | refused => cases first.symm.trans phase.orders
    | attached => cases first.symm.trans phase.2.1
    | detaching l =>
      obtain ⟨-, ⟨id, holder, orders⟩, -⟩ := phase
      obtain ⟨rfl, rfl⟩ := List.cons.inj (first.symm.trans orders)
      exact ⟨l, id, holder, rfl, .inl ⟨located holder h, rfl⟩⟩
    | attaching l =>
      obtain ⟨-, ⟨id, holder, orders⟩, -⟩ := phase
      obtain ⟨rfl, rfl⟩ := List.cons.inj (first.symm.trans orders)
      exact ⟨l, id, holder, rfl, .inr ⟨located holder h, rfl⟩⟩

/-- An answer takes no loss away and brings none. -/
theorem pending_reply (asker : OperationId) (e : Effect) (loss : Loss) :
    (a.reply asker e).Pending loss ↔ a.Pending loss := by
  have losses : (a.reply asker e).losses = a.losses := by
    unfold Affairs.reply
    split <;> rfl
  unfold Affairs.Pending
  rw [losses]
  rcases lock_reply a asker e with same | ⟨before, after, hb, answered, lock⟩
  · rw [same]
  · -- who is answered has begun, before and after
    have begun := (answered_holds answered).2
    have begun' := (answered_nears answered none).begun
    have expects : (a.lock.reach asker after).Expects loss ↔ a.lock.Expects loss := by
      refine Lock.expects_congr Lock.purpose?_reach (fun j => ?_) loss
      rw [Lock.idle_reach (by simp [hb]) begun']
      refine and_iff_right_of_imp ?_
      rintro ⟨stage, hs, quiet⟩ rfl
      obtain rfl := Option.some.inj (hb.symm.trans hs)
      rw [begun] at quiet
      cases quiet
    rw [lock, expects]

/-- **The dispatcher lets go** of what is attached, for a reason that is known. -/
theorem Affairs.Attuned.letGo (attuned : a.Attuned) (session : a'.session = a.session)
    (orders : a'.orders = a.orders) (status : a'.status = a.status)
    (generation : a'.generation = a.generation) (lock : a'.lock = a.lock)
    (now : a'.dispatch.attached = none) (serves : ∀ g, a.Serves g → a'.Serves g)
    (pending : ∀ loss, a'.Pending loss →
      a.Pending loss ∨ a.dispatch.attached = some loss.generation) : a'.Attuned where
  unattached := fun loss _ => by rw [now]; nofun
  current := fun g h => by rw [now] at h; cases h
  bounded := by
    intro loss h
    rw [generation]
    exact (pending loss h).elim (attuned.bounded loss) (attuned.current _)
  phase := by
    have phase := attuned.phase
    rw [lock]
    -- what was served by the channel is served by the loss that is now pending
    have atRest (h : a.AtRest) : a'.AtRest :=
      ⟨orders.trans h.orders, fun l hl => serves _ (h.serves l (session ▸ hl)), fun _ => now, by
        rw [status, session, h.status]⟩
    cases h : a.lock.at? with
    | none =>
      rw [h] at phase
      exact atRest phase
    | some stage =>
      rw [h] at phase
      cases stage with
      | entered => exact atRest phase
      | drawn | waiting | leaving | done => exact phase
      | detached | killing | launching | probing | refused =>
        exact ⟨session.trans phase.session, orders.trans phase.orders, now⟩
      | attached l => exact ⟨session.trans phase.1, orders.trans phase.2.1, serves _ phase.2.2⟩
      | detaching l =>
        obtain ⟨none, ⟨id, holder, order⟩, -⟩ := phase
        exact ⟨session.trans none, ⟨id, lock ▸ holder, orders.trans order⟩, .inl now⟩
      -- nothing is attached while an order to attach is given, so the loss is an older one
      | attaching l =>
        obtain ⟨none, ⟨id, holder, order⟩, vacant, fresh, new⟩ := phase
        refine ⟨session.trans none, ⟨id, lock ▸ holder, orders.trans order⟩, now,
          generation ▸ fresh, fun loss hl => ?_⟩
        rcases pending loss hl with old | attached
        · exact new loss old
        · cases vacant.symm.trans attached

/-- **The dispatcher takes the order** of the operation at work and answers it. -/
theorem Affairs.Attuned.answer (attuned : a.Attuned) {d : Dispatch.State} {id : OperationId}
    {e : Effect} {before after : Stage} (stage : a.lock.stage? id = some before)
    (holder : a.lock.holder = some id) (answered : before.answered e = some after)
    (unattached : ∀ loss, a.Pending loss → d.attached ≠ some loss.generation)
    (current : ∀ g, d.attached = some g → g ≤ a.generation)
    (phase : Affairs.Phase
      { a with dispatch := d, orders := [], lock := a.lock.reach id after } (some after)) :
    (Affairs.reply { a with dispatch := d, orders := [] } id e).Attuned := by
  have replied : Affairs.reply { a with dispatch := d, orders := [] } id e =
      { a with dispatch := d, orders := [], lock := a.lock.reach id after } := by
    simp only [Affairs.reply, stage, Option.bind_some, answered]
  have pending (loss : Loss) :=
    replied ▸ pending_reply (a := { a with dispatch := d, orders := [] }) id e loss
  rw [replied]
  refine ⟨?_, fun loss h => ?_, fun loss h => ?_, current⟩
  · rw [Lock.at?_reach stage holder]
    exact phase
  · exact attuned.bounded loss ((pending loss).mp h)
  · exact unattached loss ((pending loss).mp h)

/-- **The dispatcher keeps both sides attuned.** -/
theorem Handled.attuned (handled : Handled a a') (settled : Settled a.dispatch)
    (attuned : a.Attuned) : a'.Attuned := by
  cases handled with
  | noMatter d attached ended =>
    exact attuned.frame rfl attached ended rfl rfl rfl (fun _ => Iff.rfl) (.inl ⟨rfl, rfl⟩)
  | lost d loss was now ended =>
    -- the channel that goes leaves its own loss behind
    refine attuned.letGo rfl rfl rfl rfl rfl now (fun g serves => ?_) (fun loss' h => ?_)
    · rcases serves with attached | gone
      · exact .inr ⟨now, .inr ⟨loss, .inl (by simp), Option.some.inj (was.symm.trans attached)⟩⟩
      · cases was.symm.trans gone.1
    · rcases h with new | expected
      · rcases List.mem_append.mp new with old | new
        · exact .inl (.inl old)
        · exact .inr (List.mem_singleton.mp new ▸ was)
      · exact .inl (.inr expected)
  | closed d closing told now ended =>
    exact attuned.letGo rfl rfl rfl rfl rfl now (fun g _ => .inr ⟨now, .inl ended⟩)
      (fun _ h => .inl h)
  | attached d g p asker rest first live now ended =>
    obtain ⟨l, id, holder, rfl, ⟨-, other⟩ | ⟨stage, order⟩⟩ := attuned.ordered first
    · cases other
    · obtain ⟨rfl, rfl, rfl⟩ := Dispatch.Command.attach.inj order
      obtain ⟨session, -, -, fresh, new⟩ := attuned.phase_at holder stage
      refine attuned.answer stage holder rfl ?_ ?_ ⟨session, rfl, .inl now⟩
      · intro loss h attached
        exact new loss h (Option.some.inj (attached.symm.trans now))
      · intro g h
        exact Option.some.inj (now.symm.trans h) ▸ fresh
  | detached d g n asker rest first live now ended =>
    obtain ⟨l, id, holder, rfl, ⟨stage, order⟩ | ⟨-, other⟩⟩ := attuned.ordered first
    · obtain ⟨rfl, rfl⟩ := Dispatch.Command.detach.inj order
      obtain ⟨session, -, attached⟩ := attuned.phase_at holder stage
      have vacant : d.attached = none := by
        rw [now]
        split
        · rfl
        · rename_i other
          exact attached.resolve_right other
      refine attuned.answer stage holder rfl ?_ ?_ ⟨session, rfl, vacant⟩
      · intro loss _ h
        cases vacant.symm.trans h
      · intro g h
        cases vacant.symm.trans h
    · cases other
  | refused c asker rest first refused ended =>
    have vacant := attached_of_ended settled ended
    have unattached (loss : Loss) (_ : a.Pending loss) :
        a.dispatch.attached ≠ some loss.generation := by rw [vacant]; nofun
    have current (g : Nat) (h : a.dispatch.attached = some g) : g ≤ a.generation := by
      cases vacant.symm.trans h
    obtain ⟨l, id, holder, rfl, ⟨stage, rfl⟩ | ⟨stage, rfl⟩⟩ := attuned.ordered first
    · obtain ⟨session, -⟩ := attuned.phase_at holder stage
      obtain rfl := Effect.refused.inj (List.cons.inj refused).1
      exact attuned.answer stage holder rfl unattached current ⟨session, rfl, vacant⟩
    · obtain ⟨session, -⟩ := attuned.phase_at holder stage
      obtain rfl := Effect.refused.inj (List.cons.inj refused).1
      exact attuned.answer stage holder rfl unattached current ⟨session, rfl, vacant⟩

/-! ## All moves -/

/-- **What is pending** is touched only by an operation that goes on and by the dispatcher. All
other moves leave it as it is, also the one that takes a loss from the list and has an operation
deal with it. -/
theorem Change.pending {move : Move} (change : Change a move a') (sound : a.lock.Sound)
    (collects : ∀ id, move = .collect id → a.lock.Done id) :
    (∃ o seen, move = .proceed o.id seen ∧ a.lock.operation? o.id = some o ∧
        Advance a o seen a') ∨
      (∃ fired, move = .dispatch fired ∧ Handled a a') ∨
      a.Bystands a' ∧ ∀ loss, a'.Pending loss ↔ a.Pending loss := by
  rcases change.trichotomy sound collects with rule | handled | bystands
  · exact .inl rule
  · exact .inr (.inl handled)
  cases change with
  | proceed o seen _ known rule => exact .inl ⟨o, seen, rfl, known, rule⟩
  | dispatch fired _ handled => exact .inr (.inl ⟨fired, rfl, handled⟩)
  | aside | askInVain | noInput | noLoss | stuck => exact .inr (.inr ⟨bystands, fun _ => Iff.rfl⟩)
  | leave id _ leaving =>
    refine .inr (.inr ⟨bystands, fun loss => or_congr_right ?_⟩)
    exact Lock.expects_over leaving rfl rfl loss
  | begin errand =>
    refine .inr (.inr ⟨bystands, fun loss => or_congr_right ?_⟩)
    refine (sound.expects_enter _ loss).trans (or_iff_left ?_)
    cases errand <;> nofun
  | draw => exact .inr (.inr ⟨bystands, fun loss => or_congr_right (sound.expects_add _ loss)⟩)
  | ask id drawn =>
    exact .inr (.inr ⟨bystands, fun loss => or_congr_right (Lock.expects_ask drawn loss)⟩)
  | collect id =>
    refine .inr (.inr ⟨bystands, fun loss => or_congr_right ?_⟩)
    exact Lock.expects_drop (collects id rfl) loss
  -- the loss is taken from the list, and the operation that comes expects it
  | monitor loss rest losses =>
    refine .inr (.inr ⟨bystands, fun loss' => ?_⟩)
    unfold Affairs.Pending
    rw [sound.expects_enter, losses, List.mem_cons, Purpose.crash.injEq]
    constructor
    · rintro (old | old | rfl)
      · exact .inl (.inr old)
      · exact .inr old
      · exact .inl (.inl rfl)
    · rintro ((rfl | old) | old)
      · exact .inr (.inr rfl)
      · exact .inl old
      · exact .inr (.inl old)

/-- **Every change keeps both sides attuned.** -/
theorem Change.attuned {move : Move} (change : Change a move a') (sound : a.lock.Sound)
    (settled : Settled a.dispatch) (attuned : a.Attuned)
    (collects : ∀ id, move = .collect id → a.lock.Done id) : a'.Attuned := by
  rcases change.pending sound collects with
    ⟨o, seen, -, known, rule⟩ | ⟨-, -, handled⟩ | ⟨bystands, pending⟩
  · exact rule.attuned sound settled known attuned
  · exact handled.attuned settled attuned
  · exact attuned.frame bystands.session (congrArg Dispatch.State.attached bystands.dispatch)
      (congrArg Dispatch.State.ended bystands.dispatch) bystands.orders bystands.status
      bystands.generation pending bystands.lock

/-- **Both sides are attuned in every orderly run.** -/
theorem run_attuned {xs : List Move} (orderly : OrderlyRun xs) :
    (machine.run xs).affairs.Attuned := by
  induction xs using List.reverseRecOn with
  | nil =>
    refine ⟨⟨rfl, nofun, fun _ => rfl, rfl⟩, ?_, ?_, nofun⟩
    · rintro loss (none | ⟨id, none, -⟩) <;> cases none
    · rintro loss (none | ⟨id, none, -⟩) <;> cases none
  | append_singleton xs x ih =>
    obtain ⟨before, now⟩ := orderlyRun_concat.mp orderly
    have inOrder := run_inOrder before
    refine (event_change orderly).attuned inOrder.sound inOrder.settled (ih before) ?_
    rintro id rfl
    exact now

/-! ## As long as nobody shuts down -/

/-- The dispatcher is running: it has not ended and was not told to. -/
structure Affairs.Running (a : Affairs) : Prop where
  live : a.dispatch.ended = false
  untold : a.closing = false

/-- The dispatcher goes on: it is running, and nobody is to tell it to end. -/
structure Affairs.Open (a : Affairs) : Prop extends a.Running where
  nobody : ∀ id, a.lock.purpose? id ≠ some .shutdown

/-- No rule changes whether a shutdown has been ordered. -/
theorem Advance.closing {o : Operation} {seen : Observation} (rule : Advance a o seen a') :
    a'.closing = a.closing := by
  cases rule with
  | stop | restart | fit =>
    unfold Affairs.order
    split <;> rfl
  | _ => rfl

/-- An answer changes nobody's purpose. -/
theorem purpose?_reply (a : Affairs) (asker : OperationId) (e : Effect) :
    (a.reply asker e).lock.purpose? = a.lock.purpose? := by
  rcases lock_reply a asker e with same | ⟨_, after, -, -, lock⟩
  · rw [same]
  · rw [lock, Lock.purpose?_reach]

/-- An answer ends nothing. -/
theorem closing_reply (a : Affairs) (asker : OperationId) (e : Effect) :
    (a.reply asker e).closing = a.closing ∧ (a.reply asker e).dispatch = a.dispatch := by
  unfold Affairs.reply
  split <;> exact ⟨rfl, rfl⟩

/-- Operations keep the dispatcher running. -/
theorem Advance.running {o : Operation} {seen : Observation} (rule : Advance a o seen a')
    (running : a.Running) : a'.Running :=
  ⟨by rw [rule.dispatch, running.live], by rw [rule.closing, running.untold]⟩

/-- What the dispatcher handles keeps it running. -/
theorem Handled.running (handled : Handled a a') (running : a.Running) : a'.Running := by
  have live := running.live
  cases handled with
  | noMatter d _ ended => exact ⟨ended.trans live, running.untold⟩
  | lost d _ _ _ ended => exact ⟨ended.trans live, running.untold⟩
  | closed d closing told => cases told.symm.trans running.untold
  | attached d g p asker rest _ _ _ ended | detached d g n asker rest _ _ _ ended =>
    obtain ⟨closing, dispatch⟩ := closing_reply { a with dispatch := d, orders := rest } asker _
    exact ⟨by rw [dispatch]; exact ended, by rw [closing]; exact running.untold⟩
  | refused c asker rest _ _ ended => cases ended.symm.trans live

/-- The dispatcher does not come back after its end. -/
theorem Handled.ended (handled : Handled a a') (ended : a.dispatch.ended = true) :
    a'.dispatch.ended = true := by
  cases handled with
  | noMatter _ _ same | lost _ _ _ _ same => exact same.trans ended
  | closed _ _ _ _ now => exact now
  | attached _ _ _ _ _ _ live | detached _ _ _ _ _ _ live => cases ended.symm.trans live
  | refused c asker rest =>
    rw [(closing_reply { a with orders := rest } asker (.refused asker)).2]
    exact ended

/-- Nor does any other move bring it back. -/
theorem Change.ended {move : Move} (change : Change a move a') (ended : a.dispatch.ended = true) :
    a'.dispatch.ended = true := by
  cases change with
  | dispatch _ _ handled => exact handled.ended ended
  | proceed o _ _ known rule => exact rule.dispatch ▸ ended
  | aside | begin | draw | ask | askInVain | noInput | monitor | noLoss | leave | stuck | collect =>
    exact ended

/-- The dispatcher's inputs change nobody's purpose. -/
theorem Handled.purpose? (handled : Handled a a') : a'.lock.purpose? = a.lock.purpose? := by
  cases handled with
  | noMatter | lost | closed => rfl
  | attached | detached | refused => exact purpose?_reply _ _ _

/-- The dispatcher does not end by itself. -/
theorem Handled.open (handled : Handled a a') (opened : a.Open) : a'.Open :=
  ⟨handled.running opened.toRunning, by rw [handled.purpose?]; exact opened.nobody⟩

/-- **A move keeps the dispatcher open**, unless it begins a shutdown. -/
theorem Change.open {move : Move} (change : Change a move a') (sound : a.lock.Sound)
    (departs : a.lock.Departs) (opened : a.Open) (h : move ≠ .begin .shutdown) : a'.Open := by
  have free := sound.fresh a.lock.next (Nat.le_refl _)
  -- nobody has shut down so far, and who comes does not either
  have entered {purpose : Purpose} (hp : purpose ≠ .shutdown) (id : OperationId) :
      (a.lock.enter purpose).purpose? id ≠ some .shutdown := by
    rw [Lock.purpose?_enter _ free, Function.update_apply]
    split
    · exact fun same => hp (Option.some.inj same)
    · exact opened.nobody id
  cases change with
  | aside | askInVain | noInput | noLoss | stuck => exact opened
  | dispatch _ _ handled => exact handled.open opened
  | begin errand =>
    refine ⟨⟨opened.live, opened.untold⟩, entered ?_⟩
    cases errand with
    | shutdown => exact absurd rfl h
    | start | stop | restart => nofun
  | monitor loss rest losses => exact ⟨⟨opened.live, opened.untold⟩, entered nofun⟩
  | draw =>
    refine ⟨⟨opened.live, opened.untold⟩, fun id => ?_⟩
    rw [Lock.purpose?_add _ free, Function.update_apply]
    split
    · nofun
    · exact opened.nobody id
  | ask id drawn =>
    refine ⟨⟨opened.live, opened.untold⟩, ?_⟩
    rw [Lock.purpose?_ask]
    exact opened.nobody
  | collect id =>
    refine ⟨⟨opened.live, opened.untold⟩, fun j => ?_⟩
    rw [Lock.purpose?_drop, Function.update_apply]
    split
    · nofun
    · exact opened.nobody j
  -- only a shutdown leaves after its turn
  | leave id _ leaving => exact absurd (departs id _ leaving rfl) (opened.nobody id)
  | proceed o seen _ known rule =>
    refine ⟨rule.running opened.toRunning, ?_⟩
    rcases rule.lock with ⟨now, -, lock⟩ | ⟨result, lock⟩
    · rw [lock, Lock.purpose?_reach]
      exact opened.nobody
    · rw [lock, Lock.purpose?_finish]
      exact opened.nobody

/-- Where no shutdown begins the dispatcher stays open. -/
theorem run_open {xs : List Move} (orderly : OrderlyRun xs) (goesOn : .begin .shutdown ∉ xs) :
    (machine.run xs).affairs.Open := by
  induction xs using List.reverseRecOn with
  | nil => exact ⟨⟨rfl, rfl⟩, nofun⟩
  | append_singleton xs x ih =>
    obtain ⟨before, now⟩ := orderlyRun_concat.mp orderly
    rw [List.mem_append, List.mem_singleton, not_or] at goesOn
    exact (event_change orderly).open (run_inOrder before).sound (run_departs before)
      (ih before goesOn.1) (Ne.symm goesOn.2)

/-! ## The law -/

/-- **Session and attachment go together.** In every orderly run without a shutdown, when nobody
is at work: without a session nothing is attached, and with a session either its channel is
attached, or nothing is and its loss is still to be dealt with. If no loss is to be dealt with,
the status is ready exactly if there is a session, and a generation is attached exactly if it is
that of the session. And at no moment, whoever is at work, does the dispatcher take a channel
while another one is attached. -/
theorem session_iff_attached (xs : List Move) (orderly : OrderlyRun xs)
    (goesOn : .begin .shutdown ∉ xs) :
    ((machine.run xs).lock.Calm →
      ((machine.run xs).session = none → (machine.run xs).dispatch.attached = none) ∧
      (∀ l, (machine.run xs).session = some l →
        (machine.run xs).dispatch.attached = some l.generation ∨
        (machine.run xs).dispatch.attached = none ∧
          ∃ loss, (machine.run xs).affairs.Pending loss ∧ loss.generation = l.generation) ∧
      ((∀ loss, ¬ (machine.run xs).affairs.Pending loss) →
        ((machine.run xs).status = .ready ↔ (machine.run xs).session ≠ none) ∧
        ∀ g, (machine.run xs).dispatch.attached = some g ↔
          ∃ l, (machine.run xs).session = some l ∧ l.generation = g)) ∧
    ∀ g p asker s', (machine.run xs).nextInput? = some (.command (.attach g p asker), s') →
      (machine.run xs).dispatch.attached = none := by
  have attuned := run_attuned orderly
  have opened := run_open orderly goesOn
  generalize machine.run xs = s at attuned opened ⊢
  refine ⟨fun calm => ?_, ?_⟩
  · have rest := (phase_of_calm calm).mp attuned.phase
    have known (l : Live) (hl : s.session = some l) : s.dispatch.attached = some l.generation ∨
        s.dispatch.attached = none ∧ ∃ loss, s.affairs.Pending loss ∧
          loss.generation = l.generation := by
      -- a session without a channel has its loss pending, for the dispatcher has not ended
      rcases rest.serves l hl with attached | ⟨vacant, ended | pending⟩
      · exact .inl attached
      · cases ended.symm.trans opened.live
      · exact .inr ⟨vacant, pending⟩
    refine ⟨rest.vacant, known, fun quiet => ⟨?_, fun g => ?_⟩⟩
    -- at rest the status says whether there is a session
    · rw [show s.status = _ from rest.status]
      cases hs : s.session with
      | none => simp [affairs, hs]
      | some l => simp [affairs, hs]
    · constructor
      · intro attached
        cases hs : s.session with
        | none => cases attached.symm.trans (rest.vacant hs)
        | some l =>
          rcases known l hs with same | ⟨vacant, -⟩
          · exact ⟨l, rfl, Option.some.inj (same.symm.trans attached)⟩
          · cases vacant.symm.trans attached
      · rintro ⟨l, hl, rfl⟩
        rcases known l hl with attached | ⟨-, loss, pending, -⟩
        · exact attached
        · exact absurd pending (quiet loss)
  · -- the channel is taken by an order, and at the stage that gives this order nothing is attached
    intro g p asker s' next
    have first : ∃ rest, s.affairs.orders = .attach g p asker :: rest := by
      obtain ⟨takes, -⟩ := nextInput?_takes next
      generalize s'.affairs = left at takes
      cases takes with
      | order _ rest first => exact ⟨rest, first⟩
      | caller _ noOrder => cases noOrder
    obtain ⟨rest, first⟩ := first
    obtain ⟨l, id, holder, -, ⟨-, other⟩ | ⟨stage, -⟩⟩ := attuned.ordered first
    · cases other
    · obtain ⟨-, -, vacant, -⟩ := attuned.phase_at holder stage
      exact vacant

/-- A session is restarted while it answers a request, and the new process ends at once. -/
def crashedRun : List Move :=
  [.begin .start, .proceed 0 .nothing] ++ launching 0 7 ++
    [.submit ⟨"", ["check"], none⟩ 0, .dispatch fun _ => false, .begin .restart,
      .proceed 1 .nothing, .dispatch fun _ => false, .proceed 1 .nothing, .proceed 1 .killed] ++
    launching 1 8 ++ [.exit 1 ⟨some 9⟩, .dispatch fun _ => false]

/-- In this run the second session's process crashes while the lock is free: it is ready and
attached no more, and the loss of its generation is pending. -/
theorem crashedRun_attached :
    OrderlyRun crashedRun ∧ .begin .shutdown ∉ crashedRun ∧ (machine.run crashedRun).lock.Calm ∧
      (machine.run crashedRun).session.map (·.generation) = some 2 ∧
      ∃ loss, (machine.run crashedRun).affairs.Pending loss ∧ loss.generation = 2 := by
  have orderly : OrderlyRun crashedRun := by
    refine orderlyRun_of_keeps ?_
    decide
  have goesOn : .begin .shutdown ∉ crashedRun := by simp [crashedRun, launching]
  have calm : (machine.run crashedRun).lock.Calm := Lock.calm_of_free rfl
  refine ⟨orderly, goesOn, calm, rfl, ?_⟩
  obtain ⟨-, known, -⟩ := (session_iff_attached crashedRun orderly goesOn).1 calm
  rcases known _ rfl with attached | ⟨-, pending⟩
  · cases attached
  · exact pending

end CompilerSession.Supervisor
