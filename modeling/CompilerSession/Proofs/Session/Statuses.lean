import CompilerSession.Proofs.Session.Shutdown
import Mathlib.Data.List.Chain

/-
What is published.

Status and facts of the session can be read at any time, also while an operation that holds the
lock is in the middle of its work. `Affairs.Shows` says what they are at each stage of that
operation, and every move keeps this. The rest is read off it: the status goes its ways and no
others (`Status.Passes`), a ready status stands beside the facts of the newest session, and without
a session nothing is told.

That a session is ready is published by the operation that launched it, after the dispatcher has
taken its channel. The event at which that happened is found by going back from the stage of the
operation (`run_acknowledged`).
-/

set_option autoImplicit false

namespace CompilerSession

/-- **The ways of the status.** -/
inductive Status.Passes : Status → Status → Prop where
  | launch : Passes .stopped .starting
  | restartAlone : Passes .stopped .restarting
  | ready : Passes .starting .ready
  | unlaunched : Passes .starting .stopped
  | stop : Passes .ready .stopping
  | restart : Passes .ready .restarting
  | crash : Passes .ready .stopped
  | stopped : Passes .stopping .stopped
  | tornDown : Passes .restarting .starting

namespace Supervisor

open Dispatch (Loss Effect Settled)

/-! ## Stages and what is published -/

/-- The status while an operation tears a session down. -/
def Purpose.tearing : Purpose → Status
  | .restart _ => .restarting
  | .start | .stop | .shutdown | .crash _ => .stopping

/-- Only a restart tears down to restart. -/
theorem Purpose.tearing_of_not_restart {purpose : Purpose}
    (other : ∀ ticket, purpose ≠ .restart ticket) : purpose.tearing = .stopping := by
  cases purpose with
  | restart ticket => exact absurd rfl (other ticket)
  | start | stop | shutdown | crash => rfl

/-- What the holder of the lock is for. -/
def Lock.task? (k : Lock) : Option Purpose :=
  k.holder.bind k.purpose?

namespace Affairs

/-- **What is published** while an operation is at a stage. -/
def Shows (a : Affairs) (task : Option Purpose) : Option Stage → Prop
  | none | some .entered =>
    a.status = (if a.session.isSome then .ready else .stopped) ∧
      a.current = a.session.map Live.info
  | some (.detaching l) | some (.detached l) | some (.killing _ (.tornDown l)) =>
    task.map Purpose.tearing = some a.status ∧ a.current = some l.info
  | some (.killing _ (.crashed l _)) => a.status = .ready ∧ a.current = some l.info
  | some .launching | some (.probing _ _) | some (.attaching _) | some (.attached _)
  | some (.refused _) | some (.killing _ (.launchFailed _)) =>
    a.status = .starting ∧ a.current = none
  | some .drawn | some .waiting | some .leaving | some (.done _) => False

/-- What is published is what it should be at the stage of who holds the lock. -/
abbrev Standing (a : Affairs) : Prop := a.Shows a.lock.task? a.lock.at?

/-- The status went from that of `a` to that of `a'`, by its ways, and all that it was set to was
written down. -/
def Passes (a a' : Affairs) : Prop :=
  ∃ new, a'.statuses = a.statuses ++ new ∧ (a.status :: new).IsChain Status.Passes ∧
    (a.status :: new).getLast? = some a'.status

variable {a a' : Affairs}

/-- Where no status is published, none is passed. -/
theorem Passes.rest (statuses : a'.statuses = a.statuses) (status : a'.status = a.status) :
    a.Passes a' :=
  ⟨[], by rw [statuses, List.append_nil], .singleton _, congrArg some status.symm⟩

/-- One status is published, and there is a way to it. -/
theorem Passes.once {now : Status} (way : Status.Passes a.status now)
    (statuses : a'.statuses = a.statuses ++ [now]) (status : a'.status = now) : a.Passes a' :=
  ⟨[now], statuses, .cons_cons way (.singleton _), congrArg some status.symm⟩

/-- The ways of two steps are one way. -/
theorem Passes.trans {a'' : Affairs} (first : a.Passes a') (next : a'.Passes a'') :
    a.Passes a'' := by
  obtain ⟨new, statuses, ways, last⟩ := first
  obtain ⟨new', statuses', ways', last'⟩ := next
  refine ⟨new ++ new', by rw [statuses', statuses, List.append_assoc], ?_, ?_⟩
  · rw [← List.cons_append]
    refine List.isChain_append.mpr ⟨ways, ways'.tail, fun x hx y hy => ?_⟩
    obtain rfl := Option.some.inj (last.symm.trans hx)
    exact (List.isChain_cons.mp ways').1 y hy
  · rw [← List.cons_append, List.getLast?_append]
    cases new' with
    | nil => rw [last]; exact last'
    | cons s new' => rw [List.getLast?_cons_cons] at last'; rw [last']; rfl

/-- While nobody is at work, what is published is about the session. -/
theorem standing_of_calm (calm : a.lock.Calm) : a.Standing ↔ a.Shows none none := by
  cases h : a.lock.at? with
  | none => rw [Standing, h]; exact Iff.rfl
  | some stage => rw [Standing, h, calm stage h]; exact Iff.rfl

/-- With nothing there, this is what is published. -/
theorem shows_nothing (session : a.session = none) (status : a.status = .stopped)
    (current : a.current = none) : a.Shows none none :=
  ⟨by rw [status, session]; rfl, by rw [current, session]; rfl⟩

/-- With a session, this is what is published. -/
theorem Shows.session {task : Option Purpose} {l : Live}
    (shows : a.Shows task (some .entered)) (session : a.session = some l) :
    a.status = .ready ∧ a.current = some l.info := by
  obtain ⟨status, current⟩ := shows
  rw [session] at status current
  exact ⟨status, current⟩

/-- An operation that finds no session on its turn finds the status stopped, and nothing shown. -/
theorem Shows.noSession {task : Option Purpose}
    (shows : a.Shows task (some .entered)) (session : a.session = none) :
    a.status = .stopped ∧ a.current = none := by
  obtain ⟨status, current⟩ := shows
  rw [session] at status current
  exact ⟨status, current⟩

/-- What is shown depends on the session, the status and the snapshot. -/
theorem Shows.frame {task : Option Purpose} {stage : Option Stage} (shows : a.Shows task stage)
    (session : a'.session = a.session) (status : a'.status = a.status)
    (current : a'.current = a.current) : a'.Shows task stage := by
  unfold Shows at shows ⊢
  rw [session, status, current]
  exact shows

/-- The holder's stage tells what is shown. -/
theorem Standing.shows (standing : a.Standing) {id : OperationId} {o : Operation}
    (holder : a.lock.holder = some id) (known : a.lock.operation? id = some o) :
    a.Shows (some o.purpose) (some o.stage) := by
  have at_ := (Lock.at?_of_holder holder).trans (Lock.stage?_of_known known)
  have task : a.lock.task? = some o.purpose := by
    rw [Lock.task?, holder, Option.bind_some, Lock.purpose?_of_known known]
  rw [Standing, at_, task] at standing
  exact standing

/-- While the status is ready, there are facts of a session. -/
theorem Standing.current_of_ready (standing : a.Standing) (ready : a.status = .ready) :
    a.current.isSome = true := by
  have rest (shows : a.Shows a.lock.task? (some .entered)) : a.current.isSome = true := by
    cases session : a.session with
    | none => cases ready.symm.trans (shows.noSession session).1
    | some l => rw [(shows.session session).2]; rfl
  cases h : a.lock.at? with
  | none =>
    rw [Standing, h] at standing
    exact rest standing
  | some stage =>
    rw [Standing, h] at standing
    cases stage with
    | drawn | waiting | leaving | done => exact standing.elim
    | entered => exact rest standing
    | detaching | detached => rw [standing.2]; rfl
    | launching | probing | attaching | attached | refused => cases ready.symm.trans standing.1
    | killing p next =>
      cases next with
      | tornDown | crashed => rw [standing.2]; rfl
      | launchFailed => cases ready.symm.trans standing.1

/-- While the status is stopped or starting, there are no facts of a session. -/
theorem Standing.current_of_vacant (standing : a.Standing)
    (vacant : a.status = .stopped ∨ a.status = .starting) : a.current = none := by
  have rest (shows : a.Shows a.lock.task? (some .entered)) : a.current = none := by
    cases session : a.session with
    | none => exact (shows.noSession session).2
    | some l => rw [(shows.session session).1] at vacant; rcases vacant with h | h <;> cases h
  -- who tears down has set a status of its own, and that is neither of the two
  have busy {task : Option Purpose} (tearing : task.map Purpose.tearing = some a.status) :
      a.current = none := by
    obtain ⟨purpose, -, tearing⟩ := Option.map_eq_some_iff.mp tearing
    rw [← tearing] at vacant
    cases purpose <;> rcases vacant with h | h <;> cases h
  cases h : a.lock.at? with
  | none =>
    rw [Standing, h] at standing
    exact rest standing
  | some stage =>
    rw [Standing, h] at standing
    cases stage with
    | drawn | waiting | leaving | done => exact standing.elim
    | entered => exact rest standing
    | detaching | detached => exact busy standing.1
    | launching | probing | attaching | attached | refused => exact standing.2
    | killing p next =>
      cases next with
      | tornDown => exact busy standing.1
      | crashed => rw [standing.1] at vacant; rcases vacant with h | h <;> cases h
      | launchFailed => exact standing.2

end Affairs

open Affairs (Standing standing_of_calm)

variable {a a' : Affairs}

/-! ## Operations -/

section Operations

variable {o : Operation} {seen : Observation}

/-- **The status goes its ways** when an operation goes on. -/
theorem Advance.passes (rule : Advance a o seen a')
    (shows : a.Shows (some o.purpose) (some o.stage)) : a.Passes a' := by
  -- the status before, by the stage
  cases rule with
  | found | nothingToStop | coalesce | outdated | tearDown | spawned | unfit | refused | crash =>
    exact .rest rfl rfl
  | launch stage _ session =>
    rw [stage] at shows
    exact .once ((shows.noSession session).1 ▸ .launch) rfl rfl
  | restartAlone _ stage _ _ session =>
    rw [stage] at shows
    refine ⟨[.restarting, .starting], by simp [Affairs.setStatus], ?_, rfl⟩
    exact .cons_cons ((shows.noSession session).1 ▸ .restartAlone)
      (.cons_cons .tornDown (.singleton _))
  | stop l stage _ session =>
    rw [stage] at shows
    have ready := (shows.session session).1
    unfold Affairs.order
    split <;> exact .once (ready ▸ .stop) rfl rfl
  | restart _ l stage _ _ session =>
    rw [stage] at shows
    have ready := (shows.session session).1
    unfold Affairs.order
    split <;> exact .once (ready ▸ .restart) rfl rfl
  | launchFailed _ _ stage | unlaunched _ stage =>
    rw [stage] at shows
    exact .once (shows.1 ▸ .unlaunched) rfl rfl
  | tornDown _ l _ stage purpose =>
    rw [stage, purpose] at shows
    have restarting : a.status = .restarting := (Option.some.inj shows.1).symm
    exact .once (restarting ▸ .tornDown) rfl rfl
  | stopped _ l stage purpose =>
    rw [stage] at shows
    have stopping : a.status = .stopping :=
      (Option.some.inj shows.1).symm.trans (Purpose.tearing_of_not_restart purpose)
    exact .once (stopping ▸ .stopped) rfl rfl
  | crashed _ l _ _ stage =>
    rw [stage] at shows
    exact .once (shows.1 ▸ .crash) rfl rfl
  | fit =>
    unfold Affairs.order
    split <;> exact .rest rfl rfl
  | ready l stage =>
    rw [stage] at shows
    exact .once (shows.1 ▸ .ready) rfl rfl

/-- **An operation publishes what its next stage asks for.** -/
theorem Advance.standing (rule : Advance a o seen a') (sound : a.lock.Sound)
    (known : a.lock.operation? o.id = some o) (attuned : a.Attuned) (standing : a.Standing) :
    a'.Standing := by
  have stage := Lock.stage?_of_known known
  have holder := rule.holder sound known
  have shows := standing.shows holder known
  have phase : a.Phase (some o.stage) := attuned.phase_at holder stage
  -- the next stage of an operation that goes on, and of one that hands the lock on
  have reach {now : Stage} (lock : a'.lock = a.lock.reach o.id now)
      (h : a'.Shows (some o.purpose) (some now)) : a'.Standing := by
    have task : (a.lock.reach o.id now).task? = some o.purpose := by
      rw [Lock.task?, Lock.purpose?_reach, show (a.lock.reach o.id now).holder = _ from holder,
        Option.bind_some, Lock.purpose?_of_known known]
    rw [Standing, lock, Lock.at?_reach stage holder, task]
    exact h
  have finish {last : Stage} (lock : a'.lock = a.lock.finish o.id last)
      (h : a'.Shows none none) : a'.Standing :=
    (standing_of_calm (lock ▸ sound.calm_finish holder last)).mpr h
  cases rule with
  | found _ hs | nothingToStop hs | coalesce _ _ hs | outdated _ hs =>
    rw [hs] at shows
    exact finish rfl shows
  | launch hs _ session | restartAlone _ hs _ _ session =>
    rw [hs] at shows
    exact reach rfl ⟨rfl, (shows.noSession session).2⟩
  | stop l hs purpose session =>
    rw [hs] at shows
    have current := (shows.session session).2
    have tearing : o.purpose.tearing = .stopping := by
      rcases purpose with purpose | purpose <;> rw [purpose] <;> rfl
    revert reach
    unfold Affairs.order
    split <;> intro reach <;> exact reach rfl ⟨congrArg some tearing, current⟩
  | restart _ l hs purpose _ session =>
    rw [hs] at shows
    have current := (shows.session session).2
    have tearing : o.purpose.tearing = .restarting := by rw [purpose]; rfl
    revert reach
    unfold Affairs.order
    split <;> intro reach <;> exact reach rfl ⟨congrArg some tearing, current⟩
  | crash _ l hs _ session =>
    rw [hs] at shows
    exact reach rfl (shows.session session)
  | tearDown _ hs | spawned _ _ hs | unfit _ _ _ _ hs | refused _ hs =>
    rw [hs] at shows
    exact reach rfl shows
  | launchFailed _ _ hs | unlaunched _ hs =>
    rw [hs] at shows phase
    exact finish rfl (Affairs.shows_nothing phase.session rfl shows.2)
  | tornDown _ _ _ hs => exact reach rfl ⟨rfl, rfl⟩
  | stopped _ _ hs | crashed _ _ _ _ hs =>
    rw [hs] at phase
    exact finish rfl (Affairs.shows_nothing phase.session rfl rfl)
  | fit _ _ l hs =>
    rw [hs] at shows
    revert reach
    unfold Affairs.order
    split <;> intro reach <;> exact reach rfl shows
  | ready l hs => exact finish rfl ⟨rfl, rfl⟩

end Operations

/-! ## All moves -/

/-- Who is answered by the dispatcher goes on with what is published. -/
theorem Affairs.Shows.answered {task : Option Purpose} {e : Effect} {before after : Stage}
    (shows : a.Shows task (some before)) (answered : before.answered e = some after) :
    a.Shows task (some after) := by
  unfold Stage.answered at answered
  split at answered <;> cases answered <;> exact shows

/-- What is told by the dispatcher is told to operations, and not published. -/
theorem Handled.published (handled : Handled a a') :
    a'.session = a.session ∧ a'.status = a.status ∧ a'.statuses = a.statuses ∧
      a'.current = a.current := by
  cases handled with
  | noMatter | lost | closed => exact ⟨rfl, rfl, rfl, rfl⟩
  | attached | detached | refused =>
    unfold Affairs.reply
    split <;> exact ⟨rfl, rfl, rfl, rfl⟩

/-- What the dispatcher handles changes nothing of what is shown. -/
theorem Handled.standing (handled : Handled a a') (sound : a.lock.Sound) (standing : a.Standing) :
    a'.Standing := by
  obtain ⟨session, status, -, current⟩ := handled.published
  have kept {task : Option Purpose} {stage : Option Stage} (shows : a.Shows task stage) :
      a'.Shows task stage := shows.frame session status current
  rcases handled.lock with same | ⟨asker, e, before, after, stage, answered, lock⟩
  · rw [Standing, same]
    exact kept standing
  · have holder := sound.holder stage (answered_holds answered).1
    have at_ := (Lock.at?_of_holder holder).trans stage
    have task : (a.lock.reach asker after).task? = a.lock.task? := by
      rw [Lock.task?, Lock.purpose?_reach]
      rfl
    rw [Standing, at_] at standing
    rw [Standing, lock, Lock.at?_reach stage holder, task]
    exact kept (standing.answered answered)

/-- Whatever stands by changes nothing of what is shown. -/
theorem Affairs.Bystands.standing (bystands : a.Bystands a') (standing : a.Standing) :
    a'.Standing := by
  have kept {task : Option Purpose} {stage : Option Stage} (shows : a.Shows task stage) :
      a'.Shows task stage := shows.frame bystands.session bystands.status bystands.current
  rcases bystands.lock with ⟨holder, same⟩ | ⟨calm, calm'⟩
  · have task : a'.lock.task? = a.lock.task? := by
      rw [Lock.task?, Lock.task?, holder]
      cases h : a.lock.holder with
      | none => rfl
      | some id => exact bystands.task id h
    rw [Standing, same, task]
    exact kept standing
  · exact (standing_of_calm calm').mpr (kept ((standing_of_calm calm).mp standing))

/-- **Every change publishes what it should**, and the status goes its ways. -/
theorem Change.standing {move : Move} (change : Change a move a') (sound : a.lock.Sound)
    (attuned : a.Attuned) (collects : ∀ id, move = .collect id → a.lock.Done id)
    (standing : a.Standing) : a'.Standing ∧ a.Passes a' := by
  rcases change.trichotomy sound collects with
    ⟨o, seen, -, known, rule⟩ | ⟨-, -, handled⟩ | bystands
  · have shows := standing.shows (rule.holder sound known) known
    exact ⟨rule.standing sound known attuned standing, rule.passes shows⟩
  · obtain ⟨-, status, statuses, -⟩ := handled.published
    exact ⟨handled.standing sound standing, .rest statuses status⟩
  · exact ⟨bystands.standing standing, .rest bystands.statuses bystands.status⟩

/-- **What is published is what it should be in every orderly run**, and the status has gone its
ways. -/
theorem run_standing {xs : List Move} (orderly : OrderlyRun xs) :
    (machine.run xs).affairs.Standing ∧ initial.affairs.Passes (machine.run xs).affairs := by
  induction xs using List.reverseRecOn with
  | nil => exact ⟨⟨rfl, rfl⟩, .rest rfl rfl⟩
  | append_singleton xs x ih =>
    obtain ⟨before, now⟩ := orderlyRun_concat.mp orderly
    obtain ⟨standing, passed⟩ := ih before
    have inOrder := run_inOrder before
    obtain ⟨standing', passes⟩ := (event_change orderly).standing inOrder.sound
      (run_attuned before) (by rintro id rfl; exact now) standing
    exact ⟨standing', passed.trans passes⟩

/-! ## Sessions that come to be -/

/-- A session comes to be, and is published. -/
structure Affairs.Opens (a a' : Affairs) (l : Live) : Prop where
  before : a.session = none
  session : a'.session = some l
  status : a'.status = .ready
  current : a'.current = some l.info

/-- No session comes to be, and none is published. -/
structure Affairs.OpensNone (a a' : Affairs) : Prop where
  session : ∀ l, a'.session = some l → a.session = some l
  current : a'.current = a.current ∨ a'.current = none
  statuses : ∃ new, a'.statuses = a.statuses ++ new ∧ .ready ∉ new

/-- Where session, status and snapshot stay, no session is opened. -/
theorem Affairs.OpensNone.of_same (session : a'.session = a.session)
    (statuses : a'.statuses = a.statuses) (current : a'.current = a.current) : a.OpensNone a' :=
  ⟨fun _ h => session ▸ h, .inl current, [], by rw [statuses, List.append_nil], List.not_mem_nil⟩

/-- Only who has got a channel attached opens a session. -/
theorem Advance.opens {o : Operation} {seen : Observation} (rule : Advance a o seen a')
    (phase : a.Phase (some o.stage)) :
    (∃ l, o.stage = .attached l ∧ a.Opens a' l) ∨ a.OpensNone a' := by
  cases rule with
  | ready l stage =>
    rw [stage] at phase
    exact .inl ⟨l, stage, phase.1, rfl, rfl, rfl⟩
  | found | nothingToStop | coalesce | outdated | tearDown | spawned | unfit | refused =>
    exact .inr (.of_same rfl rfl rfl)
  | fit =>
    unfold Affairs.order
    split <;> exact .inr (.of_same rfl rfl rfl)
  | crash => exact .inr ⟨nofun, .inl rfl, [], (List.append_nil _).symm, List.not_mem_nil⟩
  | stop | restart =>
    unfold Affairs.order
    split <;> exact .inr ⟨nofun, .inl rfl, [_], rfl, by simp⟩
  | restartAlone =>
    refine .inr ⟨fun _ h => h, .inl rfl, [.restarting, .starting], ?_, by simp⟩
    simp [Affairs.setStatus]
  | launch | launchFailed | unlaunched =>
    exact .inr ⟨fun _ h => h, .inl rfl, [_], rfl, by simp⟩
  | tornDown | stopped | crashed => exact .inr ⟨fun _ h => h, .inr rfl, [_], rfl, by simp⟩

/-- **A move opens the session that was attached, or none.** -/
theorem Change.opens {move : Move} (change : Change a move a') (sound : a.lock.Sound)
    (attuned : a.Attuned) (collects : ∀ id, move = .collect id → a.lock.Done id) :
    (∃ id l, a.lock.stage? id = some (.attached l) ∧ a.Opens a' l) ∨ a.OpensNone a' := by
  rcases change.trichotomy sound collects with
    ⟨o, seen, -, known, rule⟩ | ⟨-, -, handled⟩ | bystands
  · have stage := Lock.stage?_of_known known
    have phase := attuned.phase_at (rule.holder sound known) stage
    refine (rule.opens phase).imp_left ?_
    rintro ⟨l, attached, opens⟩
    exact ⟨o.id, l, stage.trans (congrArg some attached), opens⟩
  · obtain ⟨session, -, statuses, current⟩ := handled.published
    exact .inr (.of_same session statuses current)
  · exact .inr (.of_same bystands.session bystands.statuses bystands.current)

/-- Every event of an orderly run opens the session that was attached, or none. -/
theorem event_opens {xs : List Move} {x : Move} (orderly : OrderlyRun (xs ++ [x])) :
    (∃ id l, (machine.run xs).lock.stage? id = some (.attached l) ∧
        (machine.run xs).affairs.Opens (machine.run (xs ++ [x])).affairs l) ∨
      (machine.run xs).affairs.OpensNone (machine.run (xs ++ [x])).affairs := by
  obtain ⟨before, now⟩ := orderlyRun_concat.mp orderly
  exact (event_change orderly).opens (run_inOrder before).sound (run_attuned before)
    (by rintro id rfl; exact now)

/-- The session comes to be at the event. -/
structure Comes (e : machine.Event) (l : Live) : Prop where
  before : e.before.session = none
  after : e.after.session = some l

/-- **The newest session** that came to be. -/
def Newest (h : List machine.Event) (l : Live) : Prop :=
  ∃ past e later, h = past ++ e :: later ∧ Comes e l ∧ ∀ f ∈ later, ∀ l', ¬ Comes f l'

/-- **What is published is about the newest session**, if it is about any. -/
theorem run_newest {xs : List Move} (orderly : OrderlyRun xs) :
    ∀ i, (machine.run xs).current = some i →
      ∃ l, Newest (machine.history xs) l ∧ i = l.info := by
  induction xs using List.reverseRecOn with
  | nil => nofun
  | append_singleton xs x ih =>
    intro i current
    have after : Machine.Event.after ⟨machine.run xs, x⟩ = machine.run (xs ++ [x]) :=
      (machine.run_concat xs x).symm
    rw [machine.history_concat]
    rcases event_opens orderly with ⟨id, l, -, opens⟩ | none
    · have comes : Comes ⟨machine.run xs, x⟩ l :=
        ⟨opens.before, (congrArg session after).trans opens.session⟩
      have last (f) (hf : f ∈ ([] : List machine.Event)) : ∀ l', ¬ Comes f l' := by cases hf
      refine ⟨l, ⟨machine.history xs, _, [], rfl, comes, last⟩, ?_⟩
      exact Option.some.inj (current.symm.trans opens.current)
    · rcases none.current with same | gone
      · obtain ⟨l, ⟨past, e, later, cut, comes, last⟩, rfl⟩ :=
          ih (orderlyRun_concat.mp orderly).1 i (same.symm.trans current)
        refine ⟨l, ⟨past, e, later ++ [⟨machine.run xs, x⟩], by simp [cut], comes, ?_⟩, rfl⟩
        intro f hf l' comes'
        rcases List.mem_append.mp hf with old | new
        · exact last f old l' comes'
        · obtain rfl := List.mem_singleton.mp new
          -- a session that was there before does not come to be
          have there := none.session l' ((congrArg session after).symm.trans comes'.after)
          cases comes'.before.symm.trans there
      · cases gone.symm.trans current

/-! ## The answer of the dispatcher -/

/-- **The dispatcher takes the channel of a session**, and answers who asked for it. -/
structure Acknowledges (e : machine.Event) (l : Live) : Prop where
  taken : ∃ fired id left, e.action = .dispatch fired ∧
    e.before.nextInput? = some (.command (.attach l.generation l.process id), left) ∧
    .replied id ∈ e.outputs
  live : e.before.dispatch.ended = false
  attached : e.after.dispatch.attached = some l.generation

section Acknowledges

variable {s : Supervisor} {id : OperationId} {l : Live}

/-- Who waits for a channel is answered when it is attached. -/
theorem replied_of_attached (q : List Dispatch.Entry) (h : s.stage? id = some (.attaching l)) :
    .replied id ∈ (s.absorb (q.map Dispatch.Entry.stale ++ [.attached id])).2 := by
  induction q with
  | nil => simp [absorb, absorbOne, h]
  | cons x q ih => exact List.mem_append_right _ ih

/-- The dispatcher acknowledges the attachment that it takes. -/
theorem acknowledges_of_taken {fired : Token → Bool} {rest : List Dispatch.Command}
    (settled : Settled s.dispatch) (live : s.dispatch.ended = false)
    (stage : s.stage? id = some (.attaching l))
    (inbox : s.inbox = .attach l.generation l.process id :: rest) :
    Acknowledges ⟨s, .dispatch fired⟩ l := by
  have next : s.nextInput? =
      some (.command (.attach l.generation l.process id), { s with inbox := rest }) := by
    simp only [nextInput?, inbox]
  have rule := Dispatch.step_iteration fired settled (.command (.attach l.generation l.process id))
  have ran : s.runDispatcher fired =
      absorb { s with
        inbox := rest
        dispatch := (Dispatch.step fired s.dispatch
          (.command (.attach l.generation l.process id))).1 }
        (Dispatch.step fired s.dispatch (.command (.attach l.generation l.process id))).2 := by
    simp only [runDispatcher, next]
  generalize (Dispatch.step fired s.dispatch
    (.command (.attach l.generation l.process id))).1 = d at rule ran
  generalize (Dispatch.step fired s.dispatch
    (.command (.attach l.generation l.process id))).2 = effects at rule ran
  have dispatch : (s.runDispatcher fired).1.dispatch = d := by
    rw [ran]
    exact (congrArg Affairs.dispatch (affairs_absorb _ _)).trans (dispatch_hear _ _)
  generalize before : s.dispatch = d₀ at rule live
  -- of all rules only the one that attaches takes this command while the dispatcher goes on
  cases rule with
  | refused => cases live
  | unheard _ h => exact absurd rfl (h _)
  | ended _ _ h => rcases h with h | h <;> cases h
  | attached =>
    refine ⟨⟨fired, id, _, rfl, next, ?_⟩, before ▸ live, ?_⟩
    · show .replied id ∈ (s.runDispatcher fired).2
      rw [ran]
      exact replied_of_attached _ stage
    · exact congrArg Dispatch.State.attached dispatch

end Acknowledges

/-- **Whoever has got its channel attached** was answered by the dispatcher. -/
theorem run_acknowledged {xs : List Move} (orderly : OrderlyRun xs) :
    (machine.run xs).lock.All fun _ _ stage => ∀ l, stage = .attached l →
      ∃ d ∈ machine.history xs, Acknowledges d l := by
  induction xs using List.reverseRecOn with
  | nil => nofun
  | append_singleton xs x ih =>
    have before := (orderlyRun_concat.mp orderly).1
    have inOrder := run_inOrder before
    rw [machine.history_concat]
    -- who was acknowledged before has been acknowledged after one move more
    have earlier : (machine.run xs).lock.All fun _ _ stage => ∀ l, stage = .attached l →
        ∃ d ∈ machine.history xs ++ [⟨machine.run xs, x⟩], Acknowledges d l := by
      intro id stage known l attached
      obtain ⟨d, hd, acknowledges⟩ := ih before id stage known l attached
      exact ⟨d, List.mem_append_left _ hd, acknowledges⟩
    refine (event_change orderly).all inOrder.sound ?_ earlier ?_ ?_
      (fun o _ result _ _ _ l attached => absurd attached (last_ne o.purpose result rfl))
      (fun _ _ _ _ _ => nofun)
    · rintro _ _ _ quiet l rfl
      cases quiet
    · -- the order of who is attached now was the first command of all
      rintro fired rfl handled id stage known l rfl
      rcases handled.attached_of (run_attuned before) known with old | ⟨asked, live, orders⟩
      · exact earlier id _ old l rfl
      · refine ⟨_, List.mem_append_right _ (List.mem_singleton_self _), ?_⟩
        rw [machine.run_concat] at orders
        cases inbox : (machine.run xs).inbox with
        | nil =>
          have none : (machine.run xs).affairs.orders = [] := congrArg (List.filter isOrder) inbox
          cases none.symm.trans orders
        | cons c rest =>
          obtain rfl := taken_first fired inbox orders
          exact acknowledges_of_taken inOrder.settled live asked inbox
    · intro o seen now known rule lock holds l attached
      have stage := Lock.stage?_of_known known
      have holder := rule.holder inOrder.sound known
      exact absurd attached (rule.hands_over (by simp [stage]) lock inOrder.sound holder holds l).1

/-! ## The law -/

/-- The status is set to this one at the event. -/
def Publishes (e : machine.Event) (status : Status) : Prop :=
  ∃ new, e.after.statuses = e.before.statuses ++ new ∧ status ∈ new

/-- A ready session is only given up without a word when it is lost. -/
theorem Advance.crash_of_stopped {o : Operation} {seen : Observation} (rule : Advance a o seen a')
    (shows : a.Shows (some o.purpose) (some o.stage)) (ready : a.status = .ready)
    (stopped : a'.status = .stopped) :
    seen = .killed ∧ ∃ p l loss, o.stage = .killing p (.crashed l loss) := by
  cases rule with
  | crashed p l loss _ stage killed => exact ⟨killed, p, l, loss, stage⟩
  | found | nothingToStop | coalesce | outdated | tearDown | spawned | unfit | refused | crash =>
    cases ready.symm.trans stopped
  | launchFailed _ _ stage | unlaunched _ stage =>
    rw [stage] at shows
    cases ready.symm.trans shows.1
  | stopped _ _ stage purpose =>
    rw [stage] at shows
    have stopping := (Option.some.inj shows.1).symm.trans (Purpose.tearing_of_not_restart purpose)
    cases ready.symm.trans stopping
  | stop | restart =>
    unfold Affairs.order at stopped
    split at stopped <;> cases stopped
  | fit =>
    unfold Affairs.order at stopped
    split at stopped <;> cases ready.symm.trans stopped
  | launch | restartAlone | tornDown | ready => cases stopped

/-- **What is published tells of the session**, at every moment of every run in which no operation
is given up, also while an operation is in the middle of its work:

the status was only ever set along its ways, and from ready to stopped only for a crash, when the
lost process is gone;

while the status is ready, the published facts are those of the newest session that came to be, and
while it is stopped or starting, there are none;

and a session is published as ready when it comes to be, after the dispatcher has taken its channel
and has answered. -/
theorem status_tells_of_session (xs : List Move) (orderly : OrderlyRun xs) :
    (Status.stopped :: (machine.run xs).statuses).IsChain Status.Passes ∧
    (Status.stopped :: (machine.run xs).statuses).getLast? = some (machine.run xs).status ∧
    (∀ e ∈ machine.history xs, e.before.status = .ready → e.after.status = .stopped →
      ∃ id p l loss, e.action = .proceed id .killed ∧
        e.before.stage? id = some (.killing p (.crashed l loss))) ∧
    ((machine.run xs).status = .ready →
      ∃ l, Newest (machine.history xs) l ∧ (machine.run xs).current = some l.info) ∧
    ((machine.run xs).status = .stopped ∨ (machine.run xs).status = .starting →
      (machine.run xs).current = none) ∧
    ∀ past e later, machine.history xs = past ++ e :: later → Publishes e .ready →
      ∃ l, Comes e l ∧ e.after.current = some l.info ∧ ∃ d ∈ past, Acknowledges d l := by
  obtain ⟨standing, new, statuses, ways, last⟩ := run_standing orderly
  have written : (machine.run xs).statuses = new := statuses
  rw [written]
  refine ⟨ways, last, fun e he ready stopped => ?_, fun ready => ?_, fun vacant => ?_, ?_⟩
  · obtain ⟨past, later, cut⟩ := List.append_of_mem he
    obtain ⟨ys, x, -, rfl, upTo⟩ := orderly.upTo cut
    obtain ⟨before, now⟩ := orderlyRun_concat.mp upTo
    have sound := (run_inOrder before).sound
    have after : Machine.Event.after ⟨machine.run ys, x⟩ = machine.run (ys ++ [x]) :=
      (machine.run_concat ys x).symm
    rw [after] at stopped
    -- only an operation that goes on sets the status, and by its rule it recorded a crash
    rcases (event_change upTo).trichotomy sound (by rintro id rfl; exact now) with
      ⟨o, seen, rfl, known, rule⟩ | ⟨-, -, handled⟩ | bystands
    · have shows := (run_standing before).1.shows (rule.holder sound known) known
      obtain ⟨rfl, p, l, loss, stage⟩ := rule.crash_of_stopped shows ready stopped
      exact ⟨o.id, p, l, loss, rfl, (Lock.stage?_of_known known).trans (congrArg some stage)⟩
    · cases (ready.symm.trans handled.published.2.1.symm).trans stopped
    · cases (ready.symm.trans bystands.status.symm).trans stopped
  · obtain ⟨i, current⟩ := Option.isSome_iff_exists.mp (standing.current_of_ready ready)
    obtain ⟨l, newest, rfl⟩ := run_newest orderly i current
    exact ⟨l, newest, current⟩
  · exact standing.current_of_vacant vacant
  · intro past e later cut ⟨more, logged, published⟩
    obtain ⟨ys, x, rfl, rfl, upTo⟩ := orderly.upTo cut
    have after : Machine.Event.after ⟨machine.run ys, x⟩ = machine.run (ys ++ [x]) :=
      (machine.run_concat ys x).symm
    rw [after] at logged ⊢
    -- what is published as ready is the session that this event opens
    rcases event_opens upTo with ⟨id, l, attached, opens⟩ | ⟨-, -, more', logged', unpublished⟩
    · obtain ⟨d, hd, acknowledges⟩ :=
        run_acknowledged (orderlyRun_concat.mp upTo).1 id _ attached l rfl
      exact ⟨l, ⟨opens.before, (congrArg session after).trans opens.session⟩, opens.current, d, hd,
        acknowledges⟩
    · obtain rfl := List.append_cancel_left (logged.symm.trans logged')
      exact absurd published unpublished

/-- A session is restarted and lost afterwards, but nobody has taken care of that yet. -/
theorem crashedRun_tells_of_session :
    OrderlyRun crashedRun ∧
      (machine.run crashedRun).statuses = [.starting, .ready, .restarting, .starting, .ready] ∧
      (machine.run crashedRun).dispatch.attached = none ∧
      ∃ l, Newest (machine.history crashedRun) l ∧ l.generation = 2 ∧
        (machine.run crashedRun).current = some l.info := by
  have orderly : OrderlyRun crashedRun := by
    refine orderlyRun_of_keeps ?_
    decide
  obtain ⟨-, -, -, ready, -⟩ := status_tells_of_session crashedRun orderly
  obtain ⟨l, newest, current⟩ := ready rfl
  have second : (machine.run crashedRun).current.map (·.generation) = some 2 := rfl
  rw [current] at second
  exact ⟨orderly, rfl, rfl, l, newest, Option.some.inj second, current⟩

end Supervisor

end CompilerSession
