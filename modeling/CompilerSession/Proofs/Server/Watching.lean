import Mathlib.Data.List.TakeDrop
import CompilerSession.Proofs.Server.Recovery

/-
The watch over events.

A client is told of every event of the session. The supervisor announces events, the watch takes
them one after the other and writes them, and it remembers how far it has come. `Forwarded` is what
no action upsets: what was written is what was announced since serving began, up to that place, each
event once and in order. It asks for a watch that keeps up, for events that it does not look at in
time are not kept for ever.

When serving ends the watch is called off, and that is when the shutdown is done, not when the watch
has come to the last event. So the end of a session that the shutdown itself announces may be left
unsaid.
-/

set_option autoImplicit false

namespace CompilerSession

namespace Simulation

open Server (Ending)

/-- **The watch waits** when it is called off, and when it has come to the last event. -/
theorem stepWatch_waits (w : World) :
    w.stepWatch? = none ↔
      (w.server.watching = true → w.supervisor.events.length ≤ w.server.cursor) := by
  have place : w.supervisor.events[max w.server.cursor
      (w.supervisor.events.length - World.eventCapacity)]? = none ↔
        w.supervisor.events.length ≤ w.server.cursor := by
    rw [List.getElem?_eq_none_iff, World.eventCapacity]
    omega
  rw [← place]
  simp only [World.stepWatch?]
  cases w.server.watching with
  | false => simp
  | true =>
    cases w.supervisor.events[max w.server.cursor _]? with
    | none => simp
    | some e => cases e <;> simp

/-! ## What is told to the client -/

def Message.event? : Message → Option Event
  | .event e => some e
  | .reply _ => none

/-- **The events among what was written.** -/
def notices (written : List Message) : List Event :=
  written.filterMap Message.event?

/-- A reply is no notice. -/
theorem notices_reply (s : Server) (r : Reply) :
    notices (s.write (.reply r)).written = notices s.written := by
  unfold Server.write
  split
  · rfl
  · split
    · simp [notices, Message.event?]
    · rfl

/-- The watch should be there at this stage. -/
def Stage.isWatched : Server.Stage → Bool
  | .starting | .reading | .stopping => true
  | .idle | .draining | .ended _ => false

/-- Serving is as good as over: the supervisor was shut down. -/
def Stage.IsOver (stage : Server.Stage) : Prop :=
  stage = .draining ∨ stage = .ended .ok

/-- **The watch is of no concern** to what changes a server like this. -/
structure Unwatched (s s' : Server) : Prop where
  cursor : s'.cursor = s.cursor
  watching : s'.watching = s.watching
  notices : notices s'.written = notices s.written
  begun : s.stage ≠ .idle → s'.stage ≠ .idle
  watched : Stage.isWatched s'.stage = true → Stage.isWatched s.stage = true
  isOver : Stage.IsOver s'.stage → Stage.IsOver s.stage

/-- **The watch is called off.** -/
structure CallsOff (w w' : World) : Prop where
  stage : w.server.stage = .stopping
  server : w'.server = { w.server with watching := false, stage := .draining }

section Rules

variable {w w' : World}

/-- What stays the same is as unwatched as before. -/
theorem Unwatched.of_eq {s s' : Server} (same : s' = s) : Unwatched s s' := by
  subst same
  exact ⟨rfl, rfl, rfl, id, id, id⟩

/-- Neither the watch nor the stage nor what was written is different. -/
theorem Unwatched.of_same {s s' : Server} (cursor : s'.cursor = s.cursor)
    (watching : s'.watching = s.watching) (written : s'.written = s.written)
    (stage : s'.stage = s.stage) : Unwatched s s' := by
  refine ⟨cursor, watching, by rw [written], ?_, ?_, ?_⟩ <;> rw [stage] <;> exact id

/-- Serving gets to another stage, at which the watch is there if it was before. -/
theorem Unwatched.of_stage {s s' : Server} (cursor : s'.cursor = s.cursor)
    (watching : s'.watching = s.watching) (written : s'.written = s.written)
    (begun : s'.stage ≠ .idle)
    (watched : Stage.isWatched s'.stage = true → Stage.isWatched s.stage = true)
    (isOver : Stage.IsOver s'.stage → Stage.IsOver s.stage) : Unwatched s s' :=
  ⟨cursor, watching, by rw [written], fun _ => begun, watched, isOver⟩

/-- Handlers leave the watch alone. -/
theorem Handles.unwatched {n : Nat} (handles : Handles w n w') :
    Unwatched w.server w'.server := by
  cases handles with
  | waits server => exact .of_eq server
  | goesOn _ _ _ _ _ server =>
    rw [server]
    exact .of_same rfl rfl rfl rfl
  | replies _ _ r _ server =>
    have same := notices_reply w.server r
    obtain ⟨written, failed, wrote⟩ := write_spec w.server (.reply r)
    rw [wrote] at server same
    rw [server]
    exact ⟨rfl, rfl, same, id, id, id⟩

/-- **The server calls off the watch**, or leaves it alone. -/
theorem Serves.calls_off (serves : Serves w w') :
    CallsOff w w' ∨ Unwatched w.server w'.server := by
  cases serves with
  | drains _ _ _ stage _ _ server => exact .inl ⟨stage, server⟩
  | waits _ _ beside => exact .inr (.of_eq beside.server)
  | opens _ stage server =>
    refine .inr ?_
    rw [server]
    exact .of_stage rfl rfl rfl nofun (fun _ => by rw [stage]; rfl) (by rintro (h | h) <;> cases h)
  | blank text server stage read =>
    obtain ⟨unread, rfl⟩ := server_of_read read
    exact .inr (.of_same rfl rfl rfl rfl)
  | line text server stage read =>
    obtain ⟨unread, rfl⟩ := server_of_read read
    obtain ⟨ready, spawned⟩ := World.spawnHandler_spec
      { w with server := { w.server with unread } } text
    refine .inr ?_
    rw [spawned]
    exact .of_same rfl rfl rfl rfl
  | invalid server stage read =>
    obtain ⟨unread, rfl⟩ := server_of_read read
    exact .inr (.of_stage rfl rfl rfl nofun nofun (by rintro (h | h) <;> cases h))
  | stops stage =>
    refine .inr ?_
    rw [w.beginStopping_spec.1]
    exact .of_stage rfl rfl rfl nofun (fun _ => by rw [stage]; rfl) (by rintro (h | h) <;> cases h)
  | ends stage => exact .inr (.of_stage rfl rfl rfl nofun nofun fun _ => .inl stage)
  | fails stage => exact .inr (.of_stage rfl rfl rfl nofun nofun (by rintro (h | h) <;> cases h))

/-- **The watch begins with serving, has its turns, and is called off.** Nothing else has to do with
it. -/
theorem act_watch (w : World) (a : Action) :
    (a = .go .watch ∧ ∃ place e, Watches w (act w a) place e) ∨
      (a = .serve ∧ w.server.stage = .idle ∧ act w a = w.beginServing) ∨
      (a = .go .serve ∧ CallsOff w (act w a)) ∨
      Unwatched w.server (act w a).server := by
  by_cases watch : a = .go .watch
  · subst watch
    rcases act_go w .watch with ⟨-, stays⟩ | goes
    · exact .inr (.inr (.inr (.of_eq (by rw [stays]))))
    · exact .inl ⟨rfl, stepWatch_watches goes⟩
  refine .inr ?_
  -- apart from the watch itself only serving touches it, when it begins and when it stops
  have acts := act_acts w a
  generalize act w a = w' at acts
  cases acts with
  | aside _ _ _ server => exact .inr (.inr (.of_eq server))
  | outside m _ beside => exact .inr (.inr (.of_eq beside.server))
  | begins stage => exact .inl ⟨rfl, stage, rfl⟩
  | handler n _ handles => exact .inr (.inr handles.unwatched)
  | serve _ serves => exact .inr (serves.calls_off.imp (⟨rfl, ·⟩) id)
  | heeds stage =>
    refine .inr (.inr ?_)
    rw [w.beginStopping_spec.1]
    exact .of_stage rfl rfl rfl nofun (fun _ => by rw [stage]; rfl) (by rintro (h | h) <;> cases h)
  | tells => exact absurd rfl watch
  | recovers _ _ _ server =>
    refine .inr (.inr ?_)
    rw [server]
    exact .of_same rfl rfl rfl rfl
  | input => exact .inr (.inr (.of_same rfl rfl rfl rfl))

/-- What was announced stays announced, whatever is done. -/
theorem events_act (w : World) (a : Action) :
    w.supervisor.events <+: (act w a).supervisor.events := by
  by_cases outside : ∃ m, a = .outside m
  · obtain ⟨m, rfl⟩ := outside
    have told : (w.supervisor.step m).1.events = w.supervisor.events ++ _ :=
      Supervisor.tells_step w.supervisor m
    exact (told ▸ List.prefix_append _ _).trans (World.beside_signals w m).supervisor.events
  · exact (reaches_act fun m same => absurd ⟨m, same⟩ outside).events

end Rules

/-! ## What was told in a run -/

section Runs

variable {platform : Platform}

/-- **The watch keeps up**: whenever it has its turn, all events that it has not looked at are still
kept. -/
def KeepsUp (h : List (machine platform).Event) : Prop :=
  ∀ e ∈ h, e.action = .go .watch → e.before.server.watching = true →
    e.before.supervisor.events.length ≤ e.before.server.cursor + World.eventCapacity

/-- A watch over few events keeps up, whenever it has its turns. -/
theorem keepsUp_of_few {as : List Action}
    (few : ((machine platform).run as).supervisor.events.length ≤ World.eventCapacity) :
    KeepsUp ((machine platform).history as) := by
  induction as using List.reverseRecOn with
  | nil => exact fun e he => absurd he List.not_mem_nil
  | append_singleton as a ih =>
    rw [Machine.run_concat] at few
    change (act _ a).supervisor.events.length ≤ _ at few
    have fewer := Nat.le_trans (events_act ((machine platform).run as) a).length_le few
    rw [Machine.history_concat]
    intro e he _ _
    rcases List.mem_append.mp he with earlier | last
    · exact ih fewer e earlier ‹_› ‹_›
    · obtain rfl := List.mem_singleton.mp last
      exact Nat.le_trans fewer (Nat.le_add_left _ _)

/-- What was announced after the first `n` events. -/
def announcedSince (n : Nat) (w : World) : List Event :=
  w.supervisor.events.drop n

/-- Before serving begins nobody is told anything. -/
theorem run_unbegun (as : List Action) (idle : ((machine platform).run as).server.stage = .idle) :
    ((machine platform).run as).server.watching = false ∧
      notices ((machine platform).run as).server.written = [] := by
  induction as using List.reverseRecOn with
  | nil => exact ⟨rfl, rfl⟩
  | append_singleton as a ih =>
    rw [Machine.run_concat] at idle ⊢
    change (act _ a).server.stage = .idle at idle
    show (act _ a).server.watching = false ∧ notices (act _ a).server.written = []
    rcases act_watch ((machine platform).run as) a with
      ⟨-, place, e, watches⟩ | ⟨-, -, begun⟩ | ⟨-, off⟩ | unwatched
    · obtain ⟨budget, next, recoveries, server⟩ :=
        passOn_spec ((machine platform).run as).server place e
      obtain ⟨written, failed, wrote⟩ := write_spec ((machine platform).run as).server (.event e)
      rw [watches.server, server, wrote] at idle
      have off := (ih idle).1
      cases off.symm.trans watches.watching
    · rw [begun, (World.beginServing_spec _).1] at idle
      cases idle
    · rw [off.server] at idle
      cases idle
    · have before := ih (Decidable.not_not.mp fun other => unwatched.begun other idle)
      rw [unwatched.watching, unwatched.notices]
      exact before

/-- **What was told** of the events after the first `n`: all of them up to the place that the watch
has come to. -/
structure Forwarded (n : Nat) (w : World) : Prop where
  begun : w.server.stage ≠ .idle
  watched : Stage.isWatched w.server.stage = true → w.server.watching = true
  first : n ≤ w.server.cursor
  last : w.server.cursor ≤ w.supervisor.events.length
  told : notices w.server.written = (announcedSince n w).take (w.server.cursor - n)

/-- The first events of a list that has become longer. -/
theorem take_drop_of_longer {xs ys : List Event} (longer : xs <+: ys) {n c : Nat}
    (bound : c ≤ xs.length) : (ys.drop n).take (c - n) = (xs.drop n).take (c - n) := by
  obtain ⟨more, rfl⟩ := longer
  rw [List.take_drop, List.take_drop]
  by_cases enough : n ≤ c
  · rw [Nat.add_sub_cancel' enough, List.take_append_of_le_length bound]
  · have empty : c - n = 0 := by omega
    rw [← List.take_drop, ← List.take_drop, empty, List.take_zero, List.take_zero]

/-- **Nothing that is done puts the account of what was told in disorder.** -/
theorem Forwarded.step {n : Nat} {w : World} {a : Action} (forwarded : Forwarded n w)
    (isOpen : w.server.outputOpen = true) (sound : w.server.writerFailed = false)
    (prompt : a = .go .watch → w.server.watching = true →
      w.supervisor.events.length ≤ w.server.cursor + World.eventCapacity) :
    Forwarded n (act w a) := by
  obtain ⟨begun, watched, first, last, told⟩ := forwarded
  have longer := events_act w a
  have length := longer.length_le
  rcases act_watch w a with ⟨rfl, place, e, watches⟩ | ⟨-, idle, -⟩ | ⟨-, off⟩ | unwatched
  · obtain ⟨budget, next, recoveries, server⟩ := passOn_spec w.server place e
    have events : (act w (.go .watch)).supervisor.events = w.supervisor.events := by
      obtain ⟨ready, now⟩ := watches.world
      rw [now]
    -- nothing was missed, so the event stands where the watch has come to
    have here : place = w.server.cursor := by
      have kept := prompt rfl watches.watching
      have next := watches.next
      omega
    subst here
    have some := watches.event
    have inside : w.server.cursor < w.supervisor.events.length :=
      (List.getElem?_eq_some_iff.mp some).1
    rw [write_open isOpen sound] at server
    refine ⟨?_, ?_, ?_, ?_, ?_⟩
    all_goals rw [watches.server, server]
    · exact begun
    · exact watched
    · exact Nat.le_succ_of_le first
    · rw [events]
      exact inside
    · show notices (w.server.written ++ [.event e]) = _
      rw [announcedSince, events, Nat.succ_sub first, List.take_add_one, ← announcedSince, ← told,
        announcedSince, List.getElem?_drop, Nat.add_sub_cancel' first, some]
      simp [notices, Message.event?]
  · exact absurd idle begun
  · have now := off.server
    refine ⟨?_, ?_, ?_, ?_, ?_⟩
    all_goals rw [now]
    · nofun
    · nofun
    · exact first
    · exact Nat.le_trans last length
    · exact told.trans (take_drop_of_longer longer last).symm
  · refine ⟨unwatched.begun begun, fun stage => ?_, ?_, ?_, ?_⟩
    · rw [unwatched.watching]
      exact watched (unwatched.watched stage)
    · rw [unwatched.cursor]
      exact first
    · rw [unwatched.cursor]
      exact Nat.le_trans last length
    · rw [unwatched.notices, unwatched.cursor, told]
      exact (take_drop_of_longer longer last).symm

/-- **After serving begins** the account of what was told is in order. -/
theorem run_forwarded {ys zs : List Action}
    (idle : ((machine platform).run ys).server.stage = .idle)
    (prompt : KeepsUp ((machine platform).history (ys ++ .serve :: zs))) :
    Forwarded ((machine platform).run ys).supervisor.events.length
      ((machine platform).run (ys ++ .serve :: zs)) := by
  induction zs using List.reverseRecOn with
  | nil =>
    have begun : act ((machine platform).run ys) .serve =
        ((machine platform).run ys).beginServing := by
      simp only [act, if_pos idle]
    -- nothing was told before serving begins, and the cursor starts at the events that there are
    have nothing := (run_unbegun ys idle).2
    have longer := (events_act ((machine platform).run ys) .serve).length_le
    obtain ⟨server, -⟩ := World.beginServing_spec ((machine platform).run ys)
    rw [Machine.run_concat]
    show Forwarded _ (act _ .serve)
    rw [begun] at longer ⊢
    refine ⟨?_, ?_, ?_, ?_, ?_⟩
    all_goals rewrite [server]
    · rintro ⟨⟩
    · exact fun _ => rfl
    · exact Nat.le_refl _
    · exact longer
    · show notices ((machine platform).run ys).server.written = _
      rw [nothing, Nat.sub_self, List.take_zero]
  | append_singleton zs a ih =>
    rw [← List.cons_append, ← List.append_assoc] at prompt ⊢
    rw [Machine.history_concat] at prompt
    rw [Machine.run_concat]
    have ledger := run_ledger platform (ys ++ .serve :: zs)
    have before := ih fun e he => prompt e (List.mem_append_left _ he)
    refine before.step ledger.isOpen ledger.sound fun action watching => ?_
    exact prompt _ (List.mem_append_right _ List.mem_cons_self) action watching

/-- **When the supervisor was shut down the watch is called off**, and from then on the client is
told nothing. -/
theorem run_called_off {ys zs : List Action}
    (idle : ((machine platform).run ys).server.stage = .idle)
    (isOver : Stage.IsOver ((machine platform).run (ys ++ .serve :: zs)).server.stage) :
    ((machine platform).run (ys ++ .serve :: zs)).server.watching = false ∧
      ∃ us vs, zs = us ++ .go .serve :: vs ∧
        CallsOff ((machine platform).run (ys ++ .serve :: us))
          ((machine platform).run (ys ++ .serve :: us ++ [.go .serve])) ∧
        notices ((machine platform).run (ys ++ .serve :: zs)).server.written =
          notices ((machine platform).run (ys ++ .serve :: us)).server.written := by
  induction zs using List.reverseRecOn with
  | nil =>
    rw [Machine.run_concat] at isOver
    change Stage.IsOver (act _ .serve).server.stage at isOver
    rw [act, if_pos idle, (World.beginServing_spec _).1] at isOver
    rcases isOver with h | h <;> cases h
  | append_singleton zs a ih =>
    rw [← List.cons_append, ← List.append_assoc, Machine.run_concat] at isOver ⊢
    change Stage.IsOver (act _ a).server.stage at isOver
    show (act _ a).server.watching = false ∧ ∃ us vs, _ ∧ _ ∧
      notices (act _ a).server.written = _
    -- while the watch is there serving is not over, so only calling it off leads there
    rcases act_watch ((machine platform).run (ys ++ .serve :: zs)) a with
      ⟨-, place, e, watches⟩ | ⟨-, -, begun⟩ | ⟨rfl, off⟩ | unwatched
    · obtain ⟨budget, next, recoveries, server⟩ :=
        passOn_spec ((machine platform).run (ys ++ .serve :: zs)).server place e
      obtain ⟨written, failed, wrote⟩ :=
        write_spec ((machine platform).run (ys ++ .serve :: zs)).server (.event e)
      rw [watches.server, server, wrote] at isOver
      cases (ih isOver).1.symm.trans watches.watching
    · rw [begun, (World.beginServing_spec _).1] at isOver
      rcases isOver with h | h <;> cases h
    · refine ⟨by rw [off.server], zs, [], rfl, ?_, by rw [off.server]⟩
      rw [Machine.run_concat]
      exact off
    · obtain ⟨watching, us, vs, rfl, off, written⟩ := ih (unwatched.isOver isOver)
      refine ⟨unwatched.watching.trans watching, us, vs ++ [a], by simp, off, ?_⟩
      exact unwatched.notices.trans written

end Runs

/-! ## The law -/

/-- **What a client is told of the session.** Serving begins after the actions `ys`, and the watch
keeps up with the events.

* What was told is what was announced since then, from the first event on, each event once and in
  order. If anything is missed, it is what came last.
* Nothing is missed whenever the watch, while it is there, has nothing to pass on.
* When serving is as good as over, the watch was called off in the step that saw the shutdown done.
  Nothing was told since. So all that was announced by then was told if the watch had come to the
  last event, and what it had not come to was never told. -/
theorem events_are_told_until_the_watch_is_called_off (platform : Platform) (ys zs : List Action)
    (idle : ((machine platform).run ys).server.stage = .idle)
    (prompt : KeepsUp ((machine platform).history (ys ++ .serve :: zs)))
    (n : Nat) (begun : n = ((machine platform).run ys).supervisor.events.length)
    (w : World) (now : w = (machine platform).run (ys ++ .serve :: zs)) :
    (∃ missed, announcedSince n w = notices w.server.written ++ missed) ∧
    (Stage.isWatched w.server.stage = true → w.stepWatch? = none →
      notices w.server.written = announcedSince n w) ∧
    (Stage.IsOver w.server.stage → ∃ us vs v, zs = us ++ .go .serve :: vs ∧
      v = (machine platform).run (ys ++ .serve :: us) ∧
      CallsOff v ((machine platform).run (ys ++ .serve :: us ++ [.go .serve])) ∧
      notices w.server.written = notices v.server.written ∧
      (∃ missed, announcedSince n v = notices w.server.written ++ missed) ∧
      (notices w.server.written = announcedSince n v ↔ v.stepWatch? = none)) := by
  subst begun now
  -- all is told exactly if the watch has come to the last event, and then it has nothing to do
  have complete {v : World}
      (forwarded : Forwarded ((machine platform).run ys).supervisor.events.length v)
      (watched : Stage.isWatched v.server.stage = true) :
      notices v.server.written =
        announcedSince ((machine platform).run ys).supervisor.events.length v ↔
          v.stepWatch? = none := by
    obtain ⟨-, watching, first, last, told⟩ := forwarded
    rw [stepWatch_waits, told, List.take_eq_self_iff, announcedSince, List.length_drop]
    exact ⟨fun all _ => by omega, fun all => by have := all (watching watched); omega⟩
  have missed {v : World}
      (forwarded : Forwarded ((machine platform).run ys).supervisor.events.length v) :
      ∃ missed, announcedSince ((machine platform).run ys).supervisor.events.length v =
        notices v.server.written ++ missed := by
    rw [forwarded.told]
    exact ⟨_, (List.take_append_drop _ _).symm⟩
  have forwarded := run_forwarded idle prompt
  refine ⟨missed forwarded, fun watched => (complete forwarded watched).mpr, fun isOver => ?_⟩
  -- the run is cut where the watch was called off, and nothing was told after that
  obtain ⟨-, us, vs, rfl, off, told⟩ := run_called_off idle isOver
  have shorter : ys ++ .serve :: (us ++ .go .serve :: vs) =
      (ys ++ .serve :: us) ++ .go .serve :: vs := by simp
  have earlier : KeepsUp ((machine platform).history (ys ++ .serve :: us)) := by
    intro e he
    refine prompt e ?_
    rw [shorter, Machine.history, Machine.historyFrom_append]
    exact List.mem_append_left _ he
  have before := run_forwarded idle earlier
  refine ⟨us, vs, _, rfl, rfl, off, told, ?_, ?_⟩
  · rw [told]
    exact missed before
  · rw [told]
    exact complete before (by rw [off.stage]; rfl)

/-- The session becomes ready, a client is told so, the input ends, the session is taken down. -/
def takenDownRun : List Action :=
  startedRun ++ again 2 .watch ++ .closeInput :: again 2 .serve ++ .go .dispatcher :: again 2 .serve

/-- The watch has its turn before it is called off. -/
def toldRun : List Action :=
  takenDownRun ++ .go .watch :: again 3 .serve

/-- In this run all that is announced is told before the watch is called off. -/
theorem toldRun_told :
    ((machine .linux).run []).server.stage = .idle ∧
      KeepsUp ((machine .linux).history toldRun) ∧
      Stage.IsOver ((machine .linux).run toldRun).server.stage ∧
      (∃ missed, announcedSince 0 ((machine .linux).run toldRun) =
        notices ((machine .linux).run toldRun).server.written ++ missed) ∧
      notices ((machine .linux).run toldRun).server.written =
        [.ready 1 ⟨4, 3, 6⟩, .stopped 1] := by
  have prompt : KeepsUp ((machine .linux).history toldRun) := keepsUp_of_few (by decide +kernel)
  have ended : ((machine .linux).run toldRun).server.stage = .ended .ok := by decide +kernel
  obtain ⟨missed, -, -⟩ :=
    events_are_told_until_the_watch_is_called_off .linux [] toldRun.tail rfl prompt 0 rfl _ rfl
  exact ⟨rfl, prompt, .inr ended, missed, by decide +kernel⟩

/-- The watch has its turn after it was called off. -/
def untoldRun : List Action :=
  takenDownRun ++ again 2 .serve ++ [Action.go .watch, .go .serve]

/-- **The end of the last session is left unsaid** when the shutdown is done before the watch has
its turn. -/
theorem untoldRun_leaves_end_unsaid :
    KeepsUp ((machine .linux).history untoldRun) ∧
      ((machine .linux).run untoldRun).server.stage = .ended .ok ∧
      announcedSince 0 ((machine .linux).run untoldRun) = [.ready 1 ⟨4, 3, 6⟩, .stopped 1] ∧
      notices ((machine .linux).run untoldRun).server.written = [.ready 1 ⟨4, 3, 6⟩] := by
  refine ⟨keepsUp_of_few (by decide +kernel), ?_⟩
  decide +kernel

end Simulation

end CompilerSession
