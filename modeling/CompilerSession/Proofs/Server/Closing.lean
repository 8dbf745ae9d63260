import CompilerSession.Proofs.Server.Replies
import CompilerSession.Proofs.Session.Shutdown

/-
How serving ends.

When there is no more input, or somebody asks for the end, serving gives the supervisor up in good
order: all requests are cancelled, the supervisor is told to shut down, and serving waits for that
and then for the last replies. `Course` is the invariant that carries this. It says for which
operation serving waits, whatever the supervisor is made to do by others meanwhile; who finds that
operation done knows that the supervisor was shut down (`Devoted.wasShutDown`).

A line that is not text is another matter. There serving just returns: nothing is cancelled, nobody
is told, and handlers are left to themselves (`BreaksOff`).
-/

set_option autoImplicit false

namespace CompilerSession.Simulation

open Server (Ending)

/-! ## What the supervisor goes through -/

/-- **The moves of the supervisor in a run**: those that it makes at the first action, at the
second, and so on. -/
inductive Follows (platform : Platform) : List Action → List Supervisor.Move → Prop where
  | start : Follows platform [] []
  | next (as : List Action) (a : Action) (ms more : List Supervisor.Move)
      (before : Follows platform as ms)
      (now : ((machine platform).run (as ++ [a])).supervisor =
        Supervisor.machine.run (ms ++ more)) :
      Follows platform (as ++ [a]) (ms ++ more)

/-- What is reached from a run is the result of a longer run. -/
theorem Reaches.run {ms : List Supervisor.Move} {s s' : Supervisor} (h : Reaches s s')
    (now : s = Supervisor.machine.run ms) (orderly : Supervisor.OrderlyRun ms) :
    ∃ more, s' = Supervisor.machine.run (ms ++ more) ∧ Supervisor.OrderlyRun (ms ++ more) := by
  obtain ⟨more, rfl, each⟩ := h
  subst now
  refine ⟨more, ?_, ?_⟩
  · exact (Machine.runFrom_append _ _ ms more).symm
  · rw [Supervisor.OrderlyRun, Machine.history, Machine.historyFrom_append, List.forall_mem_append]
    exact ⟨orderly, each⟩

/-! ## Who has to do with the end -/

/-- Serving is just as far as before. -/
structure Passes (w w' : World) : Prop where
  stage : w'.server.stage = w.server.stage
  job : w'.work? .serve = w.work? .serve
  supervisor : Reaches w.supervisor w'.supervisor

section Passes

variable {w w' : World}

/-- What lets serving alone, and stays at its stage, passes it by. -/
theorem Apart.passes (apart : Apart w w') (stage : w'.server.stage = w.server.stage) :
    Passes w w' :=
  ⟨stage, apart.job, apart.supervisor⟩

/-- What a handler does passes serving by. -/
theorem Handles.passes {n : Nat} (handles : Handles w n w') : Passes w w' := by
  cases handles with
  | waits server apart => exact apart.passes (by rw [server])
  | goesOn _ _ _ _ _ server apart => exact apart.passes (by rw [server])
  | replies _ _ r _ server apart =>
    obtain ⟨written, failed, wrote⟩ := write_spec w.server (.reply r)
    exact apart.passes (by rw [server, wrote])

/-- A line that is read takes serving no further, whether it is blank or gets a handler. -/
theorem passes_line {text : String} {server : Server}
    (read : w.server.readLine = (.line text, server)) :
    Passes w { w with server } ∧ Passes w (World.spawnHandler { w with server } text) := by
  obtain ⟨unread, rfl⟩ := server_of_read read
  obtain ⟨ready, spawned⟩ := World.spawnHandler_spec
    { w with server := { w.server with unread } } text
  rw [spawned]
  exact ⟨⟨rfl, rfl, .refl _⟩, ⟨rfl, rfl, .refl _⟩⟩

/-- A move that drops no call is orderly. -/
theorem orderly_of_keeps {s : Supervisor} {m : Supervisor.Move} (keeps : m.keeps = true) :
    Supervisor.Orderly s m := by
  cases m with
  | abandon | collect => cases keeps
  | _ => trivial

/-- **Only serving decides** how far it is. -/
theorem Acts.passes {a : Action} (acts : Acts w a w')
    (kept : ∀ m, a = .outside m → m.keeps = true) :
    Passes w w' ∨ (a = .serve ∧ w.server.stage = .idle ∧ w' = w.beginServing) ∨
      (a = .go .serve ∧ Serves w w') ∨
      (a = .heed ∧ w.server.stage = .reading ∧ w' = w.beginStopping) := by
  cases acts with
  | aside _ _ _ server apart => exact .inl (apart.passes (by rw [server]))
  | outside m _ beside =>
    have step : Beside w { w with supervisor := (w.supervisor.step m).1 } :=
      ⟨rfl, rfl, rfl, reaches_step (orderly_of_keeps (kept m rfl))⟩
    exact .inl ((step.trans beside).apart.passes (by rw [beside.server]))
  | begins stage => exact .inr (.inl ⟨rfl, stage, rfl⟩)
  | handler n _ handles => exact .inl handles.passes
  | serve _ serves => exact .inr (.inr (.inl ⟨rfl, serves⟩))
  | heeds stage => exact .inr (.inr (.inr ⟨rfl, stage, rfl⟩))
  | tells _ x _ _ _ _ server apart =>
    obtain ⟨written, failed, wrote⟩ := write_spec w.server (.event x)
    exact .inl (apart.passes (by rw [server, wrote]))
  | recovers _ _ _ server apart => exact .inl (apart.passes (by rw [server]))
  | input => exact .inl ⟨rfl, rfl, .refl _⟩

end Passes

/-! ## The course of serving -/

/-- **How far serving is**, when the supervisor has made these moves. It waits for nothing while it
reads, then for a shutdown, and when that is over the supervisor was shut down. -/
structure Course (w : World) (ms : List Supervisor.Move) : Prop where
  now : w.supervisor = Supervisor.machine.run ms
  orderly : Supervisor.OrderlyRun ms
  free : w.server.stage = .reading → w.work? .serve = none
  awaits : w.server.stage = .stopping → ∃ id, w.work? .serve = some (.operation id) ∧
    Supervisor.Devoted (Supervisor.machine.run ms) id .shutdown
  shut : w.server.stage = .draining ∨ w.server.stage = .ended .ok → Supervisor.WasShutDown ms

namespace Course

variable {w w' : World} {ms : List Supervisor.Move}

/-- A course goes on whatever passes serving by. -/
theorem passes (course : Course w ms) (passes : Passes w w') :
    ∃ more, Course w' (ms ++ more) := by
  obtain ⟨more, now, orderly⟩ := passes.supervisor.run course.now course.orderly
  refine ⟨more, now, orderly, ?_, ?_, ?_⟩
  all_goals rw [passes.stage]
  · exact fun stage => passes.job.trans (course.free stage)
  · intro stage
    obtain ⟨id, job, devoted⟩ := course.awaits stage
    exact ⟨id, passes.job.trans job, devoted.append orderly⟩
  · exact fun stage => (course.shut stage).append orderly

/-- Serving changes its stage, and what is asked for at the new stage is there. -/
theorem reaches (course : Course w ms) (supervisor : Reaches w.supervisor w'.supervisor)
    (free : w'.server.stage = .reading → w'.work? .serve = none)
    (running : w'.server.stage ≠ .stopping)
    (shut : w'.server.stage = .draining ∨ w'.server.stage = .ended .ok →
      Supervisor.WasShutDown ms) : ∃ more, Course w' (ms ++ more) := by
  obtain ⟨more, now, orderly⟩ := supervisor.run course.now course.orderly
  exact ⟨more, now, orderly, free, fun stage => absurd stage running,
    fun stage => (shut stage).append orderly⟩

/-- From now on serving waits for a shutdown. -/
theorem stops (course : Course w ms) (reading : w.server.stage = .reading) :
    ∃ more, Course w.beginStopping (ms ++ more) := by
  obtain ⟨server, supervisor, jobs⟩ := w.beginStopping_spec
  have stage : w.beginStopping.server.stage = .stopping := by rw [server]
  have now : w.beginStopping.supervisor =
      Supervisor.machine.run (ms ++ [Supervisor.Move.begin .shutdown]) := by
    rw [supervisor, course.now, Machine.run_concat]
    rfl
  have orderly : Supervisor.OrderlyRun (ms ++ [Supervisor.Move.begin .shutdown]) :=
    Supervisor.orderlyRun_concat.mpr ⟨course.orderly, trivial⟩
  refine ⟨[.begin .shutdown], now, orderly, by rw [stage]; nofun, fun _ => ?_, ?_⟩
  · refine ⟨w.supervisor.nextOperation, ?_, ?_⟩
    · -- serving waited for nothing before, so this is what it waits for
      have free := course.free reading
      rw [World.work?, Option.map_eq_none_iff] at free
      rw [World.work?, jobs, List.find?_append, free]
      rfl
    · rw [course.now]
      exact Supervisor.devoted_begin course.orderly
  · rw [stage]
    rintro (h | h) <;> cases h

/-- **A course goes on with what the server does itself.** By cases on the stage of serving. -/
theorem serves (course : Course w ms) (serves : Serves w w') :
    ∃ more, Course w' (ms ++ more) := by
  cases serves with
  | waits w' _ beside => exact course.passes (beside.apart.passes (by rw [beside.server]))
  | opens w' stage server job supervisor =>
    refine course.reaches supervisor (fun _ => job) (by simp [server]) ?_
    rw [server]
    rintro (h | h) <;> cases h
  | blank _ _ _ read => exact course.passes (passes_line read).1
  | line _ _ _ read => exact course.passes (passes_line read).2
  | invalid server =>
    refine course.reaches (.refl _) nofun nofun ?_
    rintro (h | h) <;> cases h
  | stops stage => exact course.stops stage
  | drains w' work a stage job finished server none supervisor =>
    obtain ⟨id, waited, devoted⟩ := course.awaits stage
    obtain rfl : work = .operation id := Option.some.inj (job.symm.trans waited)
    obtain ⟨result, done⟩ := World.done_of_achievement finished
    rw [course.now] at done
    have shut := devoted.wasShutDown course.orderly done
    exact course.reaches supervisor (fun _ => none) (by simp [server]) fun _ => shut
  | ends stage =>
    exact course.reaches (.refl _) nofun nofun fun _ => course.shut (.inl stage)
  | fails =>
    refine course.reaches (.refl _) nofun nofun ?_
    rintro (h | h) <;> cases h

/-- **Every action keeps serving on its course.** -/
theorem step {a : Action} (course : Course w ms) (kept : ∀ m, a = .outside m → m.keeps = true) :
    ∃ more, Course (act w a) (ms ++ more) := by
  rcases (act_acts w a).passes kept with
    passes | ⟨-, -, begun⟩ | ⟨-, serves⟩ | ⟨-, reading, stopping⟩
  · exact course.passes passes
  · obtain ⟨server, supervisor⟩ := w.beginServing_spec
    rw [begun]
    have starting : w.beginServing.server.stage = .starting := by rw [server]
    refine course.reaches (supervisor ▸ reaches_step trivial) ?_ ?_ ?_
    all_goals rw [starting]
    · nofun
    · nofun
    · rintro (h | h) <;> cases h
  · exact course.serves serves
  · rw [stopping]
    exact course.stops reading

end Course

/-- **Every run is on its course**: its moves are those of an orderly run of the session. -/
theorem run_course (platform : Platform) {as : List Action} (kept : Kept as) :
    ∃ ms, Follows platform as ms ∧ Course ((machine platform).run as) ms := by
  induction as using List.reverseRecOn with
  | nil =>
    refine ⟨[], .start, rfl, fun _ h => absurd h List.not_mem_nil, nofun, nofun, ?_⟩
    rintro (h | h) <;> cases h
  | append_singleton as a ih =>
    obtain ⟨ms, follows, course⟩ := ih fun m hm => kept m (List.mem_append_left _ hm)
    obtain ⟨more, course⟩ := course.step (a := a) fun m same => kept m (by simp [same])
    have now : (machine platform).run (as ++ [a]) = act ((machine platform).run as) a :=
      Machine.run_concat _ _ _
    rw [← now] at course
    exact ⟨ms ++ more, .next as a ms more follows course.now, course⟩

/-! ## Serving that breaks off -/

/-- **Serving breaks off** at this event: a line is read that is not text, and that is the end.
Nobody is told. -/
structure BreaksOff {platform : Platform} (e : (machine platform).Event) : Prop where
  action : e.action = .go .serve
  stage : e.before.server.stage = .reading
  read : e.before.server.readLine.1 = .invalid
  ended : e.after.server.stage = .ended .invalidData
  handlers : e.after.server.handlers = e.before.server.handlers
  written : e.after.server.written = e.before.server.written
  registry : e.after.registry = e.before.registry
  supervisor : e.after.supervisor = e.before.supervisor

/-- A line that is not UTF-8 breaks the server off. -/
theorem breaksOff {platform : Platform} {e : (machine platform).Event}
    (action : e.action = .go .serve) (stage : e.before.server.stage = .reading)
    (read : e.before.server.readLine.1 = .invalid) : BreaksOff e := by
  have acts := act_acts e.before e.action
  have now : e.after = act e.before e.action := rfl
  generalize act e.before e.action = w' at acts now
  rw [action] at acts
  cases acts with
  | aside _ _ other => exact absurd rfl other
  | input _ other => exact absurd rfl other
  | serve _ serves =>
    cases serves with
    | waits _ nothing => cases read.symm.trans (nothing stage)
    | blank _ _ _ line | line _ _ _ line =>
      rw [line] at read
      cases read
    | stops _ done => rcases done with none | ⟨none, -⟩ <;> cases read.symm.trans none
    | opens _ other | drains _ _ _ other | ends other | fails other =>
      cases stage.symm.trans other
    | invalid server _ line =>
      obtain ⟨unread, rfl⟩ := server_of_read line
      exact ⟨action, stage, read, by rw [now]; rfl, by rw [now]; rfl, by rw [now]; rfl,
        by rw [now]; rfl, by rw [now]; rfl⟩

/-- **Serving ends in one of two ways**, if all that is written is accepted: in good order, or it
broke off. -/
theorem run_ended (platform : Platform) {as : List Action} (kept : Kept as) {how : Ending}
    (ended : ((machine platform).run as).server.stage = .ended how) :
    how = .ok ∨ how = .invalidData ∧ ∃ e ∈ (machine platform).history as, BreaksOff e := by
  induction as using List.reverseRecOn with
  | nil => cases ended
  | append_singleton as a ih =>
    have kept' : Kept as := fun m hm => kept m (List.mem_append_left _ hm)
    rw [Machine.history_concat]
    rw [Machine.run_concat] at ended
    -- who had ended before ended in one of these ways
    have earlier (same : ((machine platform).run as).server.stage = .ended how) :
        how = .ok ∨ how = .invalidData ∧ ∃ e ∈ (machine platform).history as ++
          [⟨(machine platform).run as, a⟩], BreaksOff e := by
      refine (ih kept' same).imp id fun ⟨invalid, e, he, broken⟩ => ?_
      exact ⟨invalid, e, List.mem_append_left _ he, broken⟩
    have passed := (act_acts ((machine platform).run as) a).passes fun m same =>
      kept m (by simp [same])
    change (act ((machine platform).run as) a).server.stage = .ended how at ended
    generalize act ((machine platform).run as) a = w' at passed ended
    -- only serving itself comes to an end, and among its rules only three do
    rcases passed with passes | ⟨-, -, rfl⟩ | ⟨action, serves⟩ | ⟨-, -, rfl⟩
    · exact earlier (passes.stage.symm.trans ended)
    · rw [(World.beginServing_spec _).1] at ended
      cases ended
    · have sound := (run_ledger platform as).sound
      cases serves with
      | waits _ _ beside => exact earlier (by rw [← beside.server]; exact ended)
      | opens _ _ server | drains _ _ _ _ _ _ server =>
        rw [server] at ended
        cases ended
      | blank _ _ _ read => exact earlier ((passes_line read).1.stage.symm.trans ended)
      | line _ _ _ read => exact earlier ((passes_line read).2.stage.symm.trans ended)
      | invalid server stage read =>
        obtain rfl : Ending.invalidData = how := Server.Stage.ended.inj ended
        refine .inr ⟨rfl, _, List.mem_append_right _ List.mem_cons_self, breaksOff action stage ?_⟩
        exact congrArg Prod.fst read
      | stops =>
        rw [(World.beginStopping_spec _).1] at ended
        cases ended
      | ends => exact .inl (Server.Stage.ended.inj ended).symm
      | fails _ failed => cases failed.symm.trans sound
    · rw [(World.beginStopping_spec _).1] at ended
      cases ended

/-! ## The main statement -/

/-- **How serving ends.** For every input, whatever the schedule is and whatever others do with the
supervisor, as long as all that is written is accepted:

* Serving that ends in good order, after the end of the input or because somebody asked for it,
  has shut the supervisor down before it waits for the last replies: a shutdown was done, with no
  session, the status to say so, all processes killed and gone when it handed the lock on, and then
  the dispatcher was told to end. A session that came to be since did so between the two.
* When it has ended so, the lines that were read have their replies, each one of its own.
* There is one other end, at a line that is not text.
* Such a line always is the end, and there the supervisor, the requests, the handlers and what was
  written are left as they are. -/
theorem serving_ends_after_shutdown (platform : Platform) (as : List Action) (kept : Kept as) :
    (((machine platform).run as).server.stage = .draining ∨
        ((machine platform).run as).server.stage = .ended .ok →
      ∃ ms, Follows platform as ms ∧ Supervisor.OrderlyRun ms ∧ Supervisor.WasShutDown ms) ∧
    (((machine platform).run as).server.stage = .ended .ok →
      ((answered ((machine platform).history as)).map mark).Perm
          (numbered (lines ((machine platform).history as))) ∧
        ((replies ((machine platform).run as).server.written).map (·.id)).Perm
          ((lines ((machine platform).history as)).map lineId)) ∧
    (∀ how, ((machine platform).run as).server.stage = .ended how →
      how = .ok ∨ how = .invalidData ∧ ∃ e ∈ (machine platform).history as, BreaksOff e) ∧
    ∀ e ∈ (machine platform).history as, e.action = .go .serve →
      e.before.server.stage = .reading → e.before.server.readLine.1 = .invalid → BreaksOff e := by
  obtain ⟨ms, follows, course⟩ := run_course platform kept
  refine ⟨fun stage => ?_, fun ended => ?_, fun how ended => ?_, fun e _ action stage read => ?_⟩
  · exact ⟨ms, follows, course.orderly, course.shut stage⟩
  · exact ((run_ledger platform as).paid ended).2
  · exact run_ended platform kept ended
  · exact breaksOff action stage read

/-- A request is in flight. -/
def occupiedRun : List Action :=
  startedRun ++
    [ typed "\x7b\"id\":7,\"method\":\"display\",\"params\":\x7b\"args\":[\"wait\"]\x7d\x7d",
      .go .serve, .go (.handler 0), .go .dispatcher, .go (.call 1) ]

/-- Meanwhile somebody asks for the end. -/
def calledOffRun : List Action :=
  occupiedRun ++ Action.signal :: .heed :: again 3 .serve ++
    Action.go .dispatcher :: again 4 .serve ++ [Action.go (.handler 0), .go .serve]

/-- In this run somebody asks for the end while a request is under way. It is cancelled and
answered, and the session is shut down. -/
theorem calledOffRun_shuts_down :
    Kept calledOffRun ∧
      ((machine .linux).run calledOffRun).server.stage = .ended .ok ∧
      (∃ ms, Follows .linux calledOffRun ms ∧ Supervisor.OrderlyRun ms ∧
        Supervisor.WasShutDown ms) ∧
      ((replies ((machine .linux).run calledOffRun).server.written).map (·.id)).Perm
        ((lines ((machine .linux).history calledOffRun)).map lineId) := by
  have kept : Kept calledOffRun := kept_of_keeps (by decide)
  have ended : ((machine .linux).run calledOffRun).server.stage = .ended .ok := by decide +kernel
  obtain ⟨shutDown, answered, -⟩ := serving_ends_after_shutdown .linux calledOffRun kept
  exact ⟨kept, ended, shutDown (.inr ended), (answered ended).2⟩

/-- Meanwhile a line comes in that is not text. -/
def brokenOffRun : List Action :=
  occupiedRun ++ [Action.receive [255, 10], .go .serve]

/-- Serving is over while the session goes on and a reply is due. -/
theorem brokenOffRun_leaves_session :
    Kept brokenOffRun ∧
      ((machine .linux).run brokenOffRun).server.stage = .ended .invalidData ∧
      ((machine .linux).run brokenOffRun).supervisor.session.isSome = true ∧
      ((machine .linux).run brokenOffRun).supervisor.status = .ready ∧
      ((machine .linux).run brokenOffRun).supervisor.dispatch.ended = false ∧
      ((machine .linux).run brokenOffRun).record.kills = [] ∧
      (lines ((machine .linux).history brokenOffRun)).length = 1 ∧
      (replies ((machine .linux).run brokenOffRun).server.written).length = 0 := by
  refine ⟨kept_of_keeps (by decide), ?_⟩
  decide +kernel

end CompilerSession.Simulation
