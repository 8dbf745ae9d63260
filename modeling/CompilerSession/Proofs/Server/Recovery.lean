import CompilerSession.Proofs.Server.Closing
import CompilerSession.Proofs.Session.Coalescing

/-
Restarts after crashes.

When the watch passes on that a session crashed, and the budget allows, it sets up a restart. That
restart is one like all others. It does not know which session it was set up for, and it has to wait
for the lock. When the crash is announced nothing is left of the session that crashed
(`run_crashed`), so whatever the restart finds has come later. If nothing has come, there is nothing
to take down; if clients have had another session started meanwhile, it is this one that the restart
takes down, and if they have stopped it, the restart starts one all the same.
-/

set_option autoImplicit false

namespace CompilerSession

namespace Supervisor

/-! ## What a crash leaves -/

section Crash

variable {a a' : Affairs} {g : Nat} {reason : String} {code : Option Int}

/-- **A crash is announced** by who has taken the session away and seen the end of its process. -/
theorem Advance.crashes {o : Operation} {seen : Observation} (rule : Advance a o seen a')
    (new : .crashed g reason code ∈ a'.events) (unheard : .crashed g reason code ∉ a.events) :
    ∃ p l loss, o.stage = .killing p (.crashed l loss) ∧ l.generation = g ∧
      a'.session = a.session ∧ a'.generation = a.generation ∧
      a'.lock = a.lock.finish o.id (o.purpose.last .recorded) := by
  have later {e : Event} (h : .crashed g reason code ∈ a.events ++ [e]) :
      .crashed g reason code = e :=
    List.mem_singleton.mp ((List.mem_append.mp h).resolve_left unheard)
  cases rule with
  | crashed p l loss _ stage => exact ⟨p, l, loss, stage, by cases later new; rfl, rfl, rfl, rfl⟩
  | tornDown | stopped | ready => cases later new
  | stop | restart | fit =>
    unfold Affairs.order at new
    split at new <;> exact absurd new unheard
  | found | launch | nothingToStop | coalesce | restartAlone | outdated | crash | tearDown |
      launchFailed | unlaunched | spawned | unfit | refused =>
    exact absurd new unheard

/-- The dispatcher records no events. -/
theorem Handled.events (handled : Handled a a') : a'.events = a.events := by
  cases handled with
  | noMatter | lost | closed => rfl
  | attached | detached | refused =>
    unfold Affairs.reply
    split <;> rfl

end Crash

/-- **A crash is over when it is announced**: at that move, `x` after `past`, nothing is left, and
its generation is the last one so far. -/
structure Crashed (g : Nat) (past : List Move) (x : Move) : Prop where
  generation : (machine.run (past ++ [x])).generation = g
  shutDown : ShutDown (machine.history (past ++ [x])) (machine.run (past ++ [x]))

/-- **Whatever there is after a crash has come later.** -/
theorem run_crashed {xs : List Move} (orderly : OrderlyRun xs) {g : Nat} {reason : String}
    {code : Option Int} (crashed : .crashed g reason code ∈ (machine.run xs).events) :
    ∃ past x later, xs = past ++ x :: later ∧ Crashed g past x ∧ Since g (machine.run xs) := by
  induction xs using List.reverseRecOn with
  | nil => cases crashed
  | append_singleton xs x ih =>
    obtain ⟨before, now⟩ := orderlyRun_concat.mp orderly
    -- the crash was told before, or it is told in this move and nothing is left then
    by_cases heard : .crashed g reason code ∈ (machine.run xs).events
    · obtain ⟨past, y, later, rfl, crashed, since⟩ := ih before heard
      exact ⟨past, y, later ++ [x], by simp, crashed, since.step orderly⟩
    have sound := (run_inOrder before).sound
    rcases (event_change orderly).trichotomy sound (by rintro id rfl; exact now) with
      ⟨o, seen, -, known, rule⟩ | ⟨-, -, handled⟩ | bystands
    · obtain ⟨p, l, loss, stage, rfl, session, generation, lock⟩ := rule.crashes crashed heard
      have holder := rule.holder sound known
      have known := Lock.stage?_of_known known
      rw [stage] at known
      have told := run_told before.careful fun _ : True => before
      obtain ⟨vacant, unended⟩ := told.chapter holder known
      have none : (machine.run (xs ++ [x])).session = none := session.trans vacant
      have calm : (machine.run (xs ++ [x])).affairs.lock.Calm := lock ▸ sound.calm_finish holder _
      have latest : (machine.run (xs ++ [x])).generation = l.generation :=
        generation.trans (unended.latest trivial).symm
      refine ⟨xs, x, [], rfl, ⟨latest, shutDown_of_calm orderly calm none⟩, ?_⟩
      exact latest ▸ since_of_calm (run_inOrder orderly).sound calm none
    · exact absurd (handled.events ▸ crashed : _ ∈ (machine.run xs).affairs.events) heard
    · exact absurd (bystands.events ▸ crashed : _ ∈ (machine.run xs).affairs.events) heard

/-- A process that was killed before is not killed again. -/
theorem kills_no_more {past later : List Move} (orderly : OrderlyRun (past ++ later))
    {p : ProcessId} (killed : kills p (machine.history past) = 1) :
    kills p (machine.history (past ++ later)) = 1 := by
  have once := (run_custody orderly.careful).once p
  have grown : 1 ≤ kills p (machine.history (past ++ later)) := by
    rw [← killed, Machine.history, Machine.history, Machine.historyFrom_append, kills, kills,
      Machine.outputs_append, deeds_append, List.count_append]
    exact Nat.le_add_right _ _
  exact Nat.le_antisymm once grown

/-! ## The turn of a restart -/

/-- **What a restart finds** when it has its turn, after generation `g` has crashed. -/
inductive Finds (g : Nat) (a : Affairs) (id : OperationId) (a' : Affairs) : Prop where
  /-- An earlier restart has done its work. -/
  | covered (outcome : Except Failure Info) (last : a.lastRestart = some outcome)
      (stage : a'.lock.stage? id = some (.done (.launched outcome)))
      (session : a'.session = a.session) (orders : a'.orders = a.orders)
  /-- There is nothing to take down. A session is to be started. -/
  | nothing (session : a.session = none) (stage : a'.lock.stage? id = some .launching)
      (orders : a'.orders = a.orders)
  /-- There is a session, which is later. The dispatcher is told to let go of it. -/
  | later (l : Live) (session : a.session = some l) (later : g < l.generation)
      (gone : a'.session = none)
      (told : .detach l.generation id ∈ a'.orders ∨ a.dispatch.ended = true)

section Turn

variable {a a' : Affairs} {o : Operation} {seen : Observation} {g ticket : Nat}

/-- **On its turn a restart finds** an outcome to take over, no session, or one that came later. -/
theorem Advance.finds (rule : Advance a o seen a') (entered : o.stage = .entered)
    (restart : o.purpose = .restart ticket) (sound : a.lock.Sound)
    (known : a.lock.operation? o.id = some o)
    (since : ∀ l, a.session = some l → g < l.generation) : Finds g a o.id a' := by
  have stage := Lock.stage?_of_known known
  cases rule with
  | coalesce _ outcome _ _ _ last =>
    refine .covered outcome last ?_ rfl rfl
    exact (sound.stage?_finish (sound.holder stage (by rw [entered]; rfl)) _).trans
      (by rw [restart]; rfl)
  | restartAlone _ _ _ _ session =>
    refine .nothing session ?_ rfl
    rw [Lock.stage?_reach _ (by simp [stage]), Function.update_self]
  | restart _ l _ _ _ session =>
    have later := since l session
    unfold Affairs.order
    split
    · rename_i ended
      exact .later l session later rfl (.inr ended)
    · exact .later l session later rfl (.inl (List.mem_append_right _ List.mem_cons_self))
  -- the rules of other operations, and of other stages
  | found _ _ other | launch _ other | crash _ _ _ other | outdated _ _ other =>
    cases restart.symm.trans other
  | stop _ _ other | nothingToStop _ other =>
    rcases other with other | other <;> cases restart.symm.trans other
  | tearDown _ other | launchFailed _ _ other | tornDown _ _ _ other | stopped _ _ other
  | crashed _ _ _ _ other | unlaunched _ other | spawned _ _ other | unfit _ _ _ _ other
  | fit _ _ _ other | ready _ other | refused _ other =>
    cases entered.symm.trans other

/-- **Whatever a restart finds in its turn has come later**, and it kills nobody at once. -/
theorem finds_of_turn {e : machine.Event} (inOrder : InOrder e.before) (since : Since g e.before)
    {id : OperationId} (turn : HasTurn e id) :
    Finds g e.before.affairs id e.after.affairs ∧ deeds e.outputs = [] := by
  obtain ⟨s, move⟩ := e
  obtain ⟨⟨seen, rfl⟩, ⟨ticket, purpose⟩, stage⟩ := turn
  obtain ⟨o, known, entered⟩ := Option.map_eq_some_iff.mp stage
  obtain rfl : o.id = id := operation?_id (s := s) known
  have restart : o.purpose = .restart ticket :=
    Option.some.inj ((Lock.purpose?_of_known known).symm.trans purpose)
  constructor
  · have rule : Advance s.affairs o seen (s.proceed o.id seen).1.affairs := by
      refine (proceed_advance seen known (by simp [entered])).resolve_left fun stuck => ?_
      rw [entered] at stuck
      cases stuck.1
    exact rule.finds entered restart inOrder.sound known since.session
  · refine (proceed_does s known seen).deeds.trans ?_
    simp [Operation.deeds, entered, restart]

end Turn

/-- **A restart after a crash** of generation `g`. It is begun after the moves `ms`, and the moves
`ns` follow. -/
structure RestartsAfter (g : Nat) (ms ns : List Move) : Prop where
  /-- Nothing was left when the crash was announced, and what was killed by then is left alone. -/
  crash : ∃ past x later, ms = past ++ x :: later ∧ Crashed g past x ∧
    ∀ p, Spawned p (machine.history (past ++ [x])) →
      kills p (machine.history (ms ++ .begin .restart :: ns)) = 1
  /-- In its turn it finds what came later, if anything came. -/
  turn : ∀ first x rest, ns = first ++ x :: rest →
    ∀ e : machine.Event, e = ⟨machine.run (ms ++ .begin .restart :: first), x⟩ →
      HasTurn e (machine.run ms).nextOperation →
        Finds g e.before.affairs (machine.run ms).nextOperation e.after.affairs ∧
          deeds e.outputs = [] ∧ (e.before.generation = g → e.before.session = none)

/-- **Whoever begins a restart after a crash.** -/
theorem restartsAfter {g : Nat} {ms ns : List Move} {reason : String} {code : Option Int}
    (orderly : OrderlyRun (ms ++ .begin .restart :: ns))
    (crashed : .crashed g reason code ∈ (machine.run ms).events) : RestartsAfter g ms ns := by
  obtain ⟨past, x, later, cut, crash, since⟩ := run_crashed orderly.shorter crashed
  constructor
  · refine ⟨past, x, later, cut, crash, fun p spawned => ?_⟩
    have longer :
        ms ++ .begin .restart :: ns = (past ++ [x]) ++ (later ++ .begin .restart :: ns) := by
      simp [cut]
    rw [longer] at orderly ⊢
    exact kills_no_more orderly (crash.shutDown.processes p spawned).1
  · rintro first x rest rfl e rfl turn
    have whole : OrderlyRun ((ms ++ .begin .restart :: first) ++ x :: rest) := by
      simpa using orderly
    have upTo := whole.shorter
    have since := since.append upTo
    obtain ⟨finds, idle⟩ := finds_of_turn (run_inOrder upTo) since turn
    refine ⟨finds, idle, fun same => ?_⟩
    have told := run_told upTo.careful fun _ : True => upTo
    cases session : (machine.run (ms ++ .begin .restart :: first)).session with
    | none => rfl
    | some l =>
      have later := since.session l session
      -- a session that is there is later than the crash, and none is later than the last generation
      have latest := told.session_le session
      have same : (machine.run (ms ++ .begin .restart :: first)).affairs.generation = g := same
      omega

end Supervisor

namespace Simulation

/-! ## Restarts that are set up -/

/-- **The watch heeds a crash** of generation `g`: it passes it on and sets up the restart with the
number `n`. -/
structure Heeds (w w' : World) (n g : Nat) : Prop where
  crash : ∃ i reason code, w.supervisor.events[i]? = some (.crashed g reason code) ∧
    w'.server.cursor = i + 1
  budget : w.server.budget.take? = some w'.server.budget
  number : n = w.server.nextRecovery
  next : w'.server.nextRecovery = n + 1
  recoveries : w'.server.recoveries = w.server.recoveries ++ [n]

section Heeds

variable {w w' : World}

/-- A turn of the watch sets up at most one recovery, when it heeds a crash. -/
theorem stepWatch_heeds (h : w.stepWatch? = some w') :
    w'.server.recoveries = w.server.recoveries ∨ ∃ n g, Heeds w w' n g := by
  obtain ⟨i, e, watches⟩ := stepWatch_watches h
  obtain ⟨written, failed, wrote⟩ := write_spec w.server (.event e)
  cases e with
  | ready | stopped =>
    refine .inl ?_
    rw [watches.server, passOn, wrote]
    rfl
  | crashed g reason code =>
    have server : w'.server =
        provide { w.server with written, writerFailed := failed, cursor := i + 1 } := by
      rw [watches.server, passOn, wrote]
      rfl
    unfold provide at server
    split at server
    · exact .inl (by rw [server])
    · rename_i left taken
      refine .inr ⟨w.server.nextRecovery, g, ⟨i, reason, code, watches.event, ?_⟩, ?_, rfl, ?_, ?_⟩
      all_goals rw [server]
      exact taken

/-- **A restart that was set up begins.** -/
theorem stepRecovery_begins {n : Nat} (h : w.stepRecovery? n = some w') :
    (n ∈ w.server.recoveries ∧ w'.supervisor = (w.supervisor.step (.begin .restart)).1 ∧
      w'.server = { w.server with recoveries := w.server.recoveries.filter (· ≠ n) }) ∨
    (n ∉ w.server.recoveries ∧ w'.server = w.server) := by
  simp only [World.stepRecovery?] at h
  split at h
  · rename_i waits
    cases h
    exact .inl ⟨List.contains_iff_mem.mp waits, rfl, rfl⟩
  · rename_i begun
    refine .inr ⟨fun waits => begun (List.contains_iff_mem.mpr waits), ?_⟩
    rcases World.stepJob_cases h with ⟨work, a, -, achieved, rfl⟩ | beside
    · exact World.server_relieved achieved
    · exact beside.server

/-- Handlers set up no recovery. -/
theorem Handles.recoveries {n : Nat} (handles : Handles w n w') :
    w'.server.recoveries = w.server.recoveries := by
  cases handles with
  | waits server | goesOn _ _ _ _ _ server => rw [server]
  | replies _ _ r _ server =>
    obtain ⟨written, failed, wrote⟩ := write_spec w.server (.reply r)
    rw [server, wrote]

/-- **A restart is set up by the watch**, and by nobody else. -/
theorem recoveries_act {a : Action} {n : Nat} (waits : n ∈ (act w a).server.recoveries) :
    n ∈ w.server.recoveries ∨ a = .go .watch ∧ ∃ g, Heeds w (act w a) n g := by
  by_cases watch : a = .go .watch
  · subst watch
    rcases act_go w .watch with ⟨-, stays⟩ | goes
    · exact .inl (stays ▸ waits)
    rcases stepWatch_heeds goes with same | ⟨m, g, heeds⟩
    · exact .inl (same ▸ waits)
    · rw [heeds.recoveries, List.mem_append, List.mem_singleton] at waits
      exact waits.imp_right fun new => ⟨rfl, g, by rwa [new]⟩
  -- apart from the watch, recoveries are only taken from the list
  refine .inl ?_
  by_cases recovery : ∃ m, a = .go (.recovery m)
  · obtain ⟨m, rfl⟩ := recovery
    rcases act_go w (.recovery m) with ⟨-, stays⟩ | goes
    · exact stays ▸ waits
    rcases stepRecovery_begins goes with ⟨-, -, server⟩ | ⟨-, server⟩
    · rw [server] at waits
      exact List.mem_of_mem_filter waits
    · exact server ▸ waits
  have acts := act_acts w a
  generalize act w a = w' at acts waits
  cases acts with
  | tells => exact absurd rfl watch
  | recovers m => exact absurd ⟨m, rfl⟩ recovery
  | aside _ _ _ server => exact server ▸ waits
  | outside _ _ beside =>
    rw [beside.server] at waits
    exact waits
  | begins => exact waits
  | handler _ _ handles => exact handles.recoveries ▸ waits
  | serve _ serves => exact serves.spares_restarts.2.2 ▸ waits
  | heeds =>
    rw [w.beginStopping_spec.1] at waits
    exact waits
  | input => exact waits

/-- Whatever is done, with the supervisor all is in order. -/
theorem reaches_act {a : Action} (kept : ∀ m, a = .outside m → m.keeps = true) :
    Reaches w.supervisor (act w a).supervisor := by
  have passes := (act_acts w a).passes kept
  generalize act w a = w' at passes
  rcases passes with passes | ⟨-, -, begun⟩ | ⟨-, serves⟩ | ⟨-, -, stopping⟩
  · exact passes.supervisor
  · rw [begun, w.beginServing_spec.2]
    exact reaches_step trivial
  · cases serves with
    | waits _ _ beside => exact beside.supervisor
    | opens _ _ _ _ supervisor | drains _ _ _ _ _ _ _ _ supervisor => exact supervisor
    | blank _ _ _ read => exact (passes_line read).1.supervisor
    | line _ _ _ read => exact (passes_line read).2.supervisor
    | stops =>
      rw [w.beginStopping_spec.2.1]
      exact reaches_step trivial
    | invalid | ends | fails => exact .refl _
  · rw [stopping, w.beginStopping_spec.2.1]
    exact reaches_step trivial

end Heeds

/-! ## Runs -/

section Runs

variable {platform : Platform} {as bs : List Action} {ms : List Supervisor.Move}

/-- What was announced stays announced. -/
theorem Reaches.events {s s' : Supervisor} (reaches : Reaches s s') : s.events <+: s'.events := by
  obtain ⟨ms, rfl, -⟩ := reaches
  induction ms generalizing s with
  | nil => exact List.prefix_rfl
  | cons m ms ih =>
    have told : (s.step m).1.events = s.events ++ _ := Supervisor.tells_step s m
    exact (told ▸ List.prefix_append _ _).trans (ih (s := (s.step m).1))

/-- The session of a run is that of its moves. -/
theorem Follows.supervisor (follows : Follows platform as ms) :
    ((machine platform).run as).supervisor = Supervisor.machine.run ms := by
  cases follows with
  | start => rfl
  | next _ _ _ _ _ now => exact now

/-- The run goes on, and so do the moves of the supervisor. -/
theorem Follows.append (follows : Follows platform as ms) (orderly : Supervisor.OrderlyRun ms)
    (kept : Kept bs) :
    ∃ ns, Follows platform (as ++ bs) (ms ++ ns) ∧ Supervisor.OrderlyRun (ms ++ ns) := by
  induction bs using List.reverseRecOn with
  | nil => exact ⟨[], by simpa using follows, by simpa using orderly⟩
  | append_singleton bs b ih =>
    obtain ⟨ns, follows, orderly⟩ := ih fun m hm => kept m (List.mem_append_left _ hm)
    have reaches := reaches_act (w := (machine platform).run (as ++ bs)) (a := b) fun m same =>
      kept m (by simp [same])
    obtain ⟨more, now, orderly⟩ := reaches.run follows.supervisor orderly
    refine ⟨ns ++ more, ?_, by rwa [← List.append_assoc]⟩
    rw [← List.append_assoc, ← List.append_assoc]
    refine .next _ b _ more follows ?_
    rw [Machine.run_concat]
    exact now

/-- **Every restart that waits to begin was set up for a crash.** -/
theorem run_heeded (kept : Kept as) :
    ∀ n ∈ ((machine platform).run as).server.recoveries, ∃ g,
      (∃ c ∈ (machine platform).history as, c.action = .go .watch ∧ Heeds c.before c.after n g) ∧
        ∃ reason code, .crashed g reason code ∈ ((machine platform).run as).supervisor.events := by
  induction as using List.reverseRecOn with
  | nil => nofun
  | append_singleton as a ih =>
    intro n waits
    have events := (reaches_act (w := (machine platform).run as) (a := a) fun m same =>
      kept m (by simp [same])).events
    rw [Machine.run_concat] at waits ⊢
    rw [Machine.history_concat]
    rcases recoveries_act waits with earlier | ⟨rfl, g, heeds⟩
    · obtain ⟨g, ⟨c, hc, heeds⟩, reason, code, crashed⟩ :=
        ih (fun m hm => kept m (List.mem_append_left _ hm)) n earlier
      exact ⟨g, ⟨c, List.mem_append_left _ hc, heeds⟩, reason, code, events.subset crashed⟩
    · obtain ⟨i, reason, code, crash, -⟩ := heeds.crash
      refine ⟨g, ⟨_, List.mem_append_right _ List.mem_cons_self, rfl, heeds⟩, reason, code, ?_⟩
      exact events.subset (List.mem_of_getElem? crash)

end Runs

/-! ## The law -/

/-- **Restarts after crashes.** When a restart begins that was set up, then because the watch has
passed on the crash of a session and had it in the budget. It is a restart like any other, and what
it comes to upon a crash of generation `g` is `RestartsAfter`: that session was gone when the crash
was announced, and its process is left alone; and in its turn the restart is covered by another one
that came first, or finds no session and starts one, or takes down the session that there is, which
is of a later generation. If no generation was handed out since the crash, there is none to take
down. -/
theorem restarts_take_what_came_later (platform : Platform) (as : List Action) (kept : Kept as)
    (past later : List (machine platform).Event) (e : (machine platform).Event)
    (cut : (machine platform).history as = past ++ e :: later) (n : Nat)
    (waits : n ∈ e.before.server.recoveries) (begins : e.action = .go (.recovery n)) :
    ∃ g, (∃ c ∈ past, c.action = .go .watch ∧ Heeds c.before c.after n g) ∧
      ∃ ms ns, Follows platform (past.map (·.action)) ms ∧
        Follows platform as (ms ++ .begin .restart :: ns) ∧
        Supervisor.OrderlyRun (ms ++ .begin .restart :: ns) ∧
        Supervisor.RestartsAfter g ms ns := by
  obtain ⟨ys, zs, rfl, rfl, before, -⟩ := (machine platform).history_split cut
  have keptPast : Kept ys := fun m hm => kept m (List.mem_append_left _ hm)
  have keptLater : Kept zs := fun m hm =>
    kept m (List.mem_append_right _ (List.mem_cons_of_mem _ hm))
  obtain ⟨world, action⟩ := e
  obtain rfl : world = (machine platform).run ys := before
  obtain rfl : action = .go (.recovery n) := begins
  obtain ⟨g, heeded, reason, code, crashed⟩ := run_heeded keptPast n waits
  obtain ⟨ms, follows, course⟩ := run_course platform keptPast
  -- the restart is the one move of the supervisor when it begins
  have begun : Follows platform (ys ++ [.go (.recovery n)]) (ms ++ [.begin .restart]) := by
    refine .next ys _ ms _ follows ?_
    rw [Machine.run_concat, Machine.run_concat, ← follows.supervisor]
    rcases act_go ((machine platform).run ys) (.recovery n) with ⟨stuck, -⟩ | goes
    · change World.stepRecovery? _ n = none at stuck
      simp only [World.stepRecovery?, List.contains_iff_mem.mpr waits, if_true] at stuck
      cases stuck
    · rcases stepRecovery_begins goes with ⟨-, supervisor, -⟩ | ⟨absent, -⟩
      · exact supervisor
      · exact absurd waits absent
  have orderly : Supervisor.OrderlyRun (ms ++ [.begin .restart]) :=
    Supervisor.orderlyRun_concat.mpr ⟨course.orderly, trivial⟩
  obtain ⟨ns, follows', orderly'⟩ := begun.append orderly keptLater
  simp only [List.append_assoc, List.singleton_append] at follows' orderly'
  refine ⟨g, heeded, ms, ns, ?_, follows', orderly', ?_⟩
  · rwa [(machine platform).history_actions]
  · exact Supervisor.restartsAfter orderly' (follows.supervisor ▸ crashed)

/-- The first session crashes, and a restart is set up. -/
def bereavedRun : List Action :=
  startedRun ++ .outside (.exit 0 ⟨some 9⟩) :: .go .dispatcher :: again 4 .monitor ++ again 2 .watch

/-- A client asks for something before the restart begins. -/
def askedFirst (line : String) : List Action :=
  bereavedRun ++ [typed line, .go .serve, .go (.handler 0)]

def startLine : String := "\x7b\"id\":1,\"method\":\"start\"\x7d"

def stopLine : String := "\x7b\"id\":1,\"method\":\"stop\"\x7d"

/-- The restart begins, and it has its turn when there is a session again. -/
def overtakenRun : List Action :=
  askedFirst startLine ++ .go (.recovery 0) :: (again 3 (.handler 0) ++
    .go .dispatcher :: again 2 (.handler 0) ++ .go (.recovery 0) :: .go .dispatcher ::
    again 5 (.recovery 0) ++ .go .dispatcher :: again 2 (.recovery 0))

/-- In this run a client starts a second session before the restart for the first one begins, and
the restart takes the second one down. -/
theorem overtakenRun_takes_what_came_later :
    Kept overtakenRun ∧
      0 ∈ ((machine .linux).run (askedFirst startLine)).server.recoveries ∧
      ∃ g ms ns, Follows .linux overtakenRun (ms ++ .begin .restart :: ns) ∧
        Supervisor.RestartsAfter g ms ns := by
  have kept : Kept overtakenRun := kept_of_keeps (by decide)
  have waits : 0 ∈ ((machine .linux).run (askedFirst startLine)).server.recoveries := by
    decide +kernel
  obtain ⟨g, -, ms, ns, -, follows, -, restarts⟩ :=
    restarts_take_what_came_later .linux overtakenRun kept _ _ _
      ((machine .linux).historyFrom_append _ _ _) 0 waits rfl
  exact ⟨kept, waits, g, ms, ns, follows, restarts⟩

/-- A client has everything stopped, and has its reply. -/
def stoppedRun : List Action :=
  askedFirst stopLine ++ again 2 (.handler 0)

/-- The restart begins after that. -/
def stoppedInVainRun : List Action :=
  stoppedRun ++ again 4 (.recovery 0) ++ .go .dispatcher :: again 2 (.recovery 0)

/-- **A restart does not look at what happened since the crash.** It takes down the session that a
client has started, and it starts one when a client has stopped everything. -/
theorem restart_comes_too_late :
    Kept overtakenRun ∧
      ((machine .linux).run overtakenRun).supervisor.events =
        [ .ready 1 ⟨4, 3, 6⟩, .crashed 1 "display process exited with code 9" (some 9),
          .ready 2 ⟨4, 3, 6⟩, .stopped 2, .ready 3 ⟨4, 3, 6⟩ ] ∧
      ((machine .linux).run overtakenRun).record.kills = [4002] ∧
      Kept stoppedInVainRun ∧
      (replies ((machine .linux).run stoppedRun).server.written).length = 1 ∧
      ((machine .linux).run stoppedRun).supervisor.status = .stopped ∧
      ((machine .linux).run stoppedInVainRun).supervisor.events =
        [ .ready 1 ⟨4, 3, 6⟩, .crashed 1 "display process exited with code 9" (some 9),
          .ready 2 ⟨4, 3, 6⟩ ] := by
  refine ⟨kept_of_keeps (by decide), ?_, ?_, kept_of_keeps (by decide), ?_, ?_, ?_⟩ <;>
    decide +kernel

end Simulation

end CompilerSession
