import CompilerSession.Proofs.Server.Beside
import CompilerSession.Simulation.Schedule

/-
The world as a machine.

The schedule lets ready tasks take turns, first in, first out. Nothing that is said about the
server depends on that, so a run is here any list of actions: some task goes on whether it was
woken or not, input arrives, somebody asks for the end, a process exits, somebody else uses the
supervisor. What a schedule does is one such run (`pass_leads`).

`Handles`, `Serves` and `Watches` say what a handler, serving itself and the watch over events come
to, and `Acts` has one rule for each kind of action. Laws about serving are proved by cases on these
rules.
-/

set_option autoImplicit false

namespace CompilerSession.Simulation

open Json (Value)
open Server (Handling Handler)

/-! ## Runs -/

/-- **What happens next.** -/
inductive Action where
  /-- Serving begins. -/
  | serve
  /-- A task goes on, if it need not wait. -/
  | go (task : Task)
  /-- The end that was asked for is noticed, even while there is input to read. -/
  | heed
  | receive (bytes : Utf8.Bytes)
  | closeInput
  | signal
  /-- Something happens to the supervisor that no task does: a process exits or answers, time
  passes, somebody else uses it. -/
  | outside (move : Supervisor.Move)
  /-- The compilers are different from now on. -/
  | provide (compilers : Compilers)
  /-- The schedule makes up its mind. -/
  | arrange (ready : List Task) (running : Option Task) (timers : List Timer)

/-- More input is there, unless it was closed. -/
def addInput (bytes : Utf8.Bytes) (s : Server) : Server :=
  if s.inputClosed then s else { s with unread := s.unread ++ bytes }

def act (w : World) : Action → World
  | .serve => if w.server.stage = .idle then w.beginServing else w
  | .go task => (w.step? task).getD w
  | .heed =>
    if w.server.stage = .reading ∧ w.server.signalled then w.beginStopping else w
  | .receive bytes => w.onServer (addInput bytes)
  | .closeInput => w.onServer fun s => { s with inputClosed := true }
  | .signal => w.onServer fun s => { s with signalled := true }
  | .outside move => w.move move
  | .provide compilers => { w with compilers }
  | .arrange ready running timers => { w with ready, running, timers }

/-- **The world as a machine.** It brings about what the server writes. -/
def machine (platform : Platform) : Machine World Action Message where
  start := .initial platform
  step w a := (act w a, (act w a).server.written.drop w.server.written.length)

/-! ## Handlers -/

/-- **The id of a line**: that of its envelope, or null if there is none. -/
def lineId (line : String) : Value :=
  match Envelope.parse line with
  | .ok envelope => envelope.id
  | .error _ => .null

/-- The id to which a handler has to reply. -/
def awaited : Handling → Value
  | .fresh line => lineId line
  | .launch id | .stop id | .display id _ => id

/-- **What a handler comes to.** It has something under way, or it replies and is gone. -/
inductive Handles (w : World) (n : Nat) (w' : World) : Prop where
  | waits (server : w'.server = w.server) (apart : Apart w w')
  | goesOn (x : Handler) (known : w.server.handlers.find? (·.number = n) = some x)
      (budget : Budget) (handling : Handling) (same : awaited handling = awaited x.handling)
      (server : w'.server = { w.server with
        budget
        handlers := w.server.handlers.map fun h =>
          if h.number = n then { h with handling } else h })
      (apart : Apart w w')
  | replies (x : Handler) (known : w.server.handlers.find? (·.number = n) = some x) (r : Reply)
      (own : r.id = awaited x.handling)
      (server : w'.server = { w.server.write (.reply r) with
        handlers := w.server.handlers.filter (·.number ≠ n) })
      (apart : Apart w w')

/-- What is written is all that is different. -/
theorem write_spec (s : Server) (m : Message) :
    ∃ written writerFailed, s.write m = { s with written, writerFailed } := by
  unfold Server.write
  split
  · exact ⟨s.written, s.writerFailed, rfl⟩
  · split
    · exact ⟨s.written ++ [m], s.writerFailed, rfl⟩
    · exact ⟨s.written, true, rfl⟩

namespace World

variable {w w' : World}

/-- A handler may reply to the id that it keeps. -/
theorem handles_reply {n : Nat} {x : Handler} {r : Reply}
    (known : w.server.handlers.find? (·.number = n) = some x) (own : r.id = awaited x.handling)
    (server : w'.server = w.server) (apart : Apart w w') :
    Handles w n (w'.replyAndLeave n r) := by
  obtain ⟨ready, same⟩ := wakes_wake
    (w'.onServer fun s => { s.write (.reply r) with handlers := s.handlers.filter (·.number ≠ n) })
    .serve
  have replied : w'.replyAndLeave n r = _ := same
  rw [replied]
  refine .replies x known r own ?_ (apart.trans (.of_same rfl rfl))
  rw [← server]
  rfl

/-- A handler may obey the command that came with its id. -/
theorem obey_handles {n : Nat} {x : Handler} {id : Value} (command : Command)
    (known : w.server.handlers.find? (·.number = n) = some x) (own : id = awaited x.handling) :
    Handles w n (w.obey n id command) := by
  cases command with
  | display params =>
    -- a request whose id is in use is refused, and any other is begun
    simp only [obey]
    split
    · exact handles_reply known own rfl (.of_same rfl rfl)
    · refine .goesOn x known w.server.budget (.display id (requestKey id)) own ?_ ?_
      · exact server_beginRequest _ _ _ _
      · exact (apart_beginRequest (t := .handler n) nofun _ _).after rfl rfl
  | cancel target =>
    simp only [obey]
    split
    · rename_i t _
      obtain ⟨ready, woken⟩ :=
        wakes_wakeToken { w with registry := (w.registry.cancel (requestKey target)).1 } t
      rw [woken]
      exact handles_reply known own rfl (.of_same rfl rfl)
    · exact handles_reply known own rfl (.of_same rfl rfl)
  | start | restart =>
    simp only [obey]
    refine .goesOn x known .full (.launch id) own ?_ ?_
    · exact (beside_move (by trivial)).server
    · exact (apart_beginErrand (t := .handler n) nofun _).after rfl rfl
  | stop =>
    simp only [obey]
    refine .goesOn x known w.server.budget (.stop id) own ?_ ?_
    · exact (beside_move (by trivial)).server
    · exact (apart_beginErrand (t := .handler n) nofun _).after rfl rfl
  | status => exact handles_reply known own rfl (.of_same rfl rfl)

/-- **A handler handles its line.** -/
theorem handleLine_handles {n : Nat} {x : Handler} {line : String}
    (known : w.server.handlers.find? (·.number = n) = some x) (fresh : x.handling = .fresh line) :
    Handles w n (w.handleLine n line) := by
  have own : awaited x.handling = lineId line := by rw [fresh]; rfl
  unfold handleLine
  split
  · rename_i parsed
    refine handles_reply known ?_ rfl (.of_same rfl rfl)
    rw [own, lineId, parsed]
    rfl
  · rename_i envelope parsed
    have own : envelope.id = awaited x.handling := by rw [own, lineId, parsed]
    split
    · exact handles_reply known own rfl (.of_same rfl rfl)
    · exact obey_handles _ known own

/-- A handler handles what its work comes to. -/
theorem concludeHandler_handles {n : Nat} {x : Handler} {a : Achievement}
    (known : w.server.handlers.find? (·.number = n) = some x) (server : w'.server = w.server)
    (apart : Apart w w') : Handles w n (w'.concludeHandler n x.handling a) := by
  unfold concludeHandler
  split
  · rename_i handling
    refine handles_reply known ?_ server apart
    rw [handling]
    unfold launchReply
    split <;> rfl
  · rename_i handling
    exact handles_reply known (by rw [handling]; rfl) server apart
  · rename_i handling
    refine handles_reply known ?_ server (apart.trans (.of_same rfl rfl))
    rw [handling]
    unfold displayReply
    split <;> rfl
  · exact .waits server apart

/-- **A handler goes on by one of the rules.** -/
theorem stepHandler_handles {n : Nat} (h : w.stepHandler? n = some w') : Handles w n w' := by
  unfold stepHandler? at h
  split at h
  · cases h
  · rename_i x known
    split at h
    · rename_i fresh
      cases h
      exact handleLine_handles known fresh
    · rcases stepJob_cases h with ⟨work, a, -, achieved, rfl⟩ | beside
      · exact concludeHandler_handles known (server_relieved achieved)
          (apart_relieved nofun achieved)
      · exact .waits beside.server beside.apart

end World

/-! ## Serving -/

/-- **What serving itself comes to.** -/
inductive Serves (w : World) : World → Prop where
  /-- There is nothing to read, or the operation that is waited for goes on. -/
  | waits (w' : World)
      (nothing : w.server.stage = .reading → w.server.readLine.1 = .wait)
      (beside : Beside w w') : Serves w w'
  | opens (w' : World) (stage : w.server.stage = .starting)
      (server : w'.server = { w.server with stage := .reading }) (job : w'.work? .serve = none)
      (supervisor : Reaches w.supervisor w'.supervisor)
      (relieved : ∃ work, Relieved w w' .serve work) : Serves w w'
  | blank (text : String) (server : Server) (stage : w.server.stage = .reading)
      (read : w.server.readLine = (.line text, server)) (blank : Text.isAllBlank text = true) :
      Serves w { w with server }
  | line (text : String) (server : Server) (stage : w.server.stage = .reading)
      (read : w.server.readLine = (.line text, server)) (words : Text.isAllBlank text = false) :
      Serves w ({ w with server }.spawnHandler text)
  | invalid (server : Server) (stage : w.server.stage = .reading)
      (read : w.server.readLine = (.invalid, server)) :
      Serves w ({ w with server }.setStage (.ended .invalidData))
  | stops (stage : w.server.stage = .reading)
      (done : w.server.readLine.1 = .finished ∨
        w.server.readLine.1 = .wait ∧ w.server.signalled = true) :
      Serves w w.beginStopping
  | drains (w' : World) (work : Work) (a : Achievement) (stage : w.server.stage = .stopping)
      (job : w.work? .serve = some work) (achieved : w.achievement? work = some a)
      (server : w'.server = { w.server with watching := false, stage := .draining })
      (none : w'.work? .serve = none) (supervisor : Reaches w.supervisor w'.supervisor)
      (relieved : Relieved w w' .serve work) : Serves w w'
  | ends (stage : w.server.stage = .draining) (replied : w.server.handlers = []) :
      Serves w (w.setStage (.ended .ok))
  | fails (stage : w.server.stage = .draining) (failed : w.server.writerFailed = true) :
      Serves w (w.setStage (.ended .brokenPipe))

namespace World

variable {w w' : World}

/-- Who is relieved has no work. -/
theorem work?_relieve (t : Task) : (w.relieve t).work? t = none := by
  simp [work?, relieve]

theorem work?_relieved {t : Task} {work : Work} {a : Achievement}
    (achieved : w.achievement? work = some a) : ((w.relieve t).forget work).work? t = none := by
  rw [work?, (relieved_forgets achieved).jobs]
  exact work?_relieve t

/-- **Serving goes on by one of the rules.** -/
theorem stepServe_serves (h : w.stepServe? = some w') : Serves w w' := by
  -- the cases are the stages of serving, in the order of the definition
  unfold stepServe? at h
  split at h
  · cases h
  · cases h
  · rename_i stage
    rcases stepJob_cases h with ⟨work, a, job, achieved, rfl⟩ | beside
    · have relieved := relieved_spec job achieved
      refine .opens _ stage ?_ (work?_relieved achieved) (relieved_forgets achieved).supervisor
        ⟨work, job, relieved.jobs, relieved.requests⟩
      rw [← server_relieved achieved]
      rfl
    · exact .waits _ (by rw [stage]; exact nofun) beside
  · rename_i stage
    split at h
    · rename_i text server read
      split at h <;> cases h
      · rename_i blank
        exact .blank text server stage read blank
      · rename_i words
        exact .line text server stage read ((Bool.not_eq_true _).mp words)
    · rename_i server read
      cases h
      exact .invalid server stage read
    · rename_i read
      cases h
      exact .stops stage (.inl (by rw [read]))
    · rename_i read
      split at h <;> cases h
      rename_i asked
      exact .stops stage (.inr ⟨by rw [read], asked⟩)
  · rename_i stage
    rcases stepJob_cases h with ⟨work, a, job, achieved, rfl⟩ | beside
    · have relieved := relieved_spec job achieved
      refine .drains _ work a stage job achieved ?_ (work?_relieved achieved)
        (relieved_forgets achieved).supervisor ⟨job, relieved.jobs, relieved.requests⟩
      rw [← server_relieved achieved]
      rfl
    · exact .waits _ (by rw [stage]; exact nofun) beside
  · rename_i stage
    split at h
    · rename_i failed
      cases h
      exact .fails stage failed
    · split at h <;> cases h
      rename_i replied
      exact .ends stage (List.isEmpty_iff.mp replied)

/-- A server that cannot go on does nothing. -/
theorem serves_nothing (h : w.stepServe? = none) : Serves w w := by
  refine .waits w (fun stage => ?_) (.refl w)
  simp only [stepServe?, stage] at h
  split at h
  · split at h <;> cases h
  · cases h
  · cases h
  · rename_i read
    simp [read]

/-- When reading ends the supervisor is to shut down, and that is what serving waits for. -/
theorem beginStopping_spec (w : World) :
    w.beginStopping.server = { w.server with stage := .stopping } ∧
      w.beginStopping.supervisor = (w.supervisor.step (.begin .shutdown)).1 ∧
      w.beginStopping.jobs =
        w.jobs ++ [(.serve, .operation w.supervisor.nextOperation)] := by
  obtain ⟨ready, woken⟩ := wakes_foldl wakes_wakeToken (w.registry.entries.map (·.2))
    { w with registry := w.registry.cancelAll.1 }
  simp only [beginStopping, woken]
  exact ⟨rfl, rfl, rfl⟩

/-- A line has a handler of its own, and nothing else is different. -/
theorem spawnHandler_spec (w : World) (line : String) : ∃ ready, w.spawnHandler line =
    { w with
      ready
      server := { w.server with
        nextHandler := w.server.nextHandler + 1
        handlers := w.server.handlers ++ [⟨w.server.nextHandler, .fresh line⟩] } } :=
  wakes_wake (w.onServer fun s =>
    { s with
      nextHandler := w.server.nextHandler + 1
      handlers := s.handlers ++ [⟨w.server.nextHandler, .fresh line⟩] })
    (.handler w.server.nextHandler)

theorem beginServing_spec (w : World) :
    w.beginServing.server =
        { w.server with
          stage := .starting, watching := true, cursor := w.supervisor.events.length } ∧
      w.beginServing.supervisor = (w.supervisor.step (.begin .start)).1 :=
  ⟨rfl, rfl⟩

end World

/-! ## The watch -/

def isCrash : Event → Bool
  | .crashed _ _ _ => true
  | _ => false

/-- **A restart is set up**, if there is one in the budget. -/
def provide (s : Server) : Server :=
  match s.budget.take? with
  | none => s
  | some budget =>
    { s with
      budget
      nextRecovery := s.nextRecovery + 1
      recoveries := s.recoveries ++ [s.nextRecovery] }

/-- **An event is passed on** that stands at some place. After a crash a restart is set up. -/
def passOn (place : Nat) (e : Event) (s : Server) : Server :=
  let told := { s.write (.event e) with cursor := place + 1 }
  if isCrash e then provide told else told

/-- **The watch has its turn**, and there is an event to pass on. -/
structure Watches (w w' : World) (place : Nat) (e : Event) : Prop where
  watching : w.server.watching = true
  next : place = max w.server.cursor (w.supervisor.events.length - World.eventCapacity)
  event : w.supervisor.events[place]? = some e
  world : ∃ ready, w' = { w with ready, server := passOn place e w.server }

section Watches

variable {w w' : World} {place : Nat} {e : Event}

/-- The watch passes on one event. -/
theorem Watches.server (watches : Watches w w' place e) : w'.server = passOn place e w.server := by
  obtain ⟨ready, rfl⟩ := watches.world
  rfl

/-- To recover is to provide for a restart. -/
theorem recover_provides (w : World) :
    ∃ ready, w.recover = { w with ready, server := provide w.server } := by
  unfold World.recover provide
  cases w.server.budget.take? with
  | none => exact ⟨w.ready, rfl⟩
  | some budget =>
    obtain ⟨ready, woken⟩ := World.wakes_wake
      (w.onServer fun s =>
        { s with
          budget
          nextRecovery := w.server.nextRecovery + 1
          recoveries := s.recoveries ++ [w.server.nextRecovery] }) (.recovery w.server.nextRecovery)
    exact ⟨ready, woken⟩

/-- **A turn of the watch passes on one event**, and the next one is to be passed on after it. -/
theorem stepWatch_watches (h : w.stepWatch? = some w') : ∃ place e, Watches w w' place e := by
  simp only [World.stepWatch?] at h
  split at h
  · cases h
  rename_i watching
  split at h
  · cases h
  rename_i e event
  refine ⟨_, e, (Bool.not_eq_false _).mp watching, rfl, event, ?_⟩
  generalize max w.server.cursor _ = place at h
  obtain ⟨ready, woken⟩ := World.wakes_wake
    (w.onServer fun s => { s.write (.event e) with cursor := place + 1 }) .serve
  rw [woken] at h
  cases e with
  | crashed g reason code =>
    obtain rfl := Option.some.inj h
    exact recover_provides _
  | ready | stopped =>
    obtain rfl := Option.some.inj h
    exact ⟨ready, rfl⟩

/-- To provide for a restart changes the rations alone. -/
theorem provide_spec (s : Server) : ∃ budget nextRecovery recoveries,
    provide s = { s with budget, nextRecovery, recoveries } := by
  unfold provide
  split
  · exact ⟨s.budget, s.nextRecovery, s.recoveries, rfl⟩
  · exact ⟨_, _, _, rfl⟩

/-- What an event that is passed on changes. -/
theorem passOn_spec (s : Server) (place : Nat) (e : Event) : ∃ budget nextRecovery recoveries,
    passOn place e s =
      { s.write (.event e) with cursor := place + 1, budget, nextRecovery, recoveries } := by
  unfold passOn
  cases isCrash e with
  | false => exact ⟨_, _, _, rfl⟩
  | true => exact provide_spec _

end Watches

/-! ## All actions -/

/-- **The rules of the world.** -/
inductive Acts (w : World) : Action → World → Prop where
  /-- The server is left alone. -/
  | aside (a : Action) (w' : World) (other : a ≠ .go .serve) (server : w'.server = w.server)
      (apart : Apart w w') : Acts w a w'
  | outside (m : Supervisor.Move) (w' : World)
      (beside : Beside { w with supervisor := (w.supervisor.step m).1 } w') :
      Acts w (.outside m) w'
  | begins (stage : w.server.stage = .idle) : Acts w .serve w.beginServing
  | handler (n : Nat) (w' : World) (handles : Handles w n w') : Acts w (.go (.handler n)) w'
  | serve (w' : World) (serves : Serves w w') : Acts w (.go .serve) w'
  | heeds (stage : w.server.stage = .reading) (asked : w.server.signalled = true) :
      Acts w .heed w.beginStopping
  /-- An event is passed on. -/
  | tells (w' : World) (e : Event) (cursor : Nat) (budget : Budget) (recoveries : List Nat)
      (nextRecovery : Nat)
      (server : w'.server =
        { w.server.write (.event e) with cursor, budget, recoveries, nextRecovery })
      (apart : Apart w w') : Acts w (.go .watch) w'
  | recovers (n : Nat) (w' : World) (recoveries : List Nat)
      (server : w'.server = { w.server with recoveries }) (apart : Apart w w') :
      Acts w (.go (.recovery n)) w'
  | input (a : Action) (other : a ≠ .go .serve) (unread : Utf8.Bytes)
      (inputClosed signalled : Bool) :
      Acts w a { w with server := { w.server with unread, inputClosed, signalled } }

section Acts

variable {w w' : World}

/-- A turn of the watch is one of the acts. -/
theorem stepWatch_tells (h : w.stepWatch? = some w') : Acts w (.go .watch) w' := by
  obtain ⟨place, e, watches⟩ := stepWatch_watches h
  obtain ⟨budget, nextRecovery, recoveries, server⟩ := passOn_spec w.server place e
  obtain ⟨ready, rfl⟩ := watches.world
  exact .tells _ e (place + 1) budget recoveries nextRecovery server (.of_same rfl rfl)

/-- **A turn of any task is one of the acts.** -/
theorem step_acts {t : Task} (h : w.step? t = some w') : Acts w (.go t) w' := by
  cases t with
  | dispatcher =>
    have beside := World.beside_stepDispatcher h
    exact .aside _ _ nofun beside.server beside.apart
  | monitor =>
    have beside := World.beside_stepMonitor h
    exact .aside _ _ nofun beside.server beside.apart
  | call id =>
    have beside := World.beside_stepCall h
    exact .aside _ _ nofun beside.server beside.apart
  | caller n =>
    change w.stepCaller? n = some w' at h
    unfold World.stepCaller? at h
    rcases World.stepJob_cases h with ⟨work, a, -, achieved, rfl⟩ | beside
    · refine .aside _ _ nofun (World.server_relieved achieved) ?_
      exact (World.apart_relieved (t := .caller n) nofun achieved).trans (.of_same rfl rfl)
    · exact .aside _ _ nofun beside.server beside.apart
  | handler n => exact .handler n w' (World.stepHandler_handles h)
  -- a recovery begins an operation, or it learns what came of it
  | recovery n =>
    change w.stepRecovery? n = some w' at h
    simp only [World.stepRecovery?] at h
    split at h
    · cases h
      refine .recovers n _ (w.server.recoveries.filter (· ≠ n)) ?_ ?_
      · exact (World.beside_move (by trivial)).server
      · exact (World.apart_beginErrand (t := .recovery n) nofun _).after rfl rfl
    · rcases World.stepJob_cases h with ⟨work, a, -, achieved, rfl⟩ | beside
      · refine .aside _ _ nofun (World.server_relieved achieved) ?_
        exact World.apart_relieved (t := .recovery n) nofun achieved
      · exact .aside _ _ nofun beside.server beside.apart
  | watch => exact stepWatch_tells h
  | serve => exact .serve w' (World.stepServe_serves h)

/-- A task goes on, or it waits. -/
theorem act_go (w : World) (t : Task) :
    w.step? t = none ∧ act w (.go t) = w ∨ w.step? t = some (act w (.go t)) := by
  cases h : w.step? t <;> simp [act, h]

/-- **Every action follows one of the rules.** -/
theorem act_acts (w : World) (a : Action) : Acts w a (act w a) := by
  have idle {a : Action} (other : a ≠ .go .serve) : Acts w a w :=
    .aside a w other rfl (.of_same rfl rfl)
  cases a with
  | serve =>
    simp only [act]
    split
    · rename_i stage
      exact .begins stage
    · exact idle nofun
  | go t =>
    simp only [act]
    cases h : w.step? t with
    | some w' => exact step_acts h
    | none =>
      by_cases same : t = .serve
      · subst same
        exact .serve w (World.serves_nothing h)
      · exact idle fun other => same (Action.go.inj other)
  | heed =>
    simp only [act]
    split
    · rename_i asked
      exact .heeds asked.1 asked.2
    · exact idle nofun
  | receive bytes =>
    simp only [act, World.onServer, addInput]
    split
    · exact idle nofun
    · exact .input (.receive bytes) nofun _ _ _
  | closeInput => exact .input .closeInput nofun _ _ _
  | signal => exact .input .signal nofun _ _ _
  | outside m => exact .outside m _ (World.beside_signals w m)
  | provide | arrange => exact .aside _ _ nofun rfl (.of_same rfl rfl)

end Acts

/-! ## Schedules -/

/-- Nobody else gives up an operation, or collects what is not his. -/
def Kept (as : List Action) : Prop :=
  ∀ m, .outside m ∈ as → m.keeps = true

def Action.keeps : Action → Bool
  | .outside m => m.keeps
  | _ => true

/-- A run in which no move drops a call is kept. -/
theorem kept_of_keeps {as : List Action} (h : ∀ a ∈ as, a.keeps = true) : Kept as :=
  fun m hm => h (.outside m) hm

/-- The world gets from one state to another. -/
def Leads (w w' : World) : Prop :=
  ∃ as, Kept as ∧ ∀ platform, w' = (machine platform).runFrom w as

section Leads

variable {w w' w'' : World}

theorem Leads.refl (w : World) : Leads w w :=
  ⟨[], fun _ none => absurd none List.not_mem_nil, fun _ => rfl⟩

/-- Where acts lead to, more acts lead on. -/
theorem Leads.trans (h : Leads w w') (h' : Leads w' w'') : Leads w w'' := by
  obtain ⟨as, kept, run⟩ := h
  obtain ⟨bs, kept', run'⟩ := h'
  refine ⟨as ++ bs, fun m hm => ?_, fun platform => ?_⟩
  · exact (List.mem_append.mp hm).elim (kept m) (kept' m)
  · rw [Machine.runFrom_append, ← run platform]
    exact run' platform

/-- One act leads to its result. -/
theorem leads_act {a : Action} (kept : ∀ m, a = .outside m → m.keeps = true) :
    Leads w (act w a) := by
  refine ⟨[a], fun m hm => kept m (List.mem_singleton.mp hm).symm, fun _ => rfl⟩

/-- The order of tasks and timers does not matter. -/
theorem leads_arrange (ready : List Task) (running : Option Task) (timers : List Timer) :
    Leads w { w with ready, running, timers } :=
  leads_act (a := .arrange ready running timers) nofun

/-- To wake somebody leads nowhere else. -/
theorem Wakes.leads (h : Wakes w w') : Leads w w' := by
  obtain ⟨ready, rfl⟩ := h
  exact leads_arrange ready w.running w.timers

/-- The steps of a task, as many as it may take at a time, are acts. -/
theorem turnWithin_leads (t : Task) (n : Nat) (w : World) : Leads w (w.turnWithin t n) := by
  induction n generalizing w with
  | zero => exact .refl w
  | succ n ih =>
    cases h : w.step? t with
    | none =>
      simp only [World.turnWithin, h]
      exact .refl w
    | some w' =>
      have gone : act w (.go t) = w' := by simp only [act, h, Option.getD_some]
      simp only [World.turnWithin, h, ← gone]
      exact (leads_act (a := .go t) nofun).trans (ih _)

/-- A turn of a task is made of acts. -/
theorem turn_leads (w : World) (t : Task) : Leads w (w.turn t) :=
  (leads_arrange w.ready (some t) w.timers).trans
    ((turnWithin_leads t World.stepBound _).trans (leads_arrange _ w.running _))

/-- **Until nobody is ready there are only acts.** -/
theorem restWithin_leads (n : Nat) (w : World) : Leads w (w.restWithin n) := by
  induction n generalizing w with
  | zero => exact .refl w
  | succ n ih =>
    cases h : w.ready with
    | nil =>
      simp only [World.restWithin, h]
      exact .refl w
    | cons t rest =>
      simp only [World.restWithin, h]
      exact (leads_arrange rest w.running w.timers).trans ((turn_leads _ t).trans (ih _))

/-- The clock is set by an act. -/
theorem setClock_leads (w : World) (time : Nat) : Leads w (w.setClock time) :=
  leads_act (a := .outside (.tick (time - w.supervisor.clock))) (by rintro m ⟨⟩; rfl)

/-- The passing of time is made of acts. -/
theorem passWithin_leads (time n : Nat) (w : World) : Leads w (w.passWithin time n) := by
  induction n generalizing w with
  | zero => exact .refl w
  | succ n ih =>
    cases h : w.dueTimer? time with
    | none =>
      simp only [World.passWithin, h]
      exact .refl w
    | some t =>
      simp only [World.passWithin, h]
      refine (leads_arrange w.ready w.running (w.timers.erase t)).trans ?_
      refine (setClock_leads _ t.deadline).trans ?_
      refine (World.wakes_wakeWaiter _ t.waiter).leads.trans ?_
      exact (restWithin_leads _ _).trans (ih _)

/-- **What a schedule does is a run.** -/
theorem pass_leads (w : World) (ms : Nat) : Leads w (w.pass ms) :=
  (restWithin_leads _ w).trans
    ((passWithin_leads _ _ _).trans ((setClock_leads _ _).trans (restWithin_leads _ _)))

end Leads

/-- A task goes on several times. -/
def again (n : Nat) (task : Task) : List Action :=
  List.replicate n (.go task)

/-- A line arrives. -/
def typed (line : String) : Action :=
  .receive (line.toUTF8.toList ++ [10])

/-- Serving begins, and the first session becomes ready. -/
def startedRun : List Action :=
  .serve :: again 3 .serve ++ .go .dispatcher :: again 3 .serve

end CompilerSession.Simulation
