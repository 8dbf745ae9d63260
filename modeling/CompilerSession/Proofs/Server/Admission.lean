import CompilerSession.Proofs.Server.Closing
import CompilerSession.Proofs.Server.Desk

/-
The ids of display requests.

Clients choose the ids, and they may use one again. While a request is under way its id is taken:
a second request with it is refused, and a cancellation that names it fires the token of this
request and of no other. When the request is answered the id is free again, for a request with a
token of its own, and what was cancelled before is of no concern to it. Which requests are under way
is said here by the history alone (`underWay`): they were admitted, and no reply has come from their
handlers. `Registering` says what a single event means for the register.
-/

set_option autoImplicit false

namespace CompilerSession.Simulation

open Json (Value)
open Server (Handler Handling)

/-! ## What tasks do at the desk -/

section Tasks

variable {w w' : World} {n : Nat}

/-- The desk can be put together from the requests and the server. -/
theorem desk_of_requests {r : Registry} {ts : List (Nat × Token)} {m : Nat}
    (requests : w.requests = (r, ts, m)) :
    w.desk = ⟨r, ts, m, w.jobs, w.server.handlers, w.server.nextHandler⟩ := by
  obtain ⟨rfl, rfl, rfl⟩ : w.registry = r ∧ w.submissions.map Submission.ticket = ts ∧
      w.nextSubmission = m := by
    simpa only [World.requests, Prod.mk.injEq] using requests
  rfl

/-- What happens beside the desk leaves it alone. -/
theorem Beside.desk (beside : Beside w w') : w'.desk = w.desk := by
  rw [desk_of_requests beside.requests, beside.jobs, beside.server]
  rfl

/-- A task that is relieved of its work leaves the desk otherwise alone. -/
theorem Relieved.desk {t : Task} {work : Work} (relieved : Relieved w w' t work)
    (handlers : w'.server.handlers = w.server.handlers)
    (next : w'.server.nextHandler = w.server.nextHandler) :
    w'.desk = w.desk.relieve t work := by
  rw [desk_of_requests relieved.requests, relieved.jobs, handlers, next]
  rfl

/-- A task that has achieved its work and is relieved of it leaves the desk otherwise alone. -/
theorem desk_relieved {t : Task} {work : Work} {a : Achievement} (job : w.work? t = some work)
    (achieved : w.achievement? work = some a) :
    ((w.relieve t).forget work).desk = w.desk.relieve t work :=
  have server := World.server_relieved (t := t) achieved
  (World.relieved_spec job achieved).desk (by rw [server]) (by rw [server])

/-- A handler that replies leaves. -/
theorem desk_replyAndLeave (w : World) (n : Nat) (r : Reply) :
    (w.replyAndLeave n r).desk = w.desk.dismiss n := by
  obtain ⟨ready, left⟩ := replyAndLeave_spec w n r
  obtain ⟨written, failed, wrote⟩ := write_spec w.server (.reply r)
  rw [left, wrote]
  rfl

/-- A handler that asks the session for something waits for the operation. -/
theorem desk_beginErrand (w : World) (t : Task) (errand : Supervisor.Errand) :
    (w.beginErrand t errand).desk = w.desk.assign t (.operation w.supervisor.nextOperation) := by
  have beside : Beside w (w.move (.begin errand)) := World.beside_move (by trivial)
  rw [← beside.desk]
  rfl

/-- A handler that submits a request waits for its outcome. -/
theorem desk_beginRequest (w : World) (t : Task) (request : Request) (token : Token) :
    (w.beginRequest t request token).desk =
      { w.desk.assign t (.submission w.nextSubmission) with
        tickets := w.desk.tickets ++ [(w.nextSubmission, token)]
        nextRequest := w.nextSubmission + 1 } := by
  simp only [World.beginRequest]
  rw [(beside_getD fun _ => World.beside_send?).desk]
  simp [World.desk, World.assign, Desk.assign, Submission.ticket]

/-- When the server stops, it cancels all that is registered. -/
theorem desk_beginStopping (w : World) :
    w.beginStopping.desk = { w.desk with registry := w.registry.cancelAll.1 }.assign .serve
      (.operation w.supervisor.nextOperation) := by
  obtain ⟨ready, woken⟩ := World.wakes_foldl World.wakes_wakeToken (w.registry.entries.map (·.2))
    { w with registry := w.registry.cancelAll.1 }
  simp only [World.beginStopping, woken]
  rw [desk_beginErrand]
  rfl

/-- Serving turns from reading to its end. -/
def Stops (w w' : World) : Prop :=
  w.server.stage ≠ .stopping ∧ w'.server.stage = .stopping

/-- A server that stays at its stage does not stop. -/
theorem not_stops (same : w'.server.stage = w.server.stage) : ¬ Stops w w' :=
  fun ⟨other, now⟩ => other (same.symm.trans now)

/-- **No handler goes on**, and serving may come to its end. -/
inductive Proceeds (w w' : World) : Prop where
  | along (files : Files w.desk .nothing w'.desk) (on : ¬ Stops w w')
  | stops (files : Files w.desk .stops w'.desk) (now : Stops w w')

/-- What leaves desk and server alone is no deed. -/
theorem proceeds_beside (desk : w'.desk = w.desk) (server : w'.server = w.server) :
    Proceeds w w' := by
  refine .along ?_ (not_stops (by rw [server]))
  rw [desk]
  exact .rests

/-- To stop is a deed of its own. -/
theorem proceeds_stopping (stage : w.server.stage = .reading) : Proceeds w w.beginStopping := by
  refine .stops ?_ ⟨?_, ?_⟩
  · rw [desk_beginStopping]
    exact .stops _
  · rw [stage]
    exact nofun
  · rw [w.beginStopping_spec.1]

/-- **What the server does itself is a deed**: a line is taken up, or everything is cancelled. -/
theorem Serves.proceeds (serves : Serves w w') : Proceeds w w' := by
  -- only reading a line and stopping are deeds, and none of the other rules stops the server
  cases serves with
  | waits _ _ beside => exact proceeds_beside beside.desk beside.server
  | opens _ stage server _ _ relieved =>
    obtain ⟨work, relieved⟩ := relieved
    refine .along ?_ fun stops => by cases (congrArg Server.stage server).symm.trans stops.2
    rw [relieved.desk (by rw [server]) (by rw [server])]
    exact .relieves .serve nofun work relieved.job
  | drains _ work _ stage job _ server _ _ relieved =>
    refine .along ?_ fun stops => by cases (congrArg Server.stage server).symm.trans stops.2
    rw [relieved.desk (by rw [server]) (by rw [server])]
    exact .relieves .serve nofun work relieved.job
  | blank text server stage read =>
    obtain ⟨unread, rfl⟩ := server_of_read read
    exact .along .rests (not_stops rfl)
  | line text server stage read =>
    obtain ⟨unread, rfl⟩ := server_of_read read
    obtain ⟨ready, spawned⟩ := World.spawnHandler_spec
      { w with server := { w.server with unread } } text
    rw [spawned]
    exact .along (.reads text) (not_stops rfl)
  | invalid server stage read =>
    obtain ⟨unread, rfl⟩ := server_of_read read
    exact .along .rests fun stops => by cases stops.2
  | stops stage => exact proceeds_stopping stage
  | ends | fails => exact .along .rests fun stops => by cases stops.2

/-- **What any other task does is no deed**, unless it is a handler. -/
theorem step_proceeds {t : Task} (other : ∀ n, t ≠ .handler n) (h : w.step? t = some w') :
    Proceeds w w' := by
  -- who is done with its work has nothing else to do with the desk
  have relieved {work : Work} {a : Achievement} (job : w.work? t = some work)
      (achieved : w.achievement? work = some a) : Proceeds w ((w.relieve t).forget work) := by
    refine .along ?_ (not_stops (by rw [World.server_relieved achieved]))
    rw [desk_relieved job achieved]
    exact .relieves t other work job
  have aside {v : World} (beside : Beside w v) : Proceeds w v :=
    proceeds_beside beside.desk beside.server
  cases t with
  | dispatcher => exact aside (World.beside_stepDispatcher h)
  | monitor => exact aside (World.beside_stepMonitor h)
  | call id => exact aside (World.beside_stepCall h)
  | caller n =>
    change w.stepCaller? n = some w' at h
    unfold World.stepCaller? at h
    rcases World.stepJob_cases h with ⟨work, a, job, achieved, rfl⟩ | beside
    · cases relieved job achieved with
      | along files on => exact .along files on
      | stops files now => exact .stops files now
    · exact aside beside
  | handler n => exact absurd rfl (other n)
  | recovery n =>
    change w.stepRecovery? n = some w' at h
    simp only [World.stepRecovery?] at h
    split at h
    · cases h
      refine .along ?_ (not_stops rfl)
      rw [desk_beginErrand]
      exact .assigns (.recovery n) (by rintro n ⟨⟩) _
    · rcases World.stepJob_cases h with ⟨work, a, job, achieved, rfl⟩ | beside
      · exact relieved job achieved
      · exact aside beside
  | watch =>
    obtain ⟨place, e, watches⟩ := stepWatch_watches h
    obtain ⟨budget, next, recoveries, server⟩ := passOn_spec w.server place e
    obtain ⟨written, failed, wrote⟩ := write_spec w.server (.event e)
    obtain ⟨ready, rfl⟩ := watches.world
    rw [server, wrote]
    exact .along .rests (not_stops rfl)
  | serve => exact (World.stepServe_serves h).proceeds

/-- **What is done at the desk when no handler goes on.** -/
theorem act_proceeds {a : Action} (other : ∀ n, a ≠ .go (.handler n)) : Proceeds w (act w a) := by
  cases a with
  | serve =>
    simp only [act]
    split
    · refine .along ?_ fun stops => by cases stops.2
      rw [World.beginServing, desk_beginErrand]
      exact .assigns .serve (by rintro n ⟨⟩) _
    · exact proceeds_beside rfl rfl
  | go t =>
    rcases act_go w t with ⟨-, stays⟩ | goes
    · rw [stays]
      exact proceeds_beside rfl rfl
    · exact step_proceeds (fun n same => other n (congrArg Action.go same)) goes
  | heed =>
    simp only [act]
    split
    · rename_i asked
      exact proceeds_stopping asked.1
    · exact proceeds_beside rfl rfl
  -- what comes in is kept for the reader, and changes nothing at the desk
  | receive bytes =>
    simp only [act, World.onServer, addInput]
    split
    · exact proceeds_beside rfl rfl
    · exact .along .rests (not_stops rfl)
  | closeInput | signal => exact .along .rests (not_stops rfl)
  | outside m =>
    have beside := World.beside_signals w m
    exact proceeds_beside beside.desk beside.server
  | provide | arrange => exact proceeds_beside rfl rfl

end Tasks

/-! ## What handlers do at the desk -/

/-- What a handler writes in its turn: a reply if it is gone afterwards, and else nothing. -/
def Wrote (w w' : World) : Option Nat → Prop
  | none => w'.server.written = w.server.written
  | some _ => ∃ r, w'.server.written = (w.server.write (.reply r)).written

/-- **What it means to obey a command.** -/
def obeyed (w : World) (n : Nat) (id : Value) : Command → Deed
  | .display _ => if w.registry.isLive (requestKey id) then .replies n else .admits n id
  | .cancel target => .cancels n (requestKey target)
  | .status => .replies n
  | .start | .restart _ | .stop => .nothing

/-- **What a handler does in its turn.** -/
structure Turns (w : World) (n : Nat) (w' : World) (deed : Deed) : Prop where
  files : Files w.desk deed w'.desk
  wrote : Wrote w w' deed.left
  own : deed.left = none ∨ deed.left = some n
  going : deed ≠ .stops
  obeys : ∀ id command, obeys? w n = some (id, command) → deed = obeyed w n id command
  otherwise : obeys? w n = none → deed.admitted = none ∧ deed.cancelled = none

section Handlers

variable {w w' : World} {n : Nat}

/-- Who replies writes one reply. -/
theorem wrote_reply (same : w'.server = w.server) (n : Nat) (r : Reply) :
    Wrote w (w'.replyAndLeave n r) (some n) := by
  obtain ⟨ready, left⟩ := replyAndLeave_spec w' n r
  refine ⟨r, ?_⟩
  rw [left, ← same]

/-- What obeying a command does at the desk. -/
theorem obey_files {line : String} (known : ⟨n, .fresh line⟩ ∈ w.server.handlers) (id : Value)
    (command : Command) : Files w.desk (obeyed w n id command) (w.obey n id command).desk ∧
      Wrote w (w.obey n id command) (obeyed w n id command).left := by
  -- commands are answered at once, or they begin an errand
  have at_once {v : World} (same : v.server = w.server) (r : Reply) (desk : v.desk = w.desk) :
      Files w.desk (.replies n) (v.replyAndLeave n r).desk ∧
        Wrote w (v.replyAndLeave n r) (some n) := by
    rw [desk_replyAndLeave, desk]
    exact ⟨.replies n line known, wrote_reply same n r⟩
  have errand {v : World} {handling : Handling} (busy : ∀ line, handling ≠ .fresh line)
      (other : displayed ⟨n, handling⟩ = none) (same : v.desk = w.desk)
      (written : v.server.written = w.server.written) (errand : Supervisor.Errand) :
      Files w.desk .nothing ((v.setHandling n handling).beginErrand (.handler n) errand).desk ∧
        Wrote w ((v.setHandling n handling).beginErrand (.handler n) errand) none := by
    have occupied : (v.setHandling n handling).desk = w.desk.occupy n handling := by
      rw [← same]
      rfl
    rw [desk_beginErrand, occupied]
    exact ⟨.begins n line known handling busy other _, written⟩
  cases command with
  | display params =>
    -- the register decides what becomes of a display request
    cases live : w.registry.isLive (requestKey id) with
    | true =>
      simp only [World.obey, obeyed, Registry.register_live live, live, if_true]
      exact at_once rfl _ rfl
    | false =>
      simp only [World.obey, obeyed, Registry.register_free live, live, Bool.false_eq_true,
        if_false]
      refine ⟨?_, ?_⟩
      · rw [desk_beginRequest]
        have accepted := Files.admits (d := w.desk) n line known id live
        simp only [Desk.accept, World.desk, Registry.register_free live] at accepted
        exact accepted
      · show Server.written _ = _
        rw [World.server_beginRequest]
        rfl
  -- a cancellation wakes who waits for the token, and nobody at the desk notices
  | cancel target =>
    have cancels := Files.cancels (d := w.desk) n line known (requestKey target)
    simp only [World.obey, obeyed]
    split
    · rename_i t _
      have woken := (World.wakes_wakeToken
        { w with registry := (w.registry.cancel (requestKey target)).1 } t).beside
      refine ⟨?_, wrote_reply woken.server n _⟩
      rw [desk_replyAndLeave, woken.desk]
      exact cancels
    · rename_i unknown
      have same : (w.desk.registry.cancel (requestKey target)).1 = w.desk.registry := by
        simp only [Registry.cancel, World.desk, unknown]
      rw [same] at cancels
      refine ⟨?_, wrote_reply rfl n _⟩
      rw [desk_replyAndLeave]
      exact cancels
  | start | restart =>
    exact errand (v := w.onServer fun s => { s with budget := .full })
      (fun _ same => by cases same) rfl rfl rfl _
  | stop => exact errand (fun _ same => by cases same) rfl rfl rfl _
  | status => exact at_once rfl _ rfl

/-- To obey a command is to reply at once, or to go on; it never stops the server. -/
theorem obeyed_spec (w : World) (n : Nat) (id : Value) (command : Command) :
    ((obeyed w n id command).left = none ∨ (obeyed w n id command).left = some n) ∧
      obeyed w n id command ≠ .stops := by
  cases command with
  | display =>
    simp only [obeyed]
    split
    · exact ⟨.inr rfl, nofun⟩
    · exact ⟨.inl rfl, nofun⟩
  | cancel | status => exact ⟨.inr rfl, nofun⟩
  | start | restart | stop => exact ⟨.inl rfl, nofun⟩

/-- A handler that obeys no command. -/
theorem turns_of {deed : Deed} (idle : obeys? w n = none) (files : Files w.desk deed w'.desk)
    (wrote : Wrote w w' deed.left) (own : deed.left = none ∨ deed.left = some n)
    (going : deed ≠ .stops) (admitted : deed.admitted = none) (cancelled : deed.cancelled = none) :
    Turns w n w' deed :=
  ⟨files, wrote, own, going, fun _ _ asked => (nomatch idle.symm.trans asked),
    fun _ => ⟨admitted, cancelled⟩⟩

/-- Nobody waits for a display request but for its outcome. -/
theorem answered_of_display {id : Value} {key : String} {work : Work} {a : Achievement}
    (filed : Filed w.desk) (known : ⟨n, .display id key⟩ ∈ w.server.handlers)
    (job : w.work? (.handler n) = some work) (achieved : w.achievement? work = some a) :
    ∃ outcome, a = .answered outcome := by
  obtain ⟨k, t, mine, -⟩ :=
    filed.own (n, id, key) (List.mem_filterMap.mpr ⟨⟨n, .display id key⟩, known, rfl⟩)
  obtain rfl : work = .submission k := Option.some.inj (job.symm.trans mine)
  simp only [World.achievement?] at achieved
  split at achieved
  · cases achieved
  · obtain ⟨outcome, -, same⟩ := Option.map_eq_some_iff.mp achieved
    exact ⟨outcome, same.symm⟩

/-- A handler that waited learns what came of it. -/
theorem conclude_turns {handling : Handling} (filed : Filed w.desk) (idle : obeys? w n = none)
    (known : ⟨n, handling⟩ ∈ w.server.handlers) (begun : ∀ line, handling ≠ .fresh line)
    {work : Work} {a : Achievement} (job : w.work? (.handler n) = some work)
    (achieved : w.achievement? work = some a) : ∃ deed, Turns w n
      (((w.relieve (.handler n)).forget work).concludeHandler n handling a) deed := by
  have desk := desk_relieved job achieved
  have server := World.server_relieved (t := .handler n) achieved
  generalize (w.relieve (.handler n)).forget work = v at desk server
  -- who gets what it waited for replies and leaves; a result of another kind leaves it stuck
  have leaves (other : displayed ⟨n, handling⟩ = none) (r : Reply) :
      ∃ deed, Turns w n (v.replyAndLeave n r) deed := by
    refine ⟨.replies n, turns_of idle ?_ (wrote_reply server n r) (.inr rfl) nofun rfl rfl⟩
    rw [desk_replyAndLeave, desk]
    exact .leaves ⟨n, handling⟩ known other work job
  have stalls (other : displayed ⟨n, handling⟩ = none) : ∃ deed, Turns w n v deed := by
    refine ⟨.nothing, turns_of idle ?_ (congrArg Server.written server) (.inl rfl) nofun rfl rfl⟩
    rw [desk]
    exact .stalls ⟨n, handling⟩ known other work job
  cases handling with
  | fresh line => exact absurd rfl (begun line)
  | launch id =>
    cases a with
    | launched outcome => exact leaves rfl _
    | stopped | shutDown | answered => exact stalls rfl
  | stop id =>
    cases a with
    | stopped => exact leaves rfl _
    | launched | shutDown | answered => exact stalls rfl
  | display id key =>
    obtain ⟨outcome, rfl⟩ := answered_of_display filed known job achieved
    refine ⟨.finishes n key, ?_⟩
    simp only [World.concludeHandler]
    refine turns_of idle ?_ ?_ (.inr rfl) nofun rfl rfl
    · rw [desk_replyAndLeave]
      show Files w.desk _ (Desk.dismiss { v.desk with registry := v.desk.registry.finish key } n)
      rw [desk]
      exact .concludes n id key known work job
    · refine wrote_reply ?_ n _
      exact server

/-- **What a handler does at the desk in its turn.** -/
theorem handler_turns (filed : Filed w.desk) (n : Nat) :
    ∃ deed, Turns w n (act w (.go (.handler n))) deed := by
  have listed {x : Handler} (known : w.server.handlers.find? (·.number = n) = some x) :
      ⟨n, x.handling⟩ ∈ w.server.handlers := by
    obtain rfl : x.number = n := by simpa using List.find?_some known
    exact List.mem_of_find?_eq_some known
  -- a handler obeys a command, or it has nothing to do with the register
  cases asked : obeys? w n with
  | some command =>
    obtain ⟨id, command⟩ := command
    obtain ⟨line, known, -⟩ := known_of_obeys asked
    obtain ⟨files, wrote⟩ := obey_files (listed known) id command
    obtain ⟨own, going⟩ := obeyed_spec w n id command
    rw [act_obeys asked]
    refine ⟨_, files, wrote, own, going, fun id' command' same => ?_, fun idle => ?_⟩
    · cases asked.symm.trans same
      rfl
    · cases asked.symm.trans idle
  | none =>
    rcases act_go w (.handler n) with ⟨-, stays⟩ | goes
    · rw [stays]
      exact ⟨.nothing, turns_of asked .rests rfl (.inl rfl) nofun rfl rfl⟩
    · have attends := stepHandler_attends goes
      generalize act w (.go (.handler n)) = w' at attends
      cases attends with
      | rejects line known =>
        refine ⟨.replies n, turns_of asked ?_ (wrote_reply rfl n _) (.inr rfl) nofun rfl rfl⟩
        rw [desk_replyAndLeave]
        exact .replies n line (listed known)
      | obeys id command same => cases asked.symm.trans same
      | concludes x known begun work a job achieved =>
        exact conclude_turns filed asked (listed known) begun job achieved
      | carriesOn x known begun _ beside =>
        have silent := congrArg Server.written beside.server
        refine ⟨.nothing, turns_of asked ?_ silent (.inl rfl) nofun rfl rfl⟩
        rw [beside.desk]
        exact .rests

end Handlers

/-! ## Requests in a history -/

section History

variable {platform : Platform}

/-- **The command that is obeyed**, with its handler and its id. -/
def asked (e : (machine platform).Event) : Option (Nat × Value × Command) :=
  match e.action with
  | .go (.handler n) => (obeys? e.before n).map (n, ·)
  | _ => none

/-- **A display request is admitted**: its handler has read it, and does not reply at once. -/
def admits (e : (machine platform).Event) : Option (Nat × Value) :=
  match asked e with
  | some (n, id, .display _) => if (answers e).isEmpty then some (n, id) else none
  | _ => none

/-- The key that a cancellation names. -/
def names (e : (machine platform).Event) : Option String :=
  match asked e with
  | some (_, _, .cancel target) => some target.compact
  | _ => none

/-- The display requests that were admitted, by their handlers and with their ids. -/
def admitted (h : List (machine platform).Event) : List (Nat × Value) :=
  h.filterMap admits

/-- **The requests under way**: they were admitted, and their handlers have not replied. -/
def underWay (h : List (machine platform).Event) : List (Nat × Value) :=
  (admitted h).filter (·.1 ∉ (answered h).map (·.1))

/-- The ids in use, as keys. -/
def inUse (h : List (machine platform).Event) : List String :=
  (underWay h).map (·.2.compact)

/-- One event more admits at most one request, and finishes those that it answers. -/
theorem underWay_concat {h : List (machine platform).Event} {e : (machine platform).Event}
    (new : ∀ x, admits e = some x → x.1 ∉ (answered h).map (·.1)) :
    underWay (h ++ [e]) =
      (underWay h ++ (admits e).toList).filter (·.1 ∉ (answers e).map (·.1)) := by
  have once : (admits e).toList.filter (·.1 ∉ (answered h).map (·.1)) = (admits e).toList := by
    refine List.filter_eq_self.mpr fun x hx => decide_eq_true (new x ?_)
    simpa using hx
  have admitted_concat : admitted (h ++ [e]) = admitted h ++ (admits e).toList := by
    rw [admitted, List.filterMap_append, ← admitted]
    cases he : admits e <;> simp [List.filterMap, he]
  rw [underWay, underWay, admitted_concat, answered_concat, ← once, ← List.filter_append, once,
    List.filter_filter]
  refine List.filter_congr fun x _ => ?_
  simp only [List.map_append, List.mem_append, not_or, Bool.decide_and]
  exact Bool.and_comm _ _

section Event

variable {h : List (machine platform).Event} {e : (machine platform).Event}

/-- **What is done at an event**, and what the event shows of it. -/
structure Does (e : (machine platform).Event) (deed : Deed) : Prop where
  files : Files e.before.desk deed e.after.desk
  admitted : deed.admitted = admits e
  left : deed.left.toList = (answers e).map (·.1)
  cancelled : deed.cancelled = names e
  stops : deed = .stops ↔ Stops e.before e.after

/-- A handler does not decide how far serving is. -/
theorem handler_passes (w : World) (n : Nat) : Passes w (act w (.go (.handler n))) := by
  rcases (act_acts w (.go (.handler n))).passes nofun with passes | ⟨⟨⟩, -⟩ | ⟨⟨⟩, -⟩ | ⟨⟨⟩, -⟩
  exact passes

/-- A handler that has written its reply is gone. -/
theorem answers_of_wrote {n : Nat} {left : Option Nat} (ledger : Ledger h e.before.server)
    (action : e.action = .go (.handler n)) (wrote : Wrote e.before e.after left)
    (own : left = none ∨ left = some n) : left.toList = (answers e).map (·.1) := by
  rcases own with rfl | rfl
  · have told : e.outputs = [] := outputs_of_written (by rw [wrote, List.append_nil])
    simp only [answers, action, told]
    rfl
  · obtain ⟨r, written⟩ := wrote
    rw [write_open ledger.isOpen ledger.sound] at written
    simp only [answers, action, outputs_of_written written]
    rfl

/-- **What is done at an event**, and how the event shows it. -/
theorem event_does (ledger : Ledger h e.before.server) (filed : Filed e.before.desk) :
    ∃ deed, Does e deed := by
  -- at the event of a handler its deed is what it does in its turn
  by_cases handler : ∃ n, e.action = .go (.handler n)
  · obtain ⟨n, action⟩ := handler
    obtain ⟨deed, turns⟩ := handler_turns filed n
    have on : ¬ Stops e.before e.after := not_stops (action ▸ handler_passes e.before n).stage
    rw [← action] at turns
    change Turns e.before n e.after deed at turns
    have left := answers_of_wrote ledger action turns.wrote turns.own
    have silent : (answers e).isEmpty = deed.left.isNone := by
      cases gone : deed.left <;> cases told : answers e <;> simp_all
    have going : deed ≠ .stops := turns.going
    refine ⟨deed, turns.files, ?_, left, ?_, iff_of_false going on⟩
    · cases asks : obeys? e.before n with
      | none => simp [admits, asked, action, asks, (turns.otherwise asks).1]
      | some command =>
        obtain ⟨id, command⟩ := command
        have same := turns.obeys _ _ asks
        simp only [admits, asked, action, asks, Option.map_some, silent, same]
        cases command with
        | display =>
          simp only [obeyed]
          split <;> rfl
        | cancel | status | start | restart | stop => rfl
    · cases asks : obeys? e.before n with
      | none => simp [names, asked, action, asks, (turns.otherwise asks).2]
      | some command =>
        obtain ⟨id, command⟩ := command
        have same := turns.obeys _ _ asks
        simp only [names, asked, action, asks, Option.map_some, same]
        cases command with
        | display =>
          simp only [obeyed]
          split <;> rfl
        | cancel | status | start | restart | stop => rfl
  · have other (n : Nat) (same : e.action = .go (.handler n)) : False := handler ⟨n, same⟩
    have silent : answers e = [] := by
      unfold answers
      split
      · rename_i n action
        exact (other n action).elim
      · rfl
    have unasked : asked e = none := by
      unfold asked
      split
      · rename_i n action
        exact (other n action).elim
      · rfl
    -- elsewhere nobody is answered, admitted or cancelled, so the deed alone is to be found
    have shows (deed : Deed) (files : Files e.before.desk deed e.after.desk)
        (none : deed.admitted = none) (none' : deed.left = .none) (none'' : deed.cancelled = .none)
        (stops : deed = .stops ↔ Stops e.before e.after) : ∃ deed, Does e deed :=
      ⟨deed, files, by simp [none, admits, unasked], by simp [none', silent],
        by simp [none'', names, unasked], stops⟩
    have proceeds : Proceeds e.before e.after := act_proceeds other
    cases proceeds with
    | along files on =>
      exact shows .nothing files rfl rfl rfl (iff_of_false (by rintro ⟨⟩) on)
    | stops files now => exact shows .stops files rfl rfl rfl (iff_of_true rfl now)

/-- The handlers at the desk are those of the account. -/
theorem Ledger.staffed {w : World} (ledger : Ledger h w.server) : Staffed w.desk := by
  refine ⟨ledger.unique, fun x hx => ?_⟩
  have numbers := ledger.balance.map (·.1)
  rw [numbered_numbers, List.map_append, ← ledger.next] at numbers
  refine List.mem_range.mp (numbers.subset (List.mem_append_right _ ?_))
  rw [List.map_map]
  exact List.mem_map.mpr ⟨x, hx, rfl⟩

/-- A handler that is known has not been answered. -/
theorem Ledger.unanswered {s : Server} (ledger : Ledger h s) {x : Handler}
    (known : x ∈ s.handlers) : x.number ∉ (answered h).map (·.1) := by
  have numbers := ledger.balance.map (·.1)
  rw [numbered_numbers, List.map_append, List.map_map, List.map_map] at numbers
  have apart := (List.nodup_append.mp (numbers.nodup_iff.mpr List.nodup_range)).2.2
  exact fun answered => apart _ answered _ (List.mem_map.mpr ⟨x, known, rfl⟩) rfl

/-- **The desk after a history**: it is in order, and the requests under way have their handlers. -/
structure Tended (h : List (machine platform).Event) (d : Desk) : Prop where
  filed : Filed d
  clients : d.clients.Perm (underWay h)

/-- **One deed more keeps the desk tended**: what it shows is what the history tells of. -/
theorem Tended.step (ledger : Ledger h e.before.server) (tended : Tended h e.before.desk) :
    Tended (h ++ [e]) e.after.desk := by
  obtain ⟨deed, does⟩ := event_does ledger tended.filed
  have staffed := ledger.staffed
  refine ⟨does.files.filed tended.filed staffed, (does.files.clients staffed).trans ?_⟩
  -- who is admitted has been a fresh handler, so it was not answered before
  have new : ∀ x, admits e = some x → x.1 ∉ (answered h).map (·.1) := by
    intro x hx
    obtain ⟨-, -, line, known⟩ := does.files.admitted_spec (does.admitted.trans hx)
    exact ledger.unanswered known
  rw [underWay_concat new, does.admitted, does.left]
  exact (tended.clients.append_right _).filter _

/-- **In every run the desk shows the requests that are under way.** -/
theorem run_tended (as : List Action) :
    Tended ((machine platform).history as) ((machine platform).run as).desk := by
  induction as using List.reverseRecOn with
  | nil =>
    refine ⟨⟨⟨?_, ?_, nofun, nofun⟩, nofun, nofun, nofun, nofun, ?_, ?_, nofun, nofun⟩, .refl _⟩
    · exact List.nodup_nil
    · exact List.nodup_nil
    · exact fun n busy => absurd rfl busy
    · exact .refl _
  | append_singleton as a ih =>
    rw [Machine.history_concat, Machine.run_concat]
    exact Tended.step (e := ⟨(machine platform).run as, a⟩) (run_ledger platform as) ih

/-- **Every event is a deed**, and the deed tells what becomes of the register. -/
theorem run_does (as : List Action) (a : Action) :
    ∃ deed, @Does platform ⟨(machine platform).run as, a⟩ deed ∧
      ((machine platform).run (as ++ [a])).registry =
        deed.register ((machine platform).run as).registry := by
  have ledger := run_ledger platform as
  obtain ⟨deed, does⟩ :=
    event_does (e := ⟨(machine platform).run as, a⟩) ledger (run_tended as).filed
  refine ⟨deed, does, ?_⟩
  rw [Machine.run_concat]
  exact does.files.register

namespace Tended

variable {d : Desk} (tended : Tended h d)

include tended

/-- A request that is under way is shown on the desk, with its key. -/
theorem shown {x : Nat × Value} (under : x ∈ underWay h) :
    (x.1, x.2, x.2.compact) ∈ d.displays := by
  obtain ⟨y, hy, rfl⟩ := List.mem_map.mp (tended.clients.symm.subset under)
  have keyed : y.2.2 = y.2.1.compact := tended.filed.keyed y hy
  rw [← keyed]
  exact hy

/-- **The keys of the register are the ids in use.** -/
theorem keys : (d.registry.entries.map (·.1)).Perm (inUse h) := by
  have keyed : d.displays.map (·.2.2) = d.clients.map (·.2.compact) := by
    rw [Desk.clients, List.map_map]
    exact List.map_congr_left tended.filed.keyed
  rw [inUse]
  exact (keyed ▸ tended.filed.keys).trans (tended.clients.map _)

/-- A key is live if it is in use. -/
theorem isLive_iff (key : String) : d.registry.isLive key = true ↔ key ∈ inUse h := by
  rw [Registry.isLive_iff, tended.keys.mem_iff]

end Tended

end Event

/-! ## The law -/

/-- **What an event means for the ids of display requests**, with the history before it. -/
structure Registering (past : List (machine platform).Event) (e : (machine platform).Event) :
    Prop where
  /-- A request whose id is in use is refused, and that is all. -/
  taken : ∀ n id params, asked e = some (n, id, .display params) → id.compact ∈ inUse past →
    admits e = none ∧ ∃ ready, e.after = { e.before with
      ready
      server := { e.before.server with
        written := e.before.server.written ++ [.reply (.error id
          (.invalidRequest ("request id " ++ id.compact ++ " is already in flight")))]
        handlers := e.before.server.handlers.filter (·.number ≠ n) } }
  /-- A request whose id is free is admitted and handed over. It has the next token, which has not
  fired and which no other request has. -/
  free : ∀ n id params, asked e = some (n, id, .display params) → id.compact ∉ inUse past →
    admits e = some (n, id) ∧ e.outputs = [] ∧ ∃ t k,
      e.after.registry = ⟨⟨t + 1, e.before.registry.tokens.fired⟩,
        e.before.registry.entries ++ [(id.compact, t)]⟩ ∧
      (∀ u ∈ e.before.registry.tokens.fired, u < t) ∧
      (∀ x ∈ e.before.registry.entries, x.2 < t) ∧
      e.after.work? (.handler n) = some (.submission k) ∧
      (k, t) ∈ e.after.submissions.map Submission.ticket
  /-- A cancellation tells whether the id is in use, and fires the token of its request. -/
  cancelled : ∀ n id target, asked e = some (n, id, .cancel target) →
    e.outputs = [.reply (.ok id (Server.cancelValue (target.compact ∈ inUse past)))] ∧
    e.after.registry.entries = e.before.registry.entries ∧
    ∀ t, t ∈ e.after.registry.tokens.fired ↔
      t ∈ e.before.registry.tokens.fired ∨ (target.compact, t) ∈ e.before.registry.entries
  /-- When a request is answered its entry is gone, and no other. -/
  finished : ∀ n id, (n, id) ∈ underWay past → n ∈ (answers e).map (·.1) →
    e.after.registry = e.before.registry.finish id.compact
  /-- When serving comes to its end the tokens of all requests fire, and the entries stay. -/
  stopped : Stops e.before e.after →
    e.after.registry.entries = e.before.registry.entries ∧
    ∀ t, t ∈ e.after.registry.tokens.fired ↔
      t ∈ e.before.registry.tokens.fired ∨ ∃ key, (key, t) ∈ e.before.registry.entries
  /-- Nothing else has to do with the register. -/
  otherwise : admits e = none → names e = none →
    (∀ x ∈ underWay past, x.1 ∉ (answers e).map (·.1)) → ¬ Stops e.before e.after →
    e.after.registry = e.before.registry

section Law

variable {h : List (machine platform).Event} {e : (machine platform).Event}

/-- Whoever is asked obeys. -/
theorem asked_spec {n : Nat} {id : Value} {command : Command}
    (h : asked e = some (n, id, command)) :
    e.action = .go (.handler n) ∧ e.after = e.before.obey n id command := by
  unfold asked at h
  split at h
  · rename_i m action
    obtain ⟨command', asks, same⟩ := Option.map_eq_some_iff.mp h
    cases same
    refine ⟨action, ?_⟩
    show act e.before e.action = _
    rw [action, act_obeys asks]
  · cases h

/-- A handler that replies at once writes its reply, and is gone. -/
theorem replied_at_once {w : World} {n : Nat} {r : Reply} (ledger : Ledger h e.before.server)
    (now : e.after = w.replyAndLeave n r) (server : w.server = e.before.server) :
    e.outputs = [.reply r] ∧ ∃ ready, e.after = { w with
      ready
      server := { e.before.server with
        written := e.before.server.written ++ [.reply r]
        handlers := e.before.server.handlers.filter (·.number ≠ n) } } := by
  obtain ⟨ready, left⟩ := replyAndLeave_spec w n r
  rw [server, write_open ledger.isOpen ledger.sound] at left
  replace now := now.trans left
  exact ⟨outputs_of_written (congrArg (·.server.written) now), ready, now⟩

/-- A request with a free id is admitted, and there is no reply yet. -/
theorem admits_free {n : Nat} {id : Value} {params : DisplayParams}
    (asks : asked e = some (n, id, .display params))
    (free : e.before.registry.isLive id.compact = false) :
    admits e = some (n, id) ∧ e.outputs = [] := by
  obtain ⟨action, now⟩ := asked_spec asks
  have silent : e.outputs = [] := by
    refine outputs_of_written ?_
    rw [now, List.append_nil]
    simp only [World.obey, requestKey, Registry.register_free free]
    rw [World.server_beginRequest]
    rfl
  refine ⟨?_, silent⟩
  have unanswered : answers e = [] := by
    simp only [answers, action, silent]
    rfl
  simp [admits, asks, unanswered]

/-- **How the register is used in one event**: what is admitted has a free key and a fresh token, a
key in use is refused without any change, and a cancellation fires the token of its key and no other
one. -/
theorem registering (ledger : Ledger h e.before.server) (tended : Tended h e.before.desk) :
    Registering h e := by
  obtain ⟨deed, does⟩ := event_does ledger tended.filed
  have staffed := ledger.staffed
  have sound : e.before.registry.Sound := tended.filed.register
  have live (key : String) : e.before.registry.isLive key = true ↔ key ∈ inUse h :=
    tended.isLive_iff key
  have register : e.after.registry = deed.register e.before.registry := does.files.register
  constructor
  case taken =>
    intro n id params asks taken
    have now := (asked_spec asks).2
    simp only [World.obey, requestKey, Registry.register_live ((live _).mpr taken)] at now
    refine ⟨?_, (replied_at_once ledger now rfl).2⟩
    cases admitted : admits e with
    | none => rfl
    | some x =>
      obtain ⟨-, free, -⟩ := does.files.admitted_spec (does.admitted.trans admitted)
      have own : x = (n, id) := by
        simp only [admits, asks] at admitted
        split at admitted <;> cases admitted
        rfl
      rw [own] at free
      cases free.symm.trans ((live _).mpr taken)
  case free =>
    intro n id params asks unused
    have free : e.before.registry.isLive id.compact = false :=
      Bool.eq_false_iff.mpr fun taken => unused ((live _).mp taken)
    obtain ⟨admitted, silent⟩ := admits_free asks free
    obtain ⟨rfl, -⟩ := does.files.admitted_spec (does.admitted.trans admitted)
    rw [Deed.register, requestKey, Registry.register_free free] at register
    -- the request is under way, so its handler waits for it and its token has an entry
    have tended' := tended.step ledger
    have under : (n, id) ∈ e.after.desk.clients := by
      refine (does.files.clients staffed).symm.subset (List.mem_filter.mpr ⟨?_, rfl⟩)
      exact List.mem_append_right _ (.head _)
    obtain ⟨k, t, job, ticket, entry⟩ :=
      tended'.filed.own _ (tended'.shown (tended'.clients.subset under))
    have last : (id.compact, e.before.registry.tokens.issued) ∈ e.after.registry.entries := by
      rw [register]
      exact List.mem_append_right _ (.head _)
    obtain rfl : t = e.before.registry.tokens.issued :=
      (Prod.mk.inj (List.inj_on_of_nodup_map tended'.filed.register.keys entry last rfl)).2
    exact ⟨admitted, silent, _, k, register, sound.fired, sound.issued, job, ticket⟩
  case cancelled =>
    intro n id target asks
    have now := (asked_spec asks).2
    have told : deed.cancelled = some target.compact := by
      rw [does.cancelled, names, asks]
    have whether : (e.before.registry.cancel target.compact).2 =
        decide (target.compact ∈ inUse h) := by
      rw [Registry.cancel_live, Bool.eq_iff_iff, live, decide_eq_true_iff]
    refine ⟨?_, ?_⟩
    · simp only [World.obey, requestKey, whether] at now
      refine (replied_at_once ledger now ?_).1
      split
      · exact (World.wakes_wakeToken _ _).beside.server
      · rfl
    · rw [register]
      cases deed with
      | cancels m key =>
        cases told
        exact ⟨Registry.cancel_entries _ _, fun t => sound.cancel_fired⟩
      | _ => cases told
  case finished =>
    intro n id under answered
    have gone : deed.left = some n := by
      rw [← does.left] at answered
      simpa using answered
    obtain rfl := does.files.finishes staffed (tended.shown under) gone
    exact register
  case stopped =>
    intro stops
    obtain rfl := does.stops.mpr stops
    rw [register]
    exact ⟨rfl, Registry.cancelAll_fired _⟩
  case otherwise =>
    intro unadmitted unnamed unanswered on
    rw [register]
    cases deed with
    | nothing | replies => rfl
    | admits => cases does.admitted.trans unadmitted
    | cancels => cases does.cancelled.trans unnamed
    | finishes n key =>
      obtain ⟨id, shown⟩ := does.files.finishing rfl
      have listed := tended.clients.subset (List.mem_map.mpr ⟨_, shown, rfl⟩)
      refine absurd ?_ (unanswered (n, id) listed)
      rw [← does.left]
      exact .head _
    | stops => exact absurd (does.stops.mp rfl) on

/-- **The token of a request under way**, since the request was admitted: it fires when its id is
cancelled, or when serving comes to its end, and by nothing else. -/
theorem run_fired {as bs : List Action} {a : Action} {n : Nat} {id : Value}
    (admitted : @admits platform ⟨(machine platform).run as, a⟩ = some (n, id))
    (under : n ∉ (answered ((machine platform).history (as ++ a :: bs))).map (·.1)) :
    (id.compact, ((machine platform).run as).registry.tokens.issued) ∈
        ((machine platform).run (as ++ a :: bs)).registry.entries ∧
      (((machine platform).run as).registry.tokens.issued ∈
          ((machine platform).run (as ++ a :: bs)).registry.tokens.fired ↔
        ∃ e ∈ (machine platform).historyFrom (act ((machine platform).run as) a) bs,
          names e = some id.compact ∨ Stops e.before e.after) := by
  induction bs using List.reverseRecOn with
  | nil =>
    obtain ⟨deed, does, register⟩ := @run_does platform as a
    obtain ⟨rfl, free, -⟩ := does.files.admitted_spec (does.admitted.trans admitted)
    change ((machine platform).run as).registry.isLive id.compact = false at free
    rw [Deed.register, requestKey, Registry.register_free free] at register
    rw [register]
    refine ⟨List.mem_append_right _ (.head _), iff_of_false (fun fired => ?_) ?_⟩
    · exact Nat.lt_irrefl _ ((@run_tended platform as).filed.register.fired _ fired)
    · rintro ⟨e, none, -⟩
      cases none
  | append_singleton bs b ih =>
    rw [← List.cons_append, ← List.append_assoc, Machine.history_concat, answered_concat,
      List.map_append, List.mem_append, not_or] at under
    obtain ⟨entry, fired⟩ := ih under.1
    have tended := @run_tended platform (as ++ a :: bs)
    obtain ⟨deed, does, register⟩ := @run_does platform (as ++ a :: bs) b
    -- the request is under way before the last event, and afterwards
    have there : (n, id) ∈ underWay ((machine platform).history (as ++ a :: bs)) := by
      refine List.mem_filter.mpr ⟨List.mem_filterMap.mpr ⟨_, ?_, admitted⟩, decide_eq_true under.1⟩
      exact (machine platform).mem_historyFrom _ as bs a
    have stays : deed.left ≠ some n := by
      intro gone
      refine under.2 ?_
      rw [← does.left, gone]
      exact .head _
    have entry' := does.files.keeps_entry tended.filed (tended.shown there) stays entry
    have fires := deed.fires tended.filed.register entry
    rw [← List.cons_append, ← List.append_assoc, register]
    refine ⟨does.files.register ▸ entry', fires.trans ?_⟩
    have cut : (machine platform).historyFrom (act ((machine platform).run as) a) (bs ++ [b]) =
        (machine platform).historyFrom (act ((machine platform).run as) a) bs ++
          [⟨(machine platform).run (as ++ a :: bs), b⟩] := by
      have here : (machine platform).run (as ++ a :: bs) =
          (machine platform).runFrom (act ((machine platform).run as) a) bs :=
        (machine platform).runFrom_append _ as (a :: bs)
      rw [Machine.historyFrom_append, here]
      rfl
    rw [cut, does.cancelled, does.stops]
    simp only [List.mem_append, List.mem_singleton, or_and_right, exists_or, exists_eq_left]
    exact or_congr_left fired

/-- **Ids are taken while requests are under way.** For every run, whatever clients ask for and
however it comes between each other:

* The ids in the register are those of the requests under way, each of them once, and the tokens
  beside them are different. When all that were admitted are answered, the register is empty.
* A request under way has its own token: its handler waits for it, it was handed over with this
  token, and the token stands beside its id.
* The token is the next one when the request is admitted, and from then on it fires when the id is
  cancelled, or when serving comes to its end, and by nothing else.
* What every single event means for the ids is `Registering`. -/
theorem ids_are_taken_while_requests_are_under_way (platform : Platform) (as : List Action) :
    ((((machine platform).run as).registry.entries.map (·.1)).Perm
        (inUse ((machine platform).history as)) ∧
      (((machine platform).run as).registry.entries.map (·.1)).Nodup ∧
      (((machine platform).run as).registry.entries.map (·.2)).Nodup ∧
      ((∀ x ∈ admitted ((machine platform).history as),
          x.1 ∈ (answered ((machine platform).history as)).map (·.1)) →
        ((machine platform).run as).registry.entries = [])) ∧
    (∀ x ∈ underWay ((machine platform).history as), ∃ k t,
      ((machine platform).run as).work? (.handler x.1) = some (.submission k) ∧
        (k, t) ∈ ((machine platform).run as).submissions.map Submission.ticket ∧
        (x.2.compact, t) ∈ ((machine platform).run as).registry.entries) ∧
    (∀ past e later n id, (machine platform).history as = past ++ e :: later →
      admits e = some (n, id) → (n, id) ∈ underWay ((machine platform).history as) →
      (id.compact, e.before.registry.tokens.issued) ∈
          ((machine platform).run as).registry.entries ∧
        (e.before.registry.tokens.issued ∈ ((machine platform).run as).registry.tokens.fired ↔
          ∃ f ∈ later, names f = some id.compact ∨ Stops f.before f.after)) ∧
    ∀ past e later, (machine platform).history as = past ++ e :: later → Registering past e := by
  have tended := @run_tended platform as
  have sound := tended.filed.register
  refine ⟨⟨tended.keys, sound.keys, sound.tokens, fun settled => ?_⟩, ?_, ?_, ?_⟩
  · have idle : underWay ((machine platform).history as) = [] :=
      List.filter_eq_nil_iff.mpr fun x hx => by simpa using settled x hx
    have empty := tended.keys
    rw [inUse, idle] at empty
    exact List.map_eq_nil_iff.mp empty.eq_nil
  · exact fun x hx => tended.filed.own _ (tended.shown hx)
  · intro past e later n id cut admitted under
    obtain ⟨ys, a, zs, rfl, -, rfl, rfl⟩ := (machine platform).history_at cut
    exact run_fired admitted (of_decide_eq_true (List.mem_filter.mp under).2)
  · intro past e later cut
    obtain ⟨ys, a, -, -, rfl, rfl, -⟩ := (machine platform).history_at cut
    exact registering (run_ledger platform ys) (run_tended ys)

end Law

end History

/-- Three requests with one id are typed, and a cancellation of it. The first request is
admitted. -/
def reusedBefore : List Action :=
  startedRun ++
    [ typed "\x7b\"id\":7,\"method\":\"display\",\"params\":\x7b\"args\":[\"wait\"]\x7d\x7d",
      typed "\x7b\"id\":7,\"method\":\"display\",\"params\":\x7b\"args\":[]\x7d\x7d",
      typed "\x7b\"id\":8,\"method\":\"cancel\",\"params\":\x7b\"id\":7\x7d\x7d",
      typed "\x7b\"id\":7,\"method\":\"display\",\"params\":\x7b\"args\":[\"wait\"]\x7d\x7d" ] ++
    again 4 .serve ++ [ Action.go (.handler 0) ]

/-- The second request is refused, and the id is cancelled. When the first one is answered the id is
used again. -/
def reusedRun : List Action :=
  reusedBefore ++
    .go (.handler 1) :: (.go (.handler 2) :: again 2 (.handler 0) ++
      .go .dispatcher :: again 2 (.handler 0) ++ [ .go (.handler 3) ])

/-- The second request is refused, for its id is in use. The last one has a token of its own, which
stands beside the id and has not fired: the cancellation was of no concern to it. -/
theorem reusedRun_takes_ids :
    (∃ past e later id params, (machine .linux).history reusedRun = past ++ e :: later ∧
      asked e = some (1, id, .display params) ∧ id.compact ∈ inUse past ∧ admits e = none) ∧
    (inUse ((machine .linux).history reusedRun)).Perm ["7"] ∧
    ∃ x ∈ underWay ((machine .linux).history reusedRun), x.2.compact = "7" ∧
      ∃ t, (x.2.compact, t) ∈ ((machine .linux).run reusedRun).registry.entries ∧
        t ∉ ((machine .linux).run reusedRun).registry.tokens.fired := by
  obtain ⟨⟨keys, -, -, -⟩, own, -, means⟩ :=
    ids_are_taken_while_requests_are_under_way .linux reusedRun
  have registry : ((machine .linux).run reusedRun).registry = ⟨⟨2, [0]⟩, [("7", 1)]⟩ := by
    decide +kernel
  rw [registry] at keys
  refine ⟨?_, keys.symm, ?_⟩
  · have cut : (machine .linux).history reusedRun = (machine .linux).history reusedBefore ++
        ⟨(machine .linux).run reusedBefore, .go (.handler 1)⟩ :: _ :=
      (machine .linux).historyFrom_append _ reusedBefore _
    have shape : (@asked .linux ⟨(machine .linux).run reusedBefore, .go (.handler 1)⟩).map
        (fun x => (x.1, x.2.1.compact, x.2.2.ctorIdx)) =
          some (1, "7", (Command.display default).ctorIdx) := by
      decide +kernel
    have used : inUse ((machine .linux).history reusedBefore) = ["7"] := by decide +kernel
    obtain ⟨⟨n, id, command⟩, asks, same⟩ := Option.map_eq_some_iff.mp shape
    cases command with
    | display params =>
      obtain ⟨rfl, key⟩ : n = 1 ∧ id.compact = "7" := by simpa [Command.ctorIdx] using same
      have taken : id.compact ∈ inUse ((machine .linux).history reusedBefore) := by
        rw [used, key]
        exact List.mem_cons_self
      obtain ⟨refused, -⟩ := (means _ _ _ cut).taken 1 id params asks taken
      exact ⟨_, _, _, id, params, cut, asks, taken, refused⟩
    | _ => simp [Command.ctorIdx] at same
  · obtain ⟨x, under, key⟩ := List.mem_map.mp (keys.symm.mem_iff.mpr List.mem_cons_self)
    obtain ⟨k, t, -, -, entry⟩ := own x under
    refine ⟨x, under, key, t, entry, ?_⟩
    rw [registry] at entry ⊢
    have last : t = 1 := congrArg Prod.snd (List.mem_singleton.mp entry)
    rw [last]
    decide

end CompilerSession.Simulation
