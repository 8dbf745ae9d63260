import CompilerSession.Proofs.Server.Serving

/-
Every line is answered once.

A line that is read is handed to a handler of its own, and the handler writes one reply and is gone.
In between anything may happen: its request waits in a queue or for the lock, a call completes, the
session crashes or is restarted, the input is closed, everything is cancelled. `Ledger` is the
account that no action upsets. The lines that were read are those that were answered, together with
those whose handlers have still to reply, and for each of them the id is known from the beginning.
Serving comes to its end only when no handler is left, so then the account is settled.
-/

set_option autoImplicit false

namespace CompilerSession.Simulation

open Json (Value)
open Server (Handler)
open Machine (outputs)

/-! ## What was read and what was written -/

def Message.reply? : Message → Option Reply
  | .event _ => none
  | .reply r => some r

/-- The replies among what was written. -/
def replies (written : List Message) : List Reply :=
  written.filterMap Message.reply?

section History

variable {platform : Platform}

/-- The line that is read at an event, unless it is blank. -/
def heard (e : (machine platform).Event) : Option String :=
  match e.action, e.before.server.stage, e.before.server.readLine.1 with
  | .go .serve, .reading, .line text => if Text.isAllBlank text then none else some text
  | _, _, _ => none

/-- **The lines that were read**, without blank ones. -/
def lines (h : List (machine platform).Event) : List String :=
  h.filterMap heard

/-- What the handler of a line replies at an event. -/
def answers (e : (machine platform).Event) : List (Nat × Reply) :=
  match e.action with
  | .go (.handler n) => (replies e.outputs).map (n, ·)
  | _ => []

/-- **The replies of handlers**, with the numbers of their lines. -/
def answered (h : List (machine platform).Event) : List (Nat × Reply) :=
  h.flatMap answers

/-- One event more hears at most one line more. -/
theorem lines_concat (h : List (machine platform).Event) (e : (machine platform).Event) :
    lines (h ++ [e]) = lines h ++ (heard e).toList := by
  rw [lines, List.filterMap_append, ← lines]
  cases he : heard e <;> simp [List.filterMap, he]

/-- The answers of one event more come behind the others. -/
theorem answered_concat (h : List (machine platform).Event) (e : (machine platform).Event) :
    answered (h ++ [e]) = answered h ++ answers e := by
  rw [answered, List.flatMap_append, List.flatMap_singleton]
  rfl

theorem replies_append (xs ys : List Message) : replies (xs ++ ys) = replies xs ++ replies ys :=
  List.filterMap_append

/-- Only the server itself hears lines. -/
theorem heard_elsewhere {e : (machine platform).Event} (other : e.action ≠ .go .serve) :
    heard e = none := by
  unfold heard
  split
  · rename_i action _ _
    exact absurd action other
  · rfl

end History

/-! ## The account -/

/-- A line whose handler has still to reply. -/
def due (x : Handler) : Nat × Value :=
  (x.number, awaited x.handling)

/-- The number of a line and the id of its reply. -/
def mark (answer : Nat × Reply) : Nat × Value :=
  (answer.1, answer.2.id)

/-- Lines by their numbers, with their ids. -/
def numbered (lines : List String) : List (Nat × Value) :=
  lines.mapIdx fun n text => (n, lineId text)

/-- A line more has the next number. -/
theorem numbered_concat (lines : List String) (text : String) :
    numbered (lines ++ [text]) = numbered lines ++ [(lines.length, lineId text)] :=
  List.mapIdx_concat

/-- The numbers of the lines are those from zero on. -/
theorem numbered_numbers (lines : List String) :
    (numbered lines).map (·.1) = List.range lines.length := by
  induction lines using List.reverseRecOn with
  | nil => rfl
  | append_singleton lines text ih =>
    rw [numbered_concat, List.map_append, ih, List.length_append, List.length_singleton,
      List.range_succ]
    rfl

/-- The ids of the lines are those that can be read off them. -/
theorem numbered_ids (lines : List String) : (numbered lines).map (·.2) = lines.map lineId := by
  induction lines using List.reverseRecOn with
  | nil => rfl
  | append_singleton lines text ih =>
    rw [numbered_concat, List.map_append, ih, List.map_append]
    rfl

/-- **The account of a server that accepts all writes.** -/
structure Ledger {platform : Platform} (h : List (machine platform).Event) (s : Server) : Prop where
  isOpen : s.outputOpen = true
  sound : s.writerFailed = false
  written : s.written = outputs h
  own : replies (outputs h) = (answered h).map (·.2)
  next : s.nextHandler = (lines h).length
  balance : ((answered h).map mark ++ s.handlers.map due).Perm (numbered (lines h))
  settled : s.stage = .ended .ok → s.handlers = []

/-- What is written to an open output is written. -/
theorem write_open {s : Server} (isOpen : s.outputOpen = true) (sound : s.writerFailed = false)
    (m : Message) : s.write m = { s with written := s.written ++ [m] } := by
  simp [Server.write, isOpen, sound]

/-- The handler that is found under a number is the only one. -/
theorem find_handler_perm {n : Nat} {x : Handler} {xs : List Handler}
    (unique : (xs.map (·.number)).Nodup) (known : xs.find? (·.number = n) = some x) :
    xs.Perm (x :: xs.filter (·.number ≠ n)) := by
  induction xs with
  | nil => cases known
  | cons y ys ih =>
    obtain ⟨once, unique⟩ := List.nodup_cons.mp unique
    by_cases mine : y.number = n
    · rw [List.find?_cons_of_pos (by simp [mine])] at known
      obtain rfl := Option.some.inj known
      -- the others have other numbers, so all of them stay
      have others : ∀ z ∈ ys, decide (z.number ≠ n) = true := by
        intro z hz
        refine decide_eq_true fun same => once ?_
        exact List.mem_map.mpr ⟨z, hz, same.trans mine.symm⟩
      rw [List.filter_cons_of_neg (by simp [mine]), List.filter_eq_self.mpr others]
    · rw [List.find?_cons_of_neg (by simp [mine])] at known
      rw [List.filter_cons_of_pos (by simp [mine])]
      exact ((ih unique known).cons y).trans (.swap x y _)

/-- **Nothing is read and nothing replied** when a server changes like this. -/
structure Quiet (out : List Message) (s s' : Server) : Prop where
  silent : replies out = []
  written : s'.written = s.written ++ out
  handlers : s'.handlers.map due = s.handlers.map due
  next : s'.nextHandler = s.nextHandler
  isOpen : s'.outputOpen = s.outputOpen
  sound : s'.writerFailed = s.writerFailed
  settled : s'.stage = .ended .ok → s.stage = .ended .ok ∨ s.handlers = []

theorem Quiet.of_eq {s s' : Server} (same : s' = s) : Quiet [] s s' := by
  subst same
  exact ⟨rfl, (List.append_nil _).symm, rfl, rfl, rfl, rfl, .inl⟩

/-- The output, the handlers and their numbers are the same as before. -/
theorem Quiet.of_same {s s' : Server} (written : s'.written = s.written)
    (handlers : s'.handlers = s.handlers) (next : s'.nextHandler = s.nextHandler)
    (isOpen : s'.outputOpen = s.outputOpen) (sound : s'.writerFailed = s.writerFailed)
    (settled : s'.stage = .ended .ok → s.stage = .ended .ok ∨ s.handlers = []) : Quiet [] s s' :=
  ⟨rfl, by rw [written, List.append_nil], by rw [handlers], next, isOpen, sound, settled⟩

/-- What is read is no longer unread, and that is all. -/
theorem readLine_spec (s : Server) : ∃ unread, s.readLine.2 = { s with unread } := by
  unfold Server.readLine
  split
  · exact ⟨_, rfl⟩
  · split
    · split
      · exact ⟨s.unread, rfl⟩
      · exact ⟨[], rfl⟩
    · exact ⟨s.unread, rfl⟩

/-- Reading a line changes only what is unread. -/
theorem server_of_read {s server : Server} {reading : Server.Reading}
    (read : s.readLine = (reading, server)) : ∃ unread, server = { s with unread } := by
  obtain ⟨unread, same⟩ := readLine_spec s
  rw [read] at same
  exact ⟨unread, same⟩

/-- Serving has nothing to do with restarts after crashes. -/
theorem Serves.spares_restarts {w w' : World} (serves : Serves w w') :
    w'.server.budget = w.server.budget ∧ w'.server.nextRecovery = w.server.nextRecovery ∧
      w'.server.recoveries = w.server.recoveries := by
  cases serves with
  | waits _ _ beside =>
    rw [beside.server]
    exact ⟨rfl, rfl, rfl⟩
  | opens _ _ server | drains _ _ _ _ _ _ server =>
    rw [server]
    exact ⟨rfl, rfl, rfl⟩
  | blank _ server _ read | invalid server _ read =>
    obtain ⟨unread, rfl⟩ := server_of_read read
    exact ⟨rfl, rfl, rfl⟩
  | line text server _ read =>
    obtain ⟨unread, rfl⟩ := server_of_read read
    obtain ⟨ready, spawned⟩ := World.spawnHandler_spec
      { w with server := { w.server with unread } } text
    rw [spawned]
    exact ⟨rfl, rfl, rfl⟩
  | stops =>
    rw [w.beginStopping_spec.1]
    exact ⟨rfl, rfl, rfl⟩
  | ends | fails => exact ⟨rfl, rfl, rfl⟩

section Step

variable {platform : Platform} {h : List (machine platform).Event} {e : (machine platform).Event}

/-- What is written at an event is what it brings about. -/
theorem outputs_of_written {out : List Message}
    (written : e.after.server.written = e.before.server.written ++ out) : e.outputs = out := by
  show e.after.server.written.drop e.before.server.written.length = out
  rw [written, List.drop_left]

namespace Ledger

/-- No two handlers are about the same line. -/
theorem unique {s : Server} (ledger : Ledger h s) : (s.handlers.map (·.number)).Nodup := by
  have numbers := ledger.balance.map (·.1)
  rw [numbered_numbers, List.map_append, List.map_map, List.map_map] at numbers
  exact (List.nodup_append.mp (numbers.nodup_iff.mpr List.nodup_range)).2.1

/-- When serving has ended in good order, nothing is due. -/
theorem paid {s : Server} (ledger : Ledger h s) (ended : s.stage = .ended .ok) :
    replies s.written = (answered h).map (·.2) ∧
    ((answered h).map mark).Perm (numbered (lines h)) ∧
    ((replies s.written).map (·.id)).Perm ((lines h).map lineId) := by
  have settled := ledger.balance
  rw [ledger.settled ended, List.map_nil, List.append_nil] at settled
  have own : replies s.written = _ := ledger.written ▸ ledger.own
  refine ⟨own, settled, ?_⟩
  have ids := settled.map (·.2)
  rw [numbered_ids, List.map_map] at ids
  rw [own, List.map_map]
  exact ids

variable (ledger : Ledger h e.before.server)

include ledger

/-- **What hears no line and writes no reply keeps the ledger.** -/
theorem keeps (out : List Message) (unheard : heard e = none)
    (quiet : Quiet out e.before.server e.after.server) : Ledger (h ++ [e]) e.after.server := by
  have told := outputs_of_written quiet.written
  have unanswered : answers e = [] := by
    unfold answers
    split
    · rw [told, quiet.silent, List.map_nil]
    · rfl
  refine ⟨quiet.isOpen.trans ledger.isOpen, quiet.sound.trans ledger.sound, ?_, ?_, ?_, ?_, ?_⟩
  · rw [quiet.written, ledger.written, Machine.outputs_append, Machine.outputs_singleton, told]
  · rw [Machine.outputs_append, Machine.outputs_singleton, told, replies_append, quiet.silent,
      answered_concat, unanswered, List.append_nil, List.append_nil, ledger.own]
  · rw [quiet.next, ledger.next, lines_concat, unheard, Option.toList_none, List.append_nil]
  · rw [quiet.handlers, answered_concat, unanswered, lines_concat, unheard, Option.toList_none,
      List.append_nil, List.append_nil]
    exact ledger.balance
  · intro ended
    have handlers := quiet.handlers
    have none : e.before.server.handlers = [] := (quiet.settled ended).elim ledger.settled id
    rw [none, List.map_nil, List.map_eq_nil_iff] at handlers
    exact handlers

/-- A line is read, and has a handler of its own. -/
theorem hears {text : String} (heard : heard e = some text)
    (written : e.after.server.written = e.before.server.written)
    (handlers : e.after.server.handlers =
      e.before.server.handlers ++ [⟨e.before.server.nextHandler, .fresh text⟩])
    (next : e.after.server.nextHandler = e.before.server.nextHandler + 1)
    (isOpen : e.after.server.outputOpen = e.before.server.outputOpen)
    (sound : e.after.server.writerFailed = e.before.server.writerFailed)
    (unsettled : e.after.server.stage ≠ .ended .ok) : Ledger (h ++ [e]) e.after.server := by
  have silent : e.outputs = [] := outputs_of_written (by rw [written, List.append_nil])
  have unanswered : answers e = [] := by
    unfold answers
    split
    · rw [silent]
      rfl
    · rfl
  have read : lines (h ++ [e]) = lines h ++ [text] := by
    rw [lines_concat, heard, Option.toList_some]
  refine ⟨isOpen.trans ledger.isOpen, sound.trans ledger.sound, ?_, ?_, ?_, ?_, ?_⟩
  · rw [written, ledger.written, Machine.outputs_append, Machine.outputs_singleton, silent,
      List.append_nil]
  · rw [Machine.outputs_append, Machine.outputs_singleton, silent, List.append_nil,
      answered_concat, unanswered, List.append_nil, ledger.own]
  · rw [next, ledger.next, read, List.length_append, List.length_singleton]
  · rw [handlers, answered_concat, unanswered, List.append_nil, read, numbered_concat,
      List.map_append, ← List.append_assoc, ← ledger.next]
    -- the line that was read is owed a reply by its own handler
    exact ledger.balance.append_right _
  · exact fun ended => absurd ended unsettled

/-- A handler replies to the id of its line, and is gone. -/
theorem replies {n : Nat} {x : Handler} {r : Reply} (action : e.action = .go (.handler n))
    (known : e.before.server.handlers.find? (·.number = n) = some x)
    (own : r.id = awaited x.handling)
    (written : e.after.server.written = e.before.server.written ++ [.reply r])
    (handlers : e.after.server.handlers = e.before.server.handlers.filter (·.number ≠ n))
    (next : e.after.server.nextHandler = e.before.server.nextHandler)
    (isOpen : e.after.server.outputOpen = e.before.server.outputOpen)
    (sound : e.after.server.writerFailed = e.before.server.writerFailed)
    (stage : e.after.server.stage = e.before.server.stage) :
    Ledger (h ++ [e]) e.after.server := by
  have told : e.outputs = [.reply r] := outputs_of_written written
  have answer : answers e = [(n, r)] := by
    simp only [answers, action, told]
    rfl
  have unread : lines (h ++ [e]) = lines h := by
    rw [lines_concat, heard_elsewhere (by simp [action]), Option.toList_none, List.append_nil]
  have paid : mark (n, r) = due x := by
    have number : x.number = n := by simpa using List.find?_some known
    rw [mark, due, number, own]
  refine ⟨isOpen.trans ledger.isOpen, sound.trans ledger.sound, ?_, ?_, ?_, ?_, ?_⟩
  · rw [written, ledger.written, Machine.outputs_append, Machine.outputs_singleton, told]
  · rw [Machine.outputs_append, Machine.outputs_singleton, told, replies_append, ledger.own,
      answered_concat, answer, List.map_append]
    rfl
  · rw [next, ledger.next, unread]
  · -- what was due before is now paid
    have before := (find_handler_perm ledger.unique known).map due
    rw [List.map_cons] at before
    rw [handlers, answered_concat, answer, unread, List.map_append, List.map_singleton, paid,
      List.append_assoc, List.singleton_append]
    exact ((before.symm.append_left _)).trans ledger.balance
  · intro ended
    rw [handlers, ledger.settled (stage ▸ ended), List.filter_nil]

/-- **Serving keeps the account.** -/
theorem serves {w' : World} (action : e.action = .go .serve) (now : e.after = w')
    (serves : Serves e.before w') : Ledger (h ++ [e]) e.after.server := by
  -- what is heard is decided by the stage and by what there is to read
  have unheard (silent : e.before.server.stage = .reading →
      ∀ text, e.before.server.readLine.1 = .line text → Text.isAllBlank text = true) :
      heard e = none := by
    unfold heard
    split
    · rename_i text _ stage read
      rw [if_pos (silent stage text read)]
    · rfl
  have elsewhere (other : e.before.server.stage ≠ .reading) : heard e = none :=
    unheard fun stage => absurd stage other
  cases serves with
  | waits w' nothing beside =>
    refine ledger.keeps [] (unheard fun stage text read => ?_) ?_
    · rw [nothing stage] at read
      cases read
    · exact .of_eq (now ▸ beside.server)
  | opens w' stage server =>
    refine ledger.keeps [] (elsewhere (by simp [stage])) ?_
    rw [now, server]
    exact .of_same rfl rfl rfl rfl rfl nofun
  | blank text server stage read blank =>
    refine ledger.keeps [] (unheard fun _ text' read' => ?_) ?_
    · rw [read] at read'
      exact Server.Reading.line.inj read' ▸ blank
    · obtain ⟨unread, rfl⟩ := server_of_read read
      rw [now]
      exact .of_same rfl rfl rfl rfl rfl .inl
  | line text server stage read words =>
    obtain ⟨unread, rfl⟩ := server_of_read read
    obtain ⟨ready, spawned⟩ := World.spawnHandler_spec
      { e.before with server := { e.before.server with unread } } text
    replace spawned : e.after = _ := now.trans spawned
    refine Ledger.hears ledger (?_ : heard e = some text) ?_ ?_ ?_ ?_ ?_ ?_
    · simp [heard, action, stage, read, words]
    all_goals rw [spawned]
    · exact fun ended => by cases stage.symm.trans ended
  | invalid server stage read =>
    refine ledger.keeps [] (unheard fun _ text read' => ?_) ?_
    · rw [read] at read'
      cases read'
    · obtain ⟨unread, rfl⟩ := server_of_read read
      rw [now]
      exact .of_same rfl rfl rfl rfl rfl nofun
  | stops stage done =>
    refine ledger.keeps [] (unheard fun _ text read => ?_) ?_
    · rcases done with none | ⟨none, -⟩ <;> cases none.symm.trans read
    · rw [now, (World.beginStopping_spec e.before).1]
      exact .of_same rfl rfl rfl rfl rfl nofun
  | drains w' work a stage job achieved server =>
    refine ledger.keeps [] (elsewhere (by simp [stage])) ?_
    rw [now, server]
    exact .of_same rfl rfl rfl rfl rfl nofun
  | ends stage replied =>
    refine ledger.keeps [] (elsewhere (by simp [stage])) ?_
    rw [now]
    exact .of_same rfl rfl rfl rfl rfl fun _ => .inr replied
  | fails stage failed =>
    refine ledger.keeps [] (elsewhere (by simp [stage])) ?_
    rw [now]
    exact .of_same rfl rfl rfl rfl rfl nofun

/-- **What a handler does keeps the ledger.** -/
theorem handles {n : Nat} {w' : World} (action : e.action = .go (.handler n))
    (now : e.after = w') (handles : Handles e.before n w') : Ledger (h ++ [e]) e.after.server := by
  have unheard : heard e = none := heard_elsewhere (by simp [action])
  cases handles with
  | waits server =>
    exact ledger.keeps [] unheard (.of_eq (now ▸ server))
  | goesOn x known budget handling same server =>
    -- the handler that goes on is still to reply to the same id
    have due' : ∀ y ∈ e.before.server.handlers,
        due (if y.number = n then { y with handling } else y) = due y := by
      intro y hy
      split
      · rename_i mine
        have only := (find_handler_perm ledger.unique known).mem_iff.mp hy
        rcases List.mem_cons.mp only with rfl | other
        · exact congrArg (Prod.mk y.number) same
        · exact absurd mine (by simpa using (List.mem_filter.mp other).2)
      · rfl
    refine ledger.keeps [] unheard ⟨rfl, ?_, ?_, ?_, ?_, ?_, ?_⟩
    all_goals rw [now, server]
    · exact (List.append_nil _).symm
    · rw [List.map_map]
      exact List.map_congr_left due'
    · exact .inl
  | replies x known r own server =>
    rw [write_open ledger.isOpen ledger.sound] at server
    refine ledger.replies action known own ?_ ?_ ?_ ?_ ?_ ?_
    all_goals rw [now, server]

/-- **Every action keeps the account.** -/
theorem step : Ledger (h ++ [e]) e.after.server := by
  have acts := act_acts e.before e.action
  have now : e.after = act e.before e.action := rfl
  generalize action : e.action = a at acts now
  generalize act e.before a = w' at acts now
  -- but for serving and for handlers nothing is read and nothing replied
  have quietly (out : List Message) (other : a ≠ .go .serve)
      (quiet : Quiet out e.before.server w'.server) : Ledger (h ++ [e]) e.after.server :=
    ledger.keeps out (heard_elsewhere (action ▸ other)) (now ▸ quiet)
  cases acts with
  | handler n _ handles => exact ledger.handles action now handles
  | serve _ serves => exact ledger.serves action now serves
  | aside _ _ other server => exact quietly [] other (.of_eq server)
  | outside m _ beside => exact quietly [] nofun (.of_eq beside.server)
  | begins => exact quietly [] nofun (.of_same rfl rfl rfl rfl rfl nofun)
  | heeds =>
    refine quietly [] nofun ?_
    rw [(World.beginStopping_spec e.before).1]
    exact .of_same rfl rfl rfl rfl rfl nofun
  | tells _ x cursor budget recoveries nextRecovery server =>
    rw [write_open ledger.isOpen ledger.sound] at server
    refine quietly [.event x] nofun ?_
    rw [server]
    exact ⟨rfl, rfl, rfl, rfl, rfl, rfl, .inl⟩
  | recovers n _ recoveries server =>
    refine quietly [] nofun ?_
    rw [server]
    exact .of_same rfl rfl rfl rfl rfl .inl
  | input _ other => exact quietly [] other (.of_same rfl rfl rfl rfl rfl .inl)

end Ledger

end Step

/-- **The account is kept in every run.** -/
theorem run_ledger (platform : Platform) (as : List Action) :
    Ledger ((machine platform).history as) ((machine platform).run as).server := by
  induction as using List.reverseRecOn with
  | nil => exact ⟨rfl, rfl, rfl, rfl, rfl, .refl _, nofun⟩
  | append_singleton as a ih =>
    rw [Machine.history_concat, Machine.run_concat]
    exact Ledger.step (e := ⟨(machine platform).run as, a⟩) ih

/-! ## The main statement -/

/-- **When serving has ended, every line has its reply.** For every run, whatever else happens in
it, in which serving ends because the input ended or because somebody asked for the end:

* What was written is what the events brought about, and all replies among it come from handlers,
  in the order in which they were written.
* The replies of handlers are one for each line that was read and is not blank, by the number of
  the line and with its own id, and there are no others.
* So the ids of all replies are those of the lines, as often as they are there. -/
theorem lines_are_answered_once (platform : Platform) (as : List Action)
    (ended : ((machine platform).run as).server.stage = .ended .ok) :
    ((machine platform).run as).server.written = outputs ((machine platform).history as) ∧
    replies ((machine platform).run as).server.written =
      (answered ((machine platform).history as)).map (·.2) ∧
    ((answered ((machine platform).history as)).map mark).Perm
      (numbered (lines ((machine platform).history as))) ∧
    ((replies ((machine platform).run as).server.written).map (·.id)).Perm
      ((lines ((machine platform).history as)).map lineId) := by
  have ledger := run_ledger platform as
  exact ⟨ledger.written, ledger.paid ended⟩

/-- The input is closed while a request is in flight, another one with the same id was refused, a
stop is at work and a restart waits for the lock; one line is blank and one cannot be read. -/
def closedRun : List Action :=
  startedRun ++
    [ typed "\x7b\"id\":7,\"method\":\"display\",\"params\":\x7b\"args\":[\"wait\"]\x7d\x7d",
      typed "\x7b\"id\":7,\"method\":\"display\",\"params\":\x7b\"args\":[]\x7d\x7d",
      typed "  ", typed "?", typed "\x7b\"id\":\"s\",\"method\":\"stop\"\x7d",
      typed "\x7b\"method\":\"restart\"\x7d" ] ++
    again 6 .serve ++
    [ Action.go (.handler 0), .go .dispatcher, .go (.call 1), .go (.handler 3), .go (.handler 4),
      .closeInput, .go .serve, .go (.handler 1), .go (.handler 2), .go (.handler 3),
      .go .dispatcher, .go (.handler 0) ] ++
    again 5 (.handler 3) ++ again 5 (.handler 4) ++ .go .dispatcher :: again 3 (.handler 4) ++
    again 2 .serve ++ .go .dispatcher :: again 6 .serve

/-- In this run five lines ask for something or cannot be read, and all of them are answered by
their ids. -/
theorem closedRun_answered :
    ((machine .linux).run closedRun).server.stage = .ended .ok ∧
      (lines ((machine .linux).history closedRun)).map (fun line => (lineId line).compact) =
        ["7", "7", "null", "\"s\"", "null"] ∧
      ((answered ((machine .linux).history closedRun)).map mark).Perm
        (numbered (lines ((machine .linux).history closedRun))) ∧
      ((replies ((machine .linux).run closedRun).server.written).map (·.id)).Perm
        ((lines ((machine .linux).history closedRun)).map lineId) := by
  have ended : ((machine .linux).run closedRun).server.stage = .ended .ok := by decide +kernel
  obtain ⟨-, -, once, ids⟩ := lines_are_answered_once .linux closedRun ended
  exact ⟨ended, by decide +kernel, once, ids⟩

end CompilerSession.Simulation
