import Mathlib.Data.List.DropRight
import CompilerSession.Proofs.Json.Maps
import CompilerSession.Proofs.Server.Commands
import CompilerSession.Proofs.Server.Watching

/-
Restarts after crashes are rationed.

A session that crashes over and over must not be restarted for ever, and a client that asks for a
start or a restart itself gets a full budget again. The budget is taken from in one place and filled
in another, and clients, crashes and restarts come in any order. So the restarts are counted here
from the history alone (`automatic`): those that were set up since a client last asked for one
itself. `Rationed` says that this number is what the server keeps, and nothing that is done upsets
it. What the server tells of it in a status reply is then right at any time.
-/

set_option autoImplicit false

namespace CompilerSession

/-! ## Budgets, commands and replies -/

/-- A restart is granted while fewer than the limit have been. -/
theorem Budget.take?_eq (b : Budget) :
    b.take? = if b.used < Budget.limit then some ⟨b.used + 1⟩ else none :=
  rfl

/-- A client asks for a session itself. -/
def Command.launches : Command → Bool
  | .start | .restart _ => true
  | .display _ | .cancel _ | .stop | .status => false

namespace Json

/-- The member of an object. -/
def Value.field? (name : String) : Value → Option Value
  | .object members => lookup? name members
  | _ => none

end Json

open Json (Value)

/-- A status reply tells how many restarts there were. -/
theorem Server.statusValue_restarts (status : Status) (session : Option Info) (pending : Nat)
    (budget : Budget) :
    (Server.statusValue status session pending budget).field? "crash_restarts" =
      some (.nat budget.used) := by
  simp only [Server.statusValue, Value.sorted, Value.sortedMembers, Value.ofMembers, Value.field?,
    Json.putAll, List.foldl_cons, List.foldl_nil, Json.lookup?_put]
  simp [Value.nat, Value.sorted]

namespace Simulation

/-! ## Who has to do with the budget -/

/-- **What the server keeps of restarts after crashes**: the budget, how many there were, and which
of them have still to begin. -/
def rations (s : Server) : Budget × Nat × List Nat :=
  (s.budget, s.nextRecovery, s.recoveries)

/-- **The budget is filled**: a handler obeys a client who asks for a session. -/
def refillsIn (w : World) : Action → Bool
  | .go (.handler n) => (obeys? w n).any (·.2.launches)
  | _ => false

section Rules

variable {w w' : World}

theorem rations_write (s : Server) (m : Message) : rations (s.write m) = rations s := by
  obtain ⟨written, failed, wrote⟩ := write_spec s m
  rw [wrote]
  rfl

theorem rations_reply (w : World) (n : Nat) (r : Reply) :
    rations (w.replyAndLeave n r).server = rations w.server := by
  obtain ⟨ready, same⟩ := replyAndLeave_spec w n r
  rw [same]
  exact rations_write w.server (.reply r)

theorem rations_beginErrand (w : World) (t : Task) (errand : Supervisor.Errand) :
    rations (w.beginErrand t errand).server = rations w.server :=
  congrArg rations (World.beside_move (w := w) (m := .begin errand) (by trivial)).server

/-- **Only who asks for a session fills the budget.** -/
theorem obey_rations (w : World) (n : Nat) (id : Value) (command : Command) :
    rations (w.obey n id command).server =
      (if command.launches then .full else w.server.budget, w.server.nextRecovery,
        w.server.recoveries) := by
  cases command with
  | display params =>
    simp only [World.obey]
    split
    · exact rations_reply w n _
    · rw [World.server_beginRequest]
      rfl
  | cancel target =>
    simp only [World.obey]
    split
    · rename_i t _
      obtain ⟨ready, woken⟩ :=
        World.wakes_wakeToken { w with registry := (w.registry.cancel (requestKey target)).1 } t
      rw [rations_reply, woken]
      rfl
    · exact rations_reply w n _
  | start | restart | stop =>
    simp only [World.obey]
    exact rations_beginErrand _ (.handler n) _
  | status => exact rations_reply w n _

theorem rations_concludeHandler (w : World) (n : Nat) (handling : Server.Handling)
    (a : Achievement) : rations (w.concludeHandler n handling a).server = rations w.server := by
  unfold World.concludeHandler
  split
  · exact rations_reply w n _
  · exact rations_reply w n _
  · exact rations_reply { w with registry := _ } n _
  · rfl

/-- **A handler refills the budget**, or leaves the rations alone. -/
theorem handler_rations (w : World) (n : Nat) :
    rations (act w (.go (.handler n))).server =
      (if refillsIn w (.go (.handler n)) then .full else w.server.budget, w.server.nextRecovery,
        w.server.recoveries) := by
  cases asked : obeys? w n with
  | some command =>
    rw [act_obeys asked, obey_rations]
    simp [refillsIn, asked]
  | none =>
    have same : rations (act w (.go (.handler n))).server = rations w.server := by
      rcases act_go w (.handler n) with ⟨-, stays⟩ | goes
      · rw [stays]
      · have attends := stepHandler_attends goes
        generalize act w (.go (.handler n)) = w' at attends
        cases attends with
        | rejects => exact rations_reply w n _
        | obeys _ _ asked' => cases asked.symm.trans asked'
        | concludes x known begun work a job achieved =>
          rw [rations_concludeHandler, World.server_relieved achieved]
        | carriesOn x known begun _ beside => rw [beside.server]
    rw [same]
    simp [refillsIn, asked, rations]

/-- What the budget does with an event that is passed on. -/
theorem passOn_rations (s : Server) (place : Nat) (e : Event) :
    rations (passOn place e s) =
      if isCrash e = true ∧ s.budget.used < Budget.limit then
        (⟨s.budget.used + 1⟩, s.nextRecovery + 1, s.recoveries ++ [s.nextRecovery])
      else rations s := by
  obtain ⟨written, failed, wrote⟩ := write_spec s (.event e)
  unfold passOn
  cases isCrash e with
  | false => exact rations_write s (.event e)
  | true =>
    by_cases left : s.budget.used < Budget.limit <;>
      simp only [if_true, if_false, provide, Budget.take?_eq, wrote, left, rations, and_self,
        and_false]

/-- What the server does itself leaves the rations alone. -/
theorem Serves.rations (serves : Serves w w') : rations w'.server = rations w.server := by
  obtain ⟨budget, next, recoveries⟩ := serves.spares_restarts
  rw [Simulation.rations, budget, next, recoveries]
  rfl

/-- **A restart that was set up begins**, and waits no more. -/
structure Begins (w w' : World) (n : Nat) : Prop where
  waits : n ∈ w.server.recoveries
  supervisor : w'.supervisor = (w.supervisor.step (.begin .restart)).1
  server : w'.server = { w.server with recoveries := w.server.recoveries.filter (· ≠ n) }

/-- A restart that was set up begins as soon as it can go on. -/
theorem act_recovery {n : Nat} (waits : n ∈ w.server.recoveries) :
    Begins w (act w (.go (.recovery n))) n := by
  rcases act_go w (.recovery n) with ⟨stuck, -⟩ | goes
  · change w.stepRecovery? n = none at stuck
    simp only [World.stepRecovery?, List.contains_iff_mem.mpr waits, if_true] at stuck
    cases stuck
  · rcases stepRecovery_begins goes with ⟨-, supervisor, server⟩ | ⟨absent, -⟩
    · exact ⟨waits, supervisor, server⟩
    · exact absurd waits absent

/-- **A restart begins** that was set up. -/
def beginsIn (w : World) : Action → Bool
  | .go (.recovery n) => w.server.recoveries.contains n
  | _ => false

/-- **Who has to do with restarts after crashes.** -/
theorem act_rations (w : World) (a : Action) :
    (a = .go .watch ∧ ∃ place e, Watches w (act w a) place e) ∨
      (∃ n, a = .go (.recovery n) ∧ Begins w (act w a) n) ∨
      (∃ n, a = .go (.handler n) ∧ refillsIn w a = true ∧
        rations (act w a).server = (.full, w.server.nextRecovery, w.server.recoveries)) ∨
      (refillsIn w a = false ∧ beginsIn w a = false ∧
        rations (act w a).server = rations w.server) := by
  -- the watch, the recoveries and the handlers are taken apart, and nobody else has to do with it
  by_cases watch : a = .go .watch
  · subst watch
    rcases act_go w .watch with ⟨-, stays⟩ | goes
    · exact .inr (.inr (.inr ⟨rfl, rfl, by rw [stays]⟩))
    · exact .inl ⟨rfl, stepWatch_watches goes⟩
  refine .inr ?_
  by_cases recovery : ∃ n, a = .go (.recovery n)
  · obtain ⟨n, rfl⟩ := recovery
    by_cases waits : n ∈ w.server.recoveries
    · exact .inl ⟨n, rfl, act_recovery waits⟩
    · refine .inr (.inr ⟨rfl, by simpa [beginsIn] using waits, ?_⟩)
      rcases act_go w (.recovery n) with ⟨-, stays⟩ | goes
      · rw [stays]
      rcases stepRecovery_begins goes with ⟨begun, -⟩ | ⟨-, server⟩
      · exact absurd begun waits
      · rw [server]
  refine .inr ?_
  by_cases handler : ∃ n, a = .go (.handler n)
  · obtain ⟨n, rfl⟩ := handler
    have handled := handler_rations w n
    cases refills : refillsIn w (.go (.handler n)) with
    | true =>
      rw [refills] at handled
      exact .inl ⟨n, rfl, rfl, handled⟩
    | false =>
      rw [refills] at handled
      exact .inr ⟨rfl, rfl, handled⟩
  have unfilled : refillsIn w a = false := by
    unfold refillsIn
    split
    · rename_i n
      exact absurd ⟨n, rfl⟩ handler
    · rfl
  have idle : beginsIn w a = false := by
    unfold beginsIn
    split
    · rename_i n
      exact absurd ⟨n, rfl⟩ recovery
    · rfl
  refine .inr ⟨unfilled, idle, ?_⟩
  -- whatever is left changes neither the budget nor the recoveries
  have acts := act_acts w a
  generalize act w a = w' at acts
  cases acts with
  | tells => exact absurd rfl watch
  | recovers n => exact absurd ⟨n, rfl⟩ recovery
  | handler n => exact absurd ⟨n, rfl⟩ handler
  | aside _ _ _ server => rw [server]
  | outside _ _ beside => rw [beside.server]
  | begins => rfl
  | serve _ serves => exact serves.rations
  | heeds =>
    rw [w.beginStopping_spec.1]
    rfl
  | input => rfl

end Rules

/-! ## Restarts in a history -/

section History

variable {platform : Platform}

/-- **A client asks for a session itself**, by a start or by a restart, and is obeyed. -/
def refills (e : (machine platform).Event) : Bool :=
  refillsIn e.before e.action

/-- **A restart is set up.** -/
def setsUp (e : (machine platform).Event) : Bool :=
  e.before.server.nextRecovery < e.after.server.nextRecovery

/-- A restart that was set up begins. -/
def beginsRestart (e : (machine platform).Event) : Bool :=
  beginsIn e.before e.action

/-- **The restarts that were set up** since a client last asked for a session itself, or since the
beginning. -/
def automatic (h : List (machine platform).Event) : Nat :=
  (h.rtakeWhile fun e => !refills e).countP setsUp

/-- **The watch hands an event on**: it has its turn, and this is the next event that is kept, at
this place. What its turn does is not said here (`HandsOn.watches`). -/
structure HandsOn (e : (machine platform).Event) (place : Nat) (x : Event) : Prop where
  action : e.action = .go .watch
  watching : e.before.server.watching = true
  next : place = max e.before.server.cursor
    (e.before.supervisor.events.length - World.eventCapacity)
  event : e.before.supervisor.events[place]? = some x

/-- One event more sets up one restart, refills the budget, or neither. -/
theorem automatic_concat (h : List (machine platform).Event) (e : (machine platform).Event) :
    automatic (h ++ [e]) = if refills e then 0 else automatic h + (if setsUp e then 1 else 0) := by
  rw [automatic, List.rtakeWhile_concat]
  cases refills e with
  | true => rfl
  | false =>
    simp only [Bool.not_false, if_true, Bool.false_eq_true, if_false, List.countP_append,
      List.countP_singleton]
    rfl

/-! What each kind of event does to the numbers. -/

section Event

variable {e : (machine platform).Event}

/-- **A watch that has an event to hand on does so**, and goes one further. -/
theorem HandsOn.watches {place : Nat} {x : Event} (hands : HandsOn e place x) :
    Watches e.before e.after place x := by
  have after : e.after = act e.before (.go .watch) := by
    rw [← hands.action]
    rfl
  have inside : place < e.before.supervisor.events.length :=
    (List.getElem?_eq_some_iff.mp hands.event).1
  have next := hands.next
  rcases act_go e.before .watch with ⟨stuck, -⟩ | goes
  · -- it would wait only for want of an event
    have passed := (stepWatch_waits e.before).mp stuck hands.watching
    omega
  · obtain ⟨place', x', watches⟩ := stepWatch_watches goes
    have there : place' = place := watches.next.trans next.symm
    subst there
    obtain rfl := Option.some.inj (watches.event.symm.trans hands.event)
    rw [after]
    exact watches

/-- What the watch does in its turn, it does with an event that it has to hand on. -/
theorem handsOn_of_watches {place : Nat} {x : Event} (action : e.action = .go .watch)
    (watches : Watches e.before e.after place x) : HandsOn e place x :=
  ⟨action, watches.watching, watches.next, watches.event⟩

/-- Where no recovery is new none is set up. -/
theorem setsUp_of_rations {budget : Budget} {recoveries : List Nat}
    (same : rations e.after.server = (budget, e.before.server.nextRecovery, recoveries)) :
    setsUp e = false := by
  have next : e.after.server.nextRecovery = e.before.server.nextRecovery :=
    congrArg (fun r => r.2.1) same
  simp [setsUp, next]

/-- A recovery that begins is not new. -/
theorem setsUp_of_begins {n : Nat} (begins : Begins e.before e.after n) : setsUp e = false := by
  simp [setsUp, begins.server]

/-- **A restart is set up for a crash** that is handed on, if there is one in the budget. -/
theorem HandsOn.rations {place : Nat} {x : Event} (hands : HandsOn e place x) :
    Simulation.rations e.after.server =
      if isCrash x = true ∧ e.before.server.budget.used < Budget.limit then
        (⟨e.before.server.budget.used + 1⟩, e.before.server.nextRecovery + 1,
          e.before.server.recoveries ++ [e.before.server.nextRecovery])
      else Simulation.rations e.before.server := by
  rw [hands.watches.server]
  exact passOn_rations e.before.server place x

/-- **A turn of the watch sets up a restart** if it hands on a crash and the budget is not used up.
-/
theorem HandsOn.setsUp {place : Nat} {x : Event} (hands : HandsOn e place x) :
    Simulation.setsUp e = true ↔ isCrash x = true ∧ e.before.server.budget.used < Budget.limit := by
  have rations := hands.rations
  by_cases taken : isCrash x = true ∧ e.before.server.budget.used < Budget.limit
  · rw [if_pos taken] at rations
    have next : e.after.server.nextRecovery = e.before.server.nextRecovery + 1 :=
      congrArg (fun r => r.2.1) rations
    simp [Simulation.setsUp, next, taken]
  · rw [if_neg taken] at rations
    simp only [setsUp_of_rations (rations.trans rfl), taken, Bool.false_eq_true]

/-- A turn of the watch refills no budget and begins no restart. -/
theorem HandsOn.other {place : Nat} {x : Event} (hands : HandsOn e place x) :
    refills e = false ∧ beginsRestart e = false := by
  simp [refills, refillsIn, beginsRestart, beginsIn, hands.action]

end Event

/-- **The numbers are right**: the budget tells how many restarts there were since a client asked
for a session, and every restart that was set up has begun, or it waits. -/
structure Rationed (h : List (machine platform).Event) (s : Server) : Prop where
  count : automatic h = s.budget.used
  bound : s.budget.used ≤ Budget.limit
  total : h.countP setsUp = s.nextRecovery
  begun : h.countP beginsRestart + s.recoveries.length = s.nextRecovery
  known : ∀ n ∈ s.recoveries, n < s.nextRecovery
  distinct : s.recoveries.Nodup

section Rationed

variable {h : List (machine platform).Event} {e : (machine platform).Event}

/-- Where no restart is set up and none begins, the numbers are right if that of the budget is. -/
theorem Rationed.steady (rationed : Rationed h e.before.server) {budget : Budget}
    (bound : budget.used ≤ Budget.limit) (counted : automatic (h ++ [e]) = budget.used)
    (idle : beginsRestart e = false)
    (now : rations e.after.server =
      (budget, e.before.server.nextRecovery, e.before.server.recoveries)) :
    Rationed (h ++ [e]) e.after.server := by
  have none := setsUp_of_rations now
  obtain ⟨budget', next, recoveries⟩ : e.after.server.budget = budget ∧
      e.after.server.nextRecovery = e.before.server.nextRecovery ∧
      e.after.server.recoveries = e.before.server.recoveries := by
    simpa only [rations, Prod.mk.injEq] using now
  refine ⟨?_, ?_, ?_, ?_, ?_, ?_⟩
  · rw [budget', counted]
  · rwa [budget']
  · simp [rationed.total, next, none]
  · simp [next, recoveries, idle, rationed.begun]
  · rw [next, recoveries]
    exact rationed.known
  · rw [recoveries]
    exact rationed.distinct

/-- A restart that is set up is one more that was, and waits. -/
theorem Rationed.setUp (rationed : Rationed h e.before.server)
    (left : e.before.server.budget.used < Budget.limit) (up : setsUp e = true)
    (unfilled : refills e = false) (idle : beginsRestart e = false)
    (now : rations e.after.server = (⟨e.before.server.budget.used + 1⟩,
      e.before.server.nextRecovery + 1,
      e.before.server.recoveries ++ [e.before.server.nextRecovery])) :
    Rationed (h ++ [e]) e.after.server := by
  obtain ⟨count, -, total, begun, known, distinct⟩ := rationed
  obtain ⟨budget, next, recoveries⟩ : e.after.server.budget =
        ⟨e.before.server.budget.used + 1⟩ ∧
      e.after.server.nextRecovery = e.before.server.nextRecovery + 1 ∧
      e.after.server.recoveries =
        e.before.server.recoveries ++ [e.before.server.nextRecovery] := by
    simpa only [rations, Prod.mk.injEq] using now
  refine ⟨?_, ?_, ?_, ?_, ?_, ?_⟩
  · simp [automatic_concat, unfilled, up, budget, count]
  · rw [budget]
    exact left
  · simp [total, next, up]
  · simp [next, recoveries, idle, ← begun, Nat.add_assoc]
  · rw [next, recoveries]
    intro n hn
    rcases List.mem_append.mp hn with earlier | new
    · exact Nat.lt_succ_of_lt (known n earlier)
    · rw [List.mem_singleton.mp new]
      exact Nat.lt_succ_self _
  · rw [recoveries, List.nodup_append]
    refine ⟨distinct, List.nodup_singleton _, fun n hn m hm => ?_⟩
    rw [List.mem_singleton.mp hm]
    exact (known n hn).ne

/-- A restart that begins is one more that has, and waits no more. -/
theorem Rationed.begin (rationed : Rationed h e.before.server) {n : Nat}
    (waits : n ∈ e.before.server.recoveries)
    (server : e.after.server = { e.before.server with
      recoveries := e.before.server.recoveries.filter (· ≠ n) })
    (none : setsUp e = false) (unfilled : refills e = false) (began : beginsRestart e = true) :
    Rationed (h ++ [e]) e.after.server := by
  obtain ⟨count, bound, total, begun, known, distinct⟩ := rationed
  -- one of those that waited waits no more
  have fewer : (e.before.server.recoveries.filter (· ≠ n)).length + 1 =
      e.before.server.recoveries.length := by
    have erased : e.before.server.recoveries.erase n =
        e.before.server.recoveries.filter (· ≠ n) := by
      rw [distinct.erase_eq_filter]
      exact List.filter_congr fun m _ => by by_cases same : m = n <;> simp [same]
    rw [← erased]
    exact List.length_erase_add_one waits
  refine ⟨?_, ?_, ?_, ?_, ?_, ?_⟩
  all_goals rw [server]
  · simp [automatic_concat, unfilled, none, count]
  · exact bound
  · simp [total, none]
  · simp only [List.countP_append, List.countP_singleton, began, if_true]
    rw [← begun]
    omega
  · exact fun m hm => known m (List.mem_of_mem_filter hm)
  · exact distinct.filter _

/-- **Nothing that is done upsets the numbers.** -/
theorem Rationed.step (rationed : Rationed h e.before.server) :
    Rationed (h ++ [e]) e.after.server := by
  rcases act_rations e.before e.action with
    ⟨action, place, x, watches⟩ | ⟨n, action, begins⟩ | ⟨n, action, filled, now⟩ |
      ⟨unfilled, idle, now⟩
  · have hands : HandsOn e place x := handsOn_of_watches action watches
    obtain ⟨unfilled, idle⟩ := hands.other
    have up := hands.setsUp
    have now := hands.rations
    by_cases taken : isCrash x = true ∧ e.before.server.budget.used < Budget.limit
    · rw [if_pos taken] at now
      exact rationed.setUp taken.2 (up.mpr taken) unfilled idle now
    · rw [if_neg taken] at now
      have none : setsUp e = false := Bool.eq_false_iff.mpr fun h => taken (up.mp h)
      refine rationed.steady rationed.bound ?_ idle now
      rw [automatic_concat, unfilled, none, rationed.count]
      rfl
  · have unfilled : refills e = false := by simp [refills, refillsIn, action]
    have began : beginsRestart e = true := by
      simpa [beginsRestart, beginsIn, action] using begins.waits
    exact rationed.begin begins.waits begins.server (setsUp_of_begins begins) unfilled began
  · refine rationed.steady (Nat.zero_le _) ?_ ?_ now
    · rw [automatic_concat, refills, filled]
      rfl
    · simp [beginsRestart, beginsIn, action]
  · refine rationed.steady rationed.bound ?_ idle now
    rw [automatic_concat, refills, unfilled, setsUp_of_rations now, rationed.count]
    rfl

end Rationed

/-- **In every run the rations are what the history tells of.** -/
theorem run_rationed (as : List Action) :
    Rationed ((machine platform).history as) ((machine platform).run as).server := by
  induction as using List.reverseRecOn with
  | nil => exact ⟨rfl, Nat.zero_le _, rfl, rfl, nofun, List.nodup_nil⟩
  | append_singleton as a ih =>
    rw [Machine.history_concat, Machine.run_concat]
    exact Rationed.step (e := ⟨(machine platform).run as, a⟩) ih

/-! No event is handed on twice. -/

/-- The watch does not go back, but for a beginning, when it goes to the end. -/
theorem act_cursor (w : World) (a : Action) :
    w.server.cursor ≤ (act w a).server.cursor ∨
      (act w a).server.cursor = w.supervisor.events.length := by
  rcases act_watch w a with ⟨-, place, e, watches⟩ | ⟨-, -, begun⟩ | ⟨-, off⟩ | unwatched
  · obtain ⟨budget, next, recoveries, server⟩ := passOn_spec w.server place e
    refine .inl ?_
    rw [watches.server, server]
    have := watches.next
    show w.server.cursor ≤ place + 1
    omega
  · exact .inr (by rw [begun, (World.beginServing_spec w).1])
  · exact .inl (by rw [off.server])
  · exact .inl (by rw [unwatched.cursor])

/-- What was handed on stands before the place that the watch has come to. -/
theorem run_handed_on (as : List Action) : ∀ e ∈ (machine platform).history as, ∀ place x,
    HandsOn e place x → place < ((machine platform).run as).server.cursor ∧
      place < ((machine platform).run as).supervisor.events.length := by
  induction as using List.reverseRecOn with
  | nil => exact fun e he => absurd he List.not_mem_nil
  | append_singleton as a ih =>
    rw [Machine.history_concat, Machine.run_concat]
    intro e he place x hands
    show place < (act _ a).server.cursor ∧ place < (act _ a).supervisor.events.length
    have longer := (events_act ((machine platform).run as) a).length_le
    rcases List.mem_append.mp he with earlier | last
    · obtain ⟨seen, there⟩ := ih e earlier place x hands
      rcases act_cursor ((machine platform).run as) a with further | restarted <;> omega
    · obtain rfl := List.mem_singleton.mp last
      obtain ⟨budget, next, recoveries, server⟩ :=
        passOn_spec ((machine platform).run as).server place x
      have there := (List.getElem?_eq_some_iff.mp hands.event).1
      have now : (act ((machine platform).run as) a).server = _ := hands.watches.server
      rw [now, server]
      exact ⟨Nat.lt_succ_self place, Nat.lt_of_lt_of_le there longer⟩

end History

/-! ## The law -/

section Law

variable {platform : Platform}

/-- **What an event means for restarts after crashes**, with the history before it. -/
structure Rationing (past : List (machine platform).Event) (e : (machine platform).Event) :
    Prop where
  /-- A status reply tells how many there were. -/
  status : ∀ n id, e.action = .go (.handler n) → obeys? e.before n = some (id, .status) →
    ∃ v, e.outputs = [.reply (.ok id v)] ∧
      v.field? "crash_restarts" = some (.nat (automatic past))
  /-- A crash that is handed on has one in its wake if there were fewer than the limit, and none
  otherwise. -/
  crash : ∀ place x, HandsOn e place x → isCrash x = true →
    e.after.server.nextRecovery =
        e.before.server.nextRecovery + (if automatic past < Budget.limit then 1 else 0) ∧
      automatic (past ++ [e]) =
        automatic past + (if automatic past < Budget.limit then 1 else 0)
  /-- Nothing else sets one up, and but for a client who asks for a session nothing else changes
  their number. -/
  quiet : (∀ place x, HandsOn e place x → isCrash x = false) →
    setsUp e = false ∧ (refills e = false → automatic (past ++ [e]) = automatic past)
  /-- No event is handed on twice. -/
  once : ∀ f ∈ past, ∀ i j y x, HandsOn f i y → HandsOn e j x → i < j
  /-- One that was set up begins as soon as it can go on, and that once. -/
  begins : ∀ n, e.action = .go (.recovery n) → n ∈ e.before.server.recoveries →
    Begins e.before e.after n ∧ n ∉ e.after.server.recoveries

/-- **How restarts are rationed in one event**: whether it sets one up, begins one or refills the
budget can be told from what was set up before it. -/
theorem rationing (ys : List Action) (a : Action) :
    Rationing ((machine platform).history ys) ⟨(machine platform).run ys, a⟩ := by
  have rationed := @run_rationed platform ys
  constructor
  -- what a status reply tells is the budget that was used, and this is the count
  · rintro n id ⟨⟩ asked
    have ledger := run_ledger platform ys
    obtain ⟨ready, replied⟩ := replyAndLeave_spec ((machine platform).run ys) n (.ok id
      (Server.statusValue ((machine platform).run ys).supervisor.status
        ((machine platform).run ys).supervisor.current ((machine platform).run ys).registry.size
        ((machine platform).run ys).server.budget))
    have now : act ((machine platform).run ys) (.go (.handler n)) = _ :=
      (act_obeys asked).trans replied
    rw [write_open ledger.isOpen ledger.sound] at now
    refine ⟨_, outputs_of_written (congrArg (·.server.written) now), ?_⟩
    rw [rationed.count]
    exact Server.statusValue_restarts _ _ _ _
  · intro place x hands crashed
    have now := congrArg (·.2.1) hands.rations
    rw [automatic_concat, hands.other.1, rationed.count]
    by_cases left : ((machine platform).run ys).server.budget.used < Budget.limit
    · simp only [crashed, left, and_self, if_true] at now
      exact ⟨by rw [if_pos left]; exact now, by simp [hands.setsUp.mpr ⟨crashed, left⟩, left]⟩
    · have none : @setsUp platform ⟨(machine platform).run ys, a⟩ = false :=
        Bool.eq_false_iff.mpr fun up => left (hands.setsUp.mp up).2
      simp only [left, and_false, if_false] at now
      exact ⟨by rw [if_neg left]; exact now, by simp [none, left]⟩
  · intro quiet
    have none : @setsUp platform ⟨(machine platform).run ys, a⟩ = false := by
      rcases act_rations ((machine platform).run ys) a with
        ⟨action, place, x, watches⟩ | ⟨n, -, begins⟩ | ⟨n, -, -, now⟩ | ⟨-, -, now⟩
      · have hands : @HandsOn platform ⟨(machine platform).run ys, a⟩ place x :=
          handsOn_of_watches action watches
        refine Bool.eq_false_iff.mpr fun up => ?_
        cases (quiet place x hands).symm.trans (hands.setsUp.mp up).1
      · exact setsUp_of_begins begins
      · exact setsUp_of_rations now
      · exact setsUp_of_rations now
    refine ⟨none, fun unfilled => ?_⟩
    rw [automatic_concat, unfilled, none]
    rfl
  -- the place of what was handed on before lies behind the cursor
  · intro f hf i j y x first hands
    have seen := (run_handed_on ys f hf i y first).1
    have next : j = max ((machine platform).run ys).server.cursor _ := hands.next
    omega
  · rintro n ⟨⟩ waits
    have begins := act_recovery waits
    refine ⟨begins, fun again => ?_⟩
    have still : n ∈ (act ((machine platform).run ys) (.go (.recovery n))).server.recoveries :=
      again
    rw [begins.server] at still
    exact absurd rfl (of_decide_eq_true (List.mem_filter.mp still).2)

/-- **Restarts after crashes are rationed.** For every run, whatever clients ask for and whenever
sessions crash:

* The restarts that were set up since a client last asked for a session itself, or since the
  beginning, are as many as the budget says, and that is at most the limit.
* Every restart that was set up has begun, or it waits to.
* What every single event means for them is `Rationing`. -/
theorem restarts_are_rationed (platform : Platform) (as : List Action) :
    (automatic ((machine platform).history as) = ((machine platform).run as).server.budget.used ∧
      automatic ((machine platform).history as) ≤ Budget.limit) ∧
    ((machine platform).history as).countP setsUp =
      ((machine platform).history as).countP beginsRestart +
        ((machine platform).run as).server.recoveries.length ∧
    ∀ past e later, (machine platform).history as = past ++ e :: later → Rationing past e := by
  have rationed := @run_rationed platform as
  refine ⟨⟨rationed.count, ?_⟩, ?_, ?_⟩
  · rw [rationed.count]
    exact rationed.bound
  · rw [rationed.total, rationed.begun]
  · intro past e later cut
    obtain ⟨ys, a, -, -, rfl, rfl, -⟩ := (machine platform).history_at cut
    exact rationing ys a

end Law

/-- A restart after a crash brings up a session, and that crashes as well. -/
def crashAgain (n : Nat) : List Action :=
  again 4 (.recovery n) ++ .go .dispatcher :: again 3 (.recovery n) ++
    .outside (.exit (n + 1) ⟨some 9⟩) :: .go .dispatcher :: again 4 .monitor ++ again 2 .watch

/-- The first session crashes, and so do those that follow it. -/
def spentRun : List Action :=
  bereavedRun ++ crashAgain 0 ++ crashAgain 1 ++ crashAgain 2

/-- After the third restart there is none: the crash of the fourth session is handed on, and no
restart is set up for it. When a client asks for a session the budget is full again. -/
theorem spentRun_is_rationed :
    automatic ((machine .linux).history spentRun) = Budget.limit ∧
      (∃ past e later place x, (machine .linux).history spentRun = past ++ e :: later ∧
        HandsOn e place x ∧ isCrash x = true ∧ automatic past = Budget.limit ∧
        e.after.server.nextRecovery = e.before.server.nextRecovery) ∧
      automatic ((machine .linux).history
        (spentRun ++ [typed startLine, .go .serve, .go (.handler 0)])) = 0 := by
  obtain ⟨⟨spent, -⟩, -, means⟩ := restarts_are_rationed .linux spentRun
  obtain ⟨⟨again, -⟩, -, -⟩ := restarts_are_rationed .linux
    (spentRun ++ [typed startLine, .go .serve, .go (.handler 0)])
  have parts : spentRun.dropLast ++ [.go .watch] = spentRun := by rfl
  have cut := (machine .linux).history_concat spentRun.dropLast (.go .watch)
  rw [parts] at cut
  have hands : @HandsOn .linux ⟨(machine .linux).run spentRun.dropLast, .go .watch⟩ 7
      (.crashed 4 "display process exited with code 9" (some 9)) := by
    refine ⟨rfl, ?_, ?_, ?_⟩ <;> decide +kernel
  have limit : automatic ((machine .linux).history spentRun.dropLast) = Budget.limit := by
    decide +kernel
  refine ⟨spent.trans (by decide +kernel), ?_, again.trans (by decide +kernel)⟩
  refine ⟨_, _, [], 7, _, cut, hands, rfl, limit, ?_⟩
  have rationing := means _ _ [] cut
  obtain ⟨crash, -⟩ := rationing.crash 7 _ hands rfl
  have exhausted : ¬ automatic ((machine .linux).history spentRun.dropLast) < Budget.limit :=
    Nat.not_lt.mpr limit.ge
  rw [crash, if_neg exhausted, Nat.add_zero]

end Simulation

end CompilerSession
