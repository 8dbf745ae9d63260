import CompilerSession.Simulation.Tasks

/-
The schedule.

Tasks that are ready take turns, first in, first out. A task keeps its turn until it has
to wait. When nothing is ready time passes, and it passes only then: a timer that is due
makes its task ready, and everything comes to rest again before the next timer.

A run is bounded by a number of steps that no finite script comes near; the bound is what
makes the schedule a total function.
-/

set_option autoImplicit false

namespace CompilerSession.Simulation.World

/-- The bound on the steps between two rests. -/
def stepBound : Nat := 10000000

/-- A task goes on until it has to wait. -/
def turnWithin (t : Task) : Nat → World → World
  | 0, w => w
  | n + 1, w =>
    match w.step? t with
    | some w' => turnWithin t n w'
    | none => w

/-- **One turn of a task.** -/
def turn (w : World) (t : Task) : World :=
  let before := w.running
  let w := turnWithin t stepBound { w with running := some t }
  { w with running := before }

/-- Turns, as long as some task is ready. -/
def restWithin : Nat → World → World
  | 0, w => w
  | n + 1, w =>
    match w.ready with
    | [] => w
    | t :: rest => restWithin n ({ w with ready := rest }.turn t)

/-- **Everything goes on until nothing can.** -/
def rest (w : World) : World :=
  restWithin stepBound w

/-- The timer that is due first, if one is due by then. -/
def dueTimer? (w : World) (time : Nat) : Option Timer :=
  (w.timers.filter (·.deadline ≤ time)).foldl (fun best t =>
    match best with
    | some b => if t.deadline < b.deadline then some t else best
    | none => some t) none

/-- The clock shows a time, unless it shows a later one. -/
def setClock (w : World) (time : Nat) : World :=
  w.move (.tick (time - w.supervisor.clock))

/-- Timers go off in order until a time. -/
def passWithin (time : Nat) : Nat → World → World
  | 0, w => w
  | n + 1, w =>
    match w.dueTimer? time with
    | none => w
    | some t =>
      let w := { w with timers := w.timers.erase t }.setClock t.deadline
      passWithin time n (w.wakeWaiter t.waiter).rest

/-- **Milliseconds pass**, and everything comes to rest. -/
def pass (w : World) (ms : Nat) : World :=
  let time := w.supervisor.clock + ms
  ((passWithin time stepBound w.rest).setClock time).rest

end CompilerSession.Simulation.World
