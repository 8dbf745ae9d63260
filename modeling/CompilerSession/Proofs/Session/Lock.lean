import CompilerSession.Session.Supervisor
import CompilerSession.Proofs.Run
import Mathlib.Data.List.Nodup
import Mathlib.Logic.Function.Basic

/-
The lifecycle lock.

Operations exclude each other by a lock that is handed on in order. `Lock` is what a
supervisor knows about it: who holds it, who waits for it, and how far each operation is.
All that a move does to operations it does by the six changes that are defined here, and
`Lock.Sound` is the invariant that each of them keeps: an operation is at work exactly if
it holds the lock, and who waits really waits.

Operations are looked up by number. `Lock.operation?` is that lookup as a function, so a
change of one operation is a change of the function at one place, and the list in which a
supervisor keeps its operations is not seen any more after `lock_setStage` and its likes.
-/

set_option autoImplicit false

namespace CompilerSession.Supervisor

open Dispatch (Loss)

/-- The operation is at work: it holds the lock. -/
def Stage.holds : Stage → Bool
  | .drawn | .waiting | .leaving | .done _ => false
  | _ => true

/-- The operation has done something, so it had the lock. -/
def Stage.begun : Stage → Bool
  | .drawn | .waiting | .entered => false
  | _ => true

/-- The operation has handed the lock on. -/
def Stage.over : Stage → Bool
  | .leaving | .done _ => true
  | _ => false

theorem over_last (purpose : Purpose) (result : Result) : (purpose.last result).over = true := by
  cases purpose <;> rfl

/-- Who has handed the lock on has it no more, does not wait for it, and was at work. -/
theorem Stage.over_spec {stage : Stage} (isOver : stage.over = true) :
    stage.holds = false ∧ stage ≠ .waiting ∧ stage.begun = true := by
  cases stage with
  | leaving | done => exact ⟨rfl, nofun, rfl⟩
  | _ => cases isOver

/-- A stage that holds the lock is not the last one. -/
theorem last_ne (purpose : Purpose) (result : Result) {stage : Stage} (holds : stage.holds = true) :
    purpose.last result ≠ stage := by
  rintro rfl
  rw [(Stage.over_spec (over_last purpose result)).1] at holds
  cases holds

/-- **The lock**, and the operations by their numbers. -/
@[ext]
structure Lock where
  operation? : OperationId → Option Operation
  holder : Option OperationId
  /-- Who waits, in order. -/
  waiting : List OperationId
  /-- The number of the next operation. -/
  next : OperationId

def lock (s : Supervisor) : Lock := ⟨s.operation?, s.holder, s.waiting, s.nextOperation⟩

namespace Lock

/-! ## Changes -/

variable (k : Lock)

/-- An operation reaches a stage. -/
def reach (id : OperationId) (stage : Stage) : Lock :=
  { k with operation? := fun j =>
      if j = id then (k.operation? j).map ({ · with stage }) else k.operation? j }

/-- A new operation is taken down. -/
def add (purpose : Purpose) (stage : Stage) : Lock :=
  { k with
    operation? := fun j =>
      (k.operation? j).or (if j = k.next then some ⟨k.next, purpose, stage⟩ else none)
    next := k.next + 1 }

def drop (id : OperationId) : Lock :=
  { k with operation? := fun j => if j = id then none else k.operation? j }

def release : Lock :=
  match k.waiting with
  | [] => { k with holder := none }
  | n :: rest => { k with holder := some n, waiting := rest }.reach n .entered

/-- An operation hands the lock on at its last stage. -/
def finish (id : OperationId) (last : Stage) : Lock :=
  (k.reach id last).release

/-- A new operation asks for the lock. -/
def enter (purpose : Purpose) : Lock :=
  match k.holder with
  | none => { k.add purpose .entered with holder := some k.next }
  | some _ => { k.add purpose .waiting with waiting := k.waiting ++ [k.next] }

/-- An operation that was taken down before asks for the lock. -/
def ask (id : OperationId) : Lock :=
  match k.holder with
  | none => { k with holder := some id }.reach id .entered
  | some _ => { k with waiting := k.waiting ++ [id] }.reach id .waiting

end Lock

/-! ## What a supervisor does to its lock -/

variable (s : Supervisor) (id : OperationId)

theorem operation?_id {s : Supervisor} {id : OperationId} {o : Operation}
    (h : s.operation? id = some o) : o.id = id := by
  simpa using List.find?_some h

@[simp] theorem lock_setStage (stage : Stage) :
    (s.setStage id stage).lock = s.lock.reach id stage := by
  refine Lock.ext (funext fun j => ?_) rfl rfl rfl
  have found : ((s.setStage id stage).operation? j) =
      (s.operation? j).map fun o => if o.id = id then { o with stage } else o := by
    rw [operation?, setStage, List.find?_map, operation?]
    congr 2
    funext o
    by_cases h : o.id = id <;> simp [h]
  -- numbers are unique by the lookup: what is found under `j` is called `j`
  show (s.setStage id stage).operation? j =
    if j = id then (s.operation? j).map ({ · with stage }) else s.operation? j
  rw [found]
  cases h : s.operation? j with
  | none => simp
  | some o =>
    have named : o.id = j := operation?_id h
    by_cases hj : j = id <;> simp [named, hj]

@[simp] theorem lock_release : s.release.1.lock = s.lock.release := by
  cases h : s.waiting with
  | nil =>
    have waiting : s.lock.waiting = [] := h
    simp only [release, h, Lock.release, waiting]
    rfl
  | cons n rest =>
    have waiting : s.lock.waiting = n :: rest := h
    simp only [release, h, Lock.release, waiting, lock_setStage]
    rfl

/-- An operation is taken down under the next number. -/
theorem find?_append (purpose : Purpose) (stage : Stage) (j : OperationId) :
    (s.operations ++ [Operation.mk s.nextOperation purpose stage]).find? (·.id = j) =
      (s.lock.add purpose stage).operation? j := by
  rw [List.find?_append]
  show (s.operation? j).or _ = (s.operation? j).or _
  congr 1
  by_cases h : j = s.nextOperation
  · simp [h, lock]
  · simp [lock, h, Ne.symm h]

@[simp] theorem lock_enter (purpose : Purpose) : (s.enter purpose).lock = s.lock.enter purpose := by
  cases h : s.holder with
  | none =>
    have holder : s.lock.holder = none := h
    simp only [enter, h, Lock.enter, holder]
    exact Lock.ext (funext fun j => s.find?_append purpose .entered j) rfl rfl rfl
  | some i =>
    have holder : s.lock.holder = some i := h
    simp only [enter, h, Lock.enter, holder]
    exact Lock.ext (funext fun j => s.find?_append purpose .waiting j) h.symm rfl rfl

theorem lock_draw : s.draw.lock = s.lock.add (.restart (s.tickets + 1)) .drawn :=
  Lock.ext (funext fun j => s.find?_append _ .drawn j) rfl rfl rfl

theorem lock_ask (h : s.stage? id = some .drawn) : (s.ask id).lock = s.lock.ask id := by
  cases holder : s.holder with
  | none =>
    have free : s.lock.holder = none := holder
    simp only [ask, h, holder, lock_setStage, Lock.ask, free]
    rfl
  | some i =>
    have taken : s.lock.holder = some i := holder
    simp only [ask, h, holder, lock_setStage, Lock.ask, taken]
    rfl

theorem lock_collect :
    (s.step (.collect id)).1.lock = s.lock.drop id := by
  refine Lock.ext (funext fun j => ?_) rfl rfl rfl
  show (s.operations.filter (·.id ≠ id)).find? (·.id = j) = if j = id then none else s.operation? j
  rw [List.find?_filter]
  by_cases h : j = id
  · simp [h]
  · rw [if_neg h, operation?]
    congr 1
    funext o
    by_cases ho : o.id = j <;> simp [ho, h]

/-! ## The invariant -/

namespace Lock

def stage? (k : Lock) (id : OperationId) : Option Stage :=
  (k.operation? id).map (·.stage)

def purpose? (k : Lock) (id : OperationId) : Option Purpose :=
  (k.operation? id).map (·.purpose)

/-- The operation is done, or forgotten. -/
def Done (k : Lock) (id : OperationId) : Prop :=
  ∀ stage, k.stage? id = some stage → ∃ result, stage = .done result

/-- **The lock is sound.** Who is at work holds the lock, who waits for it is in the queue, and
numbers that were not given yet belong to nobody. -/
structure Sound (k : Lock) : Prop where
  fresh : ∀ id, k.next ≤ id → k.stage? id = none
  held : ∀ id, k.holder = some id ↔ ∃ stage, k.stage? id = some stage ∧ stage.holds = true
  waits : ∀ id, id ∈ k.waiting ↔ k.stage? id = some .waiting
  queue : k.waiting.Nodup

variable {k : Lock} {id : OperationId} {stage : Stage}

theorem stage?_of_known {o : Operation} (known : k.operation? id = some o) :
    k.stage? id = some o.stage := by
  rw [stage?, known]
  rfl

theorem purpose?_of_known {o : Operation} (known : k.operation? id = some o) :
    k.purpose? id = some o.purpose := by
  rw [purpose?, known]
  rfl

/-- **Reaching a stage changes one stage**, that of the one who reaches it. -/
theorem stage?_reach (stage : Stage) (h : k.stage? id ≠ none) :
    (k.reach id stage).stage? = Function.update k.stage? id (some stage) := by
  funext j
  by_cases hj : j = id
  · subst hj
    cases ho : k.operation? j with
    | none => simp [Lock.stage?, ho] at h
    | some o => simp [Lock.stage?, reach, ho]
  · simp [Lock.stage?, reach, hj]

/-- Only the last stage counts. -/
@[simp] theorem reach_reach {a : Stage} : (k.reach id a).reach id stage = k.reach id stage := by
  refine Lock.ext (funext fun j => ?_) rfl rfl rfl
  by_cases hj : j = id
  · simp only [reach, hj, if_true, Option.map_map]
    rfl
  · simp only [reach, hj, if_false]

theorem stage?_add (purpose : Purpose) (stage : Stage) (h : k.stage? k.next = none) :
    (k.add purpose stage).stage? = Function.update k.stage? k.next (some stage) := by
  funext j
  by_cases hj : j = k.next
  · subst hj
    have none : k.operation? k.next = none := Option.map_eq_none_iff.mp h
    simp [Lock.stage?, add, none]
  · simp [Lock.stage?, add, hj]

theorem stage?_drop : (k.drop id).stage? = Function.update k.stage? id none := by
  funext j
  by_cases hj : j = id <;> simp [Lock.stage?, drop, hj]

/-- Whoever comes has done nothing yet, whether it waits or holds the lock. -/
theorem stage?_enter (purpose : Purpose) (h : k.stage? k.next = none) :
    ∃ stage : Stage, stage.begun = false ∧
      (k.enter purpose).stage? = Function.update k.stage? k.next (some stage) := by
  cases holder : k.holder with
  | none =>
    simp only [enter, holder]
    exact ⟨.entered, rfl, stage?_add purpose _ h⟩
  | some i =>
    simp only [enter, holder]
    exact ⟨.waiting, rfl, stage?_add purpose _ h⟩

/-- Whoever asks has done nothing yet either. -/
theorem stage?_ask (h : k.stage? id = some .drawn) :
    ∃ stage : Stage, stage.begun = false ∧
      (k.ask id).stage? = Function.update k.stage? id (some stage) := by
  have known : k.stage? id ≠ none := by simp [h]
  cases holder : k.holder with
  | none =>
    simp only [ask, holder]
    exact ⟨.entered, rfl, stage?_reach (k := { k with holder := some id }) .entered known⟩
  | some i =>
    simp only [ask, holder]
    exact ⟨.waiting, rfl,
      stage?_reach (k := { k with waiting := k.waiting ++ [id] }) .waiting known⟩

/-! What an operation is for never changes. -/

/-- Purposes never change. -/
@[simp] theorem purpose?_reach : (k.reach id stage).purpose? = k.purpose? := by
  funext j
  by_cases hj : j = id
  · simp only [purpose?, reach, hj, if_true, Option.map_map]
    rfl
  · simp [purpose?, reach, hj]

theorem purpose?_add (purpose : Purpose) (h : k.stage? k.next = none) :
    (k.add purpose stage).purpose? = Function.update k.purpose? k.next (some purpose) := by
  funext j
  by_cases hj : j = k.next
  · subst hj
    have none : k.operation? k.next = none := Option.map_eq_none_iff.mp h
    simp [purpose?, add, none]
  · simp [purpose?, add, hj]

theorem purpose?_drop : (k.drop id).purpose? = Function.update k.purpose? id none := by
  funext j
  by_cases hj : j = id <;> simp [purpose?, drop, hj]

@[simp] theorem purpose?_release : k.release.purpose? = k.purpose? := by
  cases h : k.waiting <;> simp only [release, h, purpose?_reach] <;> rfl

@[simp] theorem purpose?_finish {last : Stage} : (k.finish id last).purpose? = k.purpose? := by
  rw [finish, purpose?_release, purpose?_reach]

theorem purpose?_enter (purpose : Purpose) (h : k.stage? k.next = none) :
    (k.enter purpose).purpose? = Function.update k.purpose? k.next (some purpose) := by
  cases holder : k.holder <;> simp only [enter, holder] <;> exact purpose?_add purpose h

@[simp] theorem purpose?_ask : (k.ask id).purpose? = k.purpose? := by
  cases holder : k.holder <;> simp only [ask, holder, purpose?_reach] <;> rfl

/-! The stage of the holder says what the supervisor is busy with. -/

/-- How far the holder of the lock is. -/
def at? (k : Lock) : Option Stage :=
  k.holder.bind k.stage?

/-- How far the holder is can be read off its stage. -/
theorem at?_of_holder (holder : k.holder = some id) : k.at? = k.stage? id := by
  rw [at?, holder, Option.bind_some]

/-- The stage that the holder reaches is the stage of the holder. -/
theorem at?_reach {a : Stage} (h : k.stage? id = some a) (holder : k.holder = some id) :
    (k.reach id stage).at? = some stage := by
  have stages : (k.reach id stage).stage? = _ := stage?_reach _ (by simp [h])
  show (k.holder).bind (k.reach id stage).stage? = _
  rw [holder, stages]
  simp

namespace Sound

/-- Who is at work holds the lock. -/
theorem holder (sound : k.Sound) (h : k.stage? id = some stage) (holds : stage.holds = true) :
    k.holder = some id :=
  (sound.held id).mpr ⟨stage, h, holds⟩

/-- A change of one operation keeps the lock sound if holder and queue change with it. -/
theorem update (sound : k.Sound) {k' : Lock} {id : OperationId} {now : Option Stage}
    (stages : k'.stage? = Function.update k.stage? id now) (next : k.next ≤ k'.next)
    (given : now ≠ none → id < k'.next)
    (held : k'.holder = some id ↔ ∃ stage, now = some stage ∧ stage.holds = true)
    (heldElse : ∀ j, j ≠ id → (k'.holder = some j ↔ k.holder = some j))
    (waits : id ∈ k'.waiting ↔ now = some .waiting)
    (waitsElse : ∀ j, j ≠ id → (j ∈ k'.waiting ↔ j ∈ k.waiting)) (queue : k'.waiting.Nodup) :
    k'.Sound := by
  -- at `id` by the hypotheses about it, elsewhere as before
  refine ⟨?_, ?_, ?_, queue⟩
  · intro j hj
    rw [stages, Function.update_apply]
    split
    · rename_i same
      by_contra some
      exact absurd (given some) (Nat.not_lt_of_le (same ▸ hj))
    · exact sound.fresh j (Nat.le_trans next hj)
  · intro j
    rw [stages, Function.update_apply]
    split
    · rename_i same
      rw [same]
      exact held
    · rename_i other
      rw [heldElse j other]
      exact sound.held j
  · intro j
    rw [stages, Function.update_apply]
    split
    · rename_i same
      rw [same]
      exact waits
    · rename_i other
      rw [waitsElse j other]
      exact sound.waits j

/-- Who is known has a number that was given. -/
theorem lt_next (sound : k.Sound) (h : k.stage? id ≠ none) : id < k.next := by
  by_contra late
  exact h (sound.fresh id (Nat.le_of_not_lt late))

/-- The holder has a number that was given. -/
theorem holder_lt (sound : k.Sound) (h : k.holder = some id) : id < k.next := by
  obtain ⟨stage, hs, -⟩ := (sound.held id).mp h
  exact sound.lt_next (by simp [hs])

/-- Who is at work does not wait. -/
theorem not_waiting (sound : k.Sound) (h : k.stage? id = some stage) (holds : stage.holds = true) :
    id ∉ k.waiting := by
  rw [sound.waits, h]
  rintro ⟨⟩
  cases holds

/-- The operation at work goes on to another stage of its work. -/
theorem reach (sound : k.Sound) (holder : k.holder = some id) (holds : stage.holds = true) :
    (k.reach id stage).Sound := by
  obtain ⟨a, hid, ha⟩ := (sound.held id).mp holder
  have known : k.stage? id ≠ none := by simp [hid]
  have quiet : id ∉ k.waiting := sound.not_waiting hid ha
  refine sound.update (stage?_reach _ known) (Nat.le_refl _) (fun _ => sound.lt_next known)
    ?_ (fun _ _ => Iff.rfl) ?_ (fun _ _ => Iff.rfl) sound.queue
  · exact ⟨fun _ => ⟨stage, rfl, holds⟩, fun _ => holder⟩
  · refine ⟨fun h => absurd h quiet, ?_⟩
    rintro ⟨⟩
    cases holds

/-- The lock is free after its holder is done, but it is not handed on yet. -/
theorem done (sound : k.Sound) (holder : k.holder = some id) {last : Stage}
    (isOver : last.over = true) : Sound { k.reach id last with holder := none } := by
  obtain ⟨idle, noWait, -⟩ := Stage.over_spec isOver
  obtain ⟨a, hid, ha⟩ := (sound.held id).mp holder
  have known : k.stage? id ≠ none := by simp [hid]
  have quiet : id ∉ k.waiting := sound.not_waiting hid ha
  refine sound.update (stage?_reach _ known) (Nat.le_refl _) (fun _ => sound.lt_next known)
    ?_ ?_ ?_ (fun _ _ => Iff.rfl) sound.queue
  · simp [idle]
  · intro j hj
    simp [holder, Ne.symm hj]
  · exact ⟨fun h => absurd h quiet, fun h => absurd (Option.some.inj h) noWait⟩

/-- **A free lock that is given to the next one who waits stays sound.** -/
theorem release (sound : k.Sound) (free : k.holder = none) : k.release.Sound := by
  cases h : k.waiting with
  | nil =>
    have same : k.release = k := by
      simp only [Lock.release, h]
      exact Lock.ext rfl free.symm h.symm rfl
    rw [same]
    exact sound
  | cons n rest =>
    have first : k.stage? n = some .waiting := (sound.waits n).mp (by simp [h])
    have known : k.stage? n ≠ none := by simp [first]
    have queue := h ▸ sound.queue
    obtain ⟨once, others⟩ := List.nodup_cons.mp queue
    simp only [Lock.release, h]
    refine sound.update
      (stage?_reach (k := { k with holder := some n, waiting := rest }) .entered known)
      (Nat.le_refl _) (fun _ => sound.lt_next known) ?_ ?_ ?_ ?_ others
    · exact ⟨fun _ => ⟨.entered, rfl, rfl⟩, fun _ => rfl⟩
    · intro j hj
      simp [Lock.reach, free, Ne.symm hj]
    · exact ⟨fun hn => absurd hn once, nofun⟩
    · intro j hj
      simp [Lock.reach, h, hj]

/-- The operation at work hands the lock on. -/
theorem finish (sound : k.Sound) (holder : k.holder = some id) {last : Stage}
    (isOver : last.over = true) : (k.finish id last).Sound := by
  -- handing on overwrites the holder, so it makes no difference that the lock is free before
  have same : k.finish id last = Lock.release { k.reach id last with holder := none } := by
    rw [Lock.finish, Lock.release, Lock.release]
  rw [same]
  exact (sound.done holder isOver).release rfl

/-- Who has handed the lock on may go on without it. -/
theorem reach_over (sound : k.Sound) {before : Stage} (h : k.stage? id = some before)
    (isOver : before.over = true) (isOver' : stage.over = true) : (k.reach id stage).Sound := by
  obtain ⟨idle, noWait, -⟩ := Stage.over_spec isOver
  obtain ⟨idle', noWait', -⟩ := Stage.over_spec isOver'
  have known : k.stage? id ≠ none := by simp [h]
  refine sound.update (stage?_reach _ known) (Nat.le_refl _) (fun _ => sound.lt_next known)
    ?_ (fun _ _ => Iff.rfl) ?_ (fun _ _ => Iff.rfl) sound.queue
  · rw [show (k.reach id stage).holder = k.holder from rfl, sound.held, h]
    simp [idle, idle']
  · rw [show (k.reach id stage).waiting = k.waiting from rfl, sound.waits, h]
    simp [noWait, noWait']

/-- A lock stays sound when one is added who neither holds it nor waits for it. -/
theorem add (sound : k.Sound) {purpose : Purpose} (holds : stage.holds = false)
    (waits : stage ≠ .waiting) : (k.add purpose stage).Sound := by
  have free := sound.fresh k.next (Nat.le_refl _)
  refine sound.update (stage?_add _ _ free) (Nat.le_succ _) (fun _ => Nat.lt_succ_self _)
    ?_ (fun _ _ => Iff.rfl) ?_ (fun _ _ => Iff.rfl) sound.queue
  · rw [show (k.add purpose stage).holder = k.holder from rfl, sound.held, free]
    simp [holds]
  · rw [show (k.add purpose stage).waiting = k.waiting from rfl, sound.waits, free]
    simp [waits]

/-- A lock stays sound when one comes. -/
theorem enter (sound : k.Sound) (purpose : Purpose) : (k.enter purpose).Sound := by
  have free := sound.fresh k.next (Nat.le_refl _)
  have notWaiting : k.next ∉ k.waiting := by simp [sound.waits, free]
  cases h : k.holder with
  | none =>
    simp only [Lock.enter, h]
    refine sound.update (stage?_add purpose .entered free) (Nat.le_succ _)
      (fun _ => Nat.lt_succ_self _) ?_ ?_ ?_ (fun _ _ => Iff.rfl) sound.queue
    · simp [Stage.holds]
    · intro j hj
      simp [h, Ne.symm hj]
    · exact ⟨fun hn => absurd hn notWaiting, nofun⟩
  | some i =>
    -- the holder is known, and the new number is nobody's yet
    have other : i ≠ k.next := by
      rintro rfl
      obtain ⟨a, ha, -⟩ := (sound.held _).mp h
      rw [free] at ha
      cases ha
    simp only [Lock.enter, h]
    refine sound.update (stage?_add purpose .waiting free) (Nat.le_succ _)
      (fun _ => Nat.lt_succ_self _) ?_ ?_ ?_ ?_ ?_
    · simp [Stage.holds, Lock.add, h, other]
    · exact fun _ _ => Iff.rfl
    · simp
    · intro j hj
      simp [hj]
    · simpa using List.Nodup.concat notWaiting sound.queue

/-- A lock stays sound when one asks for it. -/
theorem ask (sound : k.Sound) (h : k.stage? id = some .drawn) : (k.ask id).Sound := by
  have known : k.stage? id ≠ none := by simp [h]
  have notWaiting : id ∉ k.waiting := by simp [sound.waits, h]
  have notHolder : k.holder ≠ some id := by
    rw [Ne, sound.held, h]
    simp [Stage.holds]
  -- a free lock is taken at once, and for any other one waits at the end
  cases free : k.holder with
  | none =>
    simp only [Lock.ask, free]
    refine sound.update (stage?_reach (k := { k with holder := some id }) .entered known)
      (Nat.le_refl _) (fun _ => sound.lt_next known) ?_ ?_ ?_ (fun _ _ => Iff.rfl) sound.queue
    · exact ⟨fun _ => ⟨.entered, rfl, rfl⟩, fun _ => rfl⟩
    · intro j hj
      simp [Lock.reach, free, Ne.symm hj]
    · exact ⟨fun hn => absurd hn notWaiting, nofun⟩
  | some i =>
    simp only [Lock.ask, free]
    refine sound.update (stage?_reach (k := { k with waiting := k.waiting ++ [id] }) .waiting known)
      (Nat.le_refl _) (fun _ => sound.lt_next known) ?_ ?_ ?_ ?_ ?_
    · rw [free] at notHolder
      exact ⟨fun holder => absurd holder notHolder, by simp [Stage.holds]⟩
    · intro j hj
      rw [free]
      exact Iff.rfl
    · simp [Lock.reach]
    · intro j hj
      simp [Lock.reach, hj]
    · show (k.waiting ++ [id]).Nodup
      simpa using List.Nodup.concat notWaiting sound.queue

/-- A lock stays sound when one leaves who is done. -/
theorem drop (sound : k.Sound) (h : k.Done id) : (k.drop id).Sound := by
  refine sound.update stage?_drop (Nat.le_refl _) (fun none => absurd rfl none)
    ?_ (fun _ _ => Iff.rfl) ?_ (fun _ _ => Iff.rfl) sound.queue
  · rw [show (k.drop id).holder = k.holder from rfl, sound.held]
    refine ⟨?_, nofun⟩
    rintro ⟨stage, hs, holds⟩
    obtain ⟨r, rfl⟩ := h stage hs
    cases holds
  · rw [show (k.drop id).waiting = k.waiting from rfl, sound.waits]
    refine ⟨?_, nofun⟩
    intro hs
    obtain ⟨r, done⟩ := h _ hs
    cases done

end Sound

/-! ## Calm moments

The lock is calm when nobody holds it, or its holder has done nothing yet. Operations begin
and end in calm moments. -/

/-- Nobody is in the middle of something. -/
def Calm (k : Lock) : Prop :=
  ∀ stage, k.at? = some stage → stage = .entered

/-- **Nobody at work is disturbed**: the holder is the same and just as far, or there was nobody
at work before and there is nobody now. -/
def Undisturbed (k k' : Lock) : Prop :=
  k'.holder = k.holder ∧ k'.at? = k.at? ∨ k.Calm ∧ k'.Calm

/-- The holder is not disturbed by what others do. -/
theorem undisturbed_of_update {k k' : Lock} {id : OperationId} {now : Option Stage}
    (stages : k'.stage? = Function.update k.stage? id now) (holder : k'.holder = k.holder)
    (other : k.holder ≠ some id) : Undisturbed k k' := by
  refine .inl ⟨holder, ?_⟩
  rw [at?, at?, holder, stages]
  cases h : k.holder with
  | none => rfl
  | some i =>
    have different : i ≠ id := fun same => other (by rw [h, same])
    simp [different]

/-- Whoever comes to hold the lock has done nothing yet. -/
theorem calm_of_entered {k : Lock} (id : OperationId) (holder : k.holder = some id)
    (entered : k.stage? id = some .entered) : k.Calm := by
  intro stage h
  rw [at?_of_holder holder, entered] at h
  exact (Option.some.inj h).symm

/-- A free lock is calm. -/
theorem calm_of_free {k : Lock} (free : k.holder = none) : k.Calm := by
  intro stage h
  rw [at?, free] at h
  cases h

namespace Sound

/-- Who is at a stage without the lock is not the holder. -/
theorem not_holder (sound : k.Sound) (h : ∀ stage, k.stage? id = some stage → stage.holds = false) :
    k.holder ≠ some id := by
  intro holder
  obtain ⟨a, ha, holds⟩ := (sound.held id).mp holder
  rw [h a ha] at holds
  cases holds

/-- The holder is not disturbed by those who come. -/
theorem undisturbed_add (sound : k.Sound) (purpose : Purpose) (stage : Stage) :
    Undisturbed k (k.add purpose stage) := by
  have free := sound.fresh k.next (Nat.le_refl _)
  exact undisturbed_of_update (stage?_add _ _ free) rfl (sound.not_holder (by simp [free]))

theorem undisturbed_drop (sound : k.Sound) (h : k.Done id) : Undisturbed k (k.drop id) := by
  refine undisturbed_of_update stage?_drop rfl (sound.not_holder fun stage hs => ?_)
  obtain ⟨r, rfl⟩ := h stage hs
  rfl

/-- The holder is not disturbed by those who come and ask for the lock. -/
theorem undisturbed_enter (sound : k.Sound) (purpose : Purpose) :
    Undisturbed k (k.enter purpose) := by
  have free := sound.fresh k.next (Nat.le_refl _)
  cases h : k.holder with
  | none =>
    refine .inr ⟨calm_of_free h, calm_of_entered k.next ?_ ?_⟩
    · simp only [Lock.enter, h]
    · simp only [Lock.enter, h]
      show (k.add purpose .entered).stage? k.next = _
      rw [stage?_add _ _ free, Function.update_self]
  | some i =>
    have other : k.holder ≠ some k.next := sound.not_holder (by simp [free])
    simp only [Lock.enter, h]
    exact undisturbed_of_update (stage?_add purpose .waiting free) rfl other

theorem undisturbed_ask (sound : k.Sound) (h : k.stage? id = some .drawn) :
    Undisturbed k (k.ask id) := by
  have known : k.stage? id ≠ none := by simp [h]
  cases free : k.holder with
  | none =>
    refine .inr ⟨calm_of_free free, calm_of_entered id ?_ ?_⟩
    · simp only [Lock.ask, free]
      rfl
    · simp only [Lock.ask, free]
      rw [stage?_reach (k := { k with holder := some id }) .entered known, Function.update_self]
  | some i =>
    have other : k.holder ≠ some id := sound.not_holder (by simp [h, Stage.holds])
    simp only [Lock.ask, free]
    refine undisturbed_of_update
      (stage?_reach (k := { k with waiting := k.waiting ++ [id] }) .waiting known) ?_ other
    rw [free]
    rfl

/-- The holder is not disturbed by what is over. -/
theorem undisturbed_over (sound : k.Sound) {before : Stage} (h : k.stage? id = some before)
    (isOver : before.over = true) : Undisturbed k (k.reach id stage) := by
  refine undisturbed_of_update (stage?_reach _ (by simp [h])) rfl (sound.not_holder ?_)
  rintro _ h'
  obtain rfl := Option.some.inj (h.symm.trans h')
  exact (Stage.over_spec isOver).1

/-- **What handing on does**: nobody holds the lock afterwards, or who waited longest. -/
theorem finish_cases (sound : k.Sound) (holder : k.holder = some id) (last : Stage) :
    (k.finish id last).holder = none ∧
        (k.finish id last).stage? = Function.update k.stage? id (some last) ∨
      ∃ n, n ≠ id ∧ k.stage? n = some .waiting ∧ (k.finish id last).holder = some n ∧
        (k.finish id last).stage? =
          Function.update (Function.update k.stage? id (some last)) n (some .entered) := by
  obtain ⟨a, hid, ha⟩ := (sound.held id).mp holder
  have done : (k.reach id last).stage? = Function.update k.stage? id _ :=
    stage?_reach _ (by simp [hid])
  cases h : (k.reach id last).waiting with
  | nil =>
    refine .inl ?_
    simp only [Lock.finish, Lock.release, h]
    exact ⟨trivial, done⟩
  | cons n rest =>
    have first : k.stage? n = some .waiting :=
      (sound.waits n).mp (by rw [show k.waiting = n :: rest from h]; exact List.mem_cons_self)
    -- `id` was at work, `n` waited
    have other : n ≠ id := by
      rintro rfl
      obtain rfl := Option.some.inj (hid.symm.trans first)
      cases ha
    have known : (k.reach id last).stage? n ≠ none := by simp [done, other, first]
    have entered := stage?_reach
      (k := { k.reach id last with holder := some n, waiting := rest }) .entered known
    simp only [Lock.finish, Lock.release, h]
    exact .inr ⟨n, other, first, rfl, entered.trans (congrArg (Function.update · n _) done)⟩

/-- Who has handed the lock on is where it said, whoever has the lock next. -/
theorem stage?_finish (sound : k.Sound) (holder : k.holder = some id) (last : Stage) :
    (k.finish id last).stage? id = some last := by
  rcases sound.finish_cases holder last with ⟨-, stages⟩ | ⟨n, other, -, -, stages⟩
  · rw [stages, Function.update_self]
  · rw [stages, Function.update_of_ne other.symm, Function.update_self]

/-- **When the holder finishes the lock is calm**: it is free, or the next one did nothing yet. -/
theorem calm_finish (sound : k.Sound) (holder : k.holder = some id) (last : Stage) :
    (k.finish id last).Calm := by
  rcases sound.finish_cases holder last with ⟨free, -⟩ | ⟨n, -, -, held, stages⟩
  · exact calm_of_free free
  · exact calm_of_entered n held (by rw [stages, Function.update_self])

end Sound

/-! ## Who has done nothing yet -/

/-- The operation exists and has done nothing yet. -/
def Idle (k : Lock) (id : OperationId) : Prop :=
  ∃ stage, k.stage? id = some stage ∧ stage.begun = false

/-- One who comes to a stage is idle if it has not begun there; the others are as idle as before. -/
theorem idle_update {k k' : Lock} {id : OperationId} {now : Stage}
    (stages : k'.stage? = Function.update k.stage? id (some now)) (j : OperationId) :
    k'.Idle j ↔ if j = id then now.begun = false else k.Idle j := by
  rw [Idle, stages]
  by_cases h : j = id
  · simp [h]
  · simp [h, Idle]

/-- Some operation is to deal with the loss, and has done nothing yet. -/
def Expects (k : Lock) (loss : Loss) : Prop :=
  ∃ id, k.purpose? id = some (.crash loss) ∧ k.Idle id

/-- What is expected depends on the purposes, and on who is idle. -/
theorem expects_congr {k k' : Lock} (purposes : k'.purpose? = k.purpose?)
    (idle : ∀ j, k'.Idle j ↔ k.Idle j) (loss : Loss) : k'.Expects loss ↔ k.Expects loss := by
  simp only [Expects, purposes, idle]

/-- **Work fulfils expectations.** When an operation goes on to work, what was expected of it is
not expected any more; what is expected of others stays. -/
theorem expects_begun {k k' : Lock} (purposes : k'.purpose? = k.purpose?)
    (idle : ∀ j, k'.Idle j ↔ j ≠ id ∧ k.Idle j) (loss : Loss) :
    (k'.Expects loss → k.Expects loss) ∧
      (k.Expects loss → k'.Expects loss ∨ k.purpose? id = some (.crash loss) ∧ k.Idle id) := by
  refine ⟨?_, ?_⟩
  · rintro ⟨j, hj, quiet⟩
    exact ⟨j, purposes ▸ hj, ((idle j).mp quiet).2⟩
  · rintro ⟨j, hj, quiet⟩
    -- only of `id` itself nothing is expected any more
    by_cases same : j = id
    · subst same
      exact .inr ⟨hj, quiet⟩
    · exact .inl ⟨j, by rw [purposes, hj], (idle j).mpr ⟨same, quiet⟩⟩

/-- An operation that is new is expected to do what it is for. -/
theorem expects_new {k k' : Lock} {id : OperationId} {purpose : Purpose} {stage : Stage}
    (free : k.stage? id = none)
    (purposes : k'.purpose? = Function.update k.purpose? id (some purpose))
    (stages : k'.stage? = Function.update k.stage? id (some stage)) (begun : stage.begun = false)
    (loss : Loss) : k'.Expects loss ↔ k.Expects loss ∨ purpose = .crash loss := by
  constructor
  · rintro ⟨j, hj, quiet⟩
    rw [purposes] at hj
    rw [idle_update stages] at quiet
    by_cases same : j = id
    · exact .inr (by simpa [same] using hj)
    · exact .inl ⟨j, by simpa [same] using hj, by simpa [same] using quiet⟩
  · rintro (⟨j, hj, quiet⟩ | rfl)
    · -- who was expected to do something has a number, so it is not the new one
      have other : j ≠ id := by
        rintro rfl
        obtain ⟨a, ha, -⟩ := quiet
        rw [free] at ha
        cases ha
      refine ⟨j, by simp [purposes, other, hj], (idle_update stages j).mpr ?_⟩
      rwa [if_neg other]
    · refine ⟨id, by simp [purposes], (idle_update stages id).mpr ?_⟩
      rwa [if_pos rfl]

/-- Whoever begins is idle no more. -/
theorem idle_reach (h : k.stage? id ≠ none) (begun : stage.begun = true) (j : OperationId) :
    (k.reach id stage).Idle j ↔ j ≠ id ∧ k.Idle j := by
  rw [idle_update (stage?_reach _ h)]
  by_cases same : j = id <;> simp [same, begun]

namespace Sound

/-- Whoever finishes is idle no more. -/
theorem idle_finish (sound : k.Sound) (holder : k.holder = some id) {last : Stage}
    (isOver : last.over = true) (j : OperationId) :
    (k.finish id last).Idle j ↔ j ≠ id ∧ k.Idle j := by
  have begun := (Stage.over_spec isOver).2.2
  rcases sound.finish_cases holder last with ⟨-, stages⟩ | ⟨n, other, waited, -, stages⟩
  · rw [idle_update stages]
    by_cases same : j = id <;> simp [same, begun]
  · rw [Idle, stages]
    by_cases first : j = n
    · subst first
      simp [other, Idle, waited, Stage.begun]
    · by_cases same : j = id
      · subst same
        simp [first, begun]
      · simp [first, same, Idle]

/-- One loss more is expected when its report comes to the lock. -/
theorem expects_enter (sound : k.Sound) (purpose : Purpose) (loss : Loss) :
    (k.enter purpose).Expects loss ↔ k.Expects loss ∨ purpose = .crash loss := by
  have free := sound.fresh k.next (Nat.le_refl _)
  obtain ⟨stage, begun, stages⟩ := stage?_enter purpose free
  exact expects_new free (purpose?_enter purpose free) stages begun loss

/-- Nothing more is expected when a restart draws its ticket. -/
theorem expects_add (sound : k.Sound) (ticket : Nat) (loss : Loss) :
    (k.add (.restart ticket) .drawn).Expects loss ↔ k.Expects loss := by
  have free := sound.fresh k.next (Nat.le_refl _)
  rw [expects_new free (purpose?_add _ free) (stage?_add _ _ free) rfl loss]
  exact ⟨fun h => h.resolve_right nofun, .inl⟩

end Sound

theorem expects_ask (h : k.stage? id = some .drawn) (loss : Loss) :
    (k.ask id).Expects loss ↔ k.Expects loss := by
  obtain ⟨stage, begun, stages⟩ := stage?_ask h
  refine expects_congr purpose?_ask (fun j => ?_) loss
  rw [idle_update stages]
  by_cases same : j = id
  · rw [if_pos same, begun, same]
    exact ⟨fun _ => ⟨.drawn, h, rfl⟩, fun _ => rfl⟩
  · rw [if_neg same]

theorem expects_over {before : Stage} (h : k.stage? id = some before) (isOver : before.over = true)
    (isOver' : stage.over = true) (loss : Loss) :
    (k.reach id stage).Expects loss ↔ k.Expects loss := by
  have begun := (Stage.over_spec isOver).2.2
  refine expects_congr purpose?_reach (fun j => ?_) loss
  rw [idle_reach (by simp [h]) (Stage.over_spec isOver').2.2]
  refine ⟨And.right, fun quiet => ⟨?_, quiet⟩⟩
  rintro rfl
  obtain ⟨stage, hs, idle⟩ := quiet
  obtain rfl := Option.some.inj (h.symm.trans hs)
  rw [begun] at idle
  cases idle

theorem expects_drop (h : k.Done id) (loss : Loss) :
    (k.drop id).Expects loss ↔ k.Expects loss := by
  have idle : ∀ j, k.Idle j → j ≠ id := by
    rintro j ⟨stage, hj, quiet⟩ rfl
    obtain ⟨r, rfl⟩ := h stage hj
    cases quiet
  constructor
  · rintro ⟨j, hj, stage, hs, quiet⟩
    rw [stage?_drop] at hs
    rw [purpose?_drop] at hj
    by_cases same : j = id
    · simp [same] at hj
    · exact ⟨j, by simpa [same] using hj, stage, by simpa [same] using hs, quiet⟩
  · rintro ⟨j, hj, quiet⟩
    have other := idle j quiet
    obtain ⟨stage, hs, quiet⟩ := quiet
    exact ⟨j, by simp [purpose?_drop, other, hj], stage, by simp [stage?_drop, other, hs], quiet⟩

end Lock

end CompilerSession.Supervisor
