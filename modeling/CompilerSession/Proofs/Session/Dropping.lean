import CompilerSession.Proofs.Session.Moves

/-
Operations that are given up.

A caller may stop waiting for its operation at any moment. The operation then goes no further: it
leaves the queue for the lock, or hands the lock on if it had it, and what it has done so far stays
done. `Lock.forsake` is what this does to the lock.

Operations exclude each other in such runs as they do in orderly ones (`CarefulRun.inOrder`). What
is lost is that an operation which has begun comes to its end: the lock may be handed on in the
middle of something (`Lock.Sound.forsake_calm`).
-/

set_option autoImplicit false

namespace CompilerSession.Supervisor

open Dispatch (Loss Settled)

/-! ## The lock -/

namespace Lock

/-- An operation is given up. -/
def forsake (k : Lock) (id : OperationId) : Lock :=
  let left := { k.drop id with waiting := k.waiting.filter (· ≠ id) }
  if k.holder = some id then left.release else left

/-- Who held the lock is of no matter when it is handed on. -/
theorem release_holder (k : Lock) (holder : Option OperationId) :
    { k with holder }.release = k.release := by
  cases waiting : k.waiting <;> simp only [release, waiting]

/-- Handing the lock on takes the one who waited longest to work, and nobody else anywhere. -/
theorem release_stages {k : Lock} (waits : ∀ n ∈ k.waiting, k.stage? n = some .waiting)
    (j : OperationId) :
    k.release.stage? j = k.stage? j ∨
      k.stage? j = some .waiting ∧ k.release.stage? j = some .entered := by
  cases h : k.waiting with
  | nil =>
    simp only [release, h]
    exact .inl rfl
  | cons n rest =>
    have first : k.stage? n = some .waiting := waits n (by simp [h])
    have known : k.stage? n ≠ none := by simp [first]
    have entered := stage?_reach (k := { k with holder := some n, waiting := rest }) .entered known
    simp only [release, h]
    rw [entered]
    by_cases same : j = n
    · refine .inr ⟨by rw [same, first], ?_⟩
      rw [same, Function.update_self]
    · left
      rw [Function.update_of_ne same]
      rfl

/-- Handing the lock on takes down nobody new. -/
@[simp] theorem next_release (k : Lock) : k.release.next = k.next := by
  cases h : k.waiting with
  | nil => simp only [release, h]
  | cons =>
    simp only [release, h]
    rfl

/-- Giving up takes down nobody new. -/
@[simp] theorem next_forsake (k : Lock) (id : OperationId) : (k.forsake id).next = k.next := by
  unfold forsake
  split
  · rw [next_release]
    rfl
  · rfl

/-- Who is given up is forgotten, and what the others are for stays. -/
theorem purpose?_forsake (k : Lock) (id : OperationId) :
    (k.forsake id).purpose? = Function.update k.purpose? id none := by
  have dropped : Lock.purpose? { k.drop id with waiting := k.waiting.filter (· ≠ id) } =
      Function.update k.purpose? id none := purpose?_drop
  unfold forsake
  split
  · rw [purpose?_release, dropped]
  · exact dropped

namespace Sound

variable {k : Lock} (sound : k.Sound)

include sound

/-- **Giving up moves only two operations**: the one that is given up is forgotten, and the one who
waited longest may come to work. -/
theorem forsake_stages (id : OperationId) {j : OperationId} {stage : Stage}
    (now : (k.forsake id).stage? j = some stage) :
    k.stage? j = some stage ∨ k.stage? j = some .waiting ∧ stage = .entered := by
  let left : Lock := { k.drop id with waiting := k.waiting.filter (· ≠ id) }
  have stages : left.stage? = Function.update k.stage? id none := stage?_drop
  have others {n : OperationId} (other : n ≠ id) : left.stage? n = k.stage? n := by
    rw [stages, Function.update_of_ne other]
  -- in both cases who is found has not been given up
  have found (h : left.stage? j = some stage) : k.stage? j = some stage := by
    by_cases same : j = id
    · rw [stages, same, Function.update_self] at h
      cases h
    · rwa [others same] at h
  have waits : ∀ n ∈ left.waiting, left.stage? n = some .waiting := by
    intro n hn
    obtain ⟨member, other⟩ := List.mem_filter.mp hn
    rw [others (by simpa using other)]
    exact (sound.waits n).mp member
  unfold Lock.forsake at now
  split at now
  · rcases release_stages waits j with same | ⟨waited, entered⟩
    · exact .inl (found (same ▸ now))
    · refine .inr ⟨?_, Option.some.inj (now.symm.trans entered)⟩
      by_cases same : j = id
      · rw [stages, same, Function.update_self] at waited
        cases waited
      · rwa [others same] at waited
  · exact .inl (found now)

/-- Giving up makes nobody expect more. -/
theorem expects_forsake {id : OperationId} {loss : Loss} (expects : (k.forsake id).Expects loss) :
    k.Expects loss := by
  obtain ⟨j, purpose, stage, now, quiet⟩ := expects
  have other : j ≠ id := by
    rintro rfl
    rw [purpose?_forsake, Function.update_self] at purpose
    cases purpose
  rw [purpose?_forsake, Function.update_of_ne other] at purpose
  refine ⟨j, purpose, ?_⟩
  rcases sound.forsake_stages id now with same | ⟨waited, -⟩
  · exact ⟨stage, same, quiet⟩
  · exact ⟨.waiting, waited, rfl⟩

/-- Whoever the lock is handed on to has done nothing yet. -/
theorem calm_release (free : k.holder = none) : k.release.Calm := by
  have handedOn := sound.release free
  cases h : k.waiting with
  | nil =>
    simp only [Lock.release, h]
    exact calm_of_free rfl
  | cons n rest =>
    have first : k.stage? n = some .waiting := (sound.waits n).mp (by simp [h])
    have known : k.stage? n ≠ none := by simp [first]
    have entered := stage?_reach (k := { k with holder := some n, waiting := rest }) .entered known
    simp only [Lock.release, h]
    exact calm_of_entered n rfl (by rw [entered, Function.update_self])

/-- The lock without an operation that held it, before it is handed on. -/
theorem left {id : OperationId} (holder : k.holder = some id) :
    Sound { k.drop id with holder := none, waiting := k.waiting.filter (· ≠ id) } := by
  refine sound.update stage?_drop (Nat.le_refl _) (absurd rfl) ?_ ?_ ?_ ?_ (sound.queue.filter _)
  · simp
  · intro j hj
    simp [holder, Ne.symm hj]
  · simp
  · intro j hj
    simp [hj]

/-- A lock from which an operation is dropped stays sound. -/
theorem forsake (id : OperationId) : (k.forsake id).Sound := by
  unfold Lock.forsake
  split
  · rename_i holder
    have handedOn := (sound.left holder).release rfl
    exact release_holder { k.drop id with waiting := k.waiting.filter (· ≠ id) } none ▸ handedOn
  · rename_i other
    refine sound.update stage?_drop (Nat.le_refl _) (absurd rfl) ?_ (fun _ _ => Iff.rfl) ?_ ?_
      (sound.queue.filter _)
    · exact ⟨fun holder => absurd holder other, nofun⟩
    · simp
    · intro j hj
      simp [hj]

/-- **Giving up disturbs nobody else.** If the operation held the lock, nobody is at work
afterwards. -/
theorem forsake_calm (id : OperationId) :
    Undisturbed k (k.forsake id) ∨ k.holder = some id ∧ (k.forsake id).Calm := by
  unfold Lock.forsake
  split
  · rename_i holder
    have calm := (sound.left holder).calm_release rfl
    have same := release_holder { k.drop id with waiting := k.waiting.filter (· ≠ id) } none
    exact .inr ⟨holder, same ▸ calm⟩
  · rename_i other
    exact .inl (undisturbed_of_update stage?_drop rfl other)

end Sound

end Lock

/-! ## The move -/

section Move

variable (s : Supervisor) (id : OperationId)

/-- Dropping an operation changes nothing but the lock. -/
theorem affairs_abandon :
    (s.abandon id).1.affairs = { s.affairs with lock := s.affairs.lock.forsake id } := by
  let left : Supervisor := { s with
    operations := s.operations.filter (·.id ≠ id), waiting := s.waiting.filter (· ≠ id) }
  -- the operations are those after collecting
  have dropped : left.affairs =
      { s.affairs with
        lock := { s.lock.drop id with waiting := s.waiting.filter (· ≠ id) } } := by
    have collected := congrArg Lock.operation? (s.lock_collect id)
    exact Affairs.ext (Lock.ext collected rfl rfl rfl) rfl rfl rfl rfl rfl rfl rfl rfl rfl rfl rfl
      rfl rfl rfl
  show (if s.holder = some id then left.release else (left, [])).1.affairs = _
  by_cases holder : s.holder = some id
  · have holder' : s.affairs.lock.holder = some id := holder
    rw [if_pos holder, affairs_release, dropped, Lock.forsake, if_pos holder']
    rfl
  · have holder' : s.affairs.lock.holder ≠ some id := holder
    rw [if_neg holder, dropped, Lock.forsake, if_neg holder']
    rfl

end Move

/-- **Results are collected only when they are there.** Operations may be given up. -/
def Careful (s : Supervisor) : Move → Prop
  | .collect id => ∀ stage, s.stage? id = some stage → ∃ result, stage = .done result
  | _ => True

/-- An orderly move is careful. -/
theorem Orderly.careful {s : Supervisor} {move : Move} (orderly : Orderly s move) :
    Careful s move := by
  cases move with
  | collect => exact orderly
  | _ => trivial

/-- A careful move that gives nothing up is orderly. -/
theorem Careful.orderly {s : Supervisor} {move : Move} (careful : Careful s move)
    (kept : ∀ id, move ≠ .abandon id) : Orderly s move := by
  cases move with
  | collect => exact careful
  | abandon id => exact absurd rfl (kept id)
  | _ => trivial

/-- **A careful move keeps everything in order.** -/
theorem InOrder.careful_step {s : Supervisor} {move : Move} (inOrder : InOrder s)
    (careful : Careful s move) : InOrder (s.step move).1 := by
  by_cases given : ∃ id, move = .abandon id
  · obtain ⟨id, rfl⟩ := given
    have affairs := s.affairs_abandon id
    have dispatch : (s.step (.abandon id)).1.dispatch = s.dispatch :=
      congrArg Affairs.dispatch affairs
    have lock : (s.step (.abandon id)).1.lock = s.lock.forsake id := congrArg Affairs.lock affairs
    exact ⟨dispatch ▸ inOrder.settled, lock ▸ inOrder.sound.forsake id⟩
  · exact inOrder.step (careful.orderly fun id h => given ⟨id, h⟩)

def CarefulRun (xs : List Move) : Prop :=
  ∀ e ∈ machine.history xs, Careful e.before e.action

/-- An orderly run is careful. -/
theorem OrderlyRun.careful {xs : List Move} (orderly : OrderlyRun xs) : CarefulRun xs :=
  fun e he => (orderly e he).careful

def Move.collects : Move → Bool
  | .collect _ => true
  | _ => false

/-- A run in which nothing is collected is careful. -/
theorem carefulRun_of_uncollected {xs : List Move} (h : ∀ x ∈ xs, x.collects = false) :
    CarefulRun xs := by
  intro e he
  have uncollected := h _ (machine.action_mem he)
  cases hx : e.action with
  | collect =>
    rw [hx] at uncollected
    cases uncollected
  | _ => trivial

theorem carefulRun_concat {xs : List Move} {x : Move} :
    CarefulRun (xs ++ [x]) ↔ CarefulRun xs ∧ Careful (machine.run xs) x := by
  rw [CarefulRun, CarefulRun, machine.history_concat, List.forall_mem_append,
    List.forall_mem_singleton]

/-- A careful run is careful up to each of its events. -/
theorem CarefulRun.upTo {xs : List Move} (careful : CarefulRun xs)
    {past later : List machine.Event} {e : machine.Event}
    (cut : machine.history xs = past ++ e :: later) :
    ∃ ys x, past = machine.history ys ∧ e = ⟨machine.run ys, x⟩ ∧ CarefulRun (ys ++ [x]) :=
  machine.history_upTo careful cut

/-- **Operations exclude each other**, also when some are given up. -/
theorem CarefulRun.inOrder {xs : List Move} (careful : CarefulRun xs) :
    InOrder (machine.run xs) := by
  induction xs using List.reverseRecOn with
  | nil => exact inOrder_initial
  | append_singleton xs x ih =>
    obtain ⟨before, now⟩ := carefulRun_concat.mp careful
    rw [machine.run_concat]
    exact (ih before).careful_step now

/-- Every event of a careful run is careful, and finds things in order. -/
theorem CarefulRun.event {xs : List Move} (careful : CarefulRun xs) {e : machine.Event}
    (h : e ∈ machine.history xs) : InOrder e.before ∧ Careful e.before e.action := by
  obtain ⟨past, later, cut⟩ := List.append_of_mem h
  obtain ⟨ys, x, -, rfl, upTo⟩ := careful.upTo cut
  obtain ⟨before, now⟩ := carefulRun_concat.mp upTo
  exact ⟨before.inOrder, now⟩

/-- **A move of a careful run** gives an operation up, or it is a change, and what it collects is
there. -/
theorem CarefulRun.change {xs : List Move} {x : Move} (careful : CarefulRun (xs ++ [x])) :
    (∃ id, x = .abandon id ∧ (machine.run (xs ++ [x])).affairs =
      { (machine.run xs).affairs with lock := (machine.run xs).affairs.lock.forsake id }) ∨
    Change (machine.run xs).affairs x (machine.run (xs ++ [x])).affairs ∧
      ∀ id, x = .collect id → (machine.run xs).affairs.lock.Done id := by
  obtain ⟨before, now⟩ := carefulRun_concat.mp careful
  rw [machine.run_concat]
  by_cases given : ∃ id, x = .abandon id
  · obtain ⟨id, rfl⟩ := given
    exact .inl ⟨id, rfl, affairs_abandon _ id⟩
  · refine .inr ⟨step_change (now.orderly fun id h => given ⟨id, h⟩) before.inOrder.settled, ?_⟩
    rintro id rfl
    exact now

/-- A stop is given up after it has taken the session away, and a start launches another one. -/
def givenUpRun : List Move :=
  [Move.begin .start, .proceed 0 .nothing] ++ launching 0 7 ++
    [Move.begin .stop, .proceed 1 .nothing, .abandon 1, .dispatch fun _ => false, .begin .start,
      .proceed 2 .nothing] ++ launching 2 8

end CompilerSession.Supervisor
