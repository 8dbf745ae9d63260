import CompilerSession.Proofs.Session.Dispatching

/-
Which channel belongs to which process.

A process that is launched gets a generation, and the dispatcher is told to attach its channel under
that. When operations may be given up in the middle, orders of theirs stay under way, and a channel
may be attached that nobody waits for any more. So what the dispatcher has attached cannot be read
off the stage of the operation at work. It can be read off the list of all channels, those that the
dispatcher was told to attach and those that it is to be told (`channels`): no generation is there
twice (`run_generations`), and no process (`Affairs.Bonds`).

A process is parted from the dispatcher when nothing that was told or is to be told can reach it any
more (`Affairs.Parted`), and once it is parted it stays so. The main statement is that an operation
kills only what is parted (`run_bonds`, by the stage `killing`); it rests on two smaller ones. The
first is that an order is answered to the operation that gave it, if that still waits
(`Affairs.Accounted`), the second that the generation of a loss was attached once and is attached no
more (`run_lost`).
-/

set_option autoImplicit false

namespace CompilerSession.Supervisor

open Dispatch (Loss Effect Input Settled)

/-! ## Who waits for an answer -/

/-- The operation that gave an order. -/
def asker? : Dispatch.Command → Option OperationId
  | .attach _ _ id | .detach _ id => some id
  | .submit _ _ _ | .cancel _ | .shutdown => none

/-- Who is at this stage waits for the answer to this order. -/
def Stage.Awaits : Stage → Dispatch.Command → Prop
  | .detaching l, .detach g _ => l.generation = g
  | .attaching l, .attach g p _ => l.generation = g ∧ l.process = p
  | _, _ => False

/-- The operation waits for an answer of the dispatcher. -/
def Stage.asks : Stage → Bool
  | .detaching _ | .attaching _ => true
  | _ => false

/-- Only a stage of asking awaits an answer. -/
theorem Stage.Awaits.asks {stage : Stage} {c : Dispatch.Command} (awaits : stage.Awaits c) :
    stage.asks = true := by
  cases stage with
  | detaching | attaching => rfl
  | _ => exact awaits.elim

namespace Lock

/-- **Who waits for an answer is left alone**, unless it is dropped: whoever comes to a new stage
was not waiting for one. -/
structure Spares (k k' : Lock) : Prop where
  next : k.next ≤ k'.next
  stages : ∀ id, id < k.next → ∀ stage, k'.stage? id = some stage →
    k.stage? id = some stage ∨ ∃ before, k.stage? id = some before ∧ before.asks = false

variable {k k' k'' : Lock} {id : OperationId}

theorem Spares.refl (k : Lock) : k.Spares k :=
  ⟨Nat.le_refl _, fun _ _ _ => .inl⟩

theorem Spares.trans (first : k.Spares k') (second : k'.Spares k'') : k.Spares k'' := by
  refine ⟨Nat.le_trans first.next second.next, fun j given stage now => ?_⟩
  rcases second.stages j (Nat.lt_of_lt_of_le given first.next) stage now with
    same | ⟨between, known, quiet⟩
  · exact first.stages j given stage same
  · rcases first.stages j given between known with same | earlier
    · exact .inr ⟨between, same, quiet⟩
    · exact .inr earlier

/-- One operation comes to a new stage. -/
theorem spares_of_update {now : Option Stage} (stages : k'.stage? = Function.update k.stage? id now)
    (next : k.next ≤ k'.next)
    (quiet : id < k.next → ∀ stage, now = some stage →
      ∃ before, k.stage? id = some before ∧ before.asks = false) : k.Spares k' := by
  refine ⟨next, fun j given stage hj => ?_⟩
  rw [stages, Function.update_apply] at hj
  split at hj
  · rename_i same
    subst same
    exact .inr (quiet given stage hj)
  · exact .inl hj

/-- An operation that was not asking may go on. -/
theorem spares_reach {before stage : Stage} (known : k.stage? id = some before)
    (quiet : before.asks = false) : k.Spares (k.reach id stage) :=
  spares_of_update (stage?_reach _ (by simp [known])) (Nat.le_refl _)
    fun _ _ _ => ⟨before, known, quiet⟩

/-- An operation may leave, whatever it was waiting for. -/
theorem spares_drop (k : Lock) (id : OperationId) : k.Spares (k.drop id) :=
  spares_of_update stage?_drop (Nat.le_refl _) fun _ _ => nofun

/-- Who has the lock next was waiting for that. -/
theorem spares_release (waits : ∀ n ∈ k.waiting, k.stage? n = some .waiting) :
    k.Spares k.release := by
  refine ⟨Nat.le_of_eq (next_release k).symm, fun j _ stage now => ?_⟩
  rcases release_stages waits j with same | ⟨waited, -⟩
  · exact .inl (same ▸ now)
  · exact .inr ⟨.waiting, waited, rfl⟩

namespace Sound

variable (sound : k.Sound)

include sound

/-- An operation may come. -/
theorem spares_enter (purpose : Purpose) : k.Spares (k.enter purpose) := by
  obtain ⟨stage, -, stages⟩ := stage?_enter purpose (sound.fresh k.next (Nat.le_refl _))
  refine spares_of_update stages ?_ fun given => absurd given (Nat.lt_irrefl _)
  unfold Lock.enter
  split <;> exact Nat.le_succ _

theorem spares_add (purpose : Purpose) (stage : Stage) : k.Spares (k.add purpose stage) :=
  spares_of_update (stage?_add _ _ (sound.fresh k.next (Nat.le_refl _))) (Nat.le_succ _)
    fun given => absurd given (Nat.lt_irrefl _)

/-- The holder may finish, if it was not asking. -/
theorem spares_finish {before last : Stage} (holder : k.holder = some id)
    (known : k.stage? id = some before) (quiet : before.asks = false) :
    k.Spares (k.finish id last) := by
  have reached : k.Spares (k.reach id last) := spares_reach known quiet
  refine reached.trans (spares_release fun n waits => ?_)
  have waiting : k.stage? n = some .waiting := (sound.waits n).mp waits
  have other : n ≠ id := by
    rintro rfl
    obtain ⟨stage, here, holds⟩ := (sound.held n).mp holder
    obtain rfl := Option.some.inj (here.symm.trans waiting)
    cases holds
  rw [stage?_reach _ (by simp [known]), Function.update_of_ne other, waiting]

/-- Who is given up leaves its orders to nobody else. -/
theorem spares_forsake (id : OperationId) : k.Spares (k.forsake id) := by
  refine ⟨Nat.le_of_eq (next_forsake k id).symm, fun j _ stage now => ?_⟩
  rcases sound.forsake_stages id now with same | ⟨waited, -⟩
  · exact .inl same
  · exact .inr ⟨.waiting, waited, rfl⟩

end Sound

/-- A restart that has drawn its ticket may ask for the lock. -/
theorem spares_ask (drawn : k.stage? id = some .drawn) : k.Spares (k.ask id) := by
  obtain ⟨stage, -, stages⟩ := stage?_ask drawn
  refine spares_of_update stages ?_ fun _ _ _ => ⟨.drawn, drawn, rfl⟩
  unfold ask
  split <;> exact Nat.le_refl _

end Lock

/-- **Orders are accounted for.** Nobody has given two of them, and who gave one waits for its
answer, if it was not given up. -/
structure Affairs.Accounted (a : Affairs) : Prop where
  once : (a.orders.filterMap asker?).Nodup
  given : ∀ c ∈ a.orders, ∀ id, asker? c = some id → id < a.lock.next
  awaited : ∀ c ∈ a.orders, ∀ id, asker? c = some id →
    ∀ stage, a.lock.stage? id = some stage → stage.Awaits c

section Accounted

variable {a a' : Affairs} {o : Operation} {seen : Observation} {id : OperationId}

/-- What leaves the orders alone, and those who wait for their answers, keeps the account. -/
theorem Affairs.Accounted.frame (accounted : a.Accounted) (orders : a'.orders = a.orders)
    (spares : a.lock.Spares a'.lock) : a'.Accounted := by
  refine ⟨orders ▸ accounted.once, fun c hc id asks => ?_, fun c hc id asks stage now => ?_⟩
  · exact Nat.lt_of_lt_of_le (accounted.given c (orders ▸ hc) id asks) spares.next
  · have hc : c ∈ a.orders := orders ▸ hc
    rcases spares.stages id (accounted.given c hc id asks) stage now with
      same | ⟨before, known, quiet⟩
    · exact accounted.awaited c hc id asks stage same
    · have awaits := (accounted.awaited c hc id asks before known).asks
      cases quiet.symm.trans awaits

/-- Who gives an order has no other one under way. -/
theorem Affairs.Accounted.order (accounted : a.Accounted) {before asked told : Stage}
    {c : Dispatch.Command} (known : a.lock.stage? id = some before) (quiet : before.asks = false)
    (given : id < a.lock.next) (mine : asker? c = some id) (awaits : asked.Awaits c) :
    (a.order id c asked told).Accounted := by
  unfold Affairs.order
  split
  · exact accounted.frame rfl (Lock.spares_reach known quiet)
  -- whoever gives this order was not waiting for the answer to an earlier one
  have other {d : Dispatch.Command} (hd : d ∈ a.orders) : asker? d ≠ some id := by
    intro asks
    have awaits := (accounted.awaited d hd id asks before known).asks
    cases quiet.symm.trans awaits
  refine ⟨?_, fun d hd j asks => ?_, fun d hd j asks stage now => ?_⟩
  · show ((a.orders ++ [c]).filterMap asker?).Nodup
    rw [List.filterMap_append, List.filterMap_cons_some mine, List.filterMap_nil,
      ← List.concat_eq_append]
    refine List.Nodup.concat (fun again => ?_) accounted.once
    obtain ⟨d, hd, asks⟩ := List.mem_filterMap.mp again
    exact other hd asks
  · rcases List.mem_append.mp hd with old | new
    · exact accounted.given d old j asks
    · rw [List.mem_singleton.mp new, mine] at asks
      exact Option.some.inj asks ▸ given
  · rw [Lock.stage?_reach _ (by simp [known]), Function.update_apply] at now
    rcases List.mem_append.mp hd with old | new
    · have different : j ≠ id := by
        rintro rfl
        exact other old asks
      rw [if_neg different] at now
      exact accounted.awaited d old j asks stage now
    · rw [List.mem_singleton.mp new] at asks ⊢
      obtain rfl := Option.some.inj (mine.symm.trans asks)
      rw [if_pos rfl] at now
      exact Option.some.inj now ▸ awaits

/-- Operations that go on were not waiting for an answer. -/
theorem Advance.quiet (rule : Advance a o seen a') : o.stage.asks = false := by
  cases rule <;> simp_all [Stage.asks]

/-- **Every rule keeps the account**: an operation that asks has given the order it waits for. -/
theorem Advance.accounted (rule : Advance a o seen a') (sound : a.lock.Sound)
    (known : a.lock.operation? o.id = some o) (accounted : a.Accounted) : a'.Accounted := by
  have stage := Lock.stage?_of_known known
  have holder := rule.holder sound known
  have quiet := rule.quiet
  have given := sound.holder_lt holder
  have spares : a.lock.Spares a'.lock := by
    rcases rule.lock with ⟨now, -, lock⟩ | ⟨result, lock⟩
    · exact lock ▸ Lock.spares_reach stage quiet
    · exact lock ▸ sound.spares_finish holder stage quiet
  have same (b : Affairs) (orders : b.orders = a.orders) (lock : b.lock = a.lock) : b.Accounted :=
    accounted.frame orders (lock ▸ .refl _)
  cases rule with
  | stop l | restart _ l =>
    refine (same _ ?_ ?_).order (c := .detach l.generation o.id) stage quiet given rfl ?_ <;> rfl
  | fit _ _ l =>
    refine (same _ ?_ ?_).order (c := .attach l.generation l.process o.id) stage quiet given rfl
      ⟨?_, ?_⟩ <;> rfl
  | _ => exact accounted.frame rfl spares

/-- What an answer changes: how far the one is that waited for it. -/
theorem reply_stages (a : Affairs) (id : OperationId) (e : Effect) :
    (a.reply id e).orders = a.orders ∧ (a.reply id e).lock.next = a.lock.next ∧
      ∀ j, j ≠ id → (a.reply id e).lock.stage? j = a.lock.stage? j := by
  refine ⟨?_, ?_, fun j other => ?_⟩
  · unfold Affairs.reply
    split <;> rfl
  · unfold Affairs.reply
    split <;> rfl
  · rcases lock_reply a id e with same | ⟨before, after, known, -, lock⟩
    · rw [same]
    · rw [lock, Lock.stage?_reach _ (by simp [known]), Function.update_of_ne other]

/-- An order that is taken is gone, and its answer goes to nobody else. -/
theorem Affairs.Accounted.taken (accounted : a.Accounted) {b : Affairs} {c : Dispatch.Command}
    (first : a.orders = c :: b.orders) (lock : b.lock = a.lock) (mine : asker? c = some id)
    (e : Effect) : (b.reply id e).Accounted := by
  obtain ⟨orders, next, others⟩ := reply_stages b id e
  have once := accounted.once
  rw [first, List.filterMap_cons_some mine, List.nodup_cons] at once
  have left {x : Dispatch.Command} (hx : x ∈ b.orders) : x ∈ a.orders := by
    rw [first]
    exact List.mem_cons_of_mem _ hx
  refine ⟨by rw [orders]; exact once.2, fun x hx j asks => ?_, fun x hx j asks stage now => ?_⟩
  · rw [orders] at hx
    rw [next, lock]
    exact accounted.given x (left hx) j asks
  · rw [orders] at hx
    have other : j ≠ id := by
      rintro rfl
      exact once.1 (List.mem_filterMap.mpr ⟨x, hx, asks⟩)
    rw [others j other, lock] at now
    exact accounted.awaited x (left hx) j asks stage now

/-- The dispatcher keeps the account, for it answers the order that it takes. -/
theorem Handled.accounted (handled : Handled a a') (accounted : a.Accounted) : a'.Accounted := by
  cases handled with
  | noMatter | lost | closed => exact accounted.frame rfl (.refl _)
  | attached d g p asker rest first =>
    exact accounted.taken (b := { a with dispatch := d, orders := rest }) first rfl rfl _
  | detached d g n asker rest first =>
    exact accounted.taken (b := { a with dispatch := d, orders := rest }) first rfl rfl _
  | refused c asker rest first refused =>
    refine accounted.taken (b := { a with orders := rest }) first rfl ?_ _
    cases c with
    | attach | detach =>
      obtain rfl := Effect.refused.inj (List.cons.inj refused).1
      rfl
    | submit | cancel | shutdown => simp [Dispatch.refuse] at refused

/-- Every move keeps the account. -/
theorem Change.accounted {move : Move} (change : Change a move a') (sound : a.lock.Sound)
    (accounted : a.Accounted) : a'.Accounted := by
  cases change with
  | aside | askInVain | noInput | noLoss | stuck => exact accounted
  | begin | monitor => exact accounted.frame rfl (sound.spares_enter _)
  | draw => exact accounted.frame rfl (sound.spares_add _ _)
  | ask id drawn => exact accounted.frame rfl (Lock.spares_ask drawn)
  | dispatch _ _ handled => exact handled.accounted accounted
  | proceed o seen _ known rule => exact rule.accounted sound known accounted
  | leave id _ leaving => exact accounted.frame rfl (Lock.spares_reach leaving rfl)
  | collect id => exact accounted.frame rfl (Lock.spares_drop _ id)

/-- **Orders are accounted for in every careful run.** -/
theorem run_accounted {xs : List Move} (careful : CarefulRun xs) :
    (machine.run xs).affairs.Accounted := by
  induction xs using List.reverseRecOn with
  | nil => exact ⟨List.nodup_nil, nofun, nofun⟩
  | append_singleton xs x ih =>
    have before := (carefulRun_concat.mp careful).1
    have sound := before.inOrder.sound
    rcases careful.change with ⟨id, -, affairs⟩ | ⟨change, -⟩
    · rw [affairs]
      exact (ih before).frame rfl (sound.spares_forsake id)
    · exact change.accounted sound (ih before)

end Accounted

/-! ## Losses -/

/-- Two parts of a list without repetitions have nothing in common. -/
theorem apart_of_nodup_map {α β : Type} {f : α → β} {xs ys : List α}
    (distinct : ((xs ++ ys).map f).Nodup) {x y : α} (hx : x ∈ xs) (hy : y ∈ ys) : f x ≠ f y := by
  rw [List.map_append, List.nodup_append] at distinct
  exact distinct.2.2 _ (List.mem_map_of_mem hx) _ (List.mem_map_of_mem hy)

section Lost

variable {a a' : Affairs}

/-- **What the dispatcher has attached after an input**: what it had before, or nothing, or the
channel that it is told to attach. -/
theorem Handled.attached_cases (handled : Handled a a') :
    a'.dispatch.attached = a.dispatch.attached ∨ a'.dispatch.attached = none ∨
      ∃ g p, (g, p) ∈ a.ordered ∧ a.dispatch.ended = false ∧ a'.dispatch.attached = some g := by
  cases handled with
  | noMatter d attached => exact .inl attached
  | lost d loss was now => exact .inr (.inl now)
  | closed d closing told now => exact .inr (.inl now)
  | attached d g p asker rest first live now =>
    refine .inr (.inr ⟨g, p, ?_, live, ?_⟩)
    · rw [Affairs.ordered, first]
      exact List.mem_cons_self
    · rw [(closing_reply { a with dispatch := d, orders := rest } asker _).2]
      exact now
  | detached d g n asker rest first live now =>
    rw [(closing_reply { a with dispatch := d, orders := rest } asker _).2]
    rw [show (Affairs.dispatch { a with dispatch := d, orders := rest }).attached = _ from now]
    split
    · exact .inr (.inl rfl)
    · exact .inl rfl
  | refused c asker rest =>
    exact .inl (congrArg _ (closing_reply { a with orders := rest } asker _).2)

/-- A loss is new only if it is that of the channel that was attached. -/
theorem Handled.pending (handled : Handled a a') {loss : Loss} (pending : a'.Pending loss) :
    a.Pending loss ∨ a.dispatch.attached = some loss.generation ∧ a'.dispatch.attached = none := by
  cases handled with
  | noMatter | closed => exact .inl pending
  | lost d loss' was now =>
    rcases pending with new | expected
    · rcases List.mem_append.mp new with old | new
      · exact .inl (.inl old)
      · exact .inr ⟨List.mem_singleton.mp new ▸ was, now⟩
    · exact .inl (.inr expected)
  | attached d _ _ _ rest | detached d _ _ _ rest =>
    exact .inl ((pending_reply (a := { a with dispatch := d, orders := rest }) _ _ loss).mp pending)
  | refused _ _ rest =>
    exact .inl ((pending_reply (a := { a with orders := rest }) _ _ loss).mp pending)

/-- What the dispatcher was told stays told. -/
theorem mem_told_concat {xs : List Move} {c : Nat × ProcessId}
    (h : c ∈ told (stimuli (machine.history xs))) (x : Move) :
    c ∈ told (stimuli (machine.history (xs ++ [x]))) := by
  rw [machine.history_concat, stimuli_concat, told, List.filterMap_append]
  exact List.mem_append_left _ h

/-- **A loss is that of a channel which is attached no more.** Its generation was attached, and it
does not come back. -/
theorem run_lost {xs : List Move} (careful : CarefulRun xs) :
    ∀ loss, (machine.run xs).affairs.Pending loss →
      (∃ p, (loss.generation, p) ∈ told (stimuli (machine.history xs))) ∧
        (machine.run xs).dispatch.attached ≠ some loss.generation := by
  induction xs using List.reverseRecOn with
  | nil => rintro loss (none | ⟨id, none, -⟩) <;> cases none
  | append_singleton xs x ih =>
    intro loss pending
    have before := (carefulRun_concat.mp careful).1
    have sound := before.inOrder.sound
    -- a loss that is not new stays that of a channel which the dispatcher was told of
    have old (pending : (machine.run xs).affairs.Pending loss)
        (same : (machine.run (xs ++ [x])).dispatch = (machine.run xs).dispatch) :
        (∃ p, (loss.generation, p) ∈ told (stimuli (machine.history (xs ++ [x])))) ∧
          (machine.run (xs ++ [x])).dispatch.attached ≠ some loss.generation := by
      obtain ⟨⟨p, member⟩, unattached⟩ := ih before loss pending
      exact ⟨⟨p, mem_told_concat member x⟩, by rwa [same]⟩
    rcases careful.change with ⟨id, -, affairs⟩ | ⟨change, collects⟩
    · refine old ?_ (congrArg Affairs.dispatch affairs)
      rw [affairs] at pending
      exact pending.imp_right sound.expects_forsake
    rcases change.pending sound collects with
      ⟨o, seen, -, known, rule⟩ | ⟨-, -, handled⟩ | ⟨bystands, same⟩
    · exact old ((rule.pending sound known loss).1 pending) rule.dispatch
    · rcases handled.pending pending with pending | ⟨was, now⟩
      · obtain ⟨⟨p, member⟩, unattached⟩ := ih before loss pending
        refine ⟨⟨p, mem_told_concat member x⟩, fun attached => ?_⟩
        rcases handled.attached_cases with same | none | ⟨g, q, ordered, -, now⟩
        · exact unattached (same ▸ attached)
        · cases none.symm.trans attached
        · -- the channel that is attached now was not told of before
          obtain rfl := Option.some.inj (now.symm.trans attached)
          exact apart_of_nodup_map (run_generations before).1 member ordered rfl
      · obtain ⟨w, -, member⟩ := attached_watched before was
        have now : (machine.run (xs ++ [x])).dispatch.attached = none := now
        exact ⟨⟨w, mem_told_concat member x⟩, now ▸ (Option.some_ne_none _).symm⟩
    · exact old ((same loss).mp pending) bystands.dispatch

end Lost

/-! ## Parted from the dispatcher -/

/-- The process that an operation at this stage deals with. -/
def Stage.process? : Stage → Option ProcessId
  | .detaching l | .detached l | .attaching l | .attached l | .refused l => some l.process
  | .killing p _ | .probing p _ => some p
  | .drawn | .waiting | .entered | .launching | .leaving | .done _ => none

section Bonds

variable {a a' : Affairs} {heard new : List (Nat × ProcessId)} {p : ProcessId}

/-- **The process is parted from the dispatcher**: no channel of it is attached, of all that the
dispatcher has `heard`, and none is to be attached. -/
structure Affairs.Parted (heard : List (Nat × ProcessId)) (a : Affairs) (p : ProcessId) : Prop where
  unattached : ∀ g, (g, p) ∈ heard → a.dispatch.attached ≠ some g
  unordered : ∀ g, (g, p) ∉ a.ordered

/-- A process without a channel is parted from the dispatcher. -/
theorem parted_of_fresh (fresh : ∀ g, (g, p) ∉ heard ++ a.ordered) : a.Parted heard p where
  unattached g member := absurd (List.mem_append_left _ member) (fresh g)
  unordered g member := fresh g (List.mem_append_right _ member)

/-- The one channel of a process is attached no more. -/
theorem parted_of_unattached (distinct : ((heard ++ a.ordered).map Prod.snd).Nodup) {g : Nat}
    (member : (g, p) ∈ heard) (unattached : a.dispatch.attached ≠ some g) : a.Parted heard p := by
  refine ⟨fun g' again => ?_, fun g' ordered => apart_of_nodup_map distinct member ordered rfl⟩
  have same := List.inj_on_of_nodup_map distinct (List.mem_append_left _ again)
    (List.mem_append_left _ member) rfl
  obtain rfl : g' = g := congrArg Prod.fst same
  exact unattached

/-- Whether a process is parted depends on what is attached and what is ordered alone. -/
theorem parted_congr (attached : a'.dispatch.attached = a.dispatch.attached)
    (ordered : a'.ordered = a.ordered) (p : ProcessId) : a'.Parted heard p ↔ a.Parted heard p := by
  constructor
  · rintro ⟨unattached, unordered⟩
    exact ⟨fun g member => attached ▸ unattached g member, ordered ▸ unordered⟩
  · rintro ⟨unattached, unordered⟩
    exact ⟨fun g member => attached ▸ unattached g member, ordered ▸ unordered⟩

/-- Another order does not concern a process that is parted, if it is for another one. -/
theorem Affairs.Parted.order (parted : a.Parted heard p) {g : Nat} {q : ProcessId}
    (attached : a'.dispatch.attached = a.dispatch.attached)
    (ordered : a'.ordered = a.ordered ++ [(g, q)]) (other : q ≠ p) : a'.Parted heard p := by
  refine ⟨fun g' member => ?_, fun g' member => ?_⟩
  · rw [attached]
    exact parted.unattached g' member
  · rw [ordered, List.mem_append, List.mem_singleton] at member
    rcases member with old | same
    · exact parted.unordered g' old
    · exact other (congrArg Prod.snd same).symm

/-- **Who is parted stays so** when the dispatcher goes on: what it attaches next is a channel that
it has not heard of. -/
theorem Affairs.Parted.hear (parted : a.Parted heard p)
    (generations : ((heard ++ a.ordered).map Prod.fst).Nodup)
    (ordered : a.ordered = new ++ a'.ordered)
    (attached : a'.dispatch.attached = a.dispatch.attached ∨ a'.dispatch.attached = none ∨
      ∃ g q, (g, q) ∈ a.ordered ∧ a.dispatch.ended = false ∧ a'.dispatch.attached = some g) :
    a'.Parted (heard ++ new) p := by
  refine ⟨fun g member now => ?_, fun g member => ?_⟩
  · have old : (g, p) ∈ heard := by
      rcases List.mem_append.mp member with old | taken
      · exact old
      · refine absurd ?_ (parted.unordered g)
        rw [ordered]
        exact List.mem_append_left _ taken
    rcases attached with same | none | ⟨g', q, next, -, now'⟩
    · exact parted.unattached g old (same ▸ now)
    · cases none.symm.trans now
    · obtain rfl := Option.some.inj (now'.symm.trans now)
      exact apart_of_nodup_map generations old next rfl
  · refine parted.unordered g ?_
    rw [ordered]
    exact List.mem_append_right _ member

namespace Affairs

/-- **What holds of the process that an operation deals with**, stage by stage, and of that of the
session: it has no channel yet, or the dispatcher has heard of its channel, or it is parted from the
dispatcher. -/
def Knows (heard : List (Nat × ProcessId)) (a : Affairs) : Option Stage → Prop
  | none | some .entered => ∀ l, a.session = some l → (l.generation, l.process) ∈ heard
  | some .launching | some (.attaching _) => a.session = none
  | some (.probing p _) => a.session = none ∧ p < a.spawned ∧ ∀ g, (g, p) ∉ heard ++ a.ordered
  | some (.attached l) | some (.detaching l) =>
    a.session = none ∧ (l.generation, l.process) ∈ heard
  | some (.detached l) | some (.refused l) => a.session = none ∧ a.Parted heard l.process
  | some (.killing p _) => a.session = none ∧ a.Parted heard p
  | some .drawn | some .waiting | some .leaving | some (.done _) => False

/-- **Processes and channels.** No process has two channels, only those that were spawned have any,
and the operation at work knows about that of its own. -/
structure Bonds (heard : List (Nat × ProcessId)) (a : Affairs) : Prop where
  processes : ((heard ++ a.ordered).map Prod.snd).Nodup
  spawned : ∀ c ∈ heard ++ a.ordered, c.2 < a.spawned
  knows : a.Knows heard a.lock.at?

/-- At every stage the dispatcher has heard of the channel of the session, if there is one. -/
theorem Knows.session {stage : Option Stage} (knows : a.Knows heard stage) :
    ∀ l, a.session = some l → (l.generation, l.process) ∈ heard := by
  have nothing (none : a.session = none) :
      ∀ l, a.session = some l → (l.generation, l.process) ∈ heard := by
    intro l here
    cases none.symm.trans here
  cases stage with
  | none => exact knows
  | some stage =>
    cases stage with
    | entered => exact knows
    | launching | attaching => exact nothing knows
    | probing | attached | detaching | detached | refused | killing => exact nothing knows.1
    | drawn | waiting | leaving | done => exact knows.elim

/-- Who deals with a process has no session beside it. -/
theorem Knows.alone {stage : Stage} {p : ProcessId} (knows : a.Knows heard (some stage))
    (mine : stage.process? = some p) : a.session = none := by
  cases stage with
  | attaching => exact knows
  | probing | attached | detaching | detached | refused | killing => exact knows.1
  | drawn | waiting | entered | launching | leaving | done => cases mine

/-- The holder's stage tells what is known of its channels. -/
theorem Bonds.knows_at (bonds : a.Bonds heard) {id : OperationId} {stage : Stage}
    (holder : a.lock.holder = some id) (here : a.lock.stage? id = some stage) :
    a.Knows heard (some stage) := by
  have at_ := (Lock.at?_of_holder holder).trans here
  exact at_ ▸ bonds.knows

/-- While the lock is free, there is only the session to know of. -/
theorem knows_of_calm (calm : a.lock.Calm)
    (session : ∀ l, a.session = some l → (l.generation, l.process) ∈ heard) :
    a.Knows heard a.lock.at? := by
  cases h : a.lock.at? with
  | none => exact session
  | some stage =>
    rw [calm stage h]
    exact session

/-- What is known of a process is about the session, the dispatcher and the orders. -/
theorem Knows.frame {stage : Option Stage} (knows : a.Knows heard stage)
    (session : a'.session = a.session) (attached : a'.dispatch.attached = a.dispatch.attached)
    (ordered : a'.ordered = a.ordered) (spawned : a'.spawned = a.spawned) :
    a'.Knows heard stage := by
  have parted (p : ProcessId) : a'.Parted heard p ↔ a.Parted heard p :=
    parted_congr attached ordered p
  cases stage with
  | none => simpa only [Knows, session] using knows
  | some stage =>
    cases stage with
    | drawn | waiting | leaving | done => exact knows.elim
    | _ => simpa only [Knows, session, ordered, spawned, parted] using knows

/-- A move that is no matter to who is at work breaks no bond, nor does one after which nobody is at
work. -/
theorem Bonds.frame (bonds : a.Bonds heard) (session : a'.session = a.session)
    (attached : a'.dispatch.attached = a.dispatch.attached) (ordered : a'.ordered = a.ordered)
    (spawned : a'.spawned = a.spawned) (lock : a'.lock.at? = a.lock.at? ∨ a'.lock.Calm) :
    a'.Bonds heard := by
  refine ⟨by rw [ordered]; exact bonds.processes, by rw [ordered, spawned]; exact bonds.spawned, ?_⟩
  rcases lock with same | calm
  · rw [same]
    exact bonds.knows.frame session attached ordered spawned
  · exact knows_of_calm calm fun l here => bonds.knows.session l (session ▸ here)

/-- The dispatcher hears of its next channel, or of something else. -/
theorem Bonds.hear (bonds : a.Bonds heard)
    (generations : ((heard ++ a.ordered).map Prod.fst).Nodup)
    (ordered : a.ordered = new ++ a'.ordered)
    (attached : a'.dispatch.attached = a.dispatch.attached ∨ a'.dispatch.attached = none ∨
      ∃ g q, (g, q) ∈ a.ordered ∧ a.dispatch.ended = false ∧ a'.dispatch.attached = some g)
    (session : a'.session = a.session) (spawned : a'.spawned = a.spawned)
    (lock : a'.lock = a.lock) : a'.Bonds (heard ++ new) := by
  -- what moves from what is ordered to what was heard is known all the same
  have same : heard ++ new ++ a'.ordered = heard ++ a.ordered := by
    rw [List.append_assoc, ← ordered]
  have more {c : Nat × ProcessId} (h : c ∈ heard) : c ∈ heard ++ new := List.mem_append_left _ h
  have parted {q : ProcessId} (h : a.Parted heard q) := h.hear generations ordered attached
  refine ⟨same ▸ bonds.processes, ?_, ?_⟩
  · rw [same, spawned]
    exact bonds.spawned
  have knows := bonds.knows
  rw [lock]
  cases h : a.lock.at? with
  | none =>
    rw [h] at knows
    exact fun l here => more (knows l (session ▸ here))
  | some stage =>
    rw [h] at knows
    cases stage with
    | drawn | waiting | leaving | done => exact knows.elim
    | entered => exact fun l here => more (knows l (session ▸ here))
    | launching | attaching => exact session.trans knows
    | attached | detaching => exact ⟨session.trans knows.1, more knows.2⟩
    | detached | refused | killing => exact ⟨session.trans knows.1, parted knows.2⟩
    | probing q =>
      obtain ⟨none, born, fresh⟩ := knows
      exact ⟨session.trans none, spawned ▸ born, by rw [same]; exact fresh⟩

/-- Who is answered knows what the answer means. -/
theorem Bonds.reply (bonds : a.Bonds heard) (sound : a.lock.Sound) (id : OperationId) (e : Effect)
    (means : ∀ before after, a.lock.stage? id = some before → before.answered e = some after →
      a.Knows heard (some before) → a.Knows heard (some after)) : (a.reply id e).Bonds heard := by
  unfold Affairs.reply
  split
  · rename_i after answer
    obtain ⟨before, here, answered⟩ := Option.bind_eq_some_iff.mp answer
    have holder := sound.holder here (answered_holds answered).1
    have knows := means before after here answered (bonds.knows_at holder here)
    refine ⟨bonds.processes, bonds.spawned, ?_⟩
    rw [Lock.at?_reach here holder]
    exact knows.frame rfl rfl rfl rfl
  · exact bonds

end Affairs

/-- An answer orders nothing. -/
theorem ordered_reply (a : Affairs) (id : OperationId) (e : Effect) :
    (a.reply id e).ordered = a.ordered :=
  congrArg (List.filterMap _) (reply_stages a id e).1

/-- **An order that is taken and answered breaks no bond**, if the answer means what the operation
takes it for: it is that operation which waits for it. -/
theorem Affairs.Bonds.take (bonds : a.Bonds heard) (sound : a.lock.Sound) (accounted : a.Accounted)
    (generations : ((heard ++ a.ordered).map Prod.fst).Nodup) {b : Affairs} {c : Dispatch.Command}
    {id : OperationId} (first : a.orders = c :: b.orders) (mine : asker? c = some id) (e : Effect)
    (ordered : a.ordered = new ++ (b.reply id e).ordered)
    (attached : (b.reply id e).dispatch.attached = a.dispatch.attached ∨
      (b.reply id e).dispatch.attached = none ∨ ∃ g q, (g, q) ∈ a.ordered ∧
        a.dispatch.ended = false ∧ (b.reply id e).dispatch.attached = some g)
    (session : b.session = a.session) (spawned : b.spawned = a.spawned) (lock : b.lock = a.lock)
    (means : new = (Input.command c).channel?.toList → b.Bonds (heard ++ new) →
      ∀ before after, before.Awaits c → before.answered e = some after →
        b.Knows (heard ++ new) (some before) → b.Knows (heard ++ new) (some after)) :
    (b.reply id e).Bonds (heard ++ new) := by
  rw [ordered_reply b] at ordered
  rw [(closing_reply b id e).2] at attached
  have taken : new = (Input.command c).channel?.toList := by
    refine List.append_cancel_right (ordered.symm.trans ?_)
    rw [Affairs.ordered, first]
    cases h : (Input.command c).channel? <;> simp [Affairs.ordered, h]
  have told : b.Bonds (heard ++ new) :=
    bonds.hear generations ordered attached session spawned lock
  refine told.reply (lock ▸ sound) id e fun before after here => means taken told before after ?_
  rw [lock] at here
  refine accounted.awaited c ?_ id mine before here
  rw [first]
  exact List.mem_cons_self

/-- **The dispatcher breaks no bond**, whatever it takes. -/
theorem Handled.bonds (handled : Handled a a') (sound : a.lock.Sound) (settled : Settled a.dispatch)
    (accounted : a.Accounted) (generations : ((heard ++ a.ordered).map Prod.fst).Nodup)
    (ordered : a.ordered = new ++ a'.ordered) (bonds : a.Bonds heard) :
    a'.Bonds (heard ++ new) := by
  have attached := handled.attached_cases
  cases handled with
  | noMatter | lost | closed => exact bonds.hear generations ordered attached rfl rfl rfl
  | attached d g p asker rest first =>
    refine bonds.take (b := { a with dispatch := d, orders := rest }) sound accounted generations
      first rfl _ ordered attached rfl rfl rfl fun taken _ before after awaits answered knows => ?_
    cases before with
    | attaching l =>
      obtain ⟨rfl, rfl⟩ := awaits
      obtain rfl := Option.some.inj answered
      subst taken
      exact ⟨knows, List.mem_append_right _ List.mem_cons_self⟩
    | detaching => cases answered
    | _ => exact awaits.elim
  | detached d g n asker rest first live now =>
    refine bonds.take (b := { a with dispatch := d, orders := rest }) sound accounted generations
      first rfl _ ordered attached rfl rfl rfl fun _ told before after awaits answered knows => ?_
    cases before with
    | detaching l =>
      obtain rfl : l.generation = g := awaits
      obtain rfl := Option.some.inj answered
      refine ⟨knows.1, parted_of_unattached told.processes knows.2 ?_⟩
      rw [show (Affairs.dispatch { a with dispatch := d, orders := rest }).attached = _ from now]
      split
      · exact (Option.some_ne_none _).symm
      · assumption
    | attaching => cases answered
    | _ => exact awaits.elim
  | refused c asker rest first refused ended =>
    -- a dispatcher that has ended has nothing attached, so whatever it was told of is parted
    have vacant : a.dispatch.attached = none := attached_of_ended settled ended
    let b : Affairs := { a with orders := rest }
    have parted {g : Nat} {p : ProcessId} (told : b.Bonds (heard ++ new))
        (member : (g, p) ∈ heard ++ new) : b.Parted (heard ++ new) p :=
      parted_of_unattached told.processes member (vacant ▸ (Option.some_ne_none _).symm)
    have mine : asker? c = some asker := by
      cases c with
      | submit | cancel | shutdown => simp [Dispatch.refuse] at refused
      | attach | detach =>
        obtain rfl := Effect.refused.inj (List.cons.inj refused).1
        rfl
    refine bonds.take (b := b) sound accounted generations first mine _ ordered attached rfl rfl rfl
      fun taken told before after awaits answered knows => ?_
    cases before with
    | attaching l =>
      obtain rfl := Option.some.inj answered
      cases c with
      | attach g p =>
        obtain ⟨rfl, rfl⟩ := awaits
        have member : (l.generation, l.process) ∈ heard ++ new := by
          rw [taken]
          exact List.mem_append_right _ List.mem_cons_self
        exact ⟨knows, parted told member⟩
      | _ => exact awaits.elim
    | detaching l =>
      obtain rfl := Option.some.inj answered
      exact ⟨knows.1, parted told knows.2⟩
    | _ => exact awaits.elim

/-- An operation that goes on, and orders nothing, keeps the bonds if it knows about its process. -/
theorem Affairs.Bonds.reach (bonds : a.Bonds heard) {id : OperationId} {before now : Stage}
    (here : a.lock.stage? id = some before) (holder : a.lock.holder = some id)
    (lock : a'.lock = a.lock.reach id now) (ordered : a'.ordered = a.ordered)
    (spawned : a.spawned ≤ a'.spawned) (knows : a'.Knows heard (some now)) : a'.Bonds heard := by
  refine ⟨by rw [ordered]; exact bonds.processes, fun c member => ?_, ?_⟩
  · rw [ordered] at member
    exact Nat.lt_of_lt_of_le (bonds.spawned c member) spawned
  · rw [lock, Lock.at?_reach here holder]
    exact knows

/-- An operation that begins to end a session keeps the bonds. -/
theorem Affairs.Bonds.teardown (bonds : a.Bonds heard) {id : OperationId} {before : Stage}
    (l : Live) (here : a.lock.stage? id = some before) (holder : a.lock.holder = some id)
    (settled : Settled a.dispatch) (session : a.session = none)
    (member : (l.generation, l.process) ∈ heard) :
    (a.order id (.detach l.generation id) (.detaching l) (.detached l)).Bonds heard := by
  unfold Affairs.order
  split
  · rename_i ended
    refine bonds.reach here holder rfl rfl (Nat.le_refl _) ⟨session, ?_⟩
    refine parted_of_unattached bonds.processes member ?_
    rw [show a.dispatch.attached = none from attached_of_ended settled ended]
    nofun
  · refine bonds.reach here holder rfl ?_ (Nat.le_refl _) ⟨session, member⟩
    simp [Affairs.ordered, List.filterMap_append, Input.channel?]

/-- An operation that hands its process over to the dispatcher keeps the bonds: it is the first
channel of that process. -/
theorem Affairs.Bonds.handover (bonds : a.Bonds heard) {id : OperationId} {before : Stage}
    (l : Live) (here : a.lock.stage? id = some before) (holder : a.lock.holder = some id)
    (session : a.session = none) (born : l.process < a.spawned)
    (fresh : ∀ g, (g, l.process) ∉ heard ++ a.ordered) :
    (a.order id (.attach l.generation l.process id) (.attaching l) (.refused l)).Bonds heard := by
  unfold Affairs.order
  split
  · refine bonds.reach here holder rfl rfl (Nat.le_refl _) ⟨session, ?_⟩
    exact parted_of_fresh fresh
  · let b : Affairs := { a with
      lock := a.lock.reach id (.attaching l)
      orders := a.orders ++ [.attach l.generation l.process id] }
    have more : heard ++ b.ordered = heard ++ a.ordered ++ [(l.generation, l.process)] := by
      simp [b, Affairs.ordered, List.filterMap_append, Input.channel?]
    show b.Bonds heard
    refine ⟨?_, fun c member => ?_, ?_⟩
    · rw [more, List.map_append, List.map_singleton, ← List.concat_eq_append]
      -- no channel of this process was ordered before
      refine List.Nodup.concat (fun again => ?_) bonds.processes
      obtain ⟨⟨g, p⟩, member, rfl⟩ := List.mem_map.mp again
      exact fresh g member
    · rw [more, List.mem_append, List.mem_singleton] at member
      rcases member with old | rfl
      · exact bonds.spawned c old
      · exact born
    · rw [Lock.at?_reach here holder]
      exact session

/-- **An operation keeps the bonds**, if losses are those of channels that are attached no more. -/
theorem Advance.bonds {o : Operation} {seen : Observation} (rule : Advance a o seen a')
    (sound : a.lock.Sound) (settled : Settled a.dispatch)
    (known : a.lock.operation? o.id = some o)
    (lost : ∀ loss, a.Pending loss → a.dispatch.attached ≠ some loss.generation)
    (bonds : a.Bonds heard) : a'.Bonds heard := by
  have here := Lock.stage?_of_known known
  have holder := rule.holder sound known
  have knows := bonds.knows_at holder here
  have finish {b : Affairs} {last : Stage} (lock : b.lock = a.lock.finish o.id last)
      (ordered : b.ordered = a.ordered) (spawned : b.spawned = a.spawned)
      (session : ∀ l, b.session = some l → (l.generation, l.process) ∈ heard) : b.Bonds heard := by
    refine ⟨by rw [ordered]; exact bonds.processes, by rw [ordered, spawned]; exact bonds.spawned,
      ?_⟩
    exact Affairs.knows_of_calm (lock ▸ sound.calm_finish holder last) session
  -- who takes the session leaves nothing of which it would have to be known
  have taken {b : Affairs} (hs : o.stage = .entered) (lock : b.lock = a.lock)
      (ordered : b.ordered = a.ordered) (spawned : b.spawned = a.spawned)
      (none : b.session = none) : b.Bonds heard := by
    refine ⟨by rw [ordered]; exact bonds.processes, by rw [ordered, spawned]; exact bonds.spawned,
      ?_⟩
    rw [lock, Lock.at?_of_holder holder, here, hs]
    intro l session
    cases none.symm.trans session
  cases rule with
  | found | coalesce | nothingToStop | outdated | launchFailed | stopped | crashed | unlaunched =>
    exact finish rfl rfl rfl knows.session
  | ready l hs =>
    rw [hs] at knows
    refine finish rfl rfl rfl ?_
    rintro l' ⟨⟩
    exact knows.2
  | launch hs _ session | restartAlone _ hs _ _ session =>
    exact bonds.reach here holder rfl rfl (Nat.le_refl _) session
  | tornDown p l _ hs =>
    rw [hs] at knows
    exact bonds.reach here holder rfl rfl (Nat.le_refl _) knows.1
  | tearDown l hs | refused l hs =>
    rw [hs] at knows
    refine bonds.reach here holder rfl rfl (Nat.le_refl _) ⟨knows.1, ?_⟩
    refine (parted_congr ?_ ?_ _).mpr knows.2 <;> rfl
  | unfit p _ _ _ hs =>
    rw [hs] at knows
    exact bonds.reach here holder rfl rfl (Nat.le_refl _) ⟨knows.1, parted_of_fresh knows.2.2⟩
  | spawned toolchain pid hs =>
    rw [hs] at knows
    refine bonds.reach here holder rfl rfl (Nat.le_succ _) ⟨knows, Nat.lt_succ_self _, ?_⟩
    intro g member
    exact Nat.lt_irrefl _ (bonds.spawned _ member)
  | crash loss l hs purpose session same =>
    have mine : a.Pending loss :=
      .inr ⟨o.id, by simp [Lock.purpose?, known, purpose], .entered, hs ▸ here, rfl⟩
    refine bonds.reach here holder rfl rfl (Nat.le_refl _) ⟨rfl, ?_⟩
    refine parted_of_unattached bonds.processes (knows.session l session) ?_
    rw [same]
    exact lost loss mine
  | stop l hs _ session =>
    exact (taken (b := { a.setStatus .stopping with session := none })
      hs rfl rfl rfl rfl).teardown l here holder settled rfl (knows.session l session)
  | restart _ l hs _ _ session =>
    exact (taken (b := { a.setStatus .restarting with covered := a.tickets, session := none })
      hs rfl rfl rfl rfl).teardown l here holder settled rfl (knows.session l session)
  | fit toolchain outcome l hs =>
    rw [hs] at knows
    obtain ⟨none, born, fresh⟩ := knows
    have same : Affairs.Bonds heard { a with generation := l.generation } :=
      bonds.frame rfl rfl rfl rfl (.inl rfl)
    exact same.handover l here holder none born fresh

/-- Who does not disturb those at work leaves the holder where it is, or at rest. -/
theorem at?_undisturbed {k k' : Lock} (lock : Lock.Undisturbed k k') :
    k'.at? = k.at? ∨ k'.Calm := by
  rcases lock with ⟨-, same⟩ | ⟨-, calm⟩
  · exact .inl same
  · exact .inr calm

/-- Where the dispatcher goes on it takes its next input, or nothing changes that would matter. -/
theorem CarefulRun.dispatched {xs : List Move} {fired : Token → Bool}
    (careful : CarefulRun (xs ++ [.dispatch fired])) :
    Handled (machine.run xs).affairs (machine.run (xs ++ [.dispatch fired])).affairs ∨
      (machine.run xs).affairs.Bystands (machine.run (xs ++ [.dispatch fired])).affairs := by
  have sound := (carefulRun_concat.mp careful).1.inOrder.sound
  rcases careful.change with ⟨id, other, -⟩ | ⟨change, collects⟩
  · cases other
  rcases change.trichotomy sound collects with ⟨o, seen, other, -⟩ | ⟨-, -, handled⟩ | bystands
  · cases other
  · exact .inl handled
  · exact .inr bystands

/-- **Bonds are kept in every careful run.** -/
theorem run_bonds {xs : List Move} (careful : CarefulRun xs) :
    (machine.run xs).affairs.Bonds (told (stimuli (machine.history xs))) := by
  induction xs using List.reverseRecOn with
  | nil => exact ⟨List.nodup_nil, nofun, nofun⟩
  | append_singleton xs x ih =>
    have before := (carefulRun_concat.mp careful).1
    obtain ⟨settled, sound⟩ := before.inOrder
    have bonds := ih before
    have bystander
        (bystands : (machine.run xs).affairs.Bystands (machine.run (xs ++ [x])).affairs) :
        (machine.run (xs ++ [x])).affairs.Bonds (told (stimuli (machine.history xs))) :=
      bonds.frame bystands.session (congrArg Dispatch.State.attached bystands.dispatch)
        (congrArg (List.filterMap _) bystands.orders) bystands.spawned
        (at?_undisturbed bystands.lock)
    -- the dispatcher takes its next channel, or what it was told stays the same
    rcases careful.channels with ⟨fired, new, rfl, more, ordered, -⟩ | ⟨other, same, -⟩
    · rw [more]
      rcases careful.dispatched with handled | bystands
      · exact handled.bonds sound settled (run_accounted before) (run_generations before).1 ordered
          bonds
      · have none : new = [] := by
          have same : (machine.run (xs ++ [.dispatch fired])).affairs.ordered =
              (machine.run xs).affairs.ordered := congrArg (List.filterMap _) bystands.orders
          exact List.append_left_eq_self.mp (ordered.symm.trans same.symm)
        rw [none, List.append_nil]
        exact bystander bystands
    · rw [same]
      rcases careful.change with ⟨id, -, affairs⟩ | ⟨change, collects⟩
      · rw [affairs]
        refine bonds.frame rfl rfl rfl rfl ?_
        rcases sound.forsake_calm id with undisturbed | ⟨-, calm⟩
        · exact at?_undisturbed undisturbed
        · exact .inr calm
      · rcases change.trichotomy sound collects with
          ⟨o, seen, -, known, rule⟩ | ⟨fired, taken, -⟩ | bystands
        · exact rule.bonds sound settled known (fun loss h => (run_lost before loss h).2) bonds
        · exact absurd taken (other fired)
        · exact bystander bystands

/-- **Who is parted from the dispatcher stays so**, if it is not about to get a channel. -/
theorem CarefulRun.parted {xs : List Move} {x : Move} (careful : CarefulRun (xs ++ [x]))
    (parted : (machine.run xs).affairs.Parted (told (stimuli (machine.history xs))) p)
    (settledDown : ∀ toolchain, (machine.run xs).lock.at? ≠ some (.probing p toolchain)) :
    (machine.run (xs ++ [x])).affairs.Parted (told (stimuli (machine.history (xs ++ [x])))) p := by
  have before := (carefulRun_concat.mp careful).1
  rcases careful.channels with ⟨fired, new, rfl, more, ordered, -⟩ | ⟨other, same, extends_⟩
  · rw [more]
    refine parted.hear (run_generations before).1 ordered ?_
    rcases careful.dispatched with handled | bystands
    · exact handled.attached_cases
    · exact .inl (congrArg Dispatch.State.attached bystands.dispatch)
  · rw [same]
    have stands : (machine.run (xs ++ [x])).dispatch = (machine.run xs).dispatch := by
      rw [machine.run_concat]
      rcases (step_flow ⟨machine.run xs, x⟩).dispatch with ⟨-, same⟩ | ⟨z, -, taken, -⟩
      · exact same
      · exact absurd taken (other z.fired)
    have attached := congrArg Dispatch.State.attached stands
    rcases extends_ with ⟨ordered, -⟩ | ⟨q, toolchain, here, ordered, -⟩
    · exact (parted_congr attached ordered p).mpr parted
    · refine parted.order attached ordered ?_
      rintro rfl
      exact settledDown toolchain here

end Bonds

end CompilerSession.Supervisor
