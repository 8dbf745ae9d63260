import CompilerSession.Proofs.Dispatch.Losses
import Mathlib.Data.List.Perm.Basic
import Mathlib.Data.List.Nodup

/-
Draining a session.

When a generation is detached, the dispatcher gives up all requests that it has accepted and not
resolved yet. Which requests those are is a question about the history: `unresolved` asks what was
accepted and what got an outcome, and `run_unresolved` says that the pending requests of the state
are just those. So the number with which a detach is answered is the right one.

What is drained stays so. A generation that was attached once is not attached again, so no call is
made under it any more (`Attaches.once`), and a request has one outcome at most, so the one that it
has is the last.
-/

set_option autoImplicit false

namespace CompilerSession.Dispatch

open Machine (outputs)

/-! ## Accepted and not resolved -/

/-- **The requests that were accepted and not resolved**, in the order in which they were
accepted. -/
def unresolved (h : List machine.Event) : List Entry :=
  (h.filterMap acceptance).filter fun x => resolutions x.id (outputs h) = 0

/-- What becomes pending was accepted. -/
theorem Iteration.pending_accepted {fired : Token → Bool} {s s' : State} {input : Input}
    {effects : List Effect} (h : Iteration fired s input s' effects) {x : Entry}
    (hx : x ∈ s'.pending) : x ∈ s.pending ∨ accepts? fired s input = some x := by
  rcases h.pending hx with old | ⟨rfl, attached⟩
  · exact .inl old
  · cases h with
    | refused | turnedAway => cases hx
    | firedBefore => exact .inl hx
    | unheard _ h => exact absurd rfl (h _)
    | ended _ _ h => rcases h with h | h <;> cases h
    | calledAtOnce _ _ _ _ _ _ unfired | queued _ _ _ _ _ _ unfired =>
      refine .inr ?_
      rw [accepts?, unfired, attached]
      rfl

/-- Only requests that were accepted are pending. -/
theorem run_accepted (xs : List Stimulus) :
    ∀ x ∈ (machine.run xs).pending, x ∈ (machine.history xs).filterMap acceptance := by
  induction xs using List.reverseRecOn with
  | nil => nofun
  | append_singleton xs y ih =>
    intro x hx
    rw [machine.history_concat, List.filterMap_append]
    rcases (event_iteration xs y).pending_accepted hx with old | new
    · exact List.mem_append_left _ (ih x old)
    · exact List.mem_append_right _ (List.mem_filterMap.mpr ⟨_, List.mem_singleton_self _, new⟩)

/-- What was accepted was submitted. -/
theorem accepted_submitted (xs : List Stimulus) :
    (((machine.history xs).filterMap acceptance).map (·.id)).Sublist (submissions xs) := by
  induction xs using List.reverseRecOn with
  | nil => exact List.Sublist.refl _
  | append_singleton xs y ih =>
    have last : ([⟨machine.run xs, y⟩].filterMap acceptance).map (·.id) |>.Sublist
        (submissions [y]) := by
      cases h : acceptance ⟨machine.run xs, y⟩ with
      | none => simp [h]
      | some x =>
        obtain ⟨arrives, -, -⟩ := accepts?_eq h
        have arrives : y.input = .command (.submit x.id x.request x.token) := arrives
        simp [h, submissions, arrives, Input.submitted?]
    rw [machine.history_concat, List.filterMap_append, List.map_append, submissions,
      List.filterMap_append]
    exact ih.append last

section Unresolved

variable {xs : List Stimulus} (distinct : (submissions xs).Nodup)

include distinct

/-- No request is accepted twice. -/
theorem accepted_nodup :
    (((machine.history xs).filterMap acceptance).map (·.id)).Nodup :=
  distinct.sublist (accepted_submitted xs)

/-- **The pending requests are those that were accepted and not resolved.** -/
theorem run_unresolved : (unresolved (machine.history xs)).Perm (machine.run xs).pending := by
  have accepted := accepted_nodup distinct
  have pending : ((machine.run xs).pending.map (·.id)).Nodup := by
    refine List.nodup_iff_count_le_one.mpr fun id => ?_
    rw [List.count_eq_countP, List.countP_map]
    refine Nat.le_trans (Nat.le_of_eq (List.countP_congr fun x _ => ?_)) (run_once distinct id)
    simp
  refine (List.perm_ext_iff_of_nodup (accepted.of_map.filter _) pending.of_map).mpr fun x => ?_
  have conserved := run_conserves xs x.id
  have once := List.nodup_iff_count_le_one.mp distinct x.id
  show x ∈ List.filter _ _ ↔ _
  rw [List.mem_filter, decide_eq_true_eq]
  constructor
  · rintro ⟨hx, open_⟩
    -- it was submitted and has no outcome, so something with its number is pending
    have submitted : x.id ∈ submissions xs :=
      (accepted_submitted xs).subset (List.mem_map_of_mem (f := Entry.id) hx)
    have counted := List.count_pos_iff.mpr submitted
    obtain ⟨y, hy, same⟩ : ∃ y ∈ (machine.run xs).pending, y.id = x.id := by
      have there : 0 < (machine.run xs).pending.countP (·.id = x.id) := by omega
      obtain ⟨y, hy, same⟩ := List.countP_pos_iff.mp there
      exact ⟨y, hy, by simpa using same⟩
    exact List.inj_on_of_nodup_map accepted (run_accepted xs y hy) hx same ▸ hy
  · intro hx
    have there : 0 < (machine.run xs).pending.countP (·.id = x.id) :=
      List.countP_pos_iff.mpr ⟨x, hx, by simp⟩
    exact ⟨run_accepted xs x hx, by omega⟩

/-- While nothing is attached, everything that was accepted has its outcome. -/
theorem resolved_of_unattached (unattached : (machine.run xs).attached = none) {x : Entry}
    (accepted : x ∈ (machine.history xs).filterMap acceptance) :
    ∃ outcome, .resolved x.id outcome ∈ outputs (machine.history xs) := by
  have nothing : (machine.run xs).pending = [] := by
    generalize (machine.run xs) = s, run_settled xs = settled at unattached
    cases settled with
    | vacant => rfl
    | resting | calling => cases unattached
  have perm := run_unresolved distinct
  rw [nothing] at perm
  by_contra never
  -- without an outcome it would be one of those that are not resolved
  have waits : x ∈ unresolved (machine.history xs) := by
    refine List.mem_filter.mpr ⟨accepted, decide_eq_true (List.countP_eq_zero.mpr ?_)⟩
    intro effect told resolves
    cases effect with
    | resolved id outcome =>
      obtain rfl : id = x.id := by simpa [Effect.resolves] using resolves
      exact never ⟨outcome, told⟩
    | called | attached | detached | refused | lost => cases resolves
  rw [perm.eq_nil] at waits
  cases waits

end Unresolved

/-! ## Detaching -/

section Detach

variable {fired : Token → Bool} {s s' : State} {effects : List Effect} {g : Nat}
  {asker : OperationId} (h : Iteration fired s (.command (.detach g asker)) s' effects)

include h

/-- **To detach what is attached** leaves nothing behind, makes all that was pending stale, and
tells how many that were. -/
theorem Iteration.detach_eq (attached : s.attached = some g) :
    s' = .vacant false ∧
      effects = s.pending.map Entry.stale ++ [.detached asker s.pending.length] := by
  cases h with
  | refused => cases attached
  | unheard _ h => exact absurd rfl (h _)
  | detached => exact ⟨rfl, rfl⟩
  | otherDetached _ _ _ _ other => exact absurd attached other
  | ended _ _ h => rcases h with h | h <;> cases h

/-- To detach another generation changes nothing. -/
theorem Iteration.detach_other (live : s.ended = false) (other : s.attached ≠ some g) :
    s' = s ∧ effects = [.detached asker 0] := by
  cases h with
  | refused => cases live
  | unheard _ h => exact absurd rfl (h _)
  | detached _ _ _ _ attached => exact absurd attached other
  | otherDetached => exact ⟨rfl, rfl⟩
  | ended _ _ h => rcases h with h | h <;> cases h

end Detach

/-- All that is pending has the generation that is attached. -/
theorem Settled.stamped {s : State} (hs : Settled s) {g : Nat} (attached : s.attached = some g) :
    ∀ x ∈ s.pending, x.generation = g := by
  cases hs with
  | vacant => cases attached
  | resting => nofun
  | calling w e q same =>
    obtain rfl := Option.some.inj attached
    exact List.forall_mem_cons.mpr ⟨rfl, same⟩

/-! ## The law -/

/-- **The session of a generation is drained** by an event, after which come the events of
`later`. -/
structure Draining (past : List machine.Event) (e : machine.Event) (later : List machine.Event)
    (g : Nat) (asker : OperationId) : Prop where
  /-- What was accepted and not resolved goes stale, and is counted. -/
  told : ∃ drained : List Entry, drained.Perm (unresolved past) ∧
    e.outputs = drained.map (fun x => .resolved x.id (.error (.stale g))) ++
      [.detached asker drained.length]
  vacant : e.after = .vacant false
  /-- All calls to come are made under another generation, on its channel. -/
  uncalled : ∀ mid f rest, later = mid ++ f :: rest → ∀ x p, .called x p ∈ f.outputs →
    x.generation ≠ g ∧ latestChannel (past ++ e :: mid) = some (x.generation, p)
  final : ∀ f ∈ later, ∀ x ∈ acceptedUnder g (past ++ e :: later), ∀ outcome,
    .resolved x.id outcome ∉ f.outputs

/-- Whatever was accepted before has its outcome, when all that was unresolved is drained. -/
theorem resolved_of_accepted {past : List machine.Event} {e : machine.Event} {g : Nat}
    {drained : List Entry} (perm : drained.Perm (unresolved past)) {c : Effect}
    (told : e.outputs = drained.map (fun x => .resolved x.id (.error (.stale g))) ++ [c])
    {x : Entry} (accepted : x ∈ past.filterMap acceptance) :
    0 < resolutions x.id (outputs (past ++ [e])) := by
  rw [Machine.outputs_append, resolutions_append, Machine.outputs_singleton]
  by_cases open_ : resolutions x.id (outputs past) = 0
  · have waits : x ∈ drained :=
      perm.mem_iff.mpr (List.mem_filter.mpr ⟨accepted, by simpa using open_⟩)
    have resolved : 0 < resolutions x.id e.outputs := by
      refine List.countP_pos_iff.mpr ⟨.resolved x.id (.error (.stale g)), ?_, decide_eq_true rfl⟩
      rw [told]
      exact List.mem_append_left _ (List.mem_map_of_mem (f := fun x : Entry =>
        Effect.resolved x.id (.error (.stale g))) waits)
    omega
  · omega

section Law

variable {xs : List Stimulus} {past later : List machine.Event} {e : machine.Event} {g : Nat}
  (cut : machine.history xs = past ++ e :: later)

include cut

/-- **A generation that is attached is not attached again.** -/
theorem AttachedOnce.never_again (once : AttachedOnce xs) (attached : e.before.attached = some g) :
    ∀ f ∈ e :: later, ¬ Attaches f g := by
  obtain ⟨ys, -, -, rfl, before, -⟩ := machine.history_split cut
  obtain ⟨a, ha, attaches⟩ := run_attaches ys (before ▸ attached)
  rw [AttachedOnce, cut] at once
  exact fun f hf => (List.pairwise_append.mp once).2.2 a ha f hf g attaches

/-- A request that an event accepts is of the generation that is attached then. -/
theorem accepted_before (once : AttachedOnce xs) (attached : e.before.attached = some g)
    (vacant : e.after.attached ≠ some g) (noSubmission : acceptance e = none) {x : Entry}
    (hx : x ∈ acceptedUnder g (machine.history xs)) : x ∈ past.filterMap acceptance := by
  obtain ⟨accepted, rfl⟩ : x ∈ (machine.history xs).filterMap acceptance ∧ x.generation = g := by
    simpa [acceptedUnder] using hx
  rw [cut, List.filterMap_append, List.filterMap_cons_none noSubmission, List.mem_append]
    at accepted
  refine accepted.resolve_right fun late => ?_
  -- the generation would have to be attached again before it is accepted
  obtain ⟨f, hf, accepts⟩ := List.mem_filterMap.mp late
  obtain ⟨mid, rest, rfl⟩ := List.append_of_mem hf
  obtain ⟨a, ha, attaches⟩ := attached_between cut vacant (accepts?_eq accepts).2.2
  exact once.never_again cut attached a
    (List.mem_cons_of_mem _ (List.mem_append_left _ ha)) attaches

/-- Who has an outcome gets no other one. -/
theorem resolved_once (distinct : (submissions xs).Nodup) {id : RequestId} {outcome : Outcome}
    (resolved : 0 < resolutions id (outputs (past ++ [e]))) :
    ∀ f ∈ later, .resolved id outcome ∉ f.outputs := by
  intro f hf told
  have conserved := run_conserves xs id
  have once := List.nodup_iff_count_le_one.mp distinct id
  have again : 0 < resolutions id (outputs later) :=
    List.countP_pos_iff.mpr
      ⟨_, List.mem_flatMap.mpr ⟨f, hf, told⟩, decide_eq_true rfl⟩
  rw [cut, List.append_cons, Machine.outputs_append, resolutions_append] at conserved
  omega

/-- **A detach drains its session.** -/
theorem detach_drains (distinct : (submissions xs).Nodup)
    (belong : ∀ past e later, machine.history xs = past ++ e :: later → Belongs past e)
    (once : AttachedOnce xs) {asker : OperationId}
    (detach : e.action.input = .command (.detach g asker))
    (attached : e.before.attached = some g) : Draining past e later g asker := by
  obtain ⟨ys, zs, split, rfl, before, -⟩ := machine.history_split cut
  have settled : Settled e.before := before ▸ run_settled ys
  have rule := settled.iteration
  rw [detach] at rule
  obtain ⟨vacant, told⟩ := rule.detach_eq attached
  have perm : e.before.pending.Perm (unresolved (machine.history ys)) :=
    before ▸ (run_unresolved (distinct_before (split ▸ distinct))).symm
  -- all that is pending is stamped with the generation that goes, so that is what they are told
  have stale : e.outputs = e.before.pending.map (fun x => .resolved x.id (.error (.stale g))) ++
      [.detached asker e.before.pending.length] := by
    rw [told]
    congr 1
    refine List.map_congr_left fun x hx => ?_
    rw [Entry.stale, staleness, settled.stamped attached x hx]
  have gone : e.after.attached ≠ some g := by
    rw [vacant]
    exact (Option.some_ne_none g).symm
  refine ⟨⟨_, perm, stale⟩, vacant, ?_, fun f hf x hx outcome => ?_⟩
  · rintro mid f rest rfl x p called
    have cut' : machine.history xs = (machine.history ys ++ e :: mid) ++ f :: rest := by
      rw [cut, List.append_assoc, List.cons_append]
    obtain ⟨-, there, latest⟩ := run_called distinct belong cut' called
    refine ⟨?_, latest⟩
    rintro rfl
    -- it would have to be attached a second time
    obtain ⟨a, ha, attaches⟩ := attached_between cut gone there
    exact once.never_again cut attached a
      (List.mem_cons_of_mem _ (List.mem_append_left _ ha)) attaches
  · have noSubmission : acceptance e = none := by rw [acceptance, detach]; rfl
    rw [← cut] at hx
    exact resolved_once cut distinct
      (resolved_of_accepted perm stale
        (accepted_before cut once attached gone noSubmission hx)) f hf

end Law

end CompilerSession.Dispatch
