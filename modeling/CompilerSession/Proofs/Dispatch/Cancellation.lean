import CompilerSession.Proofs.Dispatch.Calls
import CompilerSession.Proofs.Dispatch.Parts

/-
What becomes of cancelled requests.

The token of a request may fire at any moment, and the dispatcher looks at it when the request
arrives, when it would be called, when its call ends and when the channel is lost. Besides, the
caller of a request sends a command as soon as it sees its token fire, so that a request that
waits need not wait any longer. The laws here say that these looks add up: a request whose token
fired in time is never called, whatever fires or arrives in between, and a caller who cancelled
gets no answer and no blame, but learns that the request was cancelled, or that its session or
the dispatcher is gone.

The first part is about single steps. `Iteration.resolves_subject` names the token of the request
that a step resolves, and what its having fired means to the outcome. The other parts carry this
over to runs, in which a request has one token from its arrival to its end.
-/

set_option autoImplicit false

namespace CompilerSession.Dispatch

open Machine (outputs forall_cut_cons forall_cut_nil)

/-! ## Outcomes in a single step -/

/-- The request of a number, with its token: it arrives, or it is pending. -/
def Subject (s : State) (input : Input) (id : RequestId) (token : Token) : Prop :=
  (∃ request, input = .command (.submit id request token)) ∨
    ∃ x ∈ s.pending, x.id = id ∧ x.token = token

/-- **A request goes with its session**: the session is detached, or another one is attached in
its place, or its channel is lost while the request still waits. -/
def Drained (s : State) (input : Input) (effects : List Effect) (id : RequestId) : Prop :=
  (∃ g asker, s.attached = some g ∧ input = .command (.detach g asker)) ∨
  (∃ g p asker, input = .command (.attach g p asker)) ∨
  (∃ loss, .lost loss ∈ effects) ∧ ∃ x ∈ s.queue, x.id = id

/-- **What a request comes to whose token has fired**, in a step from `s` to `s'`. -/
inductive FiredOutcome (s s' : State) (input : Input) (effects : List Effect) (id : RequestId) :
    Outcome → Prop where
  | cancelled (kept : ¬ Drained s input effects id) (goesOn : s'.ended = false) :
      FiredOutcome s s' input effects id (.error .cancelled)
  | stale (g : Nat) (drained : Drained s input effects id) :
      FiredOutcome s s' input effects id (.error (.stale g))
  | closed (ended : s'.ended = true) :
      FiredOutcome s s' input effects id (.error .workerClosed)

/-- The step resolves a request, as the token of this request asks for. -/
structure Resolves (fired : Token → Bool) (s s' : State) (input : Input) (effects : List Effect)
    (id : RequestId) (outcome : Outcome) (token : Token) : Prop where
  subject : Subject s input id token
  asked : fired token = true → FiredOutcome s s' input effects id outcome
  cancelled : outcome = .error .cancelled → fired token = true ∨ input = .command (.cancel id)

section Step

variable {fired : Token → Bool} {s s' : State} {input : Input} {effects : List Effect}
  {id : RequestId} {outcome : Outcome}

/-- An answer counts as cancelled only if the token has fired. -/
theorem answerOutcome_eq_cancelled {f : Bool} {r : Response}
    (h : answerOutcome f r = .error .cancelled) : f = true := by
  unfold answerOutcome at h
  split at h
  · assumption
  · split at h <;> cases h

/-- An input that neither attaches nor detaches drains nothing, if no channel is lost. -/
theorem not_drained (attach : ∀ g p asker, input ≠ .command (.attach g p asker))
    (detach : ∀ g asker, input ≠ .command (.detach g asker)) (lost : ∀ loss, .lost loss ∉ effects) :
    ¬ Drained s input effects id := by
  rintro (⟨g, asker, -, h⟩ | ⟨g, p, asker, h⟩ | ⟨⟨loss, h⟩, -⟩)
  · exact detach g asker h
  · exact attach g p asker h
  · exact lost loss h

/-- Requests that are cancelled tell of no loss. -/
theorem lost_notMem_cancelled (q : List Entry) (loss : Loss) :
    .lost loss ∉ q.map Entry.cancelled := by
  simp [Entry.cancelled]

/-- A pending request that is resolved as cancelled, because its token fired. -/
theorem resolves_cancelled {x : Entry} (pending : x ∈ s.pending) (h : fired x.token = true)
    (kept : ¬ Drained s input effects x.id) (goesOn : s'.ended = false) :
    Resolves fired s s' input effects x.id (.error .cancelled) x.token where
  subject := .inr ⟨x, pending, rfl, rfl⟩
  asked := fun _ => .cancelled kept goesOn
  cancelled := fun _ => .inl h

/-- A request that is drained is stale, whether it was in flight or waited. -/
theorem resolves_stale {x : Entry} (pending : x ∈ s.pending)
    (drained : Drained s input effects x.id) :
    Resolves fired s s' input effects x.id (.error (staleness x)) x.token where
  subject := .inr ⟨x, pending, rfl, rfl⟩
  asked := fun _ => .stale x.generation drained
  cancelled := nofun

/-- The answer to the request in flight, and the requests behind it that were skipped. -/
theorem resolves_answer {e : Entry} {r : Response} (pending : e ∈ s.pending)
    (kept : ¬ Drained s input effects e.id) (goesOn : s'.ended = false) :
    Resolves fired s s' input effects e.id (answerOutcome (fired e.token) r) e.token where
  subject := .inr ⟨e, pending, rfl, rfl⟩
  asked := fun h => by
    rw [h]
    exact .cancelled kept goesOn
  cancelled := fun h => .inl (answerOutcome_eq_cancelled h)

/-- **A lost channel.** The request in flight is not among those that still wait. -/
theorem resolves_collapse {loss : Loss} (once : ∀ i, s.pending.countP (·.id = i) ≤ 1)
    (attach : ∀ g p asker, input ≠ .command (.attach g p asker))
    (detach : ∀ g asker, input ≠ .command (.detach g asker)) (goesOn : s'.ended = false)
    (ho : .resolved id outcome ∈ s.collapse fired loss) :
    ∃ token, Resolves fired s s' input (s.collapse fired loss) id outcome token := by
  have told : .lost loss ∈ s.collapse fired loss := by simp [State.collapse]
  rw [State.collapse, List.mem_append, List.mem_append] at ho
  rcases ho with (blamed | stale) | lost
  · obtain ⟨x, hx, same⟩ := List.mem_map.mp blamed
    obtain ⟨rfl, rfl⟩ := Effect.resolved.inj same
    have pending : x ∈ s.pending := List.mem_append_left _ hx
    -- it was in flight, so it is not one of those that waited: no request is pending twice
    have kept : ¬ Drained s input (s.collapse fired loss) x.id := by
      rintro (⟨g, asker, -, h⟩ | ⟨g, p, asker, h⟩ | ⟨-, y, hy, twice⟩)
      · exact detach g asker h
      · exact attach g p asker h
      · have inFlight : 0 < s.inFlight.toList.countP (·.id = x.id) :=
          List.countP_pos_iff.mpr ⟨x, hx, by simp⟩
        have waits : 0 < s.queue.countP (·.id = x.id) :=
          List.countP_pos_iff.mpr ⟨y, hy, by simpa using twice⟩
        have both := once x.id
        rw [State.pending, List.countP_append] at both
        omega
    refine ⟨x.token, .inr ⟨x, pending, rfl, rfl⟩, fun h => ?_, fun h => ?_⟩
    · rw [if_pos h]
      exact .cancelled kept goesOn
    · split at h
      · exact .inl ‹_›
      · cases h
  · obtain ⟨x, hx, same⟩ := List.mem_map.mp stale
    obtain ⟨rfl, rfl⟩ := Effect.resolved.inj same
    have drained : Drained s input (s.collapse fired loss) x.id :=
      .inr (.inr ⟨⟨loss, told⟩, x, hx, rfl⟩)
    exact ⟨x.token, resolves_stale (List.mem_append_right _ hx) drained⟩
  · cases List.mem_singleton.mp lost

/-- **A step resolves a request as its token asks for.** -/
theorem Iteration.resolves_subject (h : Iteration fired s input s' effects)
    (once : ∀ i, s.pending.countP (·.id = i) ≤ 1) (ho : .resolved id outcome ∈ effects) :
    ∃ token, Resolves fired s s' input effects id outcome token := by
  cases h with
  -- rules that resolve nobody, then those that resolve one request, then those that drain
  | unheard | queued | notWaiting | tooLate | exitedAlone => cases ho
  | calledAtOnce | otherDetached => simp at ho
  | refused c =>
    cases c with
    | submit i request token =>
      obtain ⟨rfl, rfl⟩ := Effect.resolved.inj (List.mem_singleton.mp ho)
      exact ⟨token, .inl ⟨request, rfl⟩, fun _ => .closed rfl, by simp⟩
    | cancel | attach | detach | shutdown => simp [refuse] at ho
  | firedBefore _ i request token live h =>
    obtain ⟨rfl, rfl⟩ := Effect.resolved.inj (List.mem_singleton.mp ho)
    have kept : ¬ Drained s (.command (.submit id request token))
        [.resolved id (.error .cancelled)] id := not_drained (by simp) (by simp) (by simp)
    exact ⟨token, .inl ⟨request, rfl⟩, fun _ => .cancelled kept live, fun _ => .inl h⟩
  | turnedAway i request token h =>
    obtain ⟨rfl, rfl⟩ := Effect.resolved.inj (List.mem_singleton.mp ho)
    refine ⟨token, .inl ⟨request, rfl⟩, fun fired => ?_, by simp⟩
    rw [h] at fired
    cases fired
  | takenBack w e x q₁ q₂ h =>
    obtain ⟨rfl, rfl⟩ := Effect.resolved.inj (List.mem_singleton.mp ho)
    have kept : ¬ Drained (.calling w e (q₁ ++ x :: q₂)) (.command (.cancel x.id))
        [x.cancelled] x.id := not_drained (by simp) (by simp) (by simp [Entry.cancelled])
    exact ⟨x.token, .inr ⟨x, by simp, rfl, rfl⟩, fun _ => .cancelled kept rfl, fun _ => .inr rfl⟩
  | attached _ g p asker =>
    rcases List.mem_append.mp ho with ho | ho
    · obtain ⟨x, hx, same⟩ := List.mem_map.mp ho
      obtain ⟨rfl, rfl⟩ := Effect.resolved.inj same
      exact ⟨x.token, resolves_stale hx (.inr (.inl ⟨g, p, asker, rfl⟩))⟩
    · cases List.mem_singleton.mp ho
  | detached _ g asker live attached =>
    rcases List.mem_append.mp ho with ho | ho
    · obtain ⟨x, hx, same⟩ := List.mem_map.mp ho
      obtain ⟨rfl, rfl⟩ := Effect.resolved.inj same
      exact ⟨x.token, resolves_stale hx (.inl ⟨g, asker, attached, rfl⟩)⟩
    · cases List.mem_singleton.mp ho
  -- besides the one that is answered, all those behind it that were skipped
  | answered w e q c r current result all =>
    have kept (i : RequestId) : ¬ Drained (.calling w e q) (.completed c)
        (.resolved e.id (answerOutcome (fired e.token) r) :: q.map Entry.cancelled) i :=
      not_drained (by simp) (by simp) (by simp [lost_notMem_cancelled])
    rcases List.mem_cons.mp ho with ho | ho
    · obtain ⟨rfl, rfl⟩ := Effect.resolved.inj ho
      exact ⟨e.token, resolves_answer List.mem_cons_self (kept _) rfl⟩
    · obtain ⟨x, hx, same⟩ := List.mem_map.mp ho
      obtain ⟨rfl, rfl⟩ := Effect.resolved.inj same
      exact ⟨x.token, resolves_cancelled (List.mem_cons_of_mem _ hx) (all x hx) (kept _) rfl⟩
  | answeredAndCalled w e y q₁ q₂ c r current result skipped =>
    have kept (i : RequestId) : ¬ Drained (.calling w e (q₁ ++ y :: q₂)) (.completed c)
        (.resolved e.id (answerOutcome (fired e.token) r) ::
          (q₁.map Entry.cancelled ++ [.called y c.process])) i :=
      not_drained (by simp) (by simp) (by simp [lost_notMem_cancelled])
    rcases List.mem_cons.mp ho with ho | ho
    · obtain ⟨rfl, rfl⟩ := Effect.resolved.inj ho
      exact ⟨e.token, resolves_answer List.mem_cons_self (kept _) rfl⟩
    · rcases List.mem_append.mp ho with ho | ho
      · obtain ⟨x, hx, same⟩ := List.mem_map.mp ho
        obtain ⟨rfl, rfl⟩ := Effect.resolved.inj same
        have pending : x ∈ (State.calling w e (q₁ ++ y :: q₂)).pending :=
          List.mem_cons_of_mem e (List.mem_append_left (y :: q₂) hx)
        exact ⟨x.token, resolves_cancelled pending (skipped x hx) (kept _) rfl⟩
      · cases List.mem_singleton.mp ho
  | failed => exact resolves_collapse once (by simp) (by simp) rfl ho
  | exited => exact resolves_collapse once (by simp) (by simp) rfl ho
  | ended =>
    obtain ⟨x, hx, same⟩ := List.mem_map.mp ho
    obtain ⟨rfl, rfl⟩ := Effect.resolved.inj same
    exact ⟨x.token, .inr ⟨x, hx, rfl, rfl⟩, fun _ => .closed rfl, by simp⟩

/-! ## Calls and cancels in a single step -/

/-- A request is called only if its token has not fired. -/
theorem Iteration.called_unfired (h : Iteration fired s input s' effects) {x : Entry}
    {p : ProcessId} (hc : .called x p ∈ effects) :
    fired x.token = false ∧ ∀ i, input ≠ .command (.cancel i) := by
  obtain ⟨-, -, rfl, unfired, -⟩ | ⟨-, -, -, -, -, -, rfl, -, -, unfired, -⟩ := h.called_cases hc
  · exact ⟨unfired, by simp⟩
  · exact ⟨unfired, by simp⟩

/-- **A cancel takes the request out of the queue** and leaves the others in their order. -/
theorem Iteration.cancel_waiting (h : Iteration fired s (.command (.cancel id)) s' effects)
    (hs : Settled s) {x : Entry} (hx : x ∈ s.queue) (named : x.id = id) :
    ∃ y q₁ q₂, y.id = id ∧ s.queue = q₁ ++ y :: q₂ ∧ s' = { s with queue := q₁ ++ q₂ } ∧
      effects = [.resolved id (.error .cancelled)] := by
  cases h with
  | takenBack w e y q₁ q₂ => exact ⟨y, q₁, q₂, rfl, rfl, rfl, rfl⟩
  | refused => cases hx
  | unheard _ h => exact absurd rfl (h _)
  | notWaiting _ _ live none => exact absurd named (none x hx)
  | ended _ _ h => rcases h with h | h <;> cases h

/-- A cancel for which no request waits changes nothing. -/
theorem Iteration.cancel_nothing (h : Iteration fired s (.command (.cancel id)) s' effects)
    (none : ∀ x ∈ s.queue, x.id ≠ id) : s' = s ∧ effects = [] := by
  cases h with
  | takenBack w e y q₁ q₂ => exact absurd rfl (none y (by simp [State.calling]))
  | refused | notWaiting => exact ⟨rfl, rfl⟩
  | unheard _ h => exact absurd rfl (h _)
  | ended _ _ h => rcases h with h | h <;> cases h

/-- **What ends a call**: its completion, a detach of its generation or an attach in its place,
the exit of the process, or the end of the dispatcher. -/
def Frees (input : Input) (x : Entry) : Prop :=
  (∃ c : Completion, input = .completed c ∧ c.answers x) ∨
  (∃ asker, input = .command (.detach x.generation asker)) ∨
  (∃ g p asker, input = .command (.attach g p asker)) ∨
  (∃ exit, input = .exited exit) ∨ input = .command .shutdown ∨ input = .closed

/-- **What was in flight and is no more** was answered, or its channel went. -/
theorem Iteration.frees (h : Iteration fired s input s' effects) (hs : Settled s) {x : Entry}
    (before : s.inFlight = some x) (after : s'.inFlight ≠ some x) : Frees input x := by
  cases h with
  | refused | unheard | turnedAway | calledAtOnce | exitedAlone => cases before
  | firedBefore | notWaiting | otherDetached | tooLate => exact absurd before after
  | queued | takenBack => exact absurd before after
  | attached _ g p asker => exact .inr (.inr (.inl ⟨g, p, asker, rfl⟩))
  | detached _ g asker live attached =>
    have same := hs.fits.inFlight g attached x before
    exact .inr (.inl ⟨asker, by rw [same]⟩)
  | answered w e q c r current | answeredAndCalled w e y q₁ q₂ c r current
  | failed w e q c fault current =>
    obtain rfl := Option.some.inj before
    exact .inl ⟨c, rfl, current⟩
  | exited _ g exit => exact .inr (.inr (.inr (.inl ⟨exit, rfl⟩)))
  | ended _ _ h => exact .inr (.inr (.inr (.inr h)))

end Step

/-! ## A request has one token -/

/-- The request of a number is submitted with a token. -/
def Asks (e : machine.Event) (id : RequestId) (token : Token) : Prop :=
  ∃ request, e.action.input = .command (.submit id request token)

/-- **Tokens that fired stay so.** Within one step a token is looked at once, so that it does
not matter here whether it fired before the step or just before that look. -/
def Lasting (xs : List Stimulus) : Prop :=
  xs.Pairwise fun x y => ∀ token, x.fired token = true → y.fired token = true

/-- **Callers cancel** only what they submitted before, and once its token fired. -/
def Withdraws (past : List machine.Event) (e : machine.Event) : Prop :=
  ∀ id, e.action.input = .command (.cancel id) →
    ∃ f ∈ past, ∃ token, Asks f id token ∧ e.action.fired token = true

/-- No request of this number waits: it is being answered, it has its outcome, or it was never
submitted. -/
def Elsewhere (past : List machine.Event) (s : State) (id : RequestId) : Prop :=
  (∃ x, s.inFlight = some x ∧ x.id = id) ∨ (∃ outcome, .resolved id outcome ∈ outputs past) ∨
    ∀ f ∈ past, ¬ submits f id

/-- What is noted once comes from one place. -/
theorem eq_of_nodup_filterMap {α β : Type} {f : α → Option β} {l : List α}
    (h : (l.filterMap f).Nodup) {a b : α} {c : β} (ha : a ∈ l) (hb : b ∈ l) (fa : f a = some c)
    (fb : f b = some c) : a = b := by
  induction l with
  | nil => cases ha
  | cons x l ih =>
    have once {d : α} (hd : d ∈ l) (fd : f d = some c) : f x ≠ some c := by
      intro fx
      rw [List.filterMap_cons_some fx, List.nodup_cons] at h
      exact h.1 (List.mem_filterMap.mpr ⟨d, hd, fd⟩)
    rcases List.mem_cons.mp ha with rfl | ha'
    · rcases List.mem_cons.mp hb with rfl | hb'
      · rfl
      · exact absurd fa (once hb' fb)
    · rcases List.mem_cons.mp hb with rfl | hb'
      · exact absurd fb (once ha' fa)
      · exact ih (h.sublist ((List.sublist_cons_self x l).filterMap f)) ha' hb'

/-- Whoever is subject of an input was submitted, with this token. -/
theorem Subject.asks {past : List machine.Event} {e : machine.Event} {id : RequestId}
    {token : Token} (h : Subject e.before e.action.input id token)
    (stamped : Stamped past e.before) : ∃ f ∈ past ++ [e], Asks f id token := by
  rcases h with ⟨request, hx⟩ | ⟨x, hx, rfl, rfl⟩
  · exact ⟨e, List.mem_append_right _ List.mem_cons_self, request, hx⟩
  · obtain ⟨f, hf, arrives, -⟩ := stamped x hx
    exact ⟨f, List.mem_append_left _ hf, x.request, arrives⟩

section Law

variable {xs : List Stimulus}

/-- A token that has fired stays fired. -/
theorem Lasting.later (lasting : Lasting xs) {past mid later : List machine.Event}
    {d e : machine.Event} (cut : machine.history xs = past ++ d :: (mid ++ e :: later))
    {token : Token} (h : d.action.fired token = true) : e.action.fired token = true := by
  rw [Lasting, ← machine.history_actions xs, List.pairwise_map, cut] at lasting
  have after := (List.pairwise_cons.mp (List.pairwise_append.mp lasting).2.1).1
  exact after e (List.mem_append_right _ List.mem_cons_self) token h

variable (distinct : (submissions xs).Nodup)

include distinct

/-- A request is submitted with one token. -/
theorem asks_unique {f g : machine.Event} (hf : f ∈ machine.history xs)
    (hg : g ∈ machine.history xs) {id : RequestId} {t u : Token} (ft : Asks f id t)
    (gu : Asks g id u) : t = u := by
  obtain ⟨r, ft⟩ := ft
  obtain ⟨r', gu⟩ := gu
  rw [submissions, ← machine.history_actions xs, List.filterMap_map] at distinct
  have same : f = g := eq_of_nodup_filterMap (c := id) distinct hf hg
    (by rw [Function.comp_apply, ft]; rfl) (by rw [Function.comp_apply, gu]; rfl)
  subst same
  cases ft.symm.trans gu
  rfl

/-- No number is pending twice. -/
theorem run_once (i : RequestId) : (machine.run xs).pending.countP (·.id = i) ≤ 1 := by
  have sum := run_conserves xs i
  have most := List.nodup_iff_count_le_one.mp distinct i
  omega

/-- A request that is elsewhere does not wait: it is in one place only. -/
theorem queue_of_elsewhere {ys zs : List Stimulus} (cut : xs = ys ++ zs) {id : RequestId}
    (h : Elsewhere (machine.history ys) (machine.run ys) id) :
    ∀ x ∈ (machine.run ys).queue, x.id ≠ id := by
  intro x hx same
  have waits : 0 < (machine.run ys).waits id :=
    List.countP_pos_iff.mpr ⟨x, hx, by simpa using same⟩
  have sum := run_conserves ys id
  rw [← waits_add_answers] at sum
  have once := List.nodup_iff_count_le_one.mp (distinct_before (cut ▸ distinct)) id
  rcases h with ⟨e, inFlight, he⟩ | ⟨outcome, resolved⟩ | unknown
  · have answers : 0 < (machine.run ys).answers id :=
      List.countP_pos_iff.mpr ⟨e, by rw [inFlight]; exact List.mem_cons_self, by simpa using he⟩
    omega
  · have resolutions : 0 < resolutions id (outputs (machine.history ys)) :=
      List.countP_pos_iff.mpr ⟨_, resolved, by simp [Effect.resolves]⟩
    omega
  · -- what waits was submitted
    obtain ⟨f, hf, arrives, -⟩ := run_stamped ys x (List.mem_append_right _ hx)
    exact unknown f hf ⟨x.request, x.token, same ▸ arrives⟩

variable {past later : List machine.Event} {e : machine.Event}
  (cut : machine.history xs = past ++ e :: later)

include cut

/-- **An outcome is that of a request which was submitted**, and is reached in one of the ways that
`Resolves` lists. -/
theorem run_resolves {id : RequestId} {outcome : Outcome} (ho : .resolved id outcome ∈ e.outputs) :
    ∃ f ∈ past ++ [e], ∃ token, Asks f id token ∧
      Resolves e.action.fired e.before e.after e.action.input e.outputs id outcome token := by
  obtain ⟨ys, zs, rfl, rfl, before, -⟩ := machine.history_split cut
  have settled : Settled e.before := before ▸ run_settled ys
  have once : ∀ i, e.before.pending.countP (·.id = i) ≤ 1 :=
    before ▸ run_once (distinct_before distinct)
  obtain ⟨token, resolves⟩ := settled.iteration.resolves_subject once ho
  obtain ⟨f, hf, asks⟩ := resolves.subject.asks (before ▸ run_stamped ys)
  exact ⟨f, hf, token, asks, resolves⟩

/-- A request is called only while its token has not fired. -/
theorem run_called_unfired {x : Entry} {p : ProcessId} (hc : .called x p ∈ e.outputs)
    {f : machine.Event} (hf : f ∈ machine.history xs) {token : Token} (asks : Asks f x.id token) :
    e.action.fired token = false := by
  obtain ⟨ys, zs, rfl, rfl, before, -⟩ := machine.history_split cut
  have settled : Settled e.before := before ▸ run_settled ys
  have rule := settled.iteration
  -- the request is pending after the step, so it was submitted by then, with the same token
  obtain ⟨-, inFlight, -⟩ := rule.called settled hc
  obtain ⟨g, hg, arrives⟩ : ∃ g ∈ machine.history ys ++ [e], Asks g x.id x.token := by
    have pending : x ∈ e.after.pending :=
      List.mem_append_left _ (by rw [inFlight]; exact List.mem_cons_self)
    rcases rule.pending pending with old | ⟨new, -⟩
    · exact Subject.asks (.inr ⟨x, old, rfl, rfl⟩) (before ▸ run_stamped ys)
    · exact Subject.asks (.inl ⟨x.request, new⟩) (before ▸ run_stamped ys)
  have there : g ∈ machine.history (ys ++ e.action :: zs) := by
    rw [cut, List.append_cons]
    exact List.mem_append_left _ hg
  rw [asks_unique distinct hf there asks arrives]
  exact (rule.called_unfired hc).1

end Law

/-- **A request whose token fired in time is never called.** -/
theorem run_uncalled {xs : List Stimulus} (distinct : (submissions xs).Nodup)
    (lasting : Lasting xs) {past later : List machine.Event} {d f : machine.Event}
    (cut : machine.history xs = past ++ d :: later) {id : RequestId}
    (uncalled : callsOf id (outputs past) = []) (hf : f ∈ machine.history xs) {token : Token}
    (asks : Asks f id token) (fired : d.action.fired token = true) :
    callsOf id (outputs (machine.history xs)) = [] := by
  rw [List.eq_nil_iff_forall_not_mem]
  rintro ⟨x, p⟩ member
  obtain ⟨called, named⟩ := List.mem_filter.mp member
  obtain rfl : x.id = id := by simpa using named
  obtain ⟨e, he, hc⟩ := List.mem_flatMap.mp (mem_calls.mp called)
  rw [cut, List.mem_append, List.mem_cons] at he
  -- a call before the cancellation, at it, or after it
  rcases he with he | rfl | he
  · -- a call of the past is one more than there are
    have early : (x, p) ∈ callsOf x.id (outputs past) :=
      List.mem_filter.mpr ⟨mem_calls.mpr (List.mem_flatMap.mpr ⟨e, he, hc⟩), by simp⟩
    rw [uncalled] at early
    cases early
  · rw [run_called_unfired distinct cut hc hf asks] at fired
    cases fired
  · obtain ⟨mid, rest, rfl⟩ := List.append_of_mem he
    have cut' : machine.history xs = (past ++ d :: mid) ++ e :: rest := by
      rw [cut, List.append_assoc, List.cons_append]
    have still := lasting.later cut fired
    rw [run_called_unfired distinct cut' hc hf asks] at still
    cases still

/-! ## The law -/

/-- **Cancelling is heard in time or too late, and nothing in between.** In every run in which
requests have different numbers, tokens that fired stay so, and callers cancel what they
submitted once its token fired:

a request whose token fired before it is resolved comes to nothing else but being cancelled,
stale with its session, or closed with the dispatcher, and only a request whose token fired is
cancelled;

a request whose token fired, or for which a cancel arrived, before it was called is never
called;

a cancel takes the one request of its number out of the queue, leaves the others in their
order, and changes nothing if no request of its number waits;

and a request in flight stays there until its call ends, its session is let go of or lost, or
the dispatcher ends. -/
theorem cancel_heard_or_too_late (xs : List Stimulus) (distinct : (submissions xs).Nodup)
    (lasting : Lasting xs)
    (withdraws : ∀ past e later, machine.history xs = past ++ e :: later → Withdraws past e) :
    (∀ past e later, machine.history xs = past ++ e :: later →
      ∀ id outcome, .resolved id outcome ∈ e.outputs → ∃ f ∈ past ++ [e], ∃ token,
        Asks f id token ∧
        (e.action.fired token = true →
          FiredOutcome e.before e.after e.action.input e.outputs id outcome) ∧
        (outcome = .error .cancelled → e.action.fired token = true)) ∧
    (∀ past d later, machine.history xs = past ++ d :: later →
      ∀ id, callsOf id (outputs past) = [] →
        (d.action.input = .command (.cancel id) ∨
          ∃ f ∈ machine.history xs, ∃ token, Asks f id token ∧ d.action.fired token = true) →
        callsOf id (outputs (machine.history xs)) = []) ∧
    (∀ past e later, machine.history xs = past ++ e :: later →
      ∀ id, e.action.input = .command (.cancel id) →
        (∀ x ∈ e.before.queue, x.id = id → ∃ q₁ q₂, e.before.queue = q₁ ++ x :: q₂ ∧
          (∀ y ∈ q₁ ++ q₂, y.id ≠ id) ∧ e.after = { e.before with queue := q₁ ++ q₂ } ∧
          e.outputs = [.resolved id (.error .cancelled)]) ∧
        (Elsewhere past e.before id → e.after = e.before ∧ e.outputs = [])) ∧
    ∀ past e later, machine.history xs = past ++ e :: later →
      ∀ x, e.before.inFlight = some x → e.after.inFlight ≠ some x → Frees e.action.input x := by
  have all {past later : List machine.Event} {e : machine.Event}
      (cut : machine.history xs = past ++ e :: later) {f : machine.Event} (hf : f ∈ past ++ [e]) :
      f ∈ machine.history xs := by
    rw [cut, List.append_cons]
    exact List.mem_append_left _ hf
  refine ⟨?_, ?_, ?_, ?_⟩
  · intro past e later cut id outcome ho
    obtain ⟨f, hf, token, asks, resolves⟩ := run_resolves distinct cut ho
    refine ⟨f, hf, token, asks, resolves.asked, fun cancelled => ?_⟩
    -- a cancel comes with the token, and the request has one token only
    rcases resolves.cancelled cancelled with fired | cancel
    · exact fired
    · obtain ⟨g, hg, u, asks', fired⟩ := withdraws past e later cut id cancel
      rwa [asks_unique distinct (all cut hf) (all cut (List.mem_append_left _ hg)) asks asks']
  · intro past d later cut id uncalled h
    obtain ⟨f, hf, token, asks, fired⟩ : ∃ f ∈ machine.history xs, ∃ token,
        Asks f id token ∧ d.action.fired token = true := by
      rcases h with cancel | fired
      · obtain ⟨f, hf, token, asks, fired⟩ := withdraws past d later cut id cancel
        exact ⟨f, all cut (List.mem_append_left _ hf), token, asks, fired⟩
      · exact fired
    exact run_uncalled distinct lasting cut uncalled hf asks fired
  · intro past e later cut id cancel
    obtain ⟨ys, zs, split, rfl, before, -⟩ := machine.history_split cut
    have settled : Settled e.before := before ▸ run_settled ys
    have rule := settled.iteration
    rw [cancel] at rule
    refine ⟨fun x hx named => ?_, fun elsewhere => ?_⟩
    · obtain ⟨y, q₁, q₂, hy, cutQueue, after, effects⟩ := rule.cancel_waiting settled hx named
      -- the number is pending once, so nothing of it is left
      have others : ∀ z ∈ q₁ ++ q₂, z.id ≠ id := by
        have once := run_once (distinct_before (split ▸ distinct)) id
        rw [← before, ← waits_add_answers, State.waits, cutQueue, List.countP_append,
          List.countP_cons_of_pos (by simpa using hy)] at once
        intro z hz same
        have more : 0 < (q₁ ++ q₂).countP (·.id = id) :=
          List.countP_pos_iff.mpr ⟨z, hz, by simpa using same⟩
        rw [List.countP_append] at more
        omega
      have isY : x = y := by
        rw [cutQueue, List.mem_append, List.mem_cons, or_left_comm] at hx
        rcases hx with same | hx
        · exact same
        · exact absurd named (others x (List.mem_append.mpr hx))
      subst isY
      exact ⟨q₁, q₂, cutQueue, others, after, effects⟩
    · exact rule.cancel_nothing (before ▸ queue_of_elsewhere distinct split (before ▸ elsewhere))
  · intro past e later cut x inFlight freed
    obtain ⟨ys, zs, -, -, before, -⟩ := machine.history_split cut
    have settled : Settled e.before := before ▸ run_settled ys
    exact settled.iteration.frees settled inFlight freed

/-- Three requests of a session are cancelled, by callers whose tokens have the same numbers: one
while it is being answered, one while it waits, and one that waits and whose caller is too slow
to say so before the session is gone. -/
def withdrawnRun : List Stimulus :=
  let submit (id : RequestId) : Input := .command (.submit id ⟨"", ["check"], none⟩ id)
  let after (tokens : List Token) (input : Input) : Stimulus := ⟨fun t => t ∈ tokens, input⟩
  [ after [] (.command (.attach 1 0 0)), after [] (submit 1), after [] (submit 2),
    after [] (submit 3), after [2] (.command (.cancel 2)), after [1, 2] (.command (.cancel 1)),
    after [1, 2] (.completed ⟨1, 1, 0, .ok ⟨"1", [], false⟩, none⟩), after [1, 2] (submit 4),
    after [1, 2, 4] (.command (.detach 1 1)) ]

/-- In this run one request is withdrawn before it is called, and another one whose channel goes
while it is in flight is stale all the same. -/
theorem withdrawnRun_heard_or_too_late :
    (submissions withdrawnRun).Nodup ∧ Lasting withdrawnRun ∧
    (∀ past e later, machine.history withdrawnRun = past ++ e :: later → Withdraws past e) ∧
    callsOf 2 (outputs (machine.history withdrawnRun)) = [] ∧
    machine.run (withdrawnRun.take 6) = machine.run (withdrawnRun.take 5) ∧
    ∃ e : machine.Event, .resolved 4 (.error (.stale 1)) ∈ e.outputs ∧
      FiredOutcome e.before e.after e.action.input e.outputs 4 (.error (.stale 1)) := by
  have distinct : (submissions withdrawnRun).Nodup := by decide
  have lasting : Lasting withdrawnRun := by simp [Lasting, withdrawnRun]
  have withdraws : ∀ past e later, machine.history withdrawnRun = past ++ e :: later →
      Withdraws past e := by
    refine forall_cut_cons nofun (forall_cut_cons nofun (forall_cut_cons nofun
      (forall_cut_cons nofun (forall_cut_cons ?_ (forall_cut_cons ?_
        (forall_cut_cons nofun (forall_cut_cons nofun
          (forall_cut_cons nofun forall_cut_nil))))))))
    · rintro id ⟨⟩
      exact ⟨_, .tail _ (.tail _ (.head _)), 2, ⟨_, rfl⟩, rfl⟩
    · rintro id ⟨⟩
      exact ⟨_, .tail _ (.head _), 1, ⟨_, rfl⟩, rfl⟩
  obtain ⟨outcome, uncalled, cancel, -⟩ :=
    cancel_heard_or_too_late withdrawnRun distinct lasting withdraws
  refine ⟨distinct, lasting, withdraws, ?_, ?_, ?_⟩
  · exact uncalled [_, _, _, _] _ [_, _, _, _] rfl 2 rfl (.inl rfl)
  · exact ((cancel [_, _, _, _, _] _ [_, _, _] rfl 1 rfl).2 (.inl ⟨_, rfl, rfl⟩)).1
  · obtain ⟨past, e, later, cut, fired, stale⟩ : ∃ past e later,
        machine.history withdrawnRun = past ++ e :: later ∧ e.action.fired 4 = true ∧
          .resolved 4 (.error (.stale 1)) ∈ e.outputs := by
      refine ⟨[_, _, _, _, _, _, _, _], _, [], rfl, rfl, ?_⟩
      exact .tail _ (.head _)
    obtain ⟨f, hf, token, asks, heard, -⟩ := outcome past e later cut 4 _ stale
    have there : f ∈ machine.history withdrawnRun := by
      rw [cut, List.append_cons]
      exact List.mem_append_left _ hf
    obtain ⟨g, hg, asked⟩ : ∃ g ∈ machine.history withdrawnRun, Asks g 4 4 :=
      ⟨_, .tail _ (.tail _ (.tail _ (.tail _ (.tail _ (.tail _ (.tail _ (.head _))))))), _, rfl⟩
    rw [asks_unique distinct there hg asks asked] at heard
    exact ⟨e, stale, heard fired⟩

end CompilerSession.Dispatch
