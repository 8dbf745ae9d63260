import CompilerSession.Proofs.Dispatch.Outcomes

/-
Whose answer a caller gets.

The dispatcher starts a call with the channel of a process and hears of its end later, by a
completion that carries the channel back. In the meantime the session may be gone, and
another one may have taken its place with a call of its own. The laws here say that nobody
gets an answer that was meant for somebody else.

Two facts carry them. A request is called at most once (`calls_le`), again by counting:
a call takes its request out of the queue, and nothing ever puts one back. And the channel at
work is always that of the attached process (`run_wired`). The second needs to know that a
completion belongs to a call that was started, with the channel of that call; the task that
makes the call sends no other one.
-/

set_option autoImplicit false

namespace CompilerSession.Dispatch

open Machine (outputs forall_cut_cons forall_cut_nil)

/-! ## Calls -/

def Effect.call? : Effect → Option (Entry × ProcessId)
  | .called e p => some (e, p)
  | _ => none

/-- The calls that are started, in order. -/
def calls (effects : List Effect) : List (Entry × ProcessId) :=
  effects.filterMap Effect.call?

def callsOf (id : RequestId) (effects : List Effect) : List (Entry × ProcessId) :=
  (calls effects).filter (·.1.id = id)

/-- **A completion belongs to a call** that was started before: it carries the number and the
generation of the request, and the channel of the call. -/
def Belongs (past : List machine.Event) (e : machine.Event) : Prop :=
  ∀ c, e.action.input = .completed c → ∃ x, (x, c.process) ∈ calls (outputs past) ∧ c.answers x

/-- Commands belong to no call, so nothing is asked of them. -/
theorem Belongs.of_command {past : List machine.Event} {e : machine.Event} {c : Command}
    (h : e.action.input = .command c) : Belongs past e := by
  intro c' h'
  cases h.symm.trans h'

/-- The calls among some effects are those that the effects start. -/
theorem mem_calls {effects : List Effect} {x : Entry} {p : ProcessId} :
    (x, p) ∈ calls effects ↔ .called x p ∈ effects := by
  rw [calls, List.mem_filterMap]
  constructor
  · rintro ⟨e, he, h⟩
    cases e with
    | called y q =>
      obtain ⟨rfl, rfl⟩ := Prod.mk.inj (Option.some.inj h)
      exact he
    | resolved | attached | detached | refused | lost => cases h
  · intro h
    exact ⟨_, h, rfl⟩

/-! Only the start of a call is one; what a step tells callers is not. -/

@[simp] theorem calls_nil : calls [] = [] := rfl

@[simp] theorem calls_append (es fs : List Effect) : calls (es ++ fs) = calls es ++ calls fs :=
  List.filterMap_append

@[simp] theorem calls_cons_called (x : Entry) (p : ProcessId) (es : List Effect) :
    calls (.called x p :: es) = (x, p) :: calls es := rfl

@[simp] theorem calls_cons_resolved (id : RequestId) (outcome : Outcome) (es : List Effect) :
    calls (.resolved id outcome :: es) = calls es := rfl

@[simp] theorem calls_cons_attached (asker : OperationId) (es : List Effect) :
    calls (.attached asker :: es) = calls es := rfl

@[simp] theorem calls_cons_detached (asker : OperationId) (n : Nat) (es : List Effect) :
    calls (.detached asker n :: es) = calls es := rfl

/-- Effects that are no calls have no calls among them. -/
theorem calls_map {f : Entry → Effect} (h : ∀ e, (f e).call? = none) (q : List Entry) :
    calls (q.map f) = [] := by
  rw [calls, List.filterMap_map, List.filterMap_eq_nil_iff]
  exact fun e _ => h e

@[simp] theorem calls_cancelled (q : List Entry) : calls (q.map Entry.cancelled) = [] :=
  calls_map (fun _ => rfl) q

@[simp] theorem calls_stale (q : List Entry) : calls (q.map Entry.stale) = [] :=
  calls_map (fun _ => rfl) q

@[simp] theorem calls_closed (q : List Entry) : calls (q.map Entry.closed) = [] :=
  calls_map (fun _ => rfl) q

/-- A channel that is lost starts no calls. -/
@[simp] theorem calls_collapse (fired : Token → Bool) (s : State) (loss : Loss) :
    calls (s.collapse fired loss) = [] := by
  rw [State.collapse, calls_append, calls_append, calls_stale, calls_map (fun _ => rfl)]
  rfl

/-- After its end the dispatcher starts no calls. -/
@[simp] theorem calls_refuse (c : Command) : calls (refuse c) = [] := by
  cases c <;> rfl

section Counting

variable (id : RequestId)

@[simp] theorem callsOf_nil : callsOf id [] = [] := rfl

@[simp] theorem callsOf_append (es fs : List Effect) :
    callsOf id (es ++ fs) = callsOf id es ++ callsOf id fs := by
  rw [callsOf, calls_append, List.filter_append]
  rfl

@[simp] theorem callsOf_cons_called (x : Entry) (p : ProcessId) (es : List Effect) :
    callsOf id (.called x p :: es) =
      if x.id = id then (x, p) :: callsOf id es else callsOf id es := by
  by_cases h : x.id = id <;> simp [callsOf, h]

/-- A step that starts no call starts none for this request. -/
theorem callsOf_eq_nil {es : List Effect} (h : calls es = []) : callsOf id es = [] := by
  rw [callsOf, h, List.filter_nil]

@[simp] theorem callsOf_cons_resolved (i : RequestId) (o : Outcome) (es : List Effect) :
    callsOf id (.resolved i o :: es) = callsOf id es := rfl

@[simp] theorem callsOf_cons_attached (asker : OperationId) (es : List Effect) :
    callsOf id (.attached asker :: es) = callsOf id es := rfl

@[simp] theorem callsOf_cons_detached (asker : OperationId) (n : Nat) (es : List Effect) :
    callsOf id (.detached asker n :: es) = callsOf id es := rfl

@[simp] theorem callsOf_cancelled (q : List Entry) : callsOf id (q.map Entry.cancelled) = [] :=
  callsOf_eq_nil id (calls_cancelled q)

@[simp] theorem callsOf_stale (q : List Entry) : callsOf id (q.map Entry.stale) = [] :=
  callsOf_eq_nil id (calls_stale q)

@[simp] theorem callsOf_closed (q : List Entry) : callsOf id (q.map Entry.closed) = [] :=
  callsOf_eq_nil id (calls_closed q)

/-- A channel that is lost starts no call of a request. -/
@[simp] theorem callsOf_collapse (fired : Token → Bool) (s : State) (loss : Loss) :
    callsOf id (s.collapse fired loss) = [] :=
  callsOf_eq_nil id (calls_collapse fired s loss)

end Counting

/-- **A call takes its request out of the queue**, and only a submission puts one into it. -/
theorem Iteration.calls_le {fired : Token → Bool} {s s' : State} {input : Input}
    {effects : List Effect} (h : Iteration fired s input s' effects) (id : RequestId) :
    (callsOf id effects).length + s'.waits id ≤
      s.waits id + if input.submitted? = some id then 1 else 0 := by
  -- not an equation: requests also leave the queue uncalled, when they are taken back or stale
  cases h with
  | refused c =>
    simp [callsOf_eq_nil id (calls_refuse c)]
  | unheard | notWaiting | tooLate | exitedAlone => simp
  | firedBefore | turnedAway | otherDetached => simp
  | calledAtOnce =>
    simp only [callsOf_cons_called, Input.submitted?, Option.some.injEq]
    split <;> simp [State.waits, State.calling]
  | queued => simp [Input.submitted?, List.countP_cons, State.waits, State.calling]
  | takenBack =>
    simp [Entry.cancelled, List.countP_cons, State.waits, State.calling]
    omega
  | attached | detached => simp [State.waits, State.resting, State.vacant]
  | answered => simp [State.waits, State.resting]
  | answeredAndCalled =>
    simp only [callsOf_cons_resolved, callsOf_append, callsOf_cancelled, callsOf_cons_called,
      List.nil_append, State.waits, State.calling, List.countP_append, List.countP_cons,
      decide_eq_true_eq]
    split <;> simp <;> omega
  | failed | exited | ended => simp [State.waits, State.vacant]

/-- **A request is called at most once** for each time that it was submitted, and if it waits it was
not called that often. -/
theorem run_calls_le (xs : List Stimulus) (id : RequestId) :
    (callsOf id (outputs (machine.history xs))).length + (machine.run xs).waits id ≤
      (submissions xs).count id := by
  induction xs using List.reverseRecOn with
  | nil => exact Nat.le_refl 0
  | append_singleton xs x ih =>
    have step := (event_iteration xs x).calls_le id
    rw [machine.history_concat, Machine.outputs_append, Machine.outputs_singleton,
      callsOf_append, List.length_append, submissions_concat]
    omega

/-- **No request is called twice**, so a call for it is the only one. -/
theorem callsOf_eq {xs : List Stimulus} (distinct : (submissions xs).Nodup) {x : Entry}
    {p : ProcessId} (h : (x, p) ∈ calls (outputs (machine.history xs))) :
    callsOf x.id (outputs (machine.history xs)) = [(x, p)] := by
  have member : (x, p) ∈ callsOf x.id (outputs (machine.history xs)) :=
    List.mem_filter.mpr ⟨h, by simp⟩
  -- there are at most as many calls as submissions, and this one is among them
  have most : (callsOf x.id (outputs (machine.history xs))).length ≤ 1 := by
    have called := run_calls_le xs x.id
    have once := List.nodup_iff_count_le_one.mp distinct x.id
    omega
  obtain ⟨c, hc⟩ := List.length_eq_one_iff.mp
    (Nat.le_antisymm most (List.length_pos_of_mem member))
  rw [hc] at member ⊢
  rw [List.mem_singleton.mp member]

/-! ## Channels -/

def Input.channel? : Input → Option (Nat × ProcessId)
  | .command (.attach g p _) => some (g, p)
  | _ => none

/-- **The channel that was attached last**, with its generation. -/
def latestChannel (past : List machine.Event) : Option (Nat × ProcessId) :=
  (past.filterMap fun e => e.action.input.channel?).getLast?

/-- The latest channel is that of the last input, if it brings one. -/
theorem latestChannel_concat (past : List machine.Event) (e : machine.Event) :
    latestChannel (past ++ [e]) = e.action.input.channel?.or (latestChannel past) := by
  rw [latestChannel, List.filterMap_append]
  cases h : e.action.input.channel? with
  | none => simp [latestChannel, h]
  | some c => simp [h]

/-- A channel that can be called in a step: that of the idle process, or the one that the end
of the current call brings back. -/
def Offers (s : State) (input : Input) (p : ProcessId) : Prop :=
  s.idle = some p ∨
    ∃ c e, input = .completed c ∧ s.inFlight = some e ∧ c.answers e ∧ c.process = p

/-! What a step can do to the channel, read off the rules: what it calls, and where the request
in flight, the idle channel and the attached generation of the next state come from. -/

section Channels

variable {fired : Token → Bool} {s s' : State} {input : Input} {effects : List Effect}
  (h : Iteration fired s input s' effects)

include h

/-- **When a request is called**: as it is submitted to a channel that is idle, or as the current
call is answered, if it is then the first in the queue whose token has not fired. -/
theorem Iteration.called_cases {x : Entry} {p : ProcessId} (hc : .called x p ∈ effects) :
    (∃ w, s = .resting x.generation p w ∧ input = .command (.submit x.id x.request x.token) ∧
      fired x.token = false ∧ s' = .calling w x []) ∨
    (∃ w e q₁ q₂ c, s = .calling w e (q₁ ++ x :: q₂) ∧ input = .completed c ∧ c.answers e ∧
      c.process = p ∧ fired x.token = false ∧ s' = .calling w x q₂) := by
  cases h with
  | refused c => cases c <;> simp [refuse] at hc
  | unheard | queued | notWaiting | tooLate | exitedAlone => cases hc
  | firedBefore | turnedAway | otherDetached | takenBack => simp [Entry.cancelled] at hc
  | attached | detached => simp [Entry.stale] at hc
  | answered => simp [Entry.cancelled] at hc
  | failed | exited => simp [State.collapse, Entry.blamed, Entry.stale] at hc
  | ended => simp [Entry.closed] at hc
  | calledAtOnce g p' w id request token unfired =>
    obtain ⟨rfl, rfl⟩ := Effect.called.inj (List.mem_singleton.mp hc)
    exact .inl ⟨w, rfl, rfl, unfired, rfl⟩
  | answeredAndCalled w e y q₁ q₂ c r current result skipped unfired =>
    rw [List.mem_cons, List.mem_append, List.mem_singleton] at hc
    rcases hc with hc | hc | hc
    · cases hc
    · simp [Entry.cancelled] at hc
    · obtain ⟨rfl, rfl⟩ := Effect.called.inj hc
      exact .inr ⟨w, e, q₁, q₂, c, rfl, rfl, current, rfl, unfired, rfl⟩

/-- **What a call is**: its request becomes the one in flight, on a channel that can be called,
under the attached generation. -/
theorem Iteration.called (hs : Settled s) {x : Entry} {p : ProcessId}
    (hc : .called x p ∈ effects) :
    Offers s input p ∧ s'.inFlight = some x ∧ s.attached = some x.generation ∧
      s'.watched = s.watched := by
  obtain ⟨w, rfl, rfl, -, rfl⟩ | ⟨w, e, q₁, q₂, c, rfl, rfl, current, rfl, -, rfl⟩ :=
    h.called_cases hc
  · exact ⟨.inl rfl, rfl, rfl, rfl⟩
  · have same : x.generation = e.generation := hs.same x (by simp)
    exact ⟨.inr ⟨c, e, rfl, rfl, current, rfl⟩, rfl, by rw [same]; rfl, rfl⟩

/-- What is in flight afterwards was called just now, or it was in flight before. -/
theorem Iteration.inFlight {e : Entry} (he : s'.inFlight = some e) :
    (∃ p, .called e p ∈ effects) ∨ s.inFlight = some e ∧ s'.watched = s.watched := by
  cases h with
  | refused | unheard | turnedAway | attached | detached | answered | failed | exited |
      exitedAlone | ended =>
    cases he
  | firedBefore | notWaiting | otherDetached | tooLate => exact .inr ⟨he, rfl⟩
  | queued | takenBack => exact .inr ⟨he, rfl⟩
  | calledAtOnce g p w id request token =>
    obtain rfl := Option.some.inj he
    exact .inl ⟨p, List.mem_cons_self⟩
  | answeredAndCalled w y x q₁ q₂ c r =>
    obtain rfl := Option.some.inj he
    exact .inl ⟨c.process, by simp⟩

/-- A channel is free when it has just been attached, or when nothing was called on it. -/
theorem Iteration.idle {p : ProcessId} (hp : s'.idle = some p) :
    (∃ g, input.channel? = some (g, p) ∧ s'.watched = some p) ∨
      Offers s input p ∧ s'.watched = s.watched := by
  cases h with
  | refused | unheard | turnedAway | detached | failed | exited | exitedAlone | ended |
      calledAtOnce | queued | takenBack | answeredAndCalled =>
    cases hp
  | firedBefore | notWaiting | otherDetached | tooLate => exact .inr ⟨.inl hp, rfl⟩
  | attached s g q asker =>
    obtain rfl := Option.some.inj hp
    exact .inl ⟨g, rfl, rfl⟩
  | answered w e q c r current =>
    obtain rfl := Option.some.inj hp
    exact .inr ⟨.inr ⟨c, e, rfl, rfl, current, rfl⟩, rfl⟩

/-- **What is attached** was attached just now, or it was attached before and is watched as before.
-/
theorem Iteration.attached_eq (hs : Settled s) {g : Nat} (hg : s'.attached = some g) :
    (∃ p, input.channel? = some (g, p) ∧ s'.watched = some p) ∨
      input.channel? = none ∧ s.attached = some g ∧ s'.watched = s.watched := by
  cases h with
  | refused | unheard | turnedAway | detached | failed | exited | exitedAlone | ended => cases hg
  | firedBefore | notWaiting | otherDetached | tooLate => exact .inr ⟨rfl, hg, rfl⟩
  | calledAtOnce | queued | takenBack | answered => exact .inr ⟨rfl, hg, rfl⟩
  | attached s g' p asker =>
    obtain rfl := Option.some.inj hg
    exact .inl ⟨p, rfl, rfl⟩
  | answeredAndCalled w e x q₁ q₂ =>
    have same : x.generation = e.generation := hs.same x (by simp)
    obtain rfl := Option.some.inj hg
    exact .inr ⟨rfl, by rw [same]; rfl, rfl⟩

end Channels

/-- **The channel at work is that of the attached process.** The watched process is the one
whose channel was attached last, an idle channel is its channel, and the request in flight
was called on it. -/
structure Wired (xs : List Stimulus) : Prop where
  attached : ∀ g, (machine.run xs).attached = some g →
    ∃ w, (machine.run xs).watched = some w ∧ latestChannel (machine.history xs) = some (g, w)
  idle : ∀ p, (machine.run xs).idle = some p → (machine.run xs).watched = some p
  inFlight : ∀ e, (machine.run xs).inFlight = some e →
    ∃ w, (machine.run xs).watched = some w ∧ (e, w) ∈ calls (outputs (machine.history xs))

/-- A channel that can be called is that of the watched process: the completion that brings a
channel back belongs to a call for the request in flight, and there is only one. -/
theorem Wired.offers {xs : List Stimulus} {x : Stimulus} (wired : Wired xs)
    (distinct : (submissions xs).Nodup) (belongs : Belongs (machine.history xs) ⟨machine.run xs, x⟩)
    {p : ProcessId} (offered : Offers (machine.run xs) x.input p) :
    (machine.run xs).watched = some p := by
  rcases offered with idle | ⟨c, e, hx, inFlight, current, rfl⟩
  · exact wired.idle p idle
  · obtain ⟨w, watched, called⟩ := wired.inFlight e inFlight
    -- `y` is the request whose call ended and `e` the one in flight: both were called
    obtain ⟨y, answered, answers⟩ := belongs c hx
    have sameId : y.id = e.id := answers.1.trans current.1.symm
    have only := callsOf_eq distinct called
    have also := callsOf_eq distinct answered
    rw [sameId, only] at also
    obtain ⟨rfl, rfl⟩ := Prod.mk.inj (List.cons.inj also).1
    exact watched

/-- In a run in which completions belong to calls, the dispatcher stays wired. -/
theorem run_wired (xs : List Stimulus) (distinct : (submissions xs).Nodup)
    (belong : ∀ past e later, machine.history xs = past ++ e :: later → Belongs past e) :
    Wired xs := by
  -- the numbers of a shorter run differ too, so that they do goes into the induction
  refine machine.run_induction (P := fun xs => (submissions xs).Nodup → Wired xs)
    (A := Belongs) (fun _ => ⟨nofun, nofun, nofun⟩) ?_ xs belong distinct
  intro xs x ih belongs distinct
  have wired := ih (distinct_before distinct)
  have rule := event_iteration xs x
  have offers := fun p => wired.offers (p := p) (distinct_before distinct) belongs
  refine ⟨?_, ?_, ?_⟩
  · intro g hg
    rw [machine.history_concat, latestChannel_concat]
    rcases rule.attached_eq (run_settled xs) hg with ⟨p, hx, watched⟩ | ⟨hx, old, watched⟩
    · exact ⟨p, watched, by simp [hx]⟩
    · obtain ⟨w, hw, latest⟩ := wired.attached g old
      exact ⟨w, watched.trans hw, by simp [hx, latest]⟩
  · intro p hp
    rcases rule.idle hp with ⟨g, -, watched⟩ | ⟨offered, watched⟩
    · exact watched
    · exact watched.trans (offers p offered)
  · intro e he
    rw [machine.history_concat, Machine.outputs_append, Machine.outputs_singleton]
    simp only [mem_calls, List.mem_append]
    rcases rule.inFlight he with ⟨p, called⟩ | ⟨old, watched⟩
    · obtain ⟨offered, -, -, watched⟩ := rule.called (run_settled xs) called
      exact ⟨p, watched.trans (offers p offered), .inr called⟩
    · obtain ⟨w, hw, called⟩ := wired.inFlight e old
      exact ⟨w, watched.trans hw, .inl (mem_calls.mp called)⟩

/-! ## Answers -/

/-- **What a good answer is**: the response that ends the current call, unmarked, to a request
whose token did not fire. -/
theorem Iteration.answer {fired : Token → Bool} {s s' : State} {input : Input}
    {effects : List Effect} (h : Iteration fired s input s' effects) {id : RequestId}
    {out : RawOutput} (ho : .resolved id (.ok out) ∈ effects) :
    ∃ c x r, input = .completed c ∧ s.inFlight = some x ∧ c.answers x ∧ x.id = id ∧
      c.result = .ok r ∧ r.hasError = false ∧ out = r.raw := by
  -- an answer is good only without an error mark and without a fired token
  have unpack : ∀ {f : Bool} {r : Response}, Except.ok out = answerOutcome f r →
      r.hasError = false ∧ out = r.raw := by
    intro f r ho
    unfold answerOutcome at ho
    split at ho
    · cases ho
    · split at ho
      · cases ho
      · exact ⟨by simpa using ‹¬ r.hasError = true›, Except.ok.inj ho⟩
  cases h with
  | refused c => cases c <;> simp [refuse] at ho
  | unheard | queued | notWaiting | tooLate | exitedAlone => cases ho
  | firedBefore | turnedAway | otherDetached | takenBack | calledAtOnce =>
    simp [Entry.cancelled] at ho
  | attached | detached => simp [Entry.stale] at ho
  | failed | exited => simp [State.collapse, Entry.blamed, Entry.stale] at ho
  | ended => simp [Entry.closed] at ho
  | answered w e q c r current result =>
    rcases List.mem_cons.mp ho with ho | ho
    · obtain ⟨rfl, answer⟩ := Effect.resolved.inj ho
      obtain ⟨unmarked, raw⟩ := unpack answer
      exact ⟨c, e, r, rfl, rfl, current, rfl, result, unmarked, raw⟩
    · simp [Entry.cancelled] at ho
  | answeredAndCalled w e y q₁ q₂ c r current result =>
    rcases List.mem_cons.mp ho with ho | ho
    · obtain ⟨rfl, answer⟩ := Effect.resolved.inj ho
      obtain ⟨unmarked, raw⟩ := unpack answer
      exact ⟨c, e, r, rfl, rfl, current, rfl, result, unmarked, raw⟩
    · simp [Entry.cancelled] at ho

/-- A completion for which no request is in flight comes to nothing. -/
theorem Iteration.tooLate_eq {fired : Token → Bool} {s s' : State} {c : Completion}
    {effects : List Effect} (h : Iteration fired s (.completed c) s' effects)
    (late : ∀ x ∈ s.pending, x.id ≠ c.id) : s' = s ∧ effects = [] := by
  cases h with
  | unheard | tooLate => exact ⟨rfl, rfl⟩
  | answered w e q c r current | answeredAndCalled w e x q₁ q₂ c r current
  | failed w e q c fault current =>
    exact absurd current.1 (late e List.mem_cons_self)
  | ended s input h => rcases h with h | h <;> cases h

/-- The event takes a generation away: nothing is attached after it, or another channel. -/
def detaches (e : machine.Event) (g : Nat) : Prop :=
  e.before.attached = some g ∧
    (e.after.attached = none ∨ ∃ g' p asker, e.action.input = .command (.attach g' p asker))

/-- A channel that goes leaves nothing unresolved behind. -/
theorem Iteration.detaches_pending {fired : Token → Bool} {s s' : State} {input : Input}
    {effects : List Effect} (h : Iteration fired s input s' effects) {g : Nat}
    (attached : s.attached = some g)
    (gone : s'.attached = none ∨ ∃ g' p asker, input = .command (.attach g' p asker)) :
    s'.pending = [] := by
  cases h with
  | refused | unheard | turnedAway | attached | detached | answered | failed | exited |
      exitedAlone | ended =>
    rfl
  | firedBefore | notWaiting | otherDetached | tooLate =>
    rw [attached] at gone
    rcases gone with gone | ⟨g', p, asker, gone⟩ <;> cases gone
  | calledAtOnce | queued | takenBack | answeredAndCalled =>
    rcases gone with gone | ⟨g', p, asker, gone⟩ <;> cases gone

/-- What was submitted while it could be resolved is never pending again: once nothing is
pending, a request of the past stays resolved. -/
theorem run_gone {ys zs : List Stimulus} {id : RequestId}
    (distinct : (submissions (ys ++ zs)).Nodup) (submitted : 0 < (submissions ys).count id)
    (none : (machine.run ys).pending = []) :
    ∀ x ∈ (machine.run (ys ++ zs)).pending, x.id ≠ id := by
  intro x hx same
  have resolved := run_conserves ys id
  have conserved := run_conserves (ys ++ zs) id
  have once := List.nodup_iff_count_le_one.mp distinct id
  have pending : 0 < (machine.run (ys ++ zs)).pending.countP (·.id = id) :=
    List.countP_pos_iff.mpr ⟨x, hx, by simpa using same⟩
  -- the earlier count has `id` resolved, the later one has it pending as well: two in all
  rw [none, List.countP_nil] at resolved
  rw [Machine.history, Machine.historyFrom_append, Machine.outputs_append,
    resolutions_append] at conserved
  rw [Machine.history] at resolved
  omega

/-! ## The law -/

section Law

variable {xs : List Stimulus} (distinct : (submissions xs).Nodup)

include distinct

/-- A completion whose generation was taken away after its call comes to nothing. When the
generation went, the request was resolved with all others. -/
theorem run_tooLate {past mid later : List machine.Event} {f e : machine.Event} {x : Entry}
    {c : Completion} (cut : machine.history xs = past ++ f :: (mid ++ e :: later))
    (called : .called x c.process ∈ f.outputs) (hc : e.action.input = .completed c)
    (answers : c.answers x) (gone : ∃ d ∈ mid, detaches d c.generation) :
    e.outputs = [] ∧ e.after = e.before := by
  obtain ⟨d, hd, attached, gone⟩ := gone
  obtain ⟨mid₁, mid₂, rfl⟩ := List.append_of_mem hd
  have cut' : machine.history xs = (past ++ f :: mid₁) ++ d :: (mid₂ ++ e :: later) := by
    rw [cut, List.append_assoc, List.append_assoc, List.cons_append, List.cons_append]
  obtain ⟨ys, zs, ws, rfl, hpast, dBefore, -, eBefore⟩ := machine.history_split_two cut'
  -- right after `d` nothing is pending, and the request of `x` had been submitted by then
  have none : (machine.run (ys ++ [d.action])).pending = [] := by
    refine (event_iteration ys d.action).detaches_pending (dBefore ▸ attached) ?_
    rw [machine.run_concat, ← dBefore]
    exact gone
  have submitted : 0 < (submissions (ys ++ [d.action])).count c.id := by
    have asked := run_calls_le ys x.id
    have call : (x, c.process) ∈ callsOf x.id (outputs (machine.history ys)) := by
      refine List.mem_filter.mpr ⟨mem_calls.mpr ?_, by simp⟩
      rw [← hpast, Machine.outputs_append]
      exact List.mem_append_right _ (List.mem_flatMap.mpr ⟨f, List.mem_cons_self, called⟩)
    have some := List.length_pos_of_mem call
    rw [← answers.1, submissions_concat]
    omega
  have late := run_gone (distinct_before distinct) submitted none
  rw [← eBefore] at late
  have settled : Settled e.before := eBefore ▸ run_settled _
  have rule := settled.iteration
  rw [hc] at rule
  exact (rule.tooLate_eq late).symm

variable (belong : ∀ past e later, machine.history xs = past ++ e :: later → Belongs past e)

include belong

/-- Completions belong to calls in a shorter run as well. -/
theorem wired_before {ys zs : List Stimulus} (split : xs = ys ++ zs) : Wired ys := by
  subst split
  refine run_wired ys (distinct_before distinct) fun past e later cut => ?_
  refine belong past e (later ++ machine.historyFrom (machine.run ys) zs) ?_
  rw [Machine.history, machine.historyFrom_append, ← Machine.history, cut, List.append_assoc,
    List.cons_append]
  rfl

/-- A channel that is called is that of the watched process. -/
theorem run_watched {past later : List machine.Event} {e : machine.Event}
    (cut : machine.history xs = past ++ e :: later) {x : Entry} {p : ProcessId}
    (hc : .called x p ∈ e.outputs) : e.before.watched = some p := by
  obtain ⟨ys, zs, split, rfl, before, -⟩ := machine.history_split cut
  have settled : Settled e.before := before ▸ run_settled ys
  obtain ⟨offered, -⟩ := settled.iteration.called settled hc
  have wired := wired_before distinct belong split
  rw [before]
  exact wired.offers (x := e.action) (distinct_before (split ▸ distinct))
    (before ▸ belong _ e later cut) (before ▸ offered)

/-- A call is made for a request as it was taken, on the channel that was attached with its
generation. -/
theorem run_called {past later : List machine.Event} {e : machine.Event}
    (cut : machine.history xs = past ++ e :: later) {x : Entry} {p : ProcessId}
    (hc : .called x p ∈ e.outputs) :
    Taken (past ++ [e]) x ∧ e.before.attached = some x.generation ∧
      latestChannel past = some (x.generation, p) := by
  have watched := run_watched distinct belong cut hc
  obtain ⟨ys, zs, split, rfl, before, -⟩ := machine.history_split cut
  have rule := event_iteration ys e.action
  rw [← before] at rule
  obtain ⟨-, inFlight, attached, -⟩ := rule.called (before ▸ run_settled ys) hc
  refine ⟨?_, attached, ?_⟩
  · have stamped := run_stamped (ys ++ [e.action]) x
      (List.mem_append_left _ (by rw [inFlight]; exact List.mem_cons_self))
    rwa [machine.history_concat, ← before] at stamped
  · obtain ⟨w, hw, latest⟩ :=
      (wired_before distinct belong split).attached _ (before ▸ attached)
    rw [latest, Option.some.inj (hw.symm.trans (before ▸ watched))]

/-- A good answer is the response that ended a call for the request, as it came. -/
theorem run_answered {past later : List machine.Event} {e : machine.Event}
    (cut : machine.history xs = past ++ e :: later) {id : RequestId} {out : RawOutput}
    (ho : .resolved id (.ok out) ∈ e.outputs) :
    ∃ c x r, e.action.input = .completed c ∧ c.answers x ∧ x.id = id ∧
      c.result = .ok r ∧ r.hasError = false ∧ out = r.raw ∧ Taken past x ∧
      (x, c.process) ∈ calls (outputs past) := by
  obtain ⟨ys, zs, -, hpast, before, -⟩ := machine.history_split cut
  have settled : Settled e.before := before ▸ run_settled ys
  obtain ⟨c, y, r, hc, -, current, rfl, result, unmarked, raw⟩ := settled.iteration.answer ho
  obtain ⟨x, called, answers⟩ := belong _ e later cut c hc
  refine ⟨c, x, r, hc, answers, answers.1.trans current.1.symm, result, unmarked, raw, ?_, called⟩
  -- the event that called `x` is in the past, and `x` was taken before it was called
  obtain ⟨f, hf, callsIt⟩ := List.mem_flatMap.mp (mem_calls.mp called)
  obtain ⟨past₁, past₂, rfl⟩ := List.append_of_mem hf
  have cut' : machine.history xs = past₁ ++ f :: (past₂ ++ e :: later) := by
    rw [cut, List.append_assoc, List.cons_append]
  obtain ⟨g, hg, taken⟩ := (run_called distinct belong cut' callsIt).1
  refine ⟨g, ?_, taken⟩
  rw [List.append_cons]
  exact List.mem_append_left _ hg

end Law

/-- **Answers keep to their calls.** In every run in which requests have different numbers and
completions belong to calls:

a good answer is the response, unmarked and as it came, that ended the only call ever made for
the request, and that call was made with the request just as it was submitted;

a call is made under the generation of its request and on the channel that was attached with
that generation, and no other call is made for the request;

and a completion whose generation was taken away after its call comes to nothing, whatever is
attached or in flight by then. -/
theorem answers_keep_to_their_calls (xs : List Stimulus) (distinct : (submissions xs).Nodup)
    (belong : ∀ past e later, machine.history xs = past ++ e :: later → Belongs past e) :
    (∀ past e later, machine.history xs = past ++ e :: later →
      ∀ id out, .resolved id (.ok out) ∈ e.outputs → ∃ c x r,
        e.action.input = .completed c ∧ c.answers x ∧ x.id = id ∧
        c.result = .ok r ∧ r.hasError = false ∧ out = r.raw ∧ Taken past x ∧
        (x, c.process) ∈ calls (outputs past) ∧
        callsOf id (outputs (machine.history xs)) = [(x, c.process)]) ∧
    (∀ past e later, machine.history xs = past ++ e :: later →
      ∀ x p, .called x p ∈ e.outputs →
        Taken (past ++ [e]) x ∧ e.before.attached = some x.generation ∧
        latestChannel past = some (x.generation, p) ∧
        callsOf x.id (outputs (machine.history xs)) = [(x, p)]) ∧
    ∀ past f mid e later, machine.history xs = past ++ f :: (mid ++ e :: later) →
      ∀ x c, .called x c.process ∈ f.outputs → e.action.input = .completed c → c.answers x →
        (∃ d ∈ mid, detaches d c.generation) → e.outputs = [] ∧ e.after = e.before := by
  refine ⟨?_, ?_, fun _ _ _ _ _ cut x c => run_tooLate distinct cut⟩
  · intro past e later cut id out ho
    obtain ⟨c, x, r, hc, answers, rfl, result, unmarked, raw, taken, called⟩ :=
      run_answered distinct belong cut ho
    refine ⟨c, x, r, hc, answers, rfl, result, unmarked, raw, taken, called, ?_⟩
    -- a call in the past is one of the whole run, and of one request there is only one
    refine callsOf_eq distinct ?_
    rw [cut, Machine.outputs_append]
    exact mem_calls.mpr (List.mem_append_left _ (mem_calls.mp called))
  · intro past e later cut x p hc
    obtain ⟨taken, attached, latest⟩ := run_called distinct belong cut hc
    refine ⟨taken, attached, latest, callsOf_eq distinct (mem_calls.mpr ?_)⟩
    rw [cut, Machine.outputs_append]
    exact List.mem_append_right _ (List.mem_flatMap.mpr ⟨e, List.mem_cons_self, hc⟩)

/-- A session is replaced while it answers one request and another one waits. Its answer comes
while its successor answers a third, of which the contents are empty but not absent. -/
def replacedRun : List Stimulus :=
  let submit (id : RequestId) (stdin : Option String) : Input :=
    .command (.submit id ⟨"", ["check"], stdin⟩ id)
  let answer (id g : Nat) (p : ProcessId) (text : String) : Input :=
    .completed ⟨id, g, p, .ok ⟨text, [], false⟩, none⟩
  [ .command (.attach 1 0 0), submit 1 none, submit 2 none, .command (.detach 1 1),
    .command (.attach 2 1 1), submit 3 (some ""), answer 1 1 0 "old", answer 3 2 1 "new" ].map
    fun input => ⟨fun _ => false, input⟩

/-- In this run the third request is called once, and the late answer of the first channel changes
nothing. -/
theorem replacedRun_keeps_answers :
    (submissions replacedRun).Nodup ∧
    (∀ past e later, machine.history replacedRun = past ++ e :: later → Belongs past e) ∧
    (∃ x, callsOf 3 (outputs (machine.history replacedRun)) = [(x, 1)]) ∧
    (machine.run (replacedRun.take 6)).inFlight.isSome ∧
    machine.run (replacedRun.take 7) = machine.run (replacedRun.take 6) := by
  have distinct : (submissions replacedRun).Nodup := by decide
  have belong : ∀ past e later, machine.history replacedRun = past ++ e :: later →
      Belongs past e := by
    refine forall_cut_cons (.of_command rfl) (forall_cut_cons (.of_command rfl)
      (forall_cut_cons (.of_command rfl) (forall_cut_cons (.of_command rfl)
        (forall_cut_cons (.of_command rfl) (forall_cut_cons (.of_command rfl)
          (forall_cut_cons ?_ (forall_cut_cons ?_ forall_cut_nil)))))))
    · rintro c ⟨⟩
      exact ⟨⟨1, ⟨"", ["check"], none⟩, 1, 1⟩, .head _, rfl, rfl⟩
    · rintro c ⟨⟩
      exact ⟨⟨3, ⟨"", ["check"], some ""⟩, 3, 2⟩, .tail _ (.head _), rfl, rfl⟩
  obtain ⟨good, -, late⟩ := answers_keep_to_their_calls replacedRun distinct belong
  refine ⟨distinct, belong, ?_, rfl, ?_⟩
  · obtain ⟨c, x, r, hc, -, -, -, -, -, -, -, only⟩ :=
      good [_, _, _, _, _, _, _] _ [] rfl 3 ⟨"new", []⟩ (.head _)
    cases hc
    exact ⟨x, only⟩
  · exact (late [_] _ [_, _, _, _] _ [_] rfl ⟨1, ⟨"", ["check"], none⟩, 1, 1⟩ _ (.head _) rfl
      ⟨rfl, rfl⟩ ⟨_, .tail _ (.head _), rfl, .inl rfl⟩).2

end CompilerSession.Dispatch
