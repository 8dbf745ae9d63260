import CompilerSession.Proofs.Session.Dropping

/-
What is announced of sessions.

Everybody who listens learns of a session twice: that it is ready, and how it ended. `Story` says
what a sequence of such events has to look like, and `Chapter` what holds of the events so far while
an operation is at a stage: whether an end is still to be told, and which generation comes next.
Sessions end by operations only, each of which takes the session away before it kills the process.
So a crash that is noticed during a stop or a restart finds nothing to end, and an end is told once.

An operation that is given up in the middle tells no end, and a generation that was handed out to it
may never be ready. Both are allowed by a story that is not `whole`; the laws about a single
generation do not depend on it.
-/

set_option autoImplicit false

namespace CompilerSession.Supervisor

open Dispatch (Loss Effect Settled)
open Machine (outputs)

/-! ## Announcements -/

def Signal.announced? : Signal → Option Event
  | .announced e => some e
  | _ => none

/-- **The events that are announced**, in order. -/
def announced (signals : List Signal) : List Event :=
  signals.filterMap Signal.announced?

@[simp] theorem announced_append (xs ys : List Signal) :
    announced (xs ++ ys) = announced xs ++ announced ys :=
  List.filterMap_append

/-- **What is recorded is announced.** -/
def Tells (s : Supervisor) (r : Supervisor × List Signal) : Prop :=
  r.1.events = s.events ++ announced r.2

section Tells

variable {s t : Supervisor} {signals : List Signal}

/-- Two steps one after the other tell what each of them tells. -/
theorem Tells.andThen {r : Supervisor × List Signal} (first : Tells s (t, signals))
    (rest : Tells t r) : Tells s (r.1, signals ++ r.2) := by
  rw [Tells, rest, first, announced_append, List.append_assoc]

/-- A step tells the same from a state with the same events. -/
theorem Tells.of_events {r : Supervisor × List Signal} (tells : Tells t r)
    (same : t.events = s.events) : Tells s r := by
  rw [Tells, tells, same]

/-- Nothing is recorded and nothing announced. -/
theorem Tells.silent {r : Supervisor × List Signal} (same : r.1.events = s.events)
    (silent : announced r.2 = []) : Tells s r := by
  rw [Tells, same, silent, List.append_nil]

variable (s)

theorem tells_release : Tells s s.release := by
  unfold release
  split <;> exact .silent rfl rfl

/-- What the dispatcher brings about is neither recorded nor announced. -/
theorem tells_absorb (es : List Effect) : Tells s (s.absorb es) := by
  induction es generalizing s with
  | nil => exact .silent rfl rfl
  | cons e es ih =>
    have first : Tells s (s.absorbOne e) := by
      cases e with
      | resolved | called | lost => exact .silent rfl rfl
      | attached | detached | refused =>
        simp only [absorbOne]
        split <;> exact .silent rfl rfl
    exact first.andThen (ih _)

theorem tells_post (c : Dispatch.Command) : Tells s (s.post c) := by
  unfold post
  split
  · exact tells_absorb s _
  · exact .silent rfl rfl

theorem tells_enter (purpose : Purpose) : (s.enter purpose).events = s.events := by
  unfold enter
  cases h : s.holder <;> rfl

theorem tells_finish (o : Operation) (result : Result) : Tells s (s.finish o result) := by
  have released : Tells s (s.setStage o.id (o.purpose.last result)).release :=
    (tells_release _).of_events rfl
  revert released
  unfold finish
  cases o.purpose with
  | start | stop | restart | shutdown => exact id
  | crash => exact .trans rfl

theorem tells_conclude (o : Operation) (outcome : Except Failure Info) :
    Tells s (s.conclude o outcome) := by
  unfold conclude
  cases o.purpose <;> exact (tells_finish _ o _).of_events rfl

theorem tells_beginTeardown (o : Operation) (l : Live) : Tells s (s.beginTeardown o l) :=
  (tells_post _ _).of_events rfl

/-- What an operation does on its turn is recorded as it is announced. -/
theorem tells_entered (o : Operation) : Tells s (s.entered o) := by
  unfold entered
  split
  · split
    · exact tells_finish s o _
    · exact .silent rfl rfl
  · split
    · exact (tells_beginTeardown _ o _).of_events rfl
    · exact tells_finish s o _
  · split
    · exact (tells_beginTeardown _ o _).of_events rfl
    · exact tells_finish s o _
  · split
    · exact tells_finish s o _
    · simp only [setStatus]
      split
      · exact (tells_beginTeardown _ o _).of_events rfl
      · exact .silent rfl rfl
  · split
    · split
      · exact .silent rfl rfl
      · exact tells_finish s o _
    · exact tells_finish s o _

/-- The end of a session is recorded as it is announced, after the kill of its process. -/
theorem tells_afterKill (o : Operation) (next : Aftermath) : Tells s (s.afterKill o next) := by
  unfold afterKill
  cases next with
  | launchFailed failure => exact (tells_conclude _ o _).of_events rfl
  | tornDown l =>
    have gone : Tells s ({ s with current := none }.announce (.stopped l.generation)) := rfl
    cases o.purpose with
    | restart => exact gone
    | start | stop | shutdown | crash => exact gone.andThen ((tells_finish _ o _).of_events rfl)
  | crashed l loss =>
    have gone (e : Event) : Tells s (({ s with current := none }.setStatus .stopped).announce e) :=
      rfl
    exact (gone _).andThen (tells_finish _ o _)

/-- That a session is ready is recorded as it is announced. -/
theorem tells_becomeReady (o : Operation) (l : Live) : Tells s (s.becomeReady o l) := by
  have ready : Tells s
      (({ s with current := some l.info, session := some l }.setStatus .ready).announce
        (.ready l.generation l.version)) := rfl
  exact ready.andThen (tells_conclude _ o _)

/-- **An operation that goes on records what it announces.** -/
theorem tells_proceed (id : OperationId) (seen : Observation) : Tells s (s.proceed id seen) := by
  have stuck : Tells s (s, []) := .silent rfl rfl
  unfold proceed
  split
  · exact stuck
  · rename_i o _
    split
    · exact tells_entered s o
    · exact .silent rfl rfl
    · exact tells_afterKill s o _
    · unfold afterLaunch
      split
      · exact (tells_conclude _ o _).of_events rfl
      · exact .silent rfl rfl
    · unfold afterProbe
      split
      · exact .silent rfl rfl
      · exact (tells_post _ _).of_events rfl
    · exact tells_becomeReady s o _
    · exact .silent rfl rfl
    · exact (tells_post _ _).of_events rfl
    · exact stuck

omit s in
theorem Takes.events {a a' : Affairs} {input : Dispatch.Input} (taken : Takes a input a') :
    a'.events = a.events := by
  cases taken <;> rfl

/-- The dispatcher records nothing and announces nothing. -/
theorem tells_dispatch (fired : Token → Bool) : Tells s (s.runDispatcher fired) := by
  unfold runDispatcher
  split
  · exact .silent rfl rfl
  · rename_i input taken next
    have same : taken.events = s.events := (nextInput?_takes next).1.events
    exact (tells_absorb _ _).of_events same

/-- **What is recorded is announced**, move by move. -/
theorem tells_step (move : Move) : Tells s (s.step move) := by
  cases move with
  | begin errand => cases errand <;> exact .silent (tells_enter _ _) rfl
  | draw | exit | tick | collect => exact .silent rfl rfl
  -- the moves that are left record nothing, whichever branch they take
  | ask id =>
    refine .silent ?_ rfl
    show (s.ask id).events = s.events
    unfold ask
    split <;> rfl
  | submit request token => exact (tells_post _ _).of_events rfl
  | withdraw id => exact tells_post s _
  | dispatch fired => exact tells_dispatch s fired
  | monitor =>
    refine .silent ?_ rfl
    show s.monitorNext.events = s.events
    unfold monitorNext
    split
    · exact tells_enter _ _
    · rfl
  | proceed id seen => exact tells_proceed s id seen
  | answer id result =>
    show Tells s (s.answer id result)
    unfold answer
    split
    · exact .silent rfl rfl
    · split <;> exact .silent rfl rfl
  | settle id =>
    show Tells s (s.settle id)
    unfold settle
    split
    · split <;> exact .silent rfl rfl
    · exact .silent rfl rfl
  | abandon id =>
    show Tells s (s.abandon id)
    unfold abandon
    split
    · exact (tells_release _).of_events rfl
    · exact .silent rfl rfl

end Tells

/-- **The record of events is what was announced.** -/
theorem run_announced (xs : List Move) :
    announced (outputs (machine.history xs)) = (machine.run xs).events := by
  induction xs using List.reverseRecOn with
  | nil => rfl
  | append_singleton xs x ih =>
    rw [machine.history_concat, Machine.outputs_append, Machine.outputs_singleton,
      announced_append, ih, machine.run_concat]
    exact (tells_step _ x).symm

/-! ## Stories -/

/-- The event tells the end of the session of a generation. -/
def Ends (g : Nat) : Event → Prop
  | .ready _ _ => False
  | .stopped g' | .crashed g' _ _ => g' = g

/-- **What can be told of sessions**: `Story whole n finished es` says that `es` is in order, that
`n` is the last generation that was ready, and whether its end was told. In a whole story no
generation is left out and every end is told. -/
inductive Story (whole : Prop) : Nat → Bool → List Event → Prop where
  | nil : Story whole 0 true []
  | ready {n : Nat} {finished : Bool} {es : List Event} (story : Story whole n finished es)
      (g : Nat) (v : Version) (later : n < g) (next : whole → finished = true ∧ g = n + 1)
      (supported : v.atLeast .minimum = true) : Story whole g false (es ++ [Event.ready g v])
  | ended {g : Nat} {es : List Event} (story : Story whole g false es) (e : Event)
      (ends : Ends g e) : Story whole g true (es ++ [e])

/-- **Ready and end in turn**, generation after generation, as far as it goes. -/
def Alternates (es : List Event) : Prop :=
  ∀ i, (∀ e, es[2 * i]? = some e → ∃ v, e = .ready (i + 1) v ∧ v.atLeast .minimum = true) ∧
    ∀ e, es[2 * i + 1]? = some e → Ends (i + 1) e

section Story

variable {whole : Prop} {n : Nat} {finished : Bool} {es : List Event}

/-- What ends a session names its generation. -/
theorem Ends.generation {g : Nat} {e : Event} (ends : Ends g e) : e.generation = g := by
  cases e with
  | ready => exact ends.elim
  | stopped | crashed => exact ends

/-- The last generation is the highest. -/
theorem Story.generation_le (story : Story whole n finished es) : ∀ e ∈ es, e.generation ≤ n := by
  induction story with
  | nil => simp
  | ready _ g v later _ _ ih =>
    rw [List.forall_mem_append, List.forall_mem_singleton]
    exact ⟨fun e he => Nat.le_trans (ih e he) (Nat.le_of_lt later), Nat.le_refl _⟩
  | ended _ e ends ih =>
    rw [List.forall_mem_append, List.forall_mem_singleton]
    exact ⟨ih, Nat.le_of_eq ends.generation⟩

/-- A story is open right after its last generation was ready. -/
theorem Story.last_ready (story : Story whole n false es) : ∃ es' v, es = es' ++ [.ready n v] := by
  cases story with
  | ready _ _ v => exact ⟨_, v, rfl⟩

/-- **What a story says of single events.** A generation is ready with a supported version and after
all that was told of earlier ones, and an end comes right after it. -/
theorem Story.event (story : Story whole n finished es) {past later : List Event} {e : Event}
    (cut : es = past ++ e :: later) :
    (∀ g v, e = .ready g v → v.atLeast .minimum = true ∧ ∀ f ∈ past, f.generation < g) ∧
      ∀ g, Ends g e → ∃ past' v, past = past' ++ [.ready g v] := by
  induction story generalizing later with
  | nil => simp at cut
  | ready story g v new next supported ih =>
    -- the event is the last one, or one of those before it
    rcases List.eq_nil_or_concat later with rfl | ⟨later, f, rfl⟩
    · obtain ⟨rfl, same⟩ := List.append_inj' cut rfl
      obtain rfl := (List.cons.inj same).1
      refine ⟨?_, fun _ ends => ends.elim⟩
      rintro g' v' ⟨⟩
      exact ⟨supported, fun f hf => Nat.lt_of_le_of_lt (story.generation_le f hf) new⟩
    · rw [List.concat_eq_append, ← List.cons_append, ← List.append_assoc] at cut
      exact ih (List.append_inj' cut rfl).1
  | ended story e' ends ih =>
    rcases List.eq_nil_or_concat later with rfl | ⟨later, f, rfl⟩
    · obtain ⟨rfl, same⟩ := List.append_inj' cut rfl
      obtain rfl := (List.cons.inj same).1
      refine ⟨?_, fun g' ends' => ?_⟩
      · rintro g' v' rfl
        exact ends.elim
      · rw [← ends'.generation, ends.generation]
        exact story.last_ready
    · rw [List.concat_eq_append, ← List.cons_append, ← List.append_assoc] at cut
      exact ih (List.append_inj' cut rfl).1

/-- **An end is told once.** Between two events that end a generation it would have to be ready
again. -/
theorem Story.ends_once (story : Story whole n finished es) {past mid later : List Event}
    {e f : Event} (cut : es = past ++ e :: (mid ++ f :: later)) {g : Nat} (ends : Ends g e) :
    ¬ Ends g f := by
  intro again
  have cut' : es = (past ++ e :: mid) ++ f :: later := by
    rw [cut, List.append_assoc, List.cons_append]
  obtain ⟨before, v, last⟩ := (story.event cut').2 g again
  rcases List.eq_nil_or_concat mid with rfl | ⟨mid, f', rfl⟩
  · -- nothing in between: the first of them would be the ready one
    obtain ⟨-, same⟩ := List.append_inj' last rfl
    obtain rfl := (List.cons.inj same).1
    exact ends
  · rw [List.concat_eq_append, ← List.cons_append, ← List.append_assoc] at last
    obtain ⟨rfl, same⟩ := List.append_inj' last rfl
    obtain rfl := (List.cons.inj same).1
    have cut'' : es = (past ++ e :: mid) ++ .ready g v :: (f :: later) := by
      rw [cut]
      simp
    have earlier := ((story.event cut'').1 g v rfl).2 e (by simp)
    exact absurd ends.generation (Nat.ne_of_lt earlier)

/-- A whole story has two events for each generation, and one less while it is open. -/
theorem Story.length (story : Story whole n finished es) (h : whole) :
    es.length + (if finished then 0 else 1) = 2 * n := by
  induction story with
  | nil => rfl
  | ready _ g v _ next _ ih =>
    obtain ⟨rfl, rfl⟩ := next h
    simp only [List.length_append, List.length_singleton, if_true, Bool.false_eq_true, if_false]
      at ih ⊢
    omega
  | ended _ e _ ih =>
    simp only [List.length_append, List.length_singleton, if_true, Bool.false_eq_true, if_false]
      at ih ⊢
    omega

/-- One more event keeps turns if it is the turn of such an event. -/
theorem Alternates.concat {es : List Event} {e : Event} (alternates : Alternates es)
    (ready : ∀ i, es.length = 2 * i → ∃ v, e = .ready (i + 1) v ∧ v.atLeast .minimum = true)
    (ended : ∀ i, es.length = 2 * i + 1 → Ends (i + 1) e) : Alternates (es ++ [e]) := by
  have old_or_new {j : Nat} {f : Event} (h : (es ++ [e])[j]? = some f) :
      es[j]? = some f ∨ es.length = j ∧ e = f := by
    rw [List.getElem?_append] at h
    split at h
    · exact .inl h
    · obtain ⟨first, rfl⟩ := List.getElem?_eq_some_iff.mp h
      rw [List.length_singleton] at first
      exact .inr ⟨by omega, by simp⟩
  intro i
  refine ⟨fun f h => ?_, fun f h => ?_⟩
  · rcases old_or_new h with old | ⟨at_, rfl⟩
    · exact (alternates i).1 f old
    · exact ready i at_
  · rcases old_or_new h with old | ⟨at_, rfl⟩
    · exact (alternates i).2 f old
    · exact ended i at_

/-- **A whole story alternates.** -/
theorem Story.alternates (story : Story whole n finished es) (h : whole) : Alternates es := by
  induction story with
  | nil => exact fun i => ⟨nofun, nofun⟩
  | @ready n _ _ story g v _ next supported ih =>
    obtain ⟨rfl, rfl⟩ := next h
    have length := story.length h
    rw [if_pos rfl] at length
    refine ih.concat (fun i hi => ?_) fun i hi => by omega
    obtain rfl : n = i := by omega
    exact ⟨v, rfl, supported⟩
  | @ended g _ story e ends ih =>
    have length := story.length h
    rw [if_neg Bool.false_ne_true] at length
    refine ih.concat (fun i hi => by omega) fun i hi => ?_
    obtain rfl : g = i + 1 := by omega
    exact ends

end Story

/-! ## The story so far, stage by stage -/

section Chapters

variable (whole : Prop) (events : List Event) (generation : Nat)

/-- The end of a session is still to be told. -/
structure Unended (l : Live) : Prop where
  story : Story whole l.generation false events
  current : l.generation ≤ generation
  latest : whole → l.generation = generation

/-- **Nothing is open.** So many generations have been handed out since; in a whole story there are
no others, unless there is an excuse. -/
def Interlude (excuse : Prop) (handedOut : Nat) : Prop :=
  ∃ n finished, Story whole n finished events ∧ n + handedOut ≤ generation ∧
    (whole → finished = true ∧ (n + handedOut = generation ∨ excuse))

variable {whole events generation}

/-- An interlude may be excused by more. -/
theorem Interlude.excused {excuse excuse' : Prop} {k : Nat}
    (interlude : Interlude whole events generation excuse k) (h : excuse → excuse') :
    Interlude whole events generation excuse' k := by
  obtain ⟨n, finished, story, le, latest⟩ := interlude
  exact ⟨n, finished, story, le, fun w => ⟨(latest w).1, (latest w).2.imp_right h⟩⟩

/-- A generation that was handed out in vain is left out, for a reason. -/
theorem Interlude.leftOut {k : Nat} {excuse : Prop}
    (interlude : Interlude whole events generation excuse k) (h : excuse) :
    Interlude whole events generation excuse 0 := by
  obtain ⟨n, finished, story, le, latest⟩ := interlude
  exact ⟨n, finished, story, by omega, fun w => ⟨(latest w).1, .inr h⟩⟩

/-- The next generation is handed out. -/
theorem Interlude.handOut {excuse : Prop} (interlude : Interlude whole events generation excuse 0) :
    Interlude whole events (generation + 1) excuse 1 := by
  obtain ⟨n, finished, story, le, latest⟩ := interlude
  exact ⟨n, finished, story, by omega, fun w => ⟨(latest w).1, (latest w).2.imp_left (by omega)⟩⟩

/-- **An end is told.** -/
theorem Unended.ended {l : Live} {excuse : Prop} (unended : Unended whole events generation l)
    {e : Event} (ends : Ends l.generation e) :
    Interlude whole (events ++ [e]) generation excuse 0 :=
  ⟨l.generation, true, unended.story.ended e ends, unended.current,
    fun w => ⟨rfl, .inl (unended.latest w)⟩⟩

/-- **A session is ready.** -/
theorem Interlude.ready {l : Live} (interlude : Interlude whole events generation False 1)
    (latest : l.generation = generation) (supported : l.version.atLeast .minimum = true) :
    Unended whole (events ++ [.ready l.generation l.version]) generation l := by
  obtain ⟨n, finished, story, le, next⟩ := interlude
  refine ⟨story.ready _ _ (by omega) (fun w => ?_) supported, Nat.le_of_eq latest, fun _ => latest⟩
  have handedOut := (next w).2.resolve_right id
  exact ⟨(next w).1, by omega⟩

end Chapters

namespace Affairs

/-- No new session is ready yet. After its end the dispatcher takes no new process, and the
generations that it refuses are left out. -/
abbrev Blank (whole : Prop) (a : Affairs) (handedOut : Nat) : Prop :=
  Interlude whole a.events a.generation (a.dispatch.ended = true) handedOut

/-- **The story so far**, while an operation is at a stage. -/
def Chapter (whole : Prop) (a : Affairs) : Option Stage → Prop
  | none | some .entered =>
    (∀ l, a.session = some l → Unended whole a.events a.generation l) ∧
      (a.session = none → a.Blank whole 0)
  | some (.detaching l) | some (.detached l) | some (.killing _ (.tornDown l))
  | some (.killing _ (.crashed l _)) =>
    a.session = none ∧ Unended whole a.events a.generation l
  | some .launching | some (.probing _ _) | some (.killing _ (.launchFailed _))
  | some (.refused _) => a.session = none ∧ a.Blank whole 0
  | some (.attaching l) =>
    a.session = none ∧ a.Blank whole 1 ∧
      l.generation = a.generation ∧ l.version.atLeast .minimum = true
  | some (.attached l) =>
    a.session = none ∧ Interlude whole a.events a.generation False 1 ∧
      l.generation = a.generation ∧ l.version.atLeast .minimum = true
  | some .drawn | some .waiting | some .leaving | some (.done _) => False

/-- The events of a supervisor are in order. -/
abbrev Told (whole : Prop) (a : Affairs) : Prop := a.Chapter whole a.lock.at?

variable {whole : Prop} {a a' : Affairs}

/-- Every chapter goes on with a story, of generations that were handed out. -/
theorem Chapter.story {stage : Option Stage} (chapter : a.Chapter whole stage) :
    ∃ n finished, Story whole n finished a.events ∧ n ≤ a.generation := by
  have ofUnended {l : Live} (h : Unended whole a.events a.generation l) :
      ∃ n finished, Story whole n finished a.events ∧ n ≤ a.generation := ⟨_, _, h.story, h.current⟩
  have ofInterlude {k : Nat} {excuse : Prop} (h : Interlude whole a.events a.generation excuse k) :
      ∃ n finished, Story whole n finished a.events ∧ n ≤ a.generation := by
    obtain ⟨n, finished, story, le, -⟩ := h
    exact ⟨n, finished, story, by omega⟩
  have ofRest (h : a.Chapter whole none) :
      ∃ n finished, Story whole n finished a.events ∧ n ≤ a.generation := by
    cases session : a.session with
    | none => exact ofInterlude (h.2 session)
    | some l => exact ofUnended (h.1 l session)
  -- every stage has a session whose end is to be told, or nothing is open
  cases stage with
  | none => exact ofRest chapter
  | some stage =>
    cases stage with
    | drawn | waiting | leaving | done => exact chapter.elim
    | entered => exact ofRest chapter
    | detaching | detached => exact ofUnended chapter.2
    | launching | probing | refused => exact ofInterlude chapter.2
    | attaching | attached => exact ofInterlude chapter.2.1
    | killing p next =>
      cases next with
      | tornDown | crashed => exact ofUnended chapter.2
      | launchFailed => exact ofInterlude chapter.2

/-- Who is at work has taken the session away, or found none. -/
theorem Chapter.vacant {stage : Stage} (chapter : a.Chapter whole (some stage))
    (begun : stage ≠ .entered) : a.session = none := by
  cases stage with
  | drawn | waiting | leaving | done => exact chapter.elim
  | entered => exact absurd rfl begun
  | killing p next => cases next <;> exact chapter.1
  | _ => exact chapter.1

/-- While nobody is at work, the chapter is that of the session. -/
theorem told_of_calm (calm : a.lock.Calm) : a.Told whole ↔ a.Chapter whole none := by
  cases h : a.lock.at? with
  | none => rw [Told, h]
  | some stage =>
    rw [Told, h, calm stage h]
    exact Iff.rfl

/-- **The frame.** A change that leaves events, session and generation alone and disturbs nobody at
work keeps the story. -/
theorem Told.frame (told : a.Told whole) (session : a'.session = a.session)
    (events : a'.events = a.events) (generation : a'.generation = a.generation)
    (ended : a.dispatch.ended = true → a'.dispatch.ended = true)
    (lock : Lock.Undisturbed a.lock a'.lock) : a'.Told whole := by
  have unended {l : Live} (h : Unended whole a.events a.generation l) :
      Unended whole a'.events a'.generation l := by
    rwa [events, generation]
  have blank {k : Nat} (h : a.Blank whole k) : a'.Blank whole k := by
    rw [Blank, events, generation]
    exact h.excused ended
  have kept {stage : Option Stage} (h : a.Chapter whole stage) : a'.Chapter whole stage := by
    cases stage with
    | none =>
      exact ⟨fun l hl => unended (h.1 l (session ▸ hl)), fun none => blank (h.2 (session ▸ none))⟩
    | some stage =>
      cases stage with
      | drawn | waiting | leaving | done => exact h
      | entered =>
        exact ⟨fun l hl => unended (h.1 l (session ▸ hl)), fun none => blank (h.2 (session ▸ none))⟩
      | detaching | detached => exact ⟨session.trans h.1, unended h.2⟩
      | launching | probing | refused => exact ⟨session.trans h.1, blank h.2⟩
      | attaching =>
        exact ⟨session.trans h.1, blank h.2.1, h.2.2.1.trans generation.symm, h.2.2.2⟩
      | attached =>
        refine ⟨session.trans h.1, ?_, h.2.2.1.trans generation.symm, h.2.2.2⟩
        rw [events, generation]
        exact h.2.1
      | killing p next =>
        cases next with
        | tornDown | crashed => exact ⟨session.trans h.1, unended h.2⟩
        | launchFailed => exact ⟨session.trans h.1, blank h.2⟩
  -- the holder's stage is the same, or nobody was at work and nobody is
  rcases lock with ⟨-, same⟩ | ⟨calm, calm'⟩
  · rw [Told, same]
    exact kept told
  · exact (told_of_calm calm').mpr (kept ((told_of_calm calm).mp told))

/-- The session is of a generation that was handed out. -/
theorem Told.session_le (told : a.Told whole) {l : Live} (session : a.session = some l) :
    l.generation ≤ a.generation := by
  cases h : a.lock.at? with
  | none =>
    rw [Told, h] at told
    exact (told.1 l session).current
  | some stage =>
    rw [Told, h] at told
    by_cases entered : stage = .entered
    · subst entered
      exact (told.1 l session).current
    · cases (told.vacant entered).symm.trans session

/-- The holder's stage tells the chapter. -/
theorem Told.chapter (told : a.Told whole) {id : OperationId} {stage : Stage}
    (holder : a.lock.holder = some id) (h : a.lock.stage? id = some stage) :
    a.Chapter whole (some stage) := by
  have at_ := (Lock.at?_of_holder holder).trans h
  exact at_ ▸ told

end Affairs

section Step

open Affairs (Told told_of_calm)

variable {whole : Prop} {a a' : Affairs}

/-- Only a version that is supported passes the probe. -/
theorem verdict_supported {outcome : Probe.Outcome} {v : Version}
    (h : Probe.verdict outcome = .ok v) : v.atLeast .minimum = true := by
  unfold Probe.verdict at h
  cases found : Probe.found outcome with
  | error failure =>
    rw [found] at h
    cases h
  | ok named =>
    rw [found] at h
    change named.checkSupported = .ok v at h
    unfold Version.checkSupported at h
    split at h
    · obtain rfl := Except.ok.inj h
      assumption
    · cases h

/-- **Operations keep the story.** -/
theorem Advance.told {o : Operation} {seen : Observation} (rule : Advance a o seen a')
    (sound : a.lock.Sound) (known : a.lock.operation? o.id = some o) (told : a.Told whole) :
    a'.Told whole := by
  have stage := Lock.stage?_of_known known
  have holder := rule.holder sound known
  have chapter := told.chapter holder stage
  -- the next stage of an operation that goes on, and of one that hands the lock on
  have reach {now : Stage} (lock : a'.lock = a.lock.reach o.id now)
      (h : a'.Chapter whole (some now)) : a'.Told whole := by
    rw [Told, lock, Lock.at?_reach stage holder]
    exact h
  have finish {last : Stage} (lock : a'.lock = a.lock.finish o.id last)
      (h : a'.Chapter whole none) : a'.Told whole :=
    (told_of_calm (lock ▸ sound.calm_finish holder last)).mpr h
  cases rule with
  | found _ hs | nothingToStop hs | coalesce _ _ hs | outdated _ hs =>
    rw [hs] at chapter
    exact finish rfl chapter
  | launch hs _ session | restartAlone _ hs _ _ session =>
    rw [hs] at chapter
    exact reach rfl ⟨session, chapter.2 session⟩
  | stop l hs _ session | restart _ l hs _ _ session =>
    rw [hs] at chapter
    have unended := chapter.1 l session
    unfold Affairs.order
    split <;> simp only [Told, Affairs.setStatus, Lock.at?_reach stage holder] <;>
      exact ⟨rfl, unended⟩
  | crash loss l hs _ session =>
    rw [hs] at chapter
    exact reach rfl ⟨rfl, chapter.1 l session⟩
  | tearDown l hs =>
    rw [hs] at chapter
    exact reach rfl chapter
  | launchFailed _ _ hs | unlaunched _ hs =>
    rw [hs] at chapter
    refine finish rfl ⟨fun l hl => ?_, fun _ => chapter.2⟩
    cases chapter.1.symm.trans hl
  | tornDown p l _ hs =>
    rw [hs] at chapter
    exact reach rfl ⟨chapter.1, chapter.2.ended rfl⟩
  | stopped p l hs | crashed p l _ _ hs =>
    rw [hs] at chapter
    refine finish rfl ⟨fun l hl => ?_, fun _ => chapter.2.ended rfl⟩
    cases chapter.1.symm.trans hl
  | spawned _ _ hs | unfit _ _ _ _ hs | refused _ hs =>
    rw [hs] at chapter
    exact reach rfl chapter
  | fit _ _ l hs _ verdict fresh =>
    rw [hs] at chapter
    obtain ⟨session, blank⟩ := chapter
    -- the generation counts from here, whether the dispatcher takes the process or not
    have handedOut := blank.handOut
    rw [← fresh] at handedOut
    unfold Affairs.order
    split <;> rw [Told, Lock.at?_reach stage holder]
    · rename_i ended
      exact ⟨session, handedOut.leftOut ended⟩
    · exact ⟨session, handedOut, rfl, verdict_supported verdict⟩
  | ready l hs =>
    rw [hs] at chapter
    obtain ⟨-, interlude, latest, supported⟩ := chapter
    refine finish rfl ⟨?_, nofun⟩
    rintro l' ⟨⟩
    exact interlude.ready latest supported

/-- An answer of the dispatcher takes the operation at work to the stage that is asked for it. -/
theorem Affairs.Told.reply (told : a.Told whole) (sound : a.lock.Sound) (asker : OperationId)
    (e : Effect)
    (next : ∀ before after, a.lock.stage? asker = some before → before.answered e = some after →
      a.Chapter whole (some before) → a.Chapter whole (some after)) :
    (a.reply asker e).Told whole := by
  unfold Affairs.reply
  cases h : (a.lock.stage? asker).bind (Stage.answered e) with
  | none => exact told
  | some after =>
    obtain ⟨before, stage, answered⟩ := Option.bind_eq_some_iff.mp h
    have holder := sound.holder stage (answered_holds answered).1
    rw [Told, Lock.at?_reach stage holder]
    exact next before after stage answered (told.chapter holder stage)

/-- **The dispatcher keeps the story.** -/
theorem Handled.told (handled : Handled a a') (sound : a.lock.Sound) (told : a.Told whole) :
    a'.Told whole := by
  have undisturbed : Lock.Undisturbed a.lock a.lock := .inl ⟨rfl, rfl⟩
  cases handled with
  | noMatter d attached ended =>
    exact told.frame rfl rfl rfl (fun h => ended.trans h) undisturbed
  | lost d loss was now ended => exact told.frame rfl rfl rfl (fun h => ended.trans h) undisturbed
  | closed d closing _ _ ended => exact told.frame rfl rfl rfl (fun _ => ended) undisturbed
  | attached d g p asker rest first live now ended =>
    have told' : Told whole { a with dispatch := d, orders := rest } :=
      told.frame rfl rfl rfl (fun h => by cases live.symm.trans h) undisturbed
    refine told'.reply sound asker _ fun before after _ answered chapter => ?_
    cases before with
    | attaching l =>
      obtain rfl := Option.some.inj answered
      obtain ⟨session, blank, rest⟩ := chapter
      -- the dispatcher has not ended, so there is no excuse
      have noExcuse : ¬ d.ended = true := by simp [ended]
      exact ⟨session, blank.excused noExcuse, rest⟩
    | _ => cases answered
  | detached d g n asker rest first live now ended =>
    have told' : Told whole { a with dispatch := d, orders := rest } :=
      told.frame rfl rfl rfl (fun h => by cases live.symm.trans h) undisturbed
    refine told'.reply sound asker _ fun before after _ answered chapter => ?_
    cases before with
    | detaching l =>
      obtain rfl := Option.some.inj answered
      exact chapter
    | _ => cases answered
  | refused c asker rest first refused ended =>
    have told' : Told whole { a with orders := rest } :=
      told.frame rfl rfl rfl id undisturbed
    refine told'.reply sound asker _ fun before after _ answered chapter => ?_
    cases before with
    | attaching l =>
      obtain rfl := Option.some.inj answered
      exact ⟨chapter.1, chapter.2.1.leftOut ended⟩
    | detaching l =>
      obtain rfl := Option.some.inj answered
      exact chapter
    | _ => cases answered

/-- **Every change keeps the story.** -/
theorem Change.told {move : Move} (change : Change a move a') (sound : a.lock.Sound)
    (collects : ∀ id, move = .collect id → a.lock.Done id) (told : a.Told whole) :
    a'.Told whole := by
  rcases change.trichotomy sound collects with
    ⟨o, seen, -, known, rule⟩ | ⟨-, -, handled⟩ | bystands
  · exact rule.told sound known told
  · exact handled.told sound told
  · refine told.frame bystands.session bystands.events bystands.generation ?_ bystands.lock
    rw [bystands.dispatch]
    exact id

/-- **Giving up leaves a story**, though not a whole one. -/
theorem Affairs.Told.forsake (told : a.Told False) (sound : a.lock.Sound) (id : OperationId) :
    Told False { a with lock := a.lock.forsake id } := by
  rcases sound.forsake_calm id with undisturbed | ⟨holder, calm⟩
  · exact told.frame rfl rfl rfl (fun h => h) undisturbed
  · refine (told_of_calm calm).mpr ?_
    obtain ⟨stage, known, -⟩ := (sound.held id).mp holder
    have chapter := told.chapter holder known
    by_cases entered : stage = .entered
    · subst entered
      exact chapter
    · -- what was open when the operation was given up stays open, but nothing more is told of it
      obtain ⟨n, finished, story, le⟩ := chapter.story
      have session := chapter.vacant entered
      exact ⟨fun l hl => (by cases session.symm.trans hl), fun _ =>
        ⟨n, finished, story, le, False.elim⟩⟩

end Step

/-! ## Runs -/

/-- **The story of a run.** It is whole if nothing is given up. -/
theorem run_told {xs : List Move} (careful : CarefulRun xs) {whole : Prop}
    (kept : whole → OrderlyRun xs) : Affairs.Told whole (machine.run xs).affairs := by
  induction xs using List.reverseRecOn with
  | nil => exact ⟨nofun, fun _ => ⟨0, true, .nil, Nat.le_refl _, fun _ => ⟨rfl, .inl rfl⟩⟩⟩
  | append_singleton xs x ih =>
    obtain ⟨before, now⟩ := carefulRun_concat.mp careful
    have inOrder := before.inOrder
    have told := ih before fun w => (orderlyRun_concat.mp (kept w)).1
    rw [machine.run_concat]
    by_cases given : ∃ id, x = .abandon id
    · obtain ⟨id, rfl⟩ := given
      -- a whole story does not get here
      have unwhole : ¬ whole := fun w => (orderlyRun_concat.mp (kept w)).2
      rw [eq_false unwhole] at told ⊢
      have affairs := affairs_abandon (machine.run xs) id
      exact affairs ▸ told.forsake inOrder.sound id
    · refine (step_change (now.orderly fun id h => given ⟨id, h⟩) inOrder.settled).told
        inOrder.sound ?_ told
      rintro id rfl
      exact now

/-- **The announcements of a careful run are a story**, told in whole where no call is dropped. -/
theorem run_story {xs : List Move} (careful : CarefulRun xs) {whole : Prop}
    (kept : whole → OrderlyRun xs) :
    ∃ n finished, Story whole n finished (announced (outputs (machine.history xs))) := by
  obtain ⟨n, finished, story, -⟩ := (run_told careful kept).story
  exact ⟨n, finished, run_announced xs ▸ story⟩

/-! ## Losses that come too late -/

/-- **Nobody takes notice** of the event: at most, the lock is handed on. -/
structure Unnoticed (e : machine.Event) : Prop where
  silent : ∀ signal ∈ e.outputs, ∃ id, signal = .granted id
  session : e.after.session = e.before.session
  status : e.after.status = e.before.status
  /-- Not even the same status is set again. -/
  statusSets : e.after.statusSets = e.before.statusSets
  current : e.after.current = e.before.current
  events : e.after.events = e.before.events

/-- Giving back the lock is not noticed. -/
theorem unnoticed_of_release {s : Supervisor} :
    (∀ signal ∈ s.release.2, ∃ id, signal = .granted id) ∧
      s.release.1.session = s.session ∧ s.release.1.status = s.status ∧
      s.release.1.statusSets = s.statusSets ∧ s.release.1.current = s.current ∧
      s.release.1.events = s.events := by
  unfold release
  split
  · exact ⟨nofun, rfl, rfl, rfl, rfl, rfl⟩
  · exact ⟨by simp, rfl, rfl, rfl, rfl, rfl⟩

/-- What an operation that is to deal with a loss does if another session has taken its place. -/
theorem step_outdated {e : machine.Event} {id : OperationId} {seen : Observation} {loss : Loss}
    (action : e.action = .proceed id seen)
    (known : e.before.operation? id = some ⟨id, .crash loss, .entered⟩)
    (other : ∀ l, e.before.session = some l → l.generation ≠ loss.generation) :
    machine.step e.before e.action = e.before.finish ⟨id, .crash loss, .entered⟩ .recorded := by
  rw [action]
  show e.before.proceed id seen = _
  simp only [proceed, known, entered]
  split
  · rename_i l session
    rw [if_neg (other l session)]
  · rfl

/-- **A loss of another session** is dealt with by doing nothing. -/
theorem unnoticed_of_outdated {e : machine.Event} {id : OperationId} {seen : Observation}
    {loss : Loss} (inOrder : InOrder e.before) (action : e.action = .proceed id seen)
    (known : e.before.operation? id = some ⟨id, .crash loss, .entered⟩)
    (other : ∀ l, e.before.session = some l → l.generation ≠ loss.generation) :
    Unnoticed e ∧ e.after.stage? id = some (.done .recorded) := by
  have step := step_outdated action known other
  obtain ⟨silent, session, status, statusSets, current, events⟩ :=
    unnoticed_of_release (s := e.before.setStage id (.done .recorded))
  have after : e.after = (e.before.finish ⟨id, .crash loss, .entered⟩ .recorded).1 :=
    congrArg Prod.fst step
  have told : e.outputs = (e.before.finish ⟨id, .crash loss, .entered⟩ .recorded).2 :=
    congrArg Prod.snd step
  rw [after]
  refine ⟨⟨told ▸ silent, ?_, ?_, ?_, ?_, ?_⟩, ?_⟩
  · exact after ▸ session
  · exact after ▸ status
  · exact after ▸ statusSets
  · exact after ▸ current
  · exact after ▸ events
  · have lock := congrArg Affairs.lock
      (affairs_finish e.before ⟨id, .crash loss, .entered⟩ .recorded)
    have holder : e.before.lock.holder = some id :=
      inOrder.sound.holder (Lock.stage?_of_known known) rfl
    exact (congrArg (Lock.stage? · id) lock).trans
      (inOrder.sound.stage?_finish holder (.done .recorded))

/-- Nobody takes notice of a loss when it is taken up. -/
theorem unnoticed_of_monitor {e : machine.Event} (action : e.action = .monitor) : Unnoticed e := by
  have outputs : e.outputs = [] := by rw [Machine.Event.outputs, action]; rfl
  have after : e.after = e.before.monitorNext := by rw [Machine.Event.after, action]; rfl
  have entered (s : Supervisor) (purpose : Purpose) :
      (s.enter purpose).session = s.session ∧ (s.enter purpose).status = s.status ∧
        (s.enter purpose).statusSets = s.statusSets ∧ (s.enter purpose).current = s.current ∧
        (s.enter purpose).events = s.events := by
    unfold enter
    cases h : s.holder <;> exact ⟨rfl, rfl, rfl, rfl, rfl⟩
  have same : e.after.session = e.before.session ∧ e.after.status = e.before.status ∧
      e.after.statusSets = e.before.statusSets ∧ e.after.current = e.before.current ∧
      e.after.events = e.before.events := by
    rw [after]
    unfold monitorNext
    split
    · exact entered _ _
    · exact ⟨rfl, rfl, rfl, rfl, rfl⟩
  exact ⟨by simp [outputs], same.1, same.2.1, same.2.2.1, same.2.2.2.1, same.2.2.2.2⟩

/-! ## The law -/

/-- **Sessions are told of in turn.** In every run:

if no operation is given up, the announced events are ready and end in turn, for the generations
from the first one on, and each version is supported;

also when operations are given up, a generation is ready with a supported version and after
everything that is told of earlier ones, an end comes right after its generation was ready, and no
generation ends twice;

and of a loss nobody takes notice when it is taken up, or when it turns out to be that of another
session than the current one: nothing is announced, nothing is killed, and the status stays. The
operation that was to deal with it is done then. -/
theorem sessions_are_told_in_turn (xs : List Move) (careful : CarefulRun xs) :
    (OrderlyRun xs → Alternates (announced (outputs (machine.history xs)))) ∧
    (∀ past e later, announced (outputs (machine.history xs)) = past ++ e :: later →
      (∀ g v, e = .ready g v → v.atLeast .minimum = true ∧ ∀ f ∈ past, f.generation < g) ∧
      ∀ g, Ends g e → (∃ past' v, past = past' ++ [.ready g v]) ∧ ∀ f ∈ later, ¬ Ends g f) ∧
    (∀ e ∈ machine.history xs, e.action = .monitor → Unnoticed e) ∧
    ∀ e ∈ machine.history xs, ∀ id seen loss, e.action = .proceed id seen →
      e.before.operation? id = some ⟨id, .crash loss, .entered⟩ →
      (∀ l, e.before.session = some l → l.generation ≠ loss.generation) →
        Unnoticed e ∧ e.after.stage? id = some (.done .recorded) := by
  refine ⟨fun orderly => ?_, fun past e later cut => ?_, fun e _ => unnoticed_of_monitor, ?_⟩
  · obtain ⟨n, finished, story⟩ := run_story careful fun _ : True => orderly
    exact story.alternates trivial
  · obtain ⟨n, finished, story⟩ := run_story careful False.elim
    obtain ⟨ready, ended⟩ := story.event cut
    refine ⟨ready, fun g ends => ⟨ended g ends, fun f hf => ?_⟩⟩
    obtain ⟨mid, later', rfl⟩ := List.append_of_mem hf
    exact story.ends_once cut ends
  · intro e he id seen loss action known other
    obtain ⟨inOrder, -⟩ := careful.event he
    exact unnoticed_of_outdated inOrder action known other

/-- A process ends. Before its loss is dealt with a stop has ended the session, and a start waits
already to launch another one. -/
def racedBefore : List Move :=
  [Move.begin .start, .proceed 0 .nothing] ++ launching 0 7 ++
    [Move.exit 0 ⟨some 9⟩, .dispatch fun _ => false, .begin .stop, .proceed 1 .nothing, .monitor,
      .begin .start, .dispatch fun _ => false, .proceed 1 .nothing, .proceed 1 .killed]

def racedRun : List Move :=
  racedBefore ++ .proceed 2 .nothing :: .proceed 3 .nothing :: launching 3 8

/-- In this run a stop comes before the report of a crash, which is outdated when it has its turn
and announces nothing. -/
theorem racedRun_tells_in_turn :
    OrderlyRun racedRun ∧
      announced (outputs (machine.history racedRun)) =
        [.ready 1 ⟨4, 2, 1⟩, .stopped 1, .ready 2 ⟨4, 2, 1⟩] ∧
      Alternates (announced (outputs (machine.history racedRun))) ∧
      ∃ e ∈ machine.history racedRun, e.before.operation? 2 =
          some ⟨2, .crash ⟨1, "display process exited with code 9", some 9⟩, .entered⟩ ∧
        Unnoticed e ∧ e.after.stage? 2 = some (.done .recorded) := by
  have orderly : OrderlyRun racedRun := by
    refine orderlyRun_of_keeps ?_
    decide
  obtain ⟨alternates, -, -, outdated⟩ := sessions_are_told_in_turn racedRun orderly.careful
  have told : announced (outputs (machine.history racedRun)) = (machine.run racedRun).events :=
    run_announced racedRun
  have there : ⟨machine.run racedBefore, .proceed 2 .nothing⟩ ∈ machine.history racedRun :=
    machine.mem_historyFrom _ _ _ _
  have known : (machine.run racedBefore).operation? 2 =
      some ⟨2, .crash ⟨1, "display process exited with code 9", some 9⟩, .entered⟩ := by rfl
  have vacant : (machine.run racedBefore).session = none := by rfl
  refine ⟨orderly, ?_, alternates orderly, _, there, known, ?_⟩
  · rw [told]
    decide +kernel
  · refine outdated _ there 2 .nothing _ rfl known fun l hl => ?_
    cases vacant.symm.trans hl

/-- **An end may remain untold.** When an operation is given up in the middle, ready need not be
followed by an end. -/
theorem givenUpRun_untold :
    CarefulRun givenUpRun ∧ ¬ Alternates (announced (outputs (machine.history givenUpRun))) := by
  refine ⟨carefulRun_of_uncollected (by decide), fun alternates => ?_⟩
  · have told : announced (outputs (machine.history givenUpRun)) =
        [.ready 1 ⟨4, 2, 1⟩, .ready 2 ⟨4, 2, 1⟩] := by
      rw [run_announced]
      decide +kernel
    rw [told] at alternates
    exact (alternates 0).2 _ rfl

end CompilerSession.Supervisor
