import Mathlib.Data.List.Induction

/-
Runs of a machine.

The dispatcher and the supervisor are both a first state and a step. What can be said
about *every run* of such a machine has the same frame whichever machine it is: the run
is a list of actions, the history is a list of events, and a law about histories is
proved by one induction from the oldest event to the newest.

An event keeps the state in which its action was taken. The state after it and what it
brought about are then functions of the event, so a history says all there is to say
about a run, and a law like "this happened only while nothing was attached" is a
statement about single events.
-/

set_option autoImplicit false

namespace CompilerSession

/-- **A machine**: a first state, and a step that takes an action and brings something
about. -/
structure Machine (σ α ω : Type) where
  start : σ
  step : σ → α → σ × List ω

namespace Machine

variable {σ α ω : Type} (m : Machine σ α ω)

/-! ## Histories -/

/-- **An event**: an action, and the state in which it was taken. -/
structure Event (m : Machine σ α ω) where
  before : σ
  action : α

def Event.after {m : Machine σ α ω} (e : m.Event) : σ :=
  (m.step e.before e.action).1

def Event.outputs {m : Machine σ α ω} (e : m.Event) : List ω :=
  (m.step e.before e.action).2

/-- The state that actions lead to. -/
def runFrom (s : σ) : List α → σ
  | [] => s
  | x :: xs => runFrom (m.step s x).1 xs

/-- The events of actions, oldest first. -/
def historyFrom (s : σ) : List α → List m.Event
  | [] => []
  | x :: xs => ⟨s, x⟩ :: historyFrom (m.step s x).1 xs

/-- **The state that a run leads to.** -/
def run (xs : List α) : σ :=
  m.runFrom m.start xs

/-- **The history of a run.** -/
def history (xs : List α) : List m.Event :=
  m.historyFrom m.start xs

/-- What a stretch of history brought about, in order. -/
def outputs {m : Machine σ α ω} (h : List m.Event) : List ω :=
  h.flatMap Event.outputs

/-! ## Cutting a run in two -/

/-- Actions one after the other lead from state to state. -/
theorem runFrom_append (s : σ) (xs ys : List α) :
    m.runFrom s (xs ++ ys) = m.runFrom (m.runFrom s xs) ys := by
  induction xs generalizing s with
  | nil => rfl
  | cons x xs ih =>
    rw [List.cons_append, runFrom, runFrom]
    exact ih _

/-- The history of a longer run is that of its first part, and then that of the rest. -/
theorem historyFrom_append (s : σ) (xs ys : List α) :
    m.historyFrom s (xs ++ ys) = m.historyFrom s xs ++ m.historyFrom (m.runFrom s xs) ys := by
  induction xs generalizing s with
  | nil => rfl
  | cons x xs ih =>
    rw [List.cons_append, historyFrom, historyFrom, runFrom, ih, List.cons_append]

/-- One action more is one step more. -/
theorem run_concat (xs : List α) (x : α) : m.run (xs ++ [x]) = (m.step (m.run xs) x).1 := by
  rw [run, runFrom_append]
  rfl

/-- **One action more is one event more**, at the end of the history. -/
theorem history_concat (xs : List α) (x : α) :
    m.history (xs ++ [x]) = m.history xs ++ [⟨m.run xs, x⟩] := by
  rw [history, historyFrom_append]
  rfl

theorem historyFrom_actions (s : σ) (xs : List α) : (m.historyFrom s xs).map Event.action = xs := by
  induction xs generalizing s with
  | nil => rfl
  | cons x xs ih => rw [historyFrom, List.map_cons, ih]

/-- A history tells which actions there were. -/
theorem history_actions (xs : List α) : (m.history xs).map Event.action = xs :=
  m.historyFrom_actions m.start xs

/-- What an event did was among the actions of the run. -/
theorem action_mem {s : σ} {xs : List α} {e : m.Event} (h : e ∈ m.historyFrom s xs) :
    e.action ∈ xs := by
  rw [← m.historyFrom_actions s xs]
  exact List.mem_map_of_mem h

/-- What two stretches of history brought about, one after the other. -/
theorem outputs_append {m : Machine σ α ω} (h k : List m.Event) :
    outputs (h ++ k) = outputs h ++ outputs k :=
  List.flatMap_append

theorem outputs_singleton {m : Machine σ α ω} (e : m.Event) : outputs [e] = e.outputs := by
  simp only [outputs, List.flatMap_singleton]

/-- A run in three parts, and an event after the first two. -/
theorem history_cut (xs ys zs : List α) (x : α) :
    m.history (xs ++ (ys ++ x :: zs)) =
      (m.history xs ++ m.historyFrom (m.run xs) ys) ++ ⟨m.runFrom (m.run xs) ys, x⟩ ::
        m.historyFrom (m.step (m.runFrom (m.run xs) ys) x).1 zs := by
  rw [history, historyFrom_append, historyFrom_append, List.append_assoc]
  rfl

/-- A run with two of its events, and a stretch between them. -/
theorem history_stretch (xs ys zs : List α) (x y : α) :
    m.history (xs ++ x :: (ys ++ y :: zs)) =
      m.history xs ++ ⟨m.run xs, x⟩ :: (m.historyFrom (m.step (m.run xs) x).1 ys ++
        ⟨m.runFrom (m.step (m.run xs) x).1 ys, y⟩ ::
          m.historyFrom (m.step (m.runFrom (m.step (m.run xs) x).1 ys) y).1 zs) := by
  rw [history, historyFrom_append, historyFrom, historyFrom_append]
  rfl

/-- The events of a stretch and the one after it have the actions that were given. -/
theorem stretch_action_mem {s : σ} {xs : List α} {x : α} {e : m.Event}
    (h : e ∈ m.historyFrom s xs ++ [⟨m.runFrom s xs, x⟩]) : e.action ∈ xs ++ [x] := by
  refine m.action_mem (s := s) ?_
  rw [historyFrom_append]
  exact h

/-- An action in the middle of a run is an event of its history. -/
theorem mem_historyFrom (s : σ) (xs ys : List α) (x : α) :
    ⟨m.runFrom s xs, x⟩ ∈ m.historyFrom s (xs ++ x :: ys) := by
  rw [historyFrom_append]
  exact List.mem_append_right _ List.mem_cons_self

/-- What stands before an event of a history is the history of a shorter run, and the
event was taken in the state that this run leads to. -/
theorem history_split {xs : List α} {past later : List m.Event} {e : m.Event}
    (h : m.history xs = past ++ e :: later) :
    ∃ ys zs, xs = ys ++ e.action :: zs ∧ past = m.history ys ∧ e.before = m.run ys ∧
      later = m.historyFrom e.after zs := by
  -- on the part before the event, from any first state
  unfold history run at *
  generalize m.start = s at h ⊢
  induction past generalizing s xs with
  | nil =>
    cases xs with
    | nil => cases h
    | cons x xs =>
      rw [historyFrom, List.nil_append] at h
      obtain ⟨rfl, rfl⟩ := List.cons.inj h
      exact ⟨[], xs, rfl, rfl, rfl, rfl⟩
  | cons f past ih =>
    cases xs with
    | nil => cases h
    | cons x xs =>
      rw [historyFrom, List.cons_append] at h
      obtain ⟨rfl, tail⟩ := List.cons.inj h
      obtain ⟨ys, zs, rfl, rfl, before, rfl⟩ := ih _ tail
      exact ⟨x :: ys, zs, rfl, rfl, before, rfl⟩

/-- The same with the event written out. -/
theorem history_at {xs : List α} {past later : List m.Event} {e : m.Event}
    (h : m.history xs = past ++ e :: later) :
    ∃ ys x zs, xs = ys ++ x :: zs ∧ past = m.history ys ∧ e = ⟨m.run ys, x⟩ ∧
      later = m.historyFrom (m.step (m.run ys) x).1 zs := by
  obtain ⟨ys, zs, split, hpast, before, hlater⟩ := m.history_split h
  obtain ⟨s, x⟩ := e
  obtain rfl : s = m.run ys := before
  exact ⟨ys, x, zs, split, hpast, rfl, hlater⟩

/-- What holds of every event of a run holds of every event up to one of them, and that is the last
one of a shorter run. -/
theorem history_upTo {P : m.Event → Prop} {xs : List α} (all : ∀ f ∈ m.history xs, P f)
    {past later : List m.Event} {e : m.Event} (cut : m.history xs = past ++ e :: later) :
    ∃ ys x, past = m.history ys ∧ e = ⟨m.run ys, x⟩ ∧ ∀ f ∈ m.history (ys ++ [x]), P f := by
  obtain ⟨ys, x, -, -, rfl, rfl, -⟩ := m.history_at cut
  refine ⟨ys, x, rfl, rfl, fun f hf => all f ?_⟩
  rw [history_concat, List.mem_append, List.mem_singleton] at hf
  rw [cut, List.mem_append, List.mem_cons]
  exact hf.imp_right .inl

/-- The same for two events, of which one came after the other. -/
theorem history_split_two {xs : List α} {past mid later : List m.Event} {d e : m.Event}
    (h : m.history xs = past ++ d :: (mid ++ e :: later)) :
    ∃ ys zs ws, xs = (ys ++ [d.action] ++ zs) ++ e.action :: ws ∧
      past = m.history ys ∧ d.before = m.run ys ∧
      past ++ d :: mid = m.history (ys ++ [d.action] ++ zs) ∧
      e.before = m.run (ys ++ [d.action] ++ zs) := by
  obtain ⟨ys, -, -, hpast, hd, -⟩ := m.history_split h
  have h' : m.history xs = (past ++ d :: mid) ++ e :: later := by
    rw [h, List.append_assoc, List.cons_append]
  obtain ⟨zs, ws, rfl, hmid, he, -⟩ := m.history_split h'
  have same : zs = ys ++ [d.action] ++ mid.map Event.action := by
    rw [← m.history_actions zs, ← hmid, List.map_append, hpast, m.history_actions, List.map_cons,
      List.append_assoc]
    rfl
  exact ⟨ys, mid.map Event.action, ws, by rw [same], hpast, hd, by rw [hmid, same],
    by rw [he, same]⟩

/-! ## Stretches

A stretch is what came between two events. -/

/-- What allowed events keep is kept over a stretch of them. -/
theorem stretch_from {P : List m.Event → σ → Prop} {A : m.Event → Prop}
    (next : ∀ h e, A e → P h e.before → P (h ++ [e]) e.after) {s : σ} {xs : List α}
    {h mid later : List m.Event} {e : m.Event} (cut : m.historyFrom s xs = mid ++ e :: later)
    (start : P h s) (allowed : ∀ f ∈ mid, A f) : P (h ++ mid) e.before := by
  induction mid generalizing s xs h with
  | nil =>
    cases xs with
    | nil => cases cut
    | cons x xs =>
      obtain ⟨rfl, -⟩ := List.cons.inj cut
      rwa [List.append_nil]
  | cons f mid ih =>
    cases xs with
    | nil => cases cut
    | cons x xs =>
      obtain ⟨rfl, tail⟩ := List.cons.inj cut
      rw [List.append_cons]
      refine ih tail (next _ _ (allowed _ List.mem_cons_self) start) fun g hg => ?_
      exact allowed g (List.mem_cons_of_mem _ hg)

/-- **Laws of stretches.** What holds of nothing right after an event, and is kept by every
event that is allowed, holds of all that came between that event and a later one. -/
theorem stretch_induction {P : List m.Event → σ → Prop} {A : m.Event → Prop} {xs : List α}
    {past mid later : List m.Event} {d e : m.Event}
    (cut : m.history xs = past ++ d :: (mid ++ e :: later)) (start : P [] d.after)
    (next : ∀ h f, A f → P h f.before → P (h ++ [f]) f.after) (allowed : ∀ f ∈ mid, A f) :
    P mid e.before := by
  obtain ⟨-, zs, -, -, -, rest⟩ := m.history_split cut
  exact m.stretch_from next rest.symm start allowed

/-- What came before an event that is not among the first ones begins with those. -/
theorem before_of_notMem {m : Machine σ α ω} {first rest past later : List m.Event} {e : m.Event}
    (h : first ++ rest = past ++ e :: later) (other : e ∉ first) : ∃ mid, past = first ++ mid := by
  rcases List.append_eq_append_iff.mp h with ⟨mid, hpast, -⟩ | ⟨mid, hfirst, hrest⟩
  · exact ⟨mid, hpast⟩
  · cases mid with
    | nil => exact ⟨[], by rw [hfirst, List.append_nil, List.append_nil]⟩
    | cons f mid =>
      obtain ⟨rfl, -⟩ := List.cons.inj hrest
      exact absurd (by simp [hfirst]) other

/-! ## The induction -/

/-- **Laws of runs under a condition.** What holds of the empty run, and is kept when a run
goes on by an event that is allowed after the history so far, holds of all runs in which
every event is allowed. -/
theorem run_induction {P : List α → Prop} {A : List m.Event → m.Event → Prop} (start : P [])
    (next : ∀ xs x, P xs → A (m.history xs) ⟨m.run xs, x⟩ → P (xs ++ [x]))
    (xs : List α) (allowed : ∀ past e later, m.history xs = past ++ e :: later → A past e) :
    P xs := by
  -- from the end of the run: a condition on all its events is one on those of a shorter run
  induction xs using List.reverseRecOn with
  | nil => exact start
  | append_singleton xs x ih =>
    rw [history_concat] at allowed
    refine next xs x (ih ?_) (allowed _ _ [] rfl)
    intro past e later h
    exact allowed past e (later ++ [⟨m.run xs, x⟩]) (by rw [h, List.append_assoc, List.cons_append])

/-- A condition on the events of a history is checked one event after the other. -/
theorem forall_cut_cons {m : Machine σ α ω} {P : List m.Event → m.Event → Prop} {e : m.Event}
    {h : List m.Event} (first : P [] e)
    (rest : ∀ past f later, h = past ++ f :: later → P (e :: past) f) :
    ∀ past f later, e :: h = past ++ f :: later → P past f := by
  intro past f later cut
  cases past with
  | nil =>
    obtain ⟨rfl, -⟩ := List.cons.inj cut
    exact first
  | cons g past =>
    obtain ⟨rfl, tail⟩ := List.cons.inj cut
    exact rest past f later tail

/-- A condition on the events of a history is kept by one more event that meets it. -/
theorem forall_cut_concat {m : Machine σ α ω} {P : List m.Event → m.Event → Prop} {e : m.Event}
    {h : List m.Event} (before : ∀ past f later, h = past ++ f :: later → P past f)
    (last : P h e) : ∀ past f later, h ++ [e] = past ++ f :: later → P past f := by
  intro past f later cut
  rcases List.eq_nil_or_concat later with rfl | ⟨later, g, rfl⟩
  · obtain ⟨rfl, same⟩ := List.append_inj' cut rfl
    obtain rfl := (List.cons.inj same).1
    exact last
  · rw [List.concat_eq_append, ← List.cons_append, ← List.append_assoc] at cut
    exact before past f later (List.append_inj' cut rfl).1

theorem forall_cut_nil {m : Machine σ α ω} {P : List m.Event → m.Event → Prop} :
    ∀ past f later, [] = past ++ f :: later → P past f :=
  fun _ _ _ cut => absurd cut.symm (by simp)

end Machine

end CompilerSession
