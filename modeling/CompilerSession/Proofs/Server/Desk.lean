import Mathlib.Data.List.Nodup
import CompilerSession.Proofs.Server.Commands
import CompilerSession.Proofs.Server.Replies

/-
The register and the requests that stand in it.

A display request that is admitted has an entry in the register, a handler that waits for it, and a
token that it was handed over with. These are three places of the state, and many tasks change one
of them. `Desk` is the part of the world in which they lie, and `Files` has one rule for each change
that is made to it; a rule tells by a `Deed` what becomes of the register, and who is admitted or
gone. `Filed` is what the rules keep: the keys of the register are those of the handlers that wait
for a request, one for each, and each of these requests has the token that stands beside its key.
-/

set_option autoImplicit false

namespace CompilerSession

/-! ## Tokens -/

section Tokens

variable {ts : Tokens} {t u : Token}

theorem Tokens.mem_fire : t ∈ (ts.fire u).fired ↔ t ∈ ts.fired ∨ t = u := by
  unfold Tokens.fire
  split
  · rename_i fired
    constructor
    · exact .inl
    · rintro (h | rfl)
      · exact h
      · exact List.contains_iff_mem.mp fired
  · simp

/-- To fire a token issues none. -/
theorem Tokens.issued_fire (ts : Tokens) (u : Token) : (ts.fire u).issued = ts.issued := by
  unfold Tokens.fire
  split <;> rfl

/-- To fire some tokens fires those and no others. -/
theorem Tokens.fire_all (us : List Token) :
    (us.foldl Tokens.fire ts).issued = ts.issued ∧
      (t ∈ (us.foldl Tokens.fire ts).fired ↔ t ∈ ts.fired ∨ t ∈ us) := by
  induction us generalizing ts with
  | nil => simp
  | cons u us ih =>
    obtain ⟨issued, fired⟩ := @ih (ts.fire u)
    rw [List.foldl_cons, issued, fired, Tokens.issued_fire, Tokens.mem_fire, List.mem_cons,
      or_assoc]
    exact ⟨rfl, Iff.rfl⟩

end Tokens

/-! ## Registers -/

namespace Registry

variable {r : Registry} {key : String} {t : Token}

/-- **A register in good order**: an id stands in it once, with a token that nobody else has. -/
structure Sound (r : Registry) : Prop where
  keys : (r.entries.map (·.1)).Nodup
  tokens : (r.entries.map (·.2)).Nodup
  issued : ∀ x ∈ r.entries, x.2 < r.tokens.issued
  fired : ∀ t ∈ r.tokens.fired, t < r.tokens.issued

/-- A key is live if it is registered. -/
theorem isLive_iff : r.isLive key = true ↔ key ∈ r.entries.map (·.1) := by
  simp [isLive, token?, List.find?_isSome]

theorem mem_of_token? (h : r.token? key = some t) : (key, t) ∈ r.entries := by
  obtain ⟨⟨key', t'⟩, found, rfl⟩ := Option.map_eq_some_iff.mp h
  obtain rfl : key' = key := by simpa using List.find?_some found
  exact List.mem_of_find?_eq_some found

/-- In a sound register the token of a key is the one that is entered with it. -/
theorem Sound.token?_iff (sound : r.Sound) : r.token? key = some t ↔ (key, t) ∈ r.entries := by
  refine ⟨mem_of_token?, fun h => ?_⟩
  have live : r.isLive key = true := isLive_iff.mpr (List.mem_map.mpr ⟨_, h, rfl⟩)
  obtain ⟨t', found⟩ := Option.isSome_iff_exists.mp live
  have same := List.inj_on_of_nodup_map sound.keys (mem_of_token? found) h rfl
  rw [found, (Prod.mk.inj same).2]

/-- A live key is not registered again. -/
theorem register_live (live : r.isLive key = true) : r.register key = (r, none) := by
  simp only [register, live, if_true]

/-- **A new entry** has the next token. -/
theorem register_free (free : r.isLive key = false) :
    r.register key =
      (⟨⟨r.tokens.issued + 1, r.tokens.fired⟩, r.entries ++ [(key, r.tokens.issued)]⟩,
        some r.tokens.issued) := by
  simp [register, free, Tokens.issue]

/-- A cancellation leaves the entries alone. -/
theorem cancel_entries (r : Registry) (key : String) : (r.cancel key).1.entries = r.entries := by
  unfold cancel
  split <;> rfl

/-- A cancellation issues no token. -/
theorem cancel_issued (r : Registry) (key : String) :
    (r.cancel key).1.tokens.issued = r.tokens.issued := by
  unfold cancel
  split
  · exact Tokens.issued_fire _ _
  · rfl

/-- **A cancellation tells whether there is an entry**, and fires its token. -/
theorem cancel_live (r : Registry) (key : String) : (r.cancel key).2 = r.isLive key := by
  unfold cancel isLive
  split <;> simp [*]

/-- **A cancellation fires the token of its key and no other.** -/
theorem Sound.cancel_fired (sound : r.Sound) :
    t ∈ (r.cancel key).1.tokens.fired ↔ t ∈ r.tokens.fired ∨ (key, t) ∈ r.entries := by
  rw [← sound.token?_iff]
  unfold cancel
  split
  · rename_i u found
    rw [Tokens.mem_fire, found, Option.some.injEq, eq_comm]
  · rename_i none
    simp [none]

/-- To cancel everything fires all tokens that are entered. -/
theorem cancelAll_fired (r : Registry) (t : Token) :
    t ∈ r.cancelAll.1.tokens.fired ↔ t ∈ r.tokens.fired ∨ ∃ key, (key, t) ∈ r.entries := by
  rw [cancelAll, (Tokens.fire_all _).2]
  simp

namespace Sound

variable (sound : r.Sound)

include sound

/-- A register stays sound when a free key is registered. -/
theorem register (free : r.isLive key = false) : (r.register key).1.Sound := by
  rw [register_free free]
  have absent : key ∉ r.entries.map (·.1) := fun h => by
    cases free.symm.trans (isLive_iff.mpr h)
  have unissued : r.tokens.issued ∉ r.entries.map (·.2) := fun h => by
    obtain ⟨x, hx, same⟩ := List.mem_map.mp h
    exact absurd (same ▸ sound.issued x hx) (Nat.lt_irrefl _)
  refine ⟨?_, ?_, ?_, ?_⟩
  · simpa [List.nodup_append] using ⟨sound.keys, fun a t h => by
      rintro rfl
      exact absent (List.mem_map.mpr ⟨_, h, rfl⟩)⟩
  · simpa [List.nodup_append] using ⟨sound.tokens, fun t a h => by
      rintro rfl
      exact unissued (List.mem_map.mpr ⟨_, h, rfl⟩)⟩
  · intro x hx
    rcases List.mem_append.mp hx with earlier | new
    · exact Nat.lt_succ_of_lt (sound.issued x earlier)
    · rw [List.mem_singleton.mp new]
      exact Nat.lt_succ_self _
  · exact fun t ht => Nat.lt_succ_of_lt (sound.fired t ht)

theorem finish (key : String) : (r.finish key).Sound := by
  refine ⟨?_, ?_, fun x hx => sound.issued x (List.mem_of_mem_filter hx), sound.fired⟩
  · exact sound.keys.sublist (List.filter_sublist.map _)
  · exact sound.tokens.sublist (List.filter_sublist.map _)

theorem cancel (key : String) : (r.cancel key).1.Sound := by
  refine ⟨?_, ?_, ?_, fun t ht => ?_⟩
  · rw [cancel_entries]
    exact sound.keys
  · rw [cancel_entries]
    exact sound.tokens
  · rw [cancel_entries, cancel_issued]
    exact sound.issued
  · rw [cancel_issued]
    exact (sound.cancel_fired.mp ht).elim (sound.fired t) fun entry => sound.issued _ entry

/-- A register stays sound when all keys are cancelled. -/
theorem cancelAll : r.cancelAll.1.Sound := by
  have issued : r.cancelAll.1.tokens.issued = r.tokens.issued := (@Tokens.fire_all _ 0 _).1
  refine ⟨sound.keys, sound.tokens, fun x hx => ?_, fun t ht => ?_⟩
  · rw [issued]
    exact sound.issued x hx
  · rw [issued]
    rcases (cancelAll_fired r t).mp ht with earlier | ⟨key, entry⟩
    · exact sound.fired t earlier
    · exact sound.issued _ entry

end Sound

end Registry

namespace Simulation

open Json (Value)
open Server (Handler Handling)

/-! ## Desks -/

/-- **What stands in the register and what belongs to it**: the requests with their tokens, what
tasks wait for, and the handlers. -/
structure Desk where
  registry : Registry
  tickets : List (Nat × Token)
  nextRequest : Nat
  jobs : List (Task × Work)
  handlers : List Handler
  nextHandler : Nat

def World.desk (w : World) : Desk where
  registry := w.registry
  tickets := w.submissions.map Submission.ticket
  nextRequest := w.nextSubmission
  jobs := w.jobs
  handlers := w.server.handlers
  nextHandler := w.server.nextHandler

/-- A handler that waits for a display request, with the id of the request and its key. -/
def displayed : Handler → Option (Nat × Value × String)
  | ⟨n, .display id key⟩ => some (n, id, key)
  | _ => none

namespace Desk

variable (d : Desk)

def work? (t : Task) : Option Work :=
  (d.jobs.find? (·.1 = t)).map (·.2)

/-- **The display requests under way**, as their handlers have them. -/
def displays : List (Nat × Value × String) :=
  d.handlers.filterMap displayed

/-- Whose requests they are. -/
def clients : List (Nat × Value) :=
  d.displays.map fun x => (x.1, x.2.1)

def assign (t : Task) (work : Work) : Desk :=
  { d with jobs := d.jobs ++ [(t, work)] }

/-- A task has done its work, and forgets it. -/
def relieve (t : Task) (work : Work) : Desk :=
  { d with jobs := d.jobs.filter (·.1 ≠ t), tickets := d.tickets.filter (! work.isAbout ·) }

/-- A handler has something under way. -/
def occupy (n : Nat) (handling : Handling) : Desk :=
  { d with handlers := d.handlers.map fun h => if h.number = n then { h with handling } else h }

/-- A handler is gone. -/
def dismiss (n : Nat) : Desk :=
  { d with handlers := d.handlers.filter (·.number ≠ n) }

/-- **A request is admitted**, and handed over with the token of its entry. -/
def accept (n : Nat) (id : Value) : Desk :=
  { (d.occupy n (.display id (requestKey id))).assign (.handler n) (.submission d.nextRequest) with
    registry := (d.registry.register (requestKey id)).1
    tickets := d.tickets ++ [(d.nextRequest, d.registry.tokens.issued)]
    nextRequest := d.nextRequest + 1 }

end Desk

/-- **What is done**, as far as the register and the handlers of its requests are concerned. -/
inductive Deed where
  | nothing
  /-- A handler has its request admitted. -/
  | admits (n : Nat) (id : Value)
  /-- A handler replies, and the register is left alone. -/
  | replies (n : Nat)
  | cancels (n : Nat) (key : String)
  /-- A handler replies with the outcome of its request. -/
  | finishes (n : Nat) (key : String)
  /-- Everything is cancelled. -/
  | stops

namespace Deed

def admitted : Deed → Option (Nat × Value)
  | admits n id => some (n, id)
  | nothing | replies _ | cancels _ _ | finishes _ _ | stops => none

/-- The handler that has replied and is gone. -/
def left : Deed → Option Nat
  | replies n | cancels n _ | finishes n _ => some n
  | nothing | admits _ _ | stops => none

/-- The key that is to be cancelled. -/
def cancelled : Deed → Option String
  | cancels _ key => some key
  | nothing | admits _ _ | replies _ | finishes _ _ | stops => none

def register (r : Registry) : Deed → Registry
  | nothing | replies _ => r
  | admits _ id => (r.register (requestKey id)).1
  | cancels _ key => (r.cancel key).1
  | finishes _ key => r.finish key
  | stops => r.cancelAll.1

end Deed

/-- **What is done at a desk.** -/
inductive Files (d : Desk) : Deed → Desk → Prop where
  | rests : Files d .nothing d
  /-- Somebody who is no handler begins to wait for an operation. -/
  | assigns (t : Task) (other : ∀ n, t ≠ .handler n) (id : OperationId) :
      Files d .nothing (d.assign t (.operation id))
  | relieves (t : Task) (other : ∀ n, t ≠ .handler n) (work : Work) (job : d.work? t = some work) :
      Files d .nothing (d.relieve t work)
  | stops (id : OperationId) :
      Files d .stops ({ d with registry := d.registry.cancelAll.1 }.assign .serve (.operation id))
  | reads (line : String) :
      Files d .nothing { d with
        handlers := d.handlers ++ [⟨d.nextHandler, .fresh line⟩]
        nextHandler := d.nextHandler + 1 }
  /-- A handler replies at once. -/
  | replies (n : Nat) (line : String) (known : ⟨n, .fresh line⟩ ∈ d.handlers) :
      Files d (.replies n) (d.dismiss n)
  | cancels (n : Nat) (line : String) (known : ⟨n, .fresh line⟩ ∈ d.handlers) (key : String) :
      Files d (.cancels n key) ({ d with registry := (d.registry.cancel key).1 }.dismiss n)
  | begins (n : Nat) (line : String) (known : ⟨n, .fresh line⟩ ∈ d.handlers) (handling : Handling)
      (busy : ∀ line, handling ≠ .fresh line) (other : displayed ⟨n, handling⟩ = none)
      (id : OperationId) :
      Files d .nothing ((d.occupy n handling).assign (.handler n) (.operation id))
  | admits (n : Nat) (line : String) (known : ⟨n, .fresh line⟩ ∈ d.handlers) (id : Value)
      (free : d.registry.isLive (requestKey id) = false) : Files d (.admits n id) (d.accept n id)
  /-- A display request has its outcome. -/
  | concludes (n : Nat) (id : Value) (key : String) (known : ⟨n, .display id key⟩ ∈ d.handlers)
      (work : Work) (job : d.work? (.handler n) = some work) :
      Files d (.finishes n key)
        ({ d.relieve (.handler n) work with registry := d.registry.finish key }.dismiss n)
  | leaves (x : Handler) (known : x ∈ d.handlers) (other : displayed x = none) (work : Work)
      (job : d.work? (.handler x.number) = some work) :
      Files d (.replies x.number) ((d.relieve (.handler x.number) work).dismiss x.number)
  /-- A handler would be left without work. -/
  | stalls (x : Handler) (known : x ∈ d.handlers) (other : displayed x = none) (work : Work)
      (job : d.work? (.handler x.number) = some work) :
      Files d .nothing (d.relieve (.handler x.number) work)

/-- A deed tells what becomes of the register. -/
theorem Files.register {d d' : Desk} {deed : Deed} (files : Files d deed d') :
    d'.registry = deed.register d.registry := by
  cases files <;> rfl

/-- **A desk in good order.** -/
structure Filed (d : Desk) : Prop where
  register : d.registry.Sound
  single : ∀ k t t', (k, t) ∈ d.tickets → (k, t') ∈ d.tickets → t = t'
  numbered : ∀ x ∈ d.tickets, x.1 < d.nextRequest
  apart : ∀ s s' k, (s, .submission k) ∈ d.jobs → (s', .submission k) ∈ d.jobs → s = s'
  expected : ∀ s k, (s, .submission k) ∈ d.jobs → k < d.nextRequest
  idle : ∀ n, d.work? (.handler n) ≠ none →
    n < d.nextHandler ∧ ∀ line, ⟨n, .fresh line⟩ ∉ d.handlers
  keys : (d.registry.entries.map (·.1)).Perm (d.displays.map (·.2.2))
  keyed : ∀ x ∈ d.displays, x.2.2 = requestKey x.2.1
  own : ∀ x ∈ d.displays, ∃ k t, d.work? (.handler x.1) = some (.submission k) ∧
    (k, t) ∈ d.tickets ∧ (x.2.2, t) ∈ d.registry.entries

/-- The handlers have different numbers, and the next one is new. -/
structure Staffed (d : Desk) : Prop where
  unique : (d.handlers.map (·.number)).Nodup
  bound : ∀ x ∈ d.handlers, x.number < d.nextHandler

/-! What the changes do to what tasks wait for and to the requests under way. -/

section Changes

variable {d : Desk} {n : Nat} {t : Task} {work : Work}

/-- The work of a task is one of its jobs. -/
theorem job_of_work? (h : d.work? t = some work) : (t, work) ∈ d.jobs := by
  obtain ⟨⟨t', work'⟩, found, rfl⟩ := Option.map_eq_some_iff.mp h
  obtain rfl : t' = t := by simpa using List.find?_some found
  exact List.mem_of_find?_eq_some found

/-- Work that a task has is not taken over by what is assigned later. -/
theorem work?_assign (h : d.work? t = some work) (t' : Task) (work' : Work) :
    (d.assign t' work').work? t = some work := by
  obtain ⟨j, found, same⟩ := Option.map_eq_some_iff.mp h
  simp [Desk.work?, Desk.assign, List.find?_append, found, same]

theorem work?_assign_self (h : d.work? t = none) (work : Work) :
    (d.assign t work).work? t = some work := by
  rw [Desk.work?, Option.map_eq_none_iff] at h
  simp [Desk.work?, Desk.assign, List.find?_append, h]

theorem work?_assign_other {t' : Task} (other : t' ≠ t) (work' : Work) :
    (d.assign t' work').work? t = d.work? t := by
  simp [Desk.work?, Desk.assign, List.find?_append, other]

theorem work?_relieve_other {t' : Task} (other : t' ≠ t) (work' : Work) :
    (d.relieve t' work').work? t = d.work? t := by
  rw [Desk.work?, Desk.work?, Desk.relieve, List.find?_filter]
  congr 2
  funext job
  by_cases h : job.1 = t <;> simp [h, Ne.symm other]

theorem work?_relieve_self (work : Work) : (d.relieve t work).work? t = none := by
  simp [Desk.work?, Desk.relieve]

/-- What is shown has the number of its handler. -/
theorem displayed_number {x : Handler} {y : Nat × Value × String} (h : displayed x = some y) :
    y.1 = x.number := by
  unfold displayed at h
  split at h
  · exact congrArg Prod.fst (Option.some.inj h).symm
  · cases h

/-- A handler that is dismissed is shown no more. -/
theorem displays_dismiss (d : Desk) (n : Nat) :
    (d.dismiss n).displays = d.displays.filter (·.1 ≠ n) := by
  rw [Desk.displays, Desk.dismiss, Desk.displays, List.filterMap_filter, List.filter_filterMap]
  refine List.filterMap_congr fun x _ => ?_
  cases h : displayed x with
  | none => simp
  | some y =>
    have number := displayed_number h
    by_cases same : x.number = n <;> simp [Option.filter, same, number]

variable (unique : (d.handlers.map (·.number)).Nodup)

include unique

/-- **Handlers are told apart by their numbers.** -/
theorem same_handler {x y : Handler} (hx : x ∈ d.handlers) (hy : y ∈ d.handlers)
    (same : x.number = y.number) : x = y :=
  List.inj_on_of_nodup_map unique hx hy same

/-- A handler that waits for no request is not among those that do. -/
theorem not_displayed {x : Handler} (known : x ∈ d.handlers) (other : displayed x = none) :
    ∀ y ∈ d.displays, y.1 ≠ x.number := by
  intro y hy same
  obtain ⟨z, hz, shown⟩ := List.mem_filterMap.mp hy
  obtain rfl : z = x := same_handler unique hz known ((displayed_number shown).symm.trans same)
  cases other.symm.trans shown

/-- A handler that shows nothing takes nothing away. -/
theorem displays_other {x : Handler} (known : x ∈ d.handlers) (other : displayed x = none) :
    d.displays.filter (·.1 ≠ x.number) = d.displays :=
  List.filter_eq_self.mpr fun y hy => decide_eq_true (not_displayed unique known other y hy)

/-- A handler that is known is one of them, and the others are those with other numbers. -/
theorem handler_perm {handling : Handling} (known : ⟨n, handling⟩ ∈ d.handlers) :
    d.handlers.Perm (⟨n, handling⟩ :: d.handlers.filter (·.number ≠ n)) := by
  have there : (d.handlers.find? (·.number = n)).isSome := by
    rw [List.find?_isSome]
    exact ⟨_, known, decide_eq_true rfl⟩
  obtain ⟨x, found⟩ := Option.isSome_iff_exists.mp there
  have number : x.number = n := by simpa using List.find?_some found
  rw [same_handler unique (List.mem_of_find?_eq_some found) known number] at found
  exact find_handler_perm unique found

/-- A handler that is occupied takes the place of the fresh one. -/
theorem occupied_perm {line : String} (known : ⟨n, .fresh line⟩ ∈ d.handlers)
    (handling : Handling) :
    (d.occupy n handling).handlers.Perm
      (⟨n, handling⟩ :: d.handlers.filter (·.number ≠ n)) := by
  have moved := (handler_perm unique known).map
    fun h => if h.number = n then { h with handling } else h
  refine moved.trans ?_
  rw [List.map_cons]
  simp only [if_true]
  refine .cons _ (.of_eq ?_)
  refine (List.map_congr_left fun h hh => ?_).trans (List.map_id _)
  rw [if_neg (of_decide_eq_true (List.mem_filter.mp hh).2)]
  rfl

/-- The requests under way when a fresh handler has begun something. -/
theorem displays_occupy {line : String} (known : ⟨n, .fresh line⟩ ∈ d.handlers)
    (handling : Handling) :
    (d.occupy n handling).displays.Perm ((displayed ⟨n, handling⟩).toList ++ d.displays) := by
  have shown := (occupied_perm unique known handling).filterMap displayed
  refine shown.trans (.of_eq ?_)
  have rest : (d.handlers.filter (·.number ≠ n)).filterMap displayed = d.displays :=
    (displays_dismiss d n).trans (displays_other unique known rfl)
  rw [← rest]
  cases h : displayed ⟨n, handling⟩ <;> simp [h]

/-- Whoever is fresh after that was fresh before, and is another one. -/
theorem fresh_occupied {line : String} (known : ⟨n, .fresh line⟩ ∈ d.handlers)
    {handling : Handling} (busy : ∀ line, handling ≠ .fresh line) {m : Nat} {line' : String}
    (fresh : ⟨m, .fresh line'⟩ ∈ (d.occupy n handling).handlers) :
    m ≠ n ∧ ⟨m, .fresh line'⟩ ∈ d.handlers := by
  rcases List.mem_cons.mp ((occupied_perm unique known handling).subset fresh) with same | rest
  · cases same
    exact absurd rfl (busy line')
  · obtain ⟨earlier, other⟩ := List.mem_filter.mp rest
    exact ⟨of_decide_eq_true other, earlier⟩

end Changes

/-! ## The order of a desk -/

namespace Filed

variable {d : Desk} (filed : Filed d)

include filed

/-- Somebody begins to wait for an operation. -/
theorem assign {t : Task} (id : OperationId)
    (idle : ∀ n, (d.assign t (.operation id)).work? (.handler n) ≠ none →
      n < d.nextHandler ∧ ∀ line, ⟨n, .fresh line⟩ ∉ d.handlers) :
    Filed (d.assign t (.operation id)) := by
  have known {s : Task} {k : Nat} (h : (s, Work.submission k) ∈ d.jobs ++ [(t, .operation id)]) :
      (s, Work.submission k) ∈ d.jobs := by
    simpa using h
  refine ⟨filed.register, filed.single, filed.numbered, ?_, ?_, idle, filed.keys, filed.keyed, ?_⟩
  · exact fun s s' k h h' => filed.apart s s' k (known h) (known h')
  · exact fun s k h => filed.expected s k (known h)
  · intro x hx
    obtain ⟨k, u, job, ticket, entry⟩ := filed.own x hx
    exact ⟨k, u, work?_assign job _ _, ticket, entry⟩

/-- A task that is done takes nothing away that another one waits for. -/
theorem relieve {t : Task} {work : Work} (job : d.work? t = some work)
    (other : ∀ x ∈ d.displays, t ≠ .handler x.1) : Filed (d.relieve t work) := by
  refine ⟨filed.register, ?_, ?_, ?_, ?_, ?_, filed.keys, filed.keyed, ?_⟩
  · exact fun k u u' h h' =>
      filed.single k u u' (List.mem_of_mem_filter h) (List.mem_of_mem_filter h')
  · exact fun x hx => filed.numbered x (List.mem_of_mem_filter hx)
  · exact fun s s' k h h' =>
      filed.apart s s' k (List.mem_of_mem_filter h) (List.mem_of_mem_filter h')
  · exact fun s k h => filed.expected s k (List.mem_of_mem_filter h)
  · intro n busy
    by_cases same : t = .handler n
    · rw [same, work?_relieve_self] at busy
      exact absurd rfl busy
    · rw [work?_relieve_other same] at busy
      exact filed.idle n busy
  · intro x hx
    obtain ⟨k, u, job', ticket, entry⟩ := filed.own x hx
    refine ⟨k, u, (work?_relieve_other (other x hx) _).trans job', ?_, entry⟩
    refine List.mem_filter.mpr ⟨ticket, ?_⟩
    -- nobody else waits for the same request
    cases work with
    | operation => rfl
    | submission m =>
      by_cases same : k = m
      · subst same
        exact absurd (filed.apart _ _ k (job_of_work? job) (job_of_work? job')) (other x hx)
      · simp [Work.isAbout, same]

/-- A handler is gone that waited for no request. -/
theorem dismiss {n : Nat} (none : d.displays.filter (·.1 ≠ n) = d.displays) :
    Filed (d.dismiss n) := by
  have displays : (d.dismiss n).displays = d.displays := (displays_dismiss d n).trans none
  refine ⟨filed.register, filed.single, filed.numbered, filed.apart, filed.expected, ?_, ?_, ?_, ?_⟩
  · intro m busy
    obtain ⟨bound, stale⟩ := filed.idle m busy
    exact ⟨bound, fun line fresh => stale line (List.mem_of_mem_filter fresh)⟩
  · rw [displays]
    exact filed.keys
  · rw [displays]
    exact filed.keyed
  · rw [displays]
    exact filed.own

/-- Tokens are fired, and the entries stay. -/
theorem fire {r : Registry} (sound : r.Sound) (entries : r.entries = d.registry.entries) :
    Filed { d with registry := r } := by
  refine ⟨sound, filed.single, filed.numbered, filed.apart, filed.expected, filed.idle, ?_,
    filed.keyed, ?_⟩
  · rw [entries]
    exact filed.keys
  · rw [entries]
    exact filed.own

/-- A fresh handler has no work. -/
theorem not_busy {n : Nat} {line : String} (known : ⟨n, .fresh line⟩ ∈ d.handlers) :
    d.work? (.handler n) = none := by
  by_contra busy
  exact (filed.idle n busy).2 line known

variable (staffed : Staffed d)

include staffed

/-- A handler has begun something, and waits for it. -/
theorem occupy {n : Nat} {line : String} (known : ⟨n, .fresh line⟩ ∈ d.handlers)
    {handling : Handling} (busy : ∀ line, handling ≠ .fresh line)
    (other : displayed ⟨n, handling⟩ = none) (id : OperationId) :
    Filed ((d.occupy n handling).assign (.handler n) (.operation id)) := by
  have displays : (d.occupy n handling).displays.Perm d.displays := by
    simpa only [other, Option.toList_none, List.nil_append] using
      displays_occupy staffed.unique known handling
  have stale {m : Nat} {line' : String}
      (fresh : ⟨m, .fresh line'⟩ ∈ (d.occupy n handling).handlers) :=
    fresh_occupied staffed.unique known busy fresh
  have occupied : Filed (d.occupy n handling) := by
    refine ⟨filed.register, filed.single, filed.numbered, filed.apart, filed.expected, ?_, ?_, ?_,
      ?_⟩
    · exact fun m hm => ⟨(filed.idle m hm).1, fun line fresh =>
        (filed.idle m hm).2 line (stale fresh).2⟩
    · exact filed.keys.trans (displays.map _).symm
    · exact fun x hx => filed.keyed x (displays.subset hx)
    · exact fun x hx => filed.own x (displays.subset hx)
  refine occupied.assign id fun m hm => ?_
  by_cases same : m = n
  · subst same
    exact ⟨staffed.bound _ known, fun line fresh => (stale fresh).1 rfl⟩
  · rw [work?_assign_other (by simpa using Ne.symm same)] at hm
    exact occupied.idle m hm

/-- **A request is admitted**: its key was not in use, its token is new, and its handler waits for
it. -/
theorem accept {n : Nat} {line : String} (known : ⟨n, .fresh line⟩ ∈ d.handlers) {id : Value}
    (free : d.registry.isLive (requestKey id) = false) : Filed (d.accept n id) := by
  have displays : (d.accept n id).displays.Perm ((n, id, requestKey id) :: d.displays) :=
    displays_occupy staffed.unique known (.display id (requestKey id))
  have stale {m : Nat} {line' : String} (fresh : ⟨m, .fresh line'⟩ ∈ (d.accept n id).handlers) :=
    fresh_occupied staffed.unique known (fun _ same => by cases same) fresh
  have job : (d.accept n id).work? (.handler n) = some (.submission d.nextRequest) :=
    work?_assign_self (d := d.occupy n (.display id (requestKey id))) (filed.not_busy known) _
  have entries : (d.accept n id).registry.entries =
      d.registry.entries ++ [(requestKey id, d.registry.tokens.issued)] := by
    rw [Desk.accept, Registry.register_free free]
  -- what is new has the next number, and nothing that was there has it
  have tickets {x : Nat × Token} (h : x ∈ (d.accept n id).tickets) :
      x ∈ d.tickets ∨ x = (d.nextRequest, d.registry.tokens.issued) := by
    simpa [Desk.accept] using h
  have jobs {s : Task} {k : Nat} (h : (s, Work.submission k) ∈ (d.accept n id).jobs) :
      (s, Work.submission k) ∈ d.jobs ∨ s = .handler n ∧ k = d.nextRequest := by
    simpa [Desk.accept, Desk.assign, Desk.occupy] using h
  refine ⟨filed.register.register free, ?_, ?_, ?_, ?_, ?_, ?_, ?_, ?_⟩
  · intro k u u' h h'
    rcases tickets h with old | new <;> rcases tickets h' with old' | new'
    · exact filed.single k u u' old old'
    · cases new'
      exact absurd (filed.numbered _ old) (Nat.lt_irrefl _)
    · cases new
      exact absurd (filed.numbered _ old') (Nat.lt_irrefl _)
    · cases new
      cases new'
      rfl
  · intro x hx
    rcases tickets hx with old | rfl
    · exact Nat.lt_succ_of_lt (filed.numbered x old)
    · exact Nat.lt_succ_self _
  · intro s s' k h h'
    rcases jobs h with old | ⟨rfl, rfl⟩ <;> rcases jobs h' with old' | ⟨rfl, same⟩
    · exact filed.apart s s' k old old'
    · subst same
      exact absurd (filed.expected s _ old) (Nat.lt_irrefl _)
    · exact absurd (filed.expected s' _ old') (Nat.lt_irrefl _)
    · rfl
  · intro s k h
    rcases jobs h with old | ⟨-, rfl⟩
    · exact Nat.lt_succ_of_lt (filed.expected s k old)
    · exact Nat.lt_succ_self _
  · intro m busy
    by_cases same : m = n
    · subst same
      exact ⟨staffed.bound _ known, fun line fresh => (stale fresh).1 rfl⟩
    · have before : d.work? (.handler m) ≠ none := by
        intro none
        exact busy ((work?_assign_other (by simpa using Ne.symm same) _).trans none)
      obtain ⟨bound, never⟩ := filed.idle m before
      exact ⟨bound, fun line fresh => never line (stale fresh).2⟩
  · rw [entries, List.map_append]
    refine ((filed.keys.append_right _).trans ?_).trans (displays.map _).symm
    exact List.perm_append_singleton _ _
  · intro x hx
    rcases List.mem_cons.mp (displays.subset hx) with rfl | old
    · rfl
    · exact filed.keyed x old
  · intro x hx
    rw [entries]
    rcases List.mem_cons.mp (displays.subset hx) with rfl | old
    · exact ⟨d.nextRequest, d.registry.tokens.issued, job, List.mem_append_right _ (.head _),
        List.mem_append_right _ (.head _)⟩
    · obtain ⟨k, u, job', ticket, entry⟩ := filed.own x old
      exact ⟨k, u, work?_assign (d := d.occupy n _) job' _ _, List.mem_append_left _ ticket,
        List.mem_append_left _ entry⟩

/-- **A request has its outcome**: its handler is gone, and so is its entry. -/
theorem conclude {n : Nat} {id : Value} {key : String} (known : ⟨n, .display id key⟩ ∈ d.handlers)
    {work : Work} (job : d.work? (.handler n) = some work) :
    Filed ({ d.relieve (.handler n) work with registry := d.registry.finish key }.dismiss n) := by
  have rest : (d.dismiss n).displays = d.displays.filter (·.1 ≠ n) := displays_dismiss d n
  have displays : d.displays.Perm ((n, id, key) :: (d.dismiss n).displays) :=
    (handler_perm staffed.unique known).filterMap displayed
  -- the keys are different, so the entries of the others stay
  have keys := filed.keys.trans (displays.map _)
  have once : key ∉ (d.dismiss n).displays.map (·.2.2) :=
    (List.nodup_cons.mp (keys.nodup_iff.mp filed.register.keys)).1
  have others {x : Nat × Value × String} (hx : x ∈ (d.dismiss n).displays) : x.2.2 ≠ key :=
    fun same => once (List.mem_map.mpr ⟨x, hx, same⟩)
  have earlier {x : Nat × Value × String} (hx : x ∈ (d.dismiss n).displays) : x ∈ d.displays :=
    displays.symm.subset (List.mem_cons_of_mem _ hx)
  have finished : Filed ({ d with registry := d.registry.finish key }.dismiss n) := by
    refine ⟨filed.register.finish key, filed.single, filed.numbered, filed.apart, filed.expected,
      ?_, ?_, fun x hx => filed.keyed x (earlier hx), ?_⟩
    · intro m busy
      obtain ⟨bound, never⟩ := filed.idle m busy
      exact ⟨bound, fun line fresh => never line (List.mem_of_mem_filter fresh)⟩
    · have stay : ((d.dismiss n).displays.map (·.2.2)).filter (· ≠ key) =
          (d.dismiss n).displays.map (·.2.2) :=
        List.filter_eq_self.mpr fun k hk => decide_eq_true (ne_of_mem_of_not_mem hk once)
      have left := keys.filter (· ≠ key)
      rw [List.map_cons, List.filter_cons_of_neg (by simp), stay, List.filter_map] at left
      exact left
    · intro x hx
      obtain ⟨k, u, job', ticket, entry⟩ := filed.own x (earlier hx)
      exact ⟨k, u, job', ticket, List.mem_filter.mpr ⟨entry, decide_eq_true (others hx)⟩⟩
  refine finished.relieve job fun x hx same => ?_
  change x ∈ (d.dismiss n).displays at hx
  rw [rest] at hx
  exact of_decide_eq_true (List.mem_filter.mp hx).2 (Task.handler.inj same).symm

end Filed

section Files

variable {d d' : Desk} {deed : Deed}

/-- **Whose requests are under way afterwards**: those from before and who was admitted, without who
is gone. -/
theorem Files.clients (files : Files d deed d') (staffed : Staffed d) :
    d'.clients.Perm ((d.clients ++ deed.admitted.toList).filter (·.1 ∉ deed.left.toList)) := by
  -- what is shown stays, or the handler of this number is taken away
  have all (xs : List (Nat × Value)) : xs.filter (·.1 ∉ (none : Option Nat).toList) = xs :=
    List.filter_eq_self.mpr fun _ _ => rfl
  have same {d' : Desk} (shown : d'.displays = d.displays) :
      d'.clients.Perm ((d.clients ++ (none : Option (Nat × Value)).toList).filter
        (·.1 ∉ (none : Option Nat).toList)) := by
    rw [all, Option.toList_none, List.append_nil, Desk.clients, shown]
    exact .refl _
  have left {n : Nat} (shown : d'.displays = (d.dismiss n).displays) :
      d'.clients.Perm ((d.clients ++ (none : Option (Nat × Value)).toList).filter
        (·.1 ∉ (some n).toList)) := by
    rw [Option.toList_none, List.append_nil, Desk.clients, shown, displays_dismiss, Desk.clients,
      List.filter_map]
    exact .of_eq (congrArg _ (List.filter_congr fun x _ => by simp))
  cases files with
  | rests | assigns | relieves | stops | stalls => exact same rfl
  | reads line => exact same (by simp [Desk.displays, displayed])
  | replies | cancels | concludes | leaves => exact left rfl
  | begins n line known handling busy other =>
    have shown := (displays_occupy staffed.unique known handling).map fun x => (x.1, x.2.1)
    rw [other, Option.toList_none, List.nil_append] at shown
    exact shown.trans (same rfl)
  | admits n line known id =>
    have shown := (displays_occupy staffed.unique known (.display id (requestKey id))).map
      fun x => (x.1, x.2.1)
    refine shown.trans (.trans ?_ (.of_eq (all _).symm))
    exact (List.perm_append_singleton (n, id) d.clients).symm

/-- **The entry of a request stays** as long as its handler does. -/
theorem Files.keeps_entry (files : Files d deed d') (filed : Filed d) {n : Nat} {id : Value}
    {key : String} {t : Token} (shown : (n, id, key) ∈ d.displays) (stays : deed.left ≠ some n)
    (entry : (key, t) ∈ d.registry.entries) : (key, t) ∈ d'.registry.entries := by
  rw [files.register]
  cases files with
  | concludes m id' key' known =>
    have shown' : (m, id', key') ∈ d.displays := List.mem_filterMap.mpr ⟨_, known, rfl⟩
    refine List.mem_filter.mpr ⟨entry, decide_eq_true fun same => stays ?_⟩
    have keys : (d.displays.map (·.2.2)).Nodup := filed.keys.nodup_iff.mp filed.register.keys
    have one := List.inj_on_of_nodup_map keys shown shown' same
    rw [Deed.left, (Prod.mk.inj one).1]
  | admits m line known id' free =>
    rw [Deed.register, Registry.register_free free]
    exact List.mem_append_left _ entry
  | cancels m line known key' =>
    rw [Deed.register, Registry.cancel_entries]
    exact entry
  | _ => exact entry

/-- Who is admitted has not begun anything else, and the key is free. -/
theorem Files.admitted_spec (files : Files d deed d') {n : Nat} {id : Value}
    (admitted : deed.admitted = some (n, id)) : deed = .admits n id ∧
      d.registry.isLive (requestKey id) = false ∧ ∃ line, ⟨n, .fresh line⟩ ∈ d.handlers := by
  cases files with
  | admits n line known id free =>
    cases admitted
    exact ⟨rfl, free, line, known⟩
  | _ => cases admitted

/-- **The handler of a request is gone only with the request's outcome.** -/
theorem Files.finishes (files : Files d deed d') (staffed : Staffed d) {n : Nat} {id : Value}
    {key : String} (shown : (n, id, key) ∈ d.displays) (left : deed.left = some n) :
    deed = .finishes n key := by
  have other {x : Handler} (known : x ∈ d.handlers) (other : displayed x = none)
      (same : x.number = n) : deed = .finishes n key :=
    absurd same.symm (not_displayed staffed.unique known other _ shown)
  cases files with
  | replies m line known | cancels m line known => exact other known rfl (Option.some.inj left)
  | leaves x known none => exact other known none (Option.some.inj left)
  | concludes m id' key' known =>
    obtain rfl : m = n := Option.some.inj left
    obtain ⟨y, hy, same⟩ := List.mem_filterMap.mp shown
    obtain rfl : y = ⟨m, .display id' key'⟩ :=
      same_handler staffed.unique hy known (displayed_number same).symm
    cases same
    rfl
  | _ => cases left

/-- What is finished was shown. -/
theorem Files.finishing (files : Files d deed d') {n : Nat} {key : String}
    (finishes : deed = .finishes n key) : ∃ id, (n, id, key) ∈ d.displays := by
  cases files with
  | concludes n id key known =>
    cases finishes
    exact ⟨id, List.mem_filterMap.mpr ⟨_, known, rfl⟩⟩
  | _ => cases finishes

/-- **The token of a request fires** when its key is cancelled, or everything is. -/
theorem Deed.fires (deed : Deed) {r : Registry} (sound : r.Sound) {key : String} {t : Token}
    (entry : (key, t) ∈ r.entries) : t ∈ (deed.register r).tokens.fired ↔
      t ∈ r.tokens.fired ∨ deed.cancelled = some key ∨ deed = .stops := by
  cases deed with
  | nothing | replies | finishes => simp [Deed.register, Deed.cancelled, Registry.finish]
  | admits n id =>
    simp only [Deed.register, Deed.cancelled]
    cases live : r.isLive (requestKey id) with
    | true => simp [Registry.register_live live]
    | false => simp [Registry.register_free live]
  | cancels n key' =>
    have same : (key', t) ∈ r.entries ↔ key' = key :=
      ⟨fun entry' => (Prod.mk.inj (List.inj_on_of_nodup_map sound.tokens entry' entry rfl)).1,
        fun h => h ▸ entry⟩
    simp [Deed.register, Deed.cancelled, sound.cancel_fired, same]
  | stops =>
    simp only [Deed.register, Registry.cancelAll_fired, or_true, iff_true]
    exact .inr ⟨key, entry⟩

end Files

/-- **Whatever is done at a desk keeps it in order.** -/
theorem Files.filed {d d' : Desk} {deed : Deed} (files : Files d deed d') (filed : Filed d)
    (staffed : Staffed d) : Filed d' := by
  cases files with
  | rests => exact filed
  | assigns t other id =>
    refine filed.assign id fun n busy => ?_
    rw [work?_assign_other (other n)] at busy
    exact filed.idle n busy
  | relieves t other work job => exact filed.relieve job fun x _ => other x.1
  | stops id =>
    have other (n : Nat) : Task.serve ≠ .handler n := nofun
    refine (filed.fire filed.register.cancelAll rfl).assign id fun n busy => ?_
    rw [work?_assign_other (other n)] at busy
    exact filed.idle n busy
  | reads line =>
    have displays : Desk.displays { d with
        handlers := d.handlers ++ [⟨d.nextHandler, .fresh line⟩]
        nextHandler := d.nextHandler + 1 } = d.displays := by
      simp [Desk.displays, displayed]
    -- a handler that is new shows nothing and has no work
    refine ⟨filed.register, filed.single, filed.numbered, filed.apart, filed.expected,
      ?_, ?_, ?_, ?_⟩
    · intro n busy
      obtain ⟨bound, never⟩ := filed.idle n busy
      refine ⟨Nat.lt_succ_of_lt bound, fun line' fresh => ?_⟩
      rcases List.mem_append.mp fresh with old | new
      · exact never line' old
      · cases List.mem_singleton.mp new
        exact Nat.lt_irrefl _ bound
    · rw [displays]
      exact filed.keys
    · rw [displays]
      exact filed.keyed
    · rw [displays]
      exact filed.own
  | replies n line known => exact filed.dismiss (displays_other staffed.unique known rfl)
  | cancels n line known key =>
    exact (filed.fire (filed.register.cancel key) (Registry.cancel_entries _ key)).dismiss
      (displays_other staffed.unique known rfl)
  | begins n line known handling busy other id => exact filed.occupy staffed known busy other id
  | admits n line known id free => exact filed.accept staffed known free
  | concludes n id key known work job => exact filed.conclude staffed known job
  | leaves x known other work job =>
    refine Filed.dismiss (filed.relieve job fun y hy same => ?_)
      (displays_other staffed.unique known other)
    exact not_displayed staffed.unique known other y hy (Task.handler.inj same).symm
  | stalls x known other work job =>
    refine filed.relieve job fun y hy same => ?_
    exact not_displayed staffed.unique known other y hy (Task.handler.inj same).symm

end Simulation

end CompilerSession
