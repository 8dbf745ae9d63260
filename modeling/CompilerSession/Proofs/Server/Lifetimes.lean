import Mathlib.Data.Set.Card
import CompilerSession.Proofs.Server.Desk

/-
How long a key is live, and what becomes of its tokens.

The register is looked at on its own here, under any sequence of operations on any keys. A key is
live from the time when it is registered until it is finished, which is said of the operations and
not of the state (`Live`). A token belongs to one stretch of this kind: it was handed out at its
beginning, and what reaches it is a cancellation within the stretch (`Reached`), also when the key
is registered again later and has another token then.

One lemma says what an operation does to the entries and one what it does to the tokens
(`mem_perform`, `fired_perform`). All else follows from them along the operations.
-/

set_option autoImplicit false

namespace CompilerSession.Registry

/-! ## Operations -/

/-- **What may be done to a register.** -/
inductive Operation where
  | register (key : String)
  | finish (key : String)
  | cancel (key : String)
  | cancelAll
  deriving DecidableEq, Repr

/-- The operation asks for the request of a key to be cancelled, if there is one. -/
def Operation.cancels (op : Operation) (key : String) : Bool :=
  match op with
  | .cancel other => other = key
  | .cancelAll => true
  | .register _ | .finish _ => false

def perform (r : Registry) : Operation → Registry
  | .register key => (r.register key).1
  | .finish key => r.finish key
  | .cancel key => (r.cancel key).1
  | .cancelAll => r.cancelAll.1

/-- **The register after operations**, which began with an empty one. -/
def after (ops : List Operation) : Registry :=
  ops.foldl perform empty

/-- **The key is live**: it was registered, and has not been finished since. -/
def Live (ops : List Operation) (key : String) : Prop :=
  ∃ past later, ops = past ++ .register key :: later ∧ .finish key ∉ later

/-- **A cancellation is in time**: among the operations after a registration there is one that
cancels the key, and before that the key is not finished. -/
def Reached (key : String) (later : List Operation) : Prop :=
  ∃ mid op rest, later = mid ++ op :: rest ∧ op.cancels key = true ∧ .finish key ∉ mid

/-- One operation more is one step more. -/
theorem after_concat (ops : List Operation) (op : Operation) :
    after (ops ++ [op]) = (after ops).perform op := by
  rw [after, List.foldl_append]
  rfl

/-! ## One operation -/

section Operation

variable {r : Registry} {key : String} {t : Token}

/-- **Every operation keeps the register sound.** -/
theorem Sound.perform (sound : r.Sound) (op : Operation) : (r.perform op).Sound := by
  cases op with
  | register key =>
    rw [Registry.perform]
    by_cases live : r.isLive key = true
    · rw [register_live live]
      exact sound
    · exact sound.register (Bool.eq_false_iff.mpr live)
  | finish key => exact sound.finish key
  | cancel key => exact sound.cancel key
  | cancelAll => exact sound.cancelAll

/-- Tokens are only issued. -/
theorem issued_perform (r : Registry) (op : Operation) :
    r.tokens.issued ≤ (r.perform op).tokens.issued := by
  cases op with
  | register key =>
    rw [Registry.perform]
    by_cases live : r.isLive key = true
    · rw [register_live live]
    · rw [register_free (Bool.eq_false_iff.mpr live)]
      exact Nat.le_succ _
  | finish key => exact Nat.le_refl _
  | cancel key =>
    rw [Registry.perform, cancel_issued]
  | cancelAll => exact (@Tokens.fire_all _ 0 _).1.ge

/-- **What stands in the register after an operation**: what stood there before and was not
finished, and a key that was free and is registered now. -/
theorem mem_perform (op : Operation) :
    (key, t) ∈ (r.perform op).entries ↔
      ((key, t) ∈ r.entries ∧ op ≠ .finish key) ∨
        (op = .register key ∧ r.isLive key = false ∧ t = r.tokens.issued) := by
  cases op with
  | register other =>
    rw [Registry.perform]
    -- a live key is refused and nothing changes; a free one is entered with a new token
    by_cases live : r.isLive other = true
    · rw [register_live live]
      constructor
      · intro entry
        exact .inl ⟨entry, nofun⟩
      · rintro (⟨entry, -⟩ | ⟨same, free, -⟩)
        · exact entry
        · obtain rfl := Operation.register.inj same
          rw [live] at free
          cases free
    · have free : r.isLive other = false := Bool.eq_false_iff.mpr live
      rw [register_free free, List.mem_append, List.mem_singleton, Prod.mk.injEq]
      constructor
      · rintro (entry | ⟨rfl, rfl⟩)
        · exact .inl ⟨entry, nofun⟩
        · exact .inr ⟨rfl, free, rfl⟩
      · rintro (⟨entry, -⟩ | ⟨same, -, rfl⟩)
        · exact .inl entry
        · exact .inr ⟨(Operation.register.inj same).symm, rfl⟩
  | finish other =>
    rw [Registry.perform, Registry.finish, List.mem_filter, decide_eq_true_iff]
    constructor
    · rintro ⟨entry, different⟩
      refine .inl ⟨entry, fun same => different ?_⟩
      exact (Operation.finish.inj same).symm
    · rintro (⟨entry, different⟩ | ⟨other, -⟩)
      · exact ⟨entry, fun same => different (congrArg Operation.finish same.symm)⟩
      · cases other
  | cancel other =>
    rw [Registry.perform, cancel_entries]
    simp
  | cancelAll => simp [Registry.perform, Registry.cancelAll]

/-- **Which tokens an operation fires**: those of the keys that it cancels. -/
theorem fired_perform (sound : r.Sound) (op : Operation) :
    t ∈ (r.perform op).tokens.fired ↔
      t ∈ r.tokens.fired ∨ ∃ key, (key, t) ∈ r.entries ∧ op.cancels key = true := by
  cases op with
  | register other =>
    rw [Registry.perform]
    by_cases live : r.isLive other = true
    · rw [register_live live]
      simp [Operation.cancels]
    · rw [register_free (Bool.eq_false_iff.mpr live)]
      simp [Operation.cancels]
  | finish other => simp [Registry.perform, Registry.finish, Operation.cancels]
  | cancel other =>
    rw [Registry.perform, sound.cancel_fired]
    simp [Operation.cancels]
  | cancelAll =>
    rw [Registry.perform, cancelAll_fired]
    simp [Operation.cancels]

end Operation

/-! ## Any number of operations -/

section Operations

variable {ops past later : List Operation} {op : Operation} {key : String} {t : Token}

/-- **The register is sound after any operations.** -/
theorem sound_after (ops : List Operation) : (after ops).Sound := by
  induction ops using List.reverseRecOn with
  | nil => exact ⟨List.nodup_nil, List.nodup_nil, nofun, nofun⟩
  | append_singleton ops op ih =>
    rw [after_concat]
    exact ih.perform op

/-- A key is live if it has just been registered, or was live and has not been finished. -/
theorem live_concat :
    Live (ops ++ [op]) key ↔ op = .register key ∨ (Live ops key ∧ op ≠ .finish key) := by
  constructor
  · rintro ⟨past, later, cut, unfinished⟩
    -- the last operation is the registration itself, or it came later
    rcases List.eq_nil_or_concat later with rfl | ⟨later, last, rfl⟩
    · obtain ⟨-, same⟩ := List.append_inj' cut rfl
      exact .inl (List.cons.inj same).1
    · rw [List.concat_eq_append, ← List.cons_append, ← List.append_assoc] at cut
      obtain ⟨rfl, same⟩ := List.append_inj' cut rfl
      obtain rfl := (List.cons.inj same).1
      rw [List.concat_eq_append, List.mem_append, not_or, List.mem_singleton] at unfinished
      exact .inr ⟨⟨past, later, rfl, unfinished.1⟩, fun same => unfinished.2 same.symm⟩
  · rintro (rfl | ⟨⟨past, later, rfl, unfinished⟩, other⟩)
    · exact ⟨ops, [], rfl, List.not_mem_nil⟩
    · refine ⟨past, later ++ [op], by rw [List.append_assoc, List.cons_append], ?_⟩
      rw [List.mem_append, not_or, List.mem_singleton]
      exact ⟨unfinished, fun same => other same.symm⟩

/-- **The keys in the register are the live ones.** -/
theorem isLive_after (ops : List Operation) (key : String) :
    (after ops).isLive key = true ↔ Live ops key := by
  have entry (r : Registry) : r.isLive key = true ↔ ∃ t, (key, t) ∈ r.entries := by
    rw [isLive_iff]
    simp
  rw [entry]
  induction ops using List.reverseRecOn with
  | nil =>
    constructor
    · rintro ⟨t, none⟩
      cases none
    · rintro ⟨past, later, cut, -⟩
      simp at cut
  | append_singleton ops op ih =>
    rw [after_concat, live_concat]
    simp only [mem_perform]
    constructor
    · rintro ⟨t, ⟨before, other⟩ | ⟨new, -⟩⟩
      · exact .inr ⟨ih.mp ⟨t, before⟩, other⟩
      · exact .inl new
    · rintro (rfl | ⟨live, other⟩)
      · -- a key that is registered while it is live keeps its entry
        by_cases live : (after ops).isLive key = true
        · obtain ⟨t, before⟩ := (entry _).mp live
          exact ⟨t, .inl ⟨before, nofun⟩⟩
        · exact ⟨_, .inr ⟨rfl, Bool.eq_false_iff.mpr live, rfl⟩⟩
      · obtain ⟨t, before⟩ := ih.mpr live
        exact ⟨t, .inl ⟨before, other⟩⟩

/-- The live keys are as many as the entries. -/
theorem live_size (ops : List Operation) :
    {key | Live ops key}.Finite ∧ {key | Live ops key}.ncard = (after ops).size := by
  have keys : {key | Live ops key} = (((after ops).entries.map (·.1)).toFinset : Set String) := by
    ext key
    rw [Set.mem_ofPred_eq, ← isLive_after, isLive_iff, Finset.mem_coe, List.mem_toFinset]
  rw [keys]
  refine ⟨Finset.finite_toSet _, ?_⟩
  rw [Set.ncard_coe_finset, List.toFinset_card_of_nodup (sound_after ops).keys, List.length_map]
  rfl

/-! ## The token of a registration -/

/-- A key is reached by a cancellation that comes before it is finished. -/
theorem reached_concat :
    Reached key (later ++ [op]) ↔
      Reached key later ∨ (op.cancels key = true ∧ .finish key ∉ later) := by
  constructor
  · rintro ⟨mid, op', rest, cut, cancels, unfinished⟩
    rcases List.eq_nil_or_concat rest with rfl | ⟨rest, last, rfl⟩
    · obtain ⟨rfl, same⟩ := List.append_inj' cut rfl
      obtain rfl := (List.cons.inj same).1
      exact .inr ⟨cancels, unfinished⟩
    · rw [List.concat_eq_append, ← List.cons_append, ← List.append_assoc] at cut
      obtain ⟨rfl, -⟩ := List.append_inj' cut rfl
      exact .inl ⟨mid, op', rest, rfl, cancels, unfinished⟩
  · rintro (⟨mid, op', rest, rfl, cancels, unfinished⟩ | ⟨cancels, unfinished⟩)
    · exact ⟨mid, op', rest ++ [op], by rw [List.append_assoc, List.cons_append], cancels,
        unfinished⟩
    · exact ⟨later, op, [], rfl, cancels, unfinished⟩

/-- **A token that was handed out for a key**, after further operations. -/
structure Handed (key : String) (t : Token) (later : List Operation) (r : Registry) : Prop where
  issued : t < r.tokens.issued
  /-- It stands beside its key until the key is finished, and nowhere else. -/
  entry : ∀ other, (other, t) ∈ r.entries ↔ other = key ∧ .finish key ∉ later
  fired : t ∈ r.tokens.fired ↔ Reached key later

/-- A token that has just been handed out has not fired. -/
theorem Handed.first (handed : ((after past).register key).2 = some t) :
    Handed key t [] (after (past ++ [.register key])) := by
  have sound := sound_after past
  rw [after_concat, perform]
  by_cases live : (after past).isLive key = true
  · rw [register_live live] at handed
    cases handed
  · rw [register_free (Bool.eq_false_iff.mpr live)] at handed ⊢
    obtain rfl := Option.some.inj handed
    refine ⟨Nat.lt_succ_self _, fun other => ?_, ?_⟩
    · -- no entry has the number that comes next
      have new : ∀ x ∈ (after past).entries, x.2 ≠ (after past).tokens.issued :=
        fun x known => Nat.ne_of_lt (sound.issued x known)
      rw [List.mem_append, List.mem_singleton, Prod.mk.injEq]
      constructor
      · rintro (known | ⟨rfl, -⟩)
        · exact absurd rfl (new _ known)
        · exact ⟨rfl, List.not_mem_nil⟩
      · rintro ⟨rfl, -⟩
        exact .inr ⟨rfl, rfl⟩
    · constructor
      · intro fired
        exact absurd (sound.fired _ fired) (Nat.lt_irrefl _)
      · rintro ⟨mid, op, rest, cut, -⟩
        simp at cut

/-- **What is known of a token is kept by every operation.** -/
theorem Handed.next {r : Registry} (handed : Handed key t later r) (sound : r.Sound)
    (op : Operation) : Handed key t (later ++ [op]) (r.perform op) := by
  refine ⟨Nat.lt_of_lt_of_le handed.issued (issued_perform r op), fun other => ?_, ?_⟩
  · rw [mem_perform, handed.entry, List.mem_append, not_or, List.mem_singleton]
    constructor
    · rintro (⟨⟨rfl, unfinished⟩, now⟩ | ⟨-, -, new⟩)
      · exact ⟨rfl, unfinished, fun same => now same.symm⟩
      · exact absurd handed.issued (by rw [new]; exact Nat.lt_irrefl _)
    · rintro ⟨rfl, unfinished, now⟩
      exact .inl ⟨⟨rfl, unfinished⟩, fun same => now same.symm⟩
  · rw [fired_perform sound, handed.fired, reached_concat]
    apply or_congr_right
    constructor
    · rintro ⟨other, entry, cancels⟩
      obtain ⟨rfl, unfinished⟩ := (handed.entry other).mp entry
      exact ⟨cancels, unfinished⟩
    · rintro ⟨cancels, unfinished⟩
      exact ⟨key, (handed.entry key).mpr ⟨rfl, unfinished⟩, cancels⟩

/-- **From the moment that it is handed out** it is known of a token whether it is entered, and
whether it has fired. -/
theorem handed_after (handed : ((after past).register key).2 = some t) (later : List Operation) :
    Handed key t later (after (past ++ .register key :: later)) := by
  induction later using List.reverseRecOn with
  | nil => exact Handed.first handed
  | append_singleton later op ih =>
    rw [← List.cons_append, ← List.append_assoc, after_concat]
    exact ih.next (sound_after _) op

/-! ## The law -/

/-- **Tokens fire within the lifetime of their keys.** For every sequence of operations:

* A token is handed out exactly for a key that is not live, a cancellation tells whether its key is
  live, and the cancellation of everything tells how many keys are; the size of the register is that
  number.
* A cancellation leaves the entries as they are, and the keys that are live stay so and are refused.
* A token that was handed out for a key has fired exactly if, after it was handed out, the key was
  cancelled, or everything was, before the key was finished. -/
theorem tokens_fire_within_lifetimes (ops : List Operation) :
    (∀ key, ((after ops).register key).2.isSome = true ↔ ¬ Live ops key) ∧
    (∀ key, ((after ops).cancel key).2 = true ↔ Live ops key) ∧
    ({key | Live ops key}.Finite ∧ (after ops).cancelAll.2 = {key | Live ops key}.ncard ∧
      (after ops).size = {key | Live ops key}.ncard) ∧
    (∀ op, (∃ key, op.cancels key = true) →
      (after (ops ++ [op])).entries = (after ops).entries ∧
      ∀ key, Live ops key → Live (ops ++ [op]) key ∧
        ((after (ops ++ [op])).register key).2 = none) ∧
    ∀ past key later t, ops = past ++ .register key :: later →
      ((after past).register key).2 = some t →
      ((after ops).hasFired t = true ↔
        ∃ mid op rest, later = mid ++ op :: rest ∧ op.cancels key = true ∧ .finish key ∉ mid) := by
  have size := live_size ops
  refine ⟨fun key => ?_, fun key => ?_, ⟨size.1, size.2.symm, size.2.symm⟩, ?_, ?_⟩
  · rw [← isLive_after]
    by_cases live : (after ops).isLive key = true
    · rw [register_live live]
      exact iff_of_false nofun (not_not_intro live)
    · rw [register_free (Bool.eq_false_iff.mpr live)]
      exact iff_of_true rfl live
  · rw [cancel_live, isLive_after]
  · rintro op ⟨key, cancels⟩
    -- only registering and finishing change the entries
    have same : (after (ops ++ [op])).entries = (after ops).entries := by
      rw [after_concat]
      cases op with
      | register | finish => cases cancels
      | cancel other => exact cancel_entries _ other
      | cancelAll => rfl
    refine ⟨same, fun other live => ?_⟩
    have stays : Live (ops ++ [op]) other := by
      refine live_concat.mpr (.inr ⟨live, ?_⟩)
      rintro rfl
      cases cancels
    rw [register_live ((isLive_after _ other).mpr stays)]
    exact ⟨stays, rfl⟩
  · rintro past key later t rfl handed
    rw [hasFired, Tokens.hasFired, List.contains_iff_mem]
    exact (handed_after handed later).fired

/-- A key is used twice. Its first token is cancelled, and so is the key after it was finished, when
that goes nowhere. -/
def usedTwice : List Operation :=
  [.register "1", .cancel "1", .finish "1", .cancel "1", .register "1"]

/-- The first token fires and the second one does not, and when everything is cancelled that is the
second one alone. -/
theorem usedTwice_fires_once :
    (after usedTwice).hasFired 0 = true ∧ (after usedTwice).hasFired 1 = false ∧
      (after (usedTwice ++ [.cancelAll])).hasFired 1 = true ∧
      ((after usedTwice).register "1").2 = none := by
  obtain ⟨handsOut, -, -, -, fires⟩ := tokens_fire_within_lifetimes usedTwice
  obtain ⟨-, -, -, -, firesAll⟩ := tokens_fire_within_lifetimes (usedTwice ++ [.cancelAll])
  refine ⟨?_, ?_, ?_, ?_⟩
  · refine (fires [] "1" _ 0 rfl rfl).mpr ⟨[], .cancel "1", _, rfl, ?_, List.not_mem_nil⟩
    decide
  · refine Bool.eq_false_iff.mpr fun fired => ?_
    have second : ((after (usedTwice.take 4)).register "1").2 = some 1 := by decide +kernel
    obtain ⟨mid, op, rest, none, -⟩ := (fires _ "1" [] 1 rfl second).mp fired
    exact absurd none (by simp)
  · refine (firesAll (usedTwice.take 4) "1" [.cancelAll] 1 rfl (by decide +kernel)).mpr ?_
    exact ⟨[], .cancelAll, [], rfl, rfl, List.not_mem_nil⟩
  · have live : Live usedTwice "1" := ⟨usedTwice.take 4, [], rfl, List.not_mem_nil⟩
    have refused := mt (handsOut "1").mp (not_not_intro live)
    simpa using refused

end Operations

end CompilerSession.Registry
