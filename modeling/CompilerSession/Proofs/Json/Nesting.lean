import CompilerSession.Proofs.Json.Equality

/-
How deep a value is nested, and what is read of it.

Every container that is open takes some of the room that the circumstances leave (`Scope.HasRoom`),
and a value is refused as a whole if there is not enough room for its innermost containers. This is
all that can be wrong with a value: if it has room, it is read, and what is read is the value with
its members in order (`anyValue_ofValue_iff`).
-/

set_option autoImplicit false

namespace CompilerSession.Json

mutual

/-- **How deep a value is nested**: how many containers are open at its innermost place. -/
def Value.depth : Value → Nat
  | .array items => depthItems items + 1
  | .object members => depthMembers members + 1
  | _ => 0

def depthItems : List Value → Nat
  | [] => 0
  | x :: rest => max x.depth (depthItems rest)

def depthMembers : List (String × Value) → Nat
  | [] => 0
  | (_, x) :: rest => max x.depth (depthMembers rest)

end

/-- Members are so deep if each of them is. -/
theorem depthMembers_le_iff {ms : List (String × Value)} {n : Nat} :
    depthMembers ms ≤ n ↔ ∀ m ∈ ms, m.2.depth ≤ n := by
  induction ms with
  | nil => exact iff_of_true (Nat.zero_le n) nofun
  | cons m ms ih => rw [List.forall_mem_cons, ← ih, depthMembers, Nat.max_le]

/-! ## Room -/

section Room

variable {scope : Scope}

theorem Scope.hasRoom_zero (scope : Scope) : scope.HasRoom 0 :=
  fun room _ => Nat.zero_le room

/-- There is room for two values if there is room for each of them. -/
theorem Scope.hasRoom_max {m n : Nat} :
    scope.HasRoom (max m n) ↔ scope.HasRoom m ∧ scope.HasRoom n := by
  constructor
  · intro room
    exact ⟨fun left is => Nat.le_trans (Nat.le_max_left m n) (room left is),
      fun left is => Nat.le_trans (Nat.le_max_right m n) (room left is)⟩
  · rintro ⟨first, second⟩ left is
    exact Nat.max_le.mpr ⟨first left is, second left is⟩

/-- One more container may be opened if what is left inside is enough. -/
theorem Scope.enter_and_iff {n : Nat} {P : Prop} :
    (∃ inner, scope.enter = .ok inner ∧ inner.HasRoom n ∧ P) ↔ scope.HasRoom (n + 1) ∧ P := by
  obtain ⟨origin, left⟩ := scope
  match left with
  | none =>
    -- where there is no limit all that is asked for holds by itself
    constructor
    · rintro ⟨inner, -, -, holds⟩
      exact ⟨nofun, holds⟩
    · rintro ⟨-, holds⟩
      exact ⟨_, rfl, nofun, holds⟩
  | some 0 =>
    constructor
    · rintro ⟨inner, enter, -⟩
      cases enter
    · rintro ⟨room, -⟩
      exact absurd (room 0 rfl) (Nat.not_succ_le_zero n)
  | some (left + 1) =>
    constructor
    · rintro ⟨inner, enter, room, holds⟩
      obtain rfl := Except.ok.inj enter
      refine ⟨fun given is => ?_, holds⟩
      obtain rfl := Option.some.inj is
      exact Nat.succ_le_succ (room left rfl)
    · rintro ⟨room, holds⟩
      refine ⟨_, rfl, fun given is => ?_, holds⟩
      obtain rfl := Option.some.inj is
      exact Nat.le_of_succ_le_succ (room _ rfl)

end Room

/-! ## Reading -/

mutual

/-- **What is read of a value**: if there is room, the value with its members in order. -/
theorem anyValue_ofValue_iff : (v : Value) → {scope : Scope} → {w : Value} →
    (anyValue scope (Tree.ofValue v) = .ok w ↔ scope.HasRoom v.depth ∧ w = v.sorted)
  | .null, scope, w | .bool _, scope, w | .number _, scope, w | .text _, scope, w => by
    rw [Tree.ofValue, anyValue, Except.ok.injEq, eq_comm, Value.depth, Value.sorted]
    · exact (and_iff_right scope.hasRoom_zero).symm
    all_goals exact nofun
  | .array xs, scope, w => by
    rw [Tree.ofValue, anyValue, Value.depth, Value.sorted, ← Scope.enter_and_iff, bind_eq_ok_iff]
    refine exists_congr fun inner => and_congr_right fun _ => ?_
    rw [bind_eq_ok_iff]
    simp only [anyValues_ofValues_iff xs]
    constructor
    · rintro ⟨items, ⟨room, rfl⟩, done⟩
      exact ⟨room, (Except.ok.inj done).symm⟩
    · rintro ⟨room, rfl⟩
      exact ⟨_, ⟨room, rfl⟩, rfl⟩
  | .object ms, scope, w => by
    rw [Tree.ofValue, anyValue, Value.depth, Value.sorted, ← Scope.enter_and_iff, bind_eq_ok_iff]
    refine exists_congr fun inner => and_congr_right fun _ => ?_
    rw [bind_eq_ok_iff]
    simp only [anyMembers_ofMembers_iff ms]
    constructor
    · rintro ⟨members, ⟨room, rfl⟩, done⟩
      exact ⟨room, (Except.ok.inj done).symm⟩
    · rintro ⟨room, rfl⟩
      exact ⟨_, ⟨room, rfl⟩, rfl⟩

/-- Items are read if there is room for the deepest of them. -/
theorem anyValues_ofValues_iff : (xs : List Value) → {scope : Scope} → {ws : List Value} →
    (anyValues scope (Tree.ofValues xs) = .ok ws ↔
      scope.HasRoom (depthItems xs) ∧ ws = Value.sortedItems xs)
  | [], scope, ws => by
    rw [Tree.ofValues, anyValues, Except.ok.injEq, eq_comm]
    exact (and_iff_right scope.hasRoom_zero).symm
  | x :: xs, scope, ws => by
    rw [Tree.ofValues, anyValues, depthItems, Scope.hasRoom_max, Value.sortedItems]
    simp only [bind_eq_ok_iff, anyValue_ofValue_iff x, anyValues_ofValues_iff xs]
    constructor
    · rintro ⟨_, ⟨first, rfl⟩, _, ⟨later, rfl⟩, done⟩
      exact ⟨⟨first, later⟩, (Except.ok.inj done).symm⟩
    · rintro ⟨⟨first, later⟩, rfl⟩
      exact ⟨_, ⟨first, rfl⟩, _, ⟨later, rfl⟩, rfl⟩

/-- Members are read if there is room for the deepest of them. -/
theorem anyMembers_ofMembers_iff : (ms : List (String × Value)) → {scope : Scope} →
    {ws : List (String × Value)} → (anyMembers scope (Tree.ofMembers ms) = .ok ws ↔
      scope.HasRoom (depthMembers ms) ∧ ws = Value.sortedMembers ms)
  | [], scope, ws => by
    rw [Tree.ofMembers, anyMembers, Except.ok.injEq, eq_comm]
    exact (and_iff_right scope.hasRoom_zero).symm
  | (name, x) :: ms, scope, ws => by
    rw [Tree.ofMembers, anyMembers, depthMembers, Scope.hasRoom_max, Value.sortedMembers]
    simp only [bind_eq_ok_iff, nameText_eq_ok_iff, anyValue_ofValue_iff x,
      anyMembers_ofMembers_iff ms]
    constructor
    · rintro ⟨key, named, _, ⟨first, rfl⟩, _, ⟨later, rfl⟩, done⟩
      obtain rfl := Option.some.inj named
      exact ⟨⟨first, later⟩, (Except.ok.inj done).symm⟩
    · rintro ⟨⟨first, later⟩, rfl⟩
      exact ⟨name, rfl, _, ⟨first, rfl⟩, _, ⟨later, rfl⟩, rfl⟩

end

/-- There is no fault in the text of a value. -/
theorem isSound_ofValue (v : Value) : (Tree.ofValue v).isSound = true := by
  have unlimited : Scope.ofValue.HasRoom v.depth := nofun
  exact isSound_of_anyValue _ ((anyValue_ofValue_iff v).mpr ⟨unlimited, rfl⟩)

/-- A value that was read before is read again as it is. -/
theorem anyValue_sorted {scope : Scope} (unlimited : scope.room = none) (v : Value) :
    anyValue scope (Tree.ofValue v.sorted) = .ok v.sorted := by
  refine (anyValue_ofValue_iff v.sorted).mpr ⟨fun room is => ?_, (sorted_sorted v).symm⟩
  rw [unlimited] at is
  cases is

end CompilerSession.Json
