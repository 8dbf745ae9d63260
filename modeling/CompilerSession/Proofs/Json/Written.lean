import CompilerSession.Proofs.Json.Maps
import CompilerSession.Proofs.Json.Members

/-
Reading what a record has written.

A record writes its fields as members, with texts, lists and maps of texts as their values, and
leaves out those that say nothing. This file has the reader's side of each of these: a text, a list
and a map are read back, provided there is room for the container they are in (`Scope.HasRoom`); a
member that may be left out is stored if it is there (`Reads.perhaps`); and a member of another
reader is skipped, whether it is there or not (`Reads.perhapsOther`).
-/

set_option autoImplicit false

namespace CompilerSession.Json

/-! ## Trees of values -/

/-- The tree of an object is made of those of its members. -/
theorem Tree.ofMembers_eq_map (ms : List (String × Value)) :
    Tree.ofMembers ms = ms.map fun m => (some m.1, Tree.ofValue m.2) := by
  induction ms with
  | nil => rfl
  | cons m ms ih => rw [Tree.ofMembers, ih]; rfl

theorem Tree.ofMembers_append (ms ms' : List (String × Value)) :
    Tree.ofMembers (ms ++ ms') = Tree.ofMembers ms ++ Tree.ofMembers ms' := by
  simp only [Tree.ofMembers_eq_map, List.map_append]

/-- Members in another order have their trees in another order. -/
theorem Tree.ofMembers_perm {ms ms' : List (String × Value)} (perm : ms.Perm ms') :
    (Tree.ofMembers ms).Perm (Tree.ofMembers ms') := by
  simp only [Tree.ofMembers_eq_map]
  exact perm.map _

/-- Members that are written have names. -/
theorem named_ofMembers_iff {P : Tree → Prop} {ms : List (String × Value)} :
    (∀ m ∈ Tree.ofMembers ms, Named P m) ↔ ∀ m ∈ ms, P (Tree.ofValue m.2) := by
  rw [Tree.ofMembers_eq_map, List.forall_mem_map]
  exact forall₂_congr fun m _ => ⟨fun named => named.2, fun fine => ⟨⟨_, rfl⟩, fine⟩⟩

/-- So many more containers may be opened. -/
def Scope.HasRoom (scope : Scope) (n : Nat) : Prop :=
  ∀ room ∈ scope.room, n ≤ room

/-- Where there is room for one level more, one can go in. -/
theorem Scope.HasRoom.enter {scope : Scope} {n : Nat} (room : scope.HasRoom (n + 1)) :
    ∃ inner, scope.enter = .ok inner ∧ inner.HasRoom n := by
  obtain ⟨origin, left⟩ := scope
  match left with
  | none => exact ⟨_, rfl, nofun⟩
  | some 0 => exact absurd (room 0 rfl) (by omega)
  | some (left + 1) =>
    refine ⟨_, rfl, fun r is => ?_⟩
    obtain rfl := Option.some.inj is
    exact Nat.le_of_succ_le_succ (room _ rfl)

section Texts

variable {scope : Scope} (room : scope.HasRoom 1)
include room

theorem list_texts (xs : List String) :
    list text scope (Tree.ofValue (Value.texts xs)) = .ok xs := by
  obtain ⟨inner, enter, -⟩ := room.enter
  have each : items text inner (Tree.ofValues (xs.map .text)) = .ok xs := by
    induction xs with
    | nil => rfl
    | cons x xs ih =>
      exact bind_eq_ok_iff.mpr ⟨x, rfl, bind_eq_ok_iff.mpr ⟨xs, ih, rfl⟩⟩
  exact bind_eq_ok_iff.mpr ⟨inner, enter, bind_eq_ok_iff.mpr ⟨xs, each, rfl⟩⟩

theorem map_texts {m : List (String × String)} (ordered : Ordered m) :
    map text scope (Tree.ofValue (Value.ofMap m)) = .ok m := by
  obtain ⟨inner, enter, -⟩ := room.enter
  have each (m : List (String × String)) :
      entries text inner (Tree.ofMembers (m.map fun e => (e.1, .text e.2))) = .ok m := by
    induction m with
    | nil => rfl
    | cons e m ih =>
      exact bind_eq_ok_iff.mpr ⟨e.1, rfl, bind_eq_ok_iff.mpr ⟨e.2, rfl,
        bind_eq_ok_iff.mpr ⟨m, ih, rfl⟩⟩⟩
  exact bind_eq_ok_iff.mpr ⟨inner, enter, bind_eq_ok_iff.mpr ⟨m, each m,
    congrArg Except.ok (putAll_of_ordered ordered)⟩⟩

theorem parseable_texts (xs : List String) : Parseable scope (Tree.ofValue (Value.texts xs)) := by
  obtain ⟨inner, enter, -⟩ := room.enter
  have each : anyValues inner (Tree.ofValues (xs.map .text)) = .ok (xs.map .text) := by
    induction xs with
    | nil => rfl
    | cons x xs ih =>
      exact bind_eq_ok_iff.mpr ⟨_, rfl, bind_eq_ok_iff.mpr ⟨_, ih, rfl⟩⟩
  exact ⟨_, bind_eq_ok_iff.mpr ⟨inner, enter, bind_eq_ok_iff.mpr ⟨_, each, rfl⟩⟩⟩

theorem parseable_map (m : List (String × String)) :
    Parseable scope (Tree.ofValue (Value.ofMap m)) := by
  obtain ⟨inner, enter, -⟩ := room.enter
  refine (parseable_object_iff enter).mpr fun e member => ?_
  rw [Tree.ofMembers_eq_map, List.map_map] at member
  obtain ⟨_, -, rfl⟩ := List.mem_map.mp member
  exact ⟨⟨_, rfl⟩, _, rfl⟩

end Texts

/-! ## What was read -/

/-- A map that was read is in order. -/
theorem map_ordered {α : Type} {d : Decoder α} {scope : Scope} {t : Tree} {m : List (String × α)}
    (decoded : map d scope t = .ok m) : Ordered m := by
  cases t with
  | object ms closed =>
    obtain ⟨inner, -, decoded⟩ := bind_eq_ok_iff.mp decoded
    obtain ⟨xs, -, decoded⟩ := bind_eq_ok_iff.mp decoded
    cases closed with
    | false => cases decoded
    | true =>
      obtain rfl := Except.ok.inj decoded
      exact putAll_ordered xs
  | _ => cases decoded

/-- What must be given is read as it stands. -/
theorem always_eq_some {α : Type} {d : Decoder α} {scope : Scope} {t : Tree} {a : α}
    (decoded : always d scope t = .ok (some a)) : d scope t = .ok a := by
  have lifted : (d scope t).map some = .ok (some a) := decoded
  obtain ⟨a', read, same⟩ := map_eq_ok_iff.mp lifted
  obtain rfl := Option.some.inj same
  exact read

theorem optional_eq_some {α : Type} {d : Decoder α} {scope : Scope} {t : Tree} {a : α}
    (decoded : optional d scope t = .ok (some a)) : d scope t = .ok a := by
  cases t with
  | null => cases decoded
  | _ => exact always_eq_some decoded

/-! ## Fields that may be left out -/

section Perhaps

variable {σ α : Type} {fields : List (Member σ)} {scope : Scope} {key : String} {o : Option α}
  {v : α → Value} {seen : List String} {rest : List (Name × Tree)} {s s' r : σ}

/-- A member that may be left out is given at most once. -/
theorem names_member? (key : String) (v : α → Value) (o : Option α) :
    ((Value.member? key v o).map Prod.fst).Sublist [key] := by
  cases o with
  | none => exact List.nil_sublist _
  | some x => exact .refl _

/-- Whatever is to hold of it is to hold of the value, if there is one. -/
theorem forall_member?_iff (P : Value → Prop) (key : String) (v : α → Value) (o : Option α) :
    (∀ m ∈ Value.member? key v o, P m.2) ↔ ∀ x ∈ o, P (v x) := by
  cases o with
  | none => exact iff_of_true nofun nofun
  | some x => simp [Value.member?]

/-- A field that may be left out is stored if it is there. -/
theorem Reads.perhaps {f : Member σ} (known : fieldOf? fields key = some f)
    (more : Reads fields scope (f.name :: seen) rest s' r) (unseen : f.name ∉ seen)
    (stored : ∀ x, o = some x → f.store scope (Tree.ofValue (v x)) s = .ok s')
    (absent : o = none → s = s') :
    Reads fields scope seen (Tree.ofMembers (Value.member? key v o) ++ rest) s r := by
  cases o with
  | none =>
    obtain rfl := absent rfl
    exact more.seen_subset (List.subset_cons_self _ _)
  | some x => exact .field known unseen (stored x rfl) more

/-- What belongs to another reader is skipped, if it is there. -/
theorem Reads.perhapsOther (unknown : fieldOf? fields key = none)
    (more : Reads fields scope seen rest s r)
    (sound : ∀ x, o = some x → (Tree.ofValue (v x)).isSound = true) :
    Reads fields scope seen (Tree.ofMembers (Value.member? key v o) ++ rest) s r := by
  cases o with
  | none => exact more
  | some x => exact .other unknown (sound x rfl) more

end Perhaps

/-! ## Values with their members in order -/

theorem sortedItems_eq_map (xs : List Value) : Value.sortedItems xs = xs.map Value.sorted := by
  induction xs with
  | nil => rfl
  | cons x xs ih => rw [Value.sortedItems, ih, List.map_cons]

theorem sortedMembers_eq_map (ms : List (String × Value)) :
    Value.sortedMembers ms = ms.map fun m => (m.1, m.2.sorted) := by
  induction ms with
  | nil => rfl
  | cons m ms ih => rw [Value.sortedMembers, ih, List.map_cons]

theorem sorted_text (s : String) : (Value.text s).sorted = .text s :=
  rfl

theorem sorted_texts (xs : List String) : (Value.texts xs).sorted = Value.texts xs := by
  rw [Value.texts, Value.sorted, sortedItems_eq_map, List.map_map]
  rfl

/-- A map that is ordered is sorted. -/
theorem sorted_ofMap {m : List (String × String)} (ordered : Ordered m) :
    (Value.ofMap m).sorted = Value.ofMap m := by
  have names : Ordered (m.map fun e => (e.1, Value.text e.2)) := List.pairwise_map.mpr ordered
  rw [Value.ofMap, Value.sorted, sortedMembers_eq_map, List.map_map, Value.ofMembers]
  exact congrArg Value.object (putAll_of_ordered names)

/-- The values of a field that may be left out are put in order. -/
theorem map_member? {α : Type} {v w : α → Value} (f : Value → Value) (key : String) (o : Option α)
    (same : ∀ x ∈ o, f (v x) = w x) :
    (Value.member? key v o).map (fun m => (m.1, f m.2)) = Value.member? key w o := by
  cases o with
  | none => rfl
  | some x => rw [Value.member?, List.map_singleton, same x rfl, Value.member?]

end CompilerSession.Json
