import CompilerSession.Json.Value
import Mathlib.Data.List.Induction
import Mathlib.Data.List.Perm.Basic
import Mathlib.Data.String.Basic

/-
Maps in name order.

A map is a list in strict order of its names (`Ordered`), which is what setting names one by one
makes of any list (`putAll_ordered`). A list that is in order already is its own map, and a list in
which no name occurs twice keeps all it has and only changes its order. Where a name occurs several
times its last value counts (`lookup?_putAll`), and a map is known by what is found under each name
(`Ordered.ext`).
-/

set_option autoImplicit false

namespace CompilerSession.Json

section Maps

variable {α : Type} {name : String} {x : α} {m : List (String × α)}

/-- **The names are in strict order**, so that none occurs twice. -/
def Ordered (m : List (String × α)) : Prop :=
  m.Pairwise (·.1 < ·.1)

instance (m : List (String × α)) : Decidable (Ordered m) :=
  inferInstanceAs (Decidable (m.Pairwise (·.1 < ·.1)))

/-- An entry is the one that was put, or it was there. -/
theorem mem_put {e : String × α} (member : e ∈ put name x m) : e = (name, x) ∨ e ∈ m := by
  induction m with
  | nil => exact .inl (List.mem_singleton.mp member)
  | cons other rest ih =>
    rw [put] at member
    split at member
    · exact (List.mem_cons.mp member)
    split at member
    · exact (List.mem_cons.mp member).imp_right (List.mem_cons_of_mem _)
    · rcases List.mem_cons.mp member with rfl | member
      · exact .inr List.mem_cons_self
      · exact (ih member).imp_right (List.mem_cons_of_mem _)

/-- Putting an entry keeps the order. -/
theorem put_ordered (ordered : Ordered m) : Ordered (put name x m) := by
  induction m with
  | nil => exact List.pairwise_singleton _ _
  | cons other rest ih =>
    obtain ⟨first, later⟩ := List.pairwise_cons.mp ordered
    rw [put]
    split
    · rename_i before
      refine List.pairwise_cons.mpr ⟨fun e member => ?_, ordered⟩
      rcases List.mem_cons.mp member with rfl | member
      · exact before
      · exact lt_trans before (first e member)
    split
    · rename_i same
      exact List.pairwise_cons.mpr ⟨fun e member => same ▸ first e member, later⟩
    · rename_i notBefore different
      have behind : other.1 < name := lt_of_le_of_ne (not_lt.mp notBefore) (Ne.symm different)
      refine List.pairwise_cons.mpr ⟨fun e member => ?_, ih later⟩
      rcases mem_put member with rfl | member
      · exact behind
      · exact first e member

/-- **Settings make a map**, in whatever order they come. -/
theorem putAll_ordered (settings : List (String × α)) : Ordered (putAll settings) := by
  have steps (m : List (String × α)) (ordered : Ordered m) :
      Ordered (settings.foldl (fun map e => put e.1 e.2 map) m) := by
    induction settings generalizing m with
    | nil => exact ordered
    | cons e rest ih => exact ih _ (put_ordered ordered)
  exact steps [] List.Pairwise.nil

/-- A name behind all others goes to the end. -/
theorem put_of_last (last : ∀ e ∈ m, e.1 < name) : put name x m = m ++ [(name, x)] := by
  induction m with
  | nil => rfl
  | cons other rest ih =>
    have before : other.1 < name := last other List.mem_cons_self
    rw [put, if_neg (lt_asymm before), if_neg (ne_of_gt before),
      ih fun e member => last e (List.mem_cons_of_mem _ member)]
    rfl

/-- **A map is its own map.** -/
theorem putAll_of_ordered (ordered : Ordered m) : putAll m = m := by
  have steps (m done : List (String × α)) (ordered : Ordered (done ++ m)) :
      m.foldl (fun map e => put e.1 e.2 map) done = done ++ m := by
    induction m generalizing done with
    | nil => exact (List.append_nil done).symm
    | cons e rest ih =>
      have last : ∀ d ∈ done, d.1 < e.1 := fun d member =>
        (List.pairwise_append.mp ordered).2.2 d member e List.mem_cons_self
      rw [List.foldl_cons, put_of_last last, ih, List.append_assoc]
      · rfl
      · rw [List.append_assoc]
        exact ordered
  exact steps m [] ordered

/-- A new name adds one entry. -/
theorem put_perm (fresh : name ∉ m.map Prod.fst) : (put name x m).Perm ((name, x) :: m) := by
  induction m with
  | nil => exact .refl _
  | cons other rest ih =>
    rw [List.map_cons, List.mem_cons, not_or] at fresh
    rw [put]
    split
    · exact .refl _
    · rw [if_neg fresh.1]
      exact ((ih fresh.2).cons other).trans (.swap _ _ _)

/-- **Names that occur once are only put in order.** -/
theorem putAll_perm (once : (m.map Prod.fst).Nodup) : (putAll m).Perm m := by
  have steps (m done : List (String × α)) (once : ((done ++ m).map Prod.fst).Nodup) :
      (m.foldl (fun map e => put e.1 e.2 map) done).Perm (done ++ m) := by
    induction m generalizing done with
    | nil => rw [List.append_nil]; exact .refl _
    | cons e rest ih =>
      have turned : (done ++ e :: rest).Perm (e :: done ++ rest) := List.perm_middle
      have once' := (turned.map Prod.fst).nodup_iff.mp once
      rw [List.cons_append, List.map_cons, List.nodup_cons] at once'
      have fresh : e.1 ∉ done.map Prod.fst := fun member =>
        once'.1 (by rw [List.map_append]; exact List.mem_append_left _ member)
      have placed : (put e.1 e.2 done ++ rest).Perm (done ++ e :: rest) :=
        ((put_perm fresh).append_right rest).trans turned.symm
      exact (ih _ ((placed.map Prod.fst).nodup_iff.mpr once)).trans placed
  exact steps m [] once

/-! ## Looking up -/

/-- The name that was put finds its entry, the other names what they found before. -/
theorem lookup?_put (key name : String) (x : α) (map : List (String × α)) :
    lookup? key (put name x map) = if key = name then some x else lookup? key map := by
  induction map with
  | nil => simp [put, lookup?]
  | cons m rest ih =>
    obtain ⟨other, y⟩ := m
    simp only [put]
    split
    · simp [lookup?]
    · split
      · rename_i same
        subst same
        by_cases h : key = name <;> simp [lookup?, h]
      · rename_i different
        by_cases h : key = other
        · subst h
          simp [lookup?, Ne.symm different]
        · simp [lookup?, h, ih]

/-- **In a map of settings the last setting of a name counts.** -/
theorem lookup?_putAll (key : String) (settings : List (String × α)) :
    lookup? key (putAll settings) = lookup? key settings.reverse := by
  induction settings using List.reverseRecOn with
  | nil => rfl
  | append_singleton settings e ih =>
    have last : putAll (settings ++ [e]) = put e.1 e.2 (putAll settings) := by
      rw [putAll, List.foldl_append]
      rfl
    rw [last, lookup?_put, ih, List.reverse_append]
    rfl

theorem lookup?_map {β : Type} (f : α → β) (key : String) (m : List (String × α)) :
    lookup? key (m.map fun e => (e.1, f e.2)) = (lookup? key m).map f := by
  induction m with
  | nil => rfl
  | cons e rest ih =>
    rw [List.map_cons, lookup?, lookup?]
    by_cases own : key = e.1
    · rw [if_pos own, if_pos own, Option.map_some]
    · rw [if_neg own, if_neg own, ih]

/-- Only entries are found. -/
theorem mem_of_lookup? {key : String} {x : α} {m : List (String × α)}
    (found : lookup? key m = some x) : (key, x) ∈ m := by
  induction m with
  | nil => cases found
  | cons e rest ih =>
    rw [lookup?] at found
    by_cases own : key = e.1
    · rw [if_pos own] at found
      obtain rfl := Option.some.inj found
      rw [own]
      exact List.mem_cons_self
    · rw [if_neg own] at found
      exact List.mem_cons_of_mem _ (ih found)

/-- In a map a name has one value. -/
theorem Ordered.lookup?_eq_some_iff {key : String} {x : α} (ordered : Ordered m) :
    lookup? key m = some x ↔ (key, x) ∈ m := by
  refine ⟨mem_of_lookup?, fun member => ?_⟩
  induction m with
  | nil => cases member
  | cons e rest ih =>
    obtain ⟨first, later⟩ := List.pairwise_cons.mp ordered
    rw [lookup?]
    rcases List.mem_cons.mp member with rfl | member
    · rw [if_pos rfl]
    · have behind : e.1 < key := first _ member
      rw [if_neg (ne_of_gt behind)]
      exact ih later member

/-- The entry of a name in a map stands among entries with other names. -/
theorem Ordered.split {key : String} {x : α} (ordered : Ordered m)
    (found : lookup? key m = some x) :
    ∃ before after, m = before ++ (key, x) :: after ∧
      ∀ e ∈ before ++ after, e ∈ m ∧ e.1 ≠ key := by
  obtain ⟨before, after, rfl⟩ := List.append_of_mem (mem_of_lookup? found)
  obtain ⟨-, behind, between⟩ := List.pairwise_append.mp ordered
  refine ⟨before, after, rfl, fun e member => ⟨?_, ?_⟩⟩
  · exact ((List.sublist_cons_self _ _).append_left before).subset member
  · rcases List.mem_append.mp member with first | later
    · exact ne_of_lt (between e first _ List.mem_cons_self)
    · exact ne_of_gt (List.rel_of_pairwise_cons behind later)

/-- Only what was put is there in the end. -/
theorem mem_of_mem_putAll {e : String × α} {settings : List (String × α)}
    (member : e ∈ putAll settings) : e ∈ settings := by
  have found := (putAll_ordered settings).lookup?_eq_some_iff.mpr member
  rw [lookup?_putAll] at found
  exact List.mem_reverse.mp (mem_of_lookup? found)

/-- **Maps with the same values for all names are the same.** -/
theorem Ordered.ext {m' : List (String × α)} (ordered : Ordered m) (ordered' : Ordered m')
    (same : ∀ key, lookup? key m = lookup? key m') : m = m' := by
  have once (m : List (String × α)) (ordered : Ordered m) : m.Nodup := by
    refine List.Pairwise.imp ?_ ordered
    rintro e e' before rfl
    exact lt_irrefl _ before
  have members (e : String × α) : e ∈ m ↔ e ∈ m' := by
    rw [← ordered.lookup?_eq_some_iff, ← ordered'.lookup?_eq_some_iff, same]
  refine List.Perm.eq_of_pairwise ?_ ordered ordered'
    ((List.perm_ext_iff_of_nodup (once m ordered) (once m' ordered')).mpr members)
  intro e e' _ _ before behind
  exact absurd behind (lt_asymm before)

end Maps

end CompilerSession.Json
