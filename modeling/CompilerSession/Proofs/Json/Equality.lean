import CompilerSession.Proofs.Json.Printing
import CompilerSession.Proofs.Json.Written

/-
Equality of JSON values.

Two values are equal if nobody who looks into them by positions and by names can tell them apart.
The order in which an object lists its members has no meaning, and where it lists a name more than
once its last value counts. `Value.Equal` says this of values as they are written, without putting
anything in order.

Putting all members in the order of their names makes one value of all that are equal
(`equal_iff_sorted_eq`), and the compact text of a value tells which value it is
(`compact_injective`). Both together make the text of the sorted value a name for what is equal.
-/

set_option autoImplicit false

namespace CompilerSession.Json

/-- **What counts for a name**: the last member of that name. -/
def valueOf? (name : String) (members : List (String × Value)) : Option Value :=
  lookup? name members.reverse

/-- **Equal values**, in whatever order their members are listed. -/
inductive Value.Equal : Value → Value → Prop where
  | null : Value.Equal .null .null
  | bool (b : Bool) : Value.Equal (.bool b) (.bool b)
  | number (n : Number) : Value.Equal (.number n) (.number n)
  | text (s : String) : Value.Equal (.text s) (.text s)
  | array {xs ys : List Value} : xs.length = ys.length →
      (∀ (i : Nat) (x y : Value), xs[i]? = some x → ys[i]? = some y → Value.Equal x y) →
      Value.Equal (.array xs) (.array ys)
  | object {ms ms' : List (String × Value)} :
      (∀ name, (valueOf? name ms).isSome = (valueOf? name ms').isSome) →
      (∀ name x y, valueOf? name ms = some x → valueOf? name ms' = some y → Value.Equal x y) →
      Value.Equal (.object ms) (.object ms')

/-! ## The order of members -/

/-- What is found in a sorted object is what counts in the object, with its members sorted. -/
theorem lookup?_sorted (name : String) (ms : List (String × Value)) :
    lookup? name (putAll (Value.sortedMembers ms)) = (valueOf? name ms).map Value.sorted := by
  rw [lookup?_putAll, sortedMembers_eq_map, ← List.map_reverse]
  exact lookup?_map Value.sorted name ms.reverse

/-- A member that counts is one of the members. -/
theorem mem_of_valueOf? {name : String} {x : Value} {ms : List (String × Value)}
    (counts : valueOf? name ms = some x) : (name, x) ∈ ms :=
  List.mem_reverse.mp (mem_of_lookup? counts)

/-- **Equal values are sorted alike.** -/
theorem sorted_eq_of_equal {a b : Value} (equal : a.Equal b) : a.sorted = b.sorted := by
  induction equal with
  | null | bool | number | text => rfl
  | array length _ ih =>
    rw [Value.sorted, Value.sorted, sortedItems_eq_map, sortedItems_eq_map]
    refine congrArg Value.array (List.ext_getElem ?_ ?_)
    · rw [List.length_map, List.length_map, length]
    · intro i first second
      rw [List.length_map] at first second
      rw [List.getElem_map, List.getElem_map]
      exact ih i _ _ (List.getElem?_eq_getElem first) (List.getElem?_eq_getElem second)
  | object names _ ih =>
    -- two maps are compared by what is found in them
    rw [Value.sorted, Value.sorted, Value.ofMembers, Value.ofMembers]
    refine congrArg Value.object ((putAll_ordered _).ext (putAll_ordered _) ?_)
    intro name
    rw [lookup?_sorted, lookup?_sorted]
    have both := names name
    cases first : valueOf? name _ with
    | none =>
      rw [first] at both
      rw [Option.not_isSome_iff_eq_none.mp (Bool.eq_false_iff.mp both.symm)]
    | some x =>
      rw [first] at both
      obtain ⟨y, second⟩ := Option.isSome_iff_exists.mp both.symm
      rw [second, Option.map_some, Option.map_some, ih name x y first second]

mutual

/-- **Values that are sorted alike are equal.** By recursion on the value, its items and its
members. -/
theorem equal_of_sorted_eq : (a : Value) → {b : Value} → a.sorted = b.sorted → a.Equal b
  | .null, b, same => by
    cases b <;> cases same
    exact .null
  | .bool v, b, same => by
    cases b <;> cases same
    exact .bool v
  | .number n, b, same => by
    cases b <;> cases same
    exact .number n
  | .text s, b, same => by
    cases b <;> cases same
    exact .text s
  | .array xs, b, same => by
    cases b with
    | array ys =>
      have items : Value.sortedItems xs = Value.sortedItems ys := Value.array.inj same
      rw [sortedItems_eq_map, sortedItems_eq_map] at items
      refine .array (by simpa using congrArg List.length items) fun i x y first second => ?_
      refine equal_items xs x (List.mem_of_getElem? first) y ?_
      have there := congrArg (·[i]?) items
      simpa [List.getElem?_map, first, second] using there
    | _ => cases same
  | .object ms, b, same => by
    cases b with
    | object ms' =>
      have members : putAll (Value.sortedMembers ms) = putAll (Value.sortedMembers ms') :=
        Value.object.inj same
      -- what counts for a name is one of the members, so that the recursion reaches it
      have found (name : String) : (valueOf? name ms).map Value.sorted =
          (valueOf? name ms').map Value.sorted := by
        rw [← lookup?_sorted, ← lookup?_sorted, members]
      refine .object (fun name => ?_) fun name x y first second => ?_
      · have both := congrArg Option.isSome (found name)
        rwa [Option.isSome_map, Option.isSome_map] at both
      · have both := found name
        rw [first, second] at both
        exact equal_members ms _ (mem_of_valueOf? first) y (Option.some.inj both)
    | _ => cases same

theorem equal_items : (xs : List Value) → ∀ x ∈ xs, ∀ y, x.sorted = y.sorted → x.Equal y
  | [], _, member, _, _ => by cases member
  | z :: zs, x, member, y, same => by
    rcases List.mem_cons.mp member with here | later
    · rw [here] at same ⊢
      exact equal_of_sorted_eq z same
    · exact equal_items zs x later y same

theorem equal_members : (ms : List (String × Value)) → ∀ m ∈ ms, ∀ y, m.2.sorted = y.sorted →
    m.2.Equal y
  | [], _, member, _, _ => by cases member
  | (name, z) :: rest, m, member, y, same => by
    rcases List.mem_cons.mp member with here | later
    · rw [here] at same ⊢
      exact equal_of_sorted_eq z same
    · exact equal_members rest m later y same

end

/-- **Sorting makes one value of all that are equal.** -/
theorem equal_iff_sorted_eq {a b : Value} : a.Equal b ↔ a.sorted = b.sorted :=
  ⟨sorted_eq_of_equal, equal_of_sorted_eq a⟩

/-! ## Sorted values -/

mutual

/-- Nothing is left to be sorted in a sorted value. -/
theorem sorted_sorted : (v : Value) → v.sorted.sorted = v.sorted
  | .null | .bool _ | .number _ | .text _ => rfl
  | .array xs => by
    rw [Value.sorted, Value.sorted, sortedItems_eq_map (Value.sortedItems xs)]
    have inside := List.map_congr_left (sorted_of_mem_sortedItems xs)
    rw [inside, List.map_id']
  | .object ms => by
    have inside : ∀ m ∈ putAll (Value.sortedMembers ms), (m.1, m.2.sorted) = m := fun m member =>
      Prod.ext rfl (sorted_of_mem_sortedMembers ms m (mem_of_mem_putAll member))
    rw [Value.sorted, Value.ofMembers, Value.sorted, Value.ofMembers, sortedMembers_eq_map (putAll _),
      List.map_congr_left inside, List.map_id', putAll_of_ordered (putAll_ordered _)]

/-- The items of a sorted value are sorted. -/
theorem sorted_of_mem_sortedItems : (xs : List Value) → ∀ x ∈ Value.sortedItems xs, x.sorted = x
  | [], _, member => by cases member
  | y :: ys, x, member => by
    rcases List.mem_cons.mp member with rfl | later
    · exact sorted_sorted y
    · exact sorted_of_mem_sortedItems ys x later

/-- The members of a sorted value are sorted. -/
theorem sorted_of_mem_sortedMembers : (ms : List (String × Value)) →
    ∀ m ∈ Value.sortedMembers ms, m.2.sorted = m.2
  | [], _, member => by cases member
  | (name, y) :: rest, m, member => by
    rcases List.mem_cons.mp member with rfl | later
    · exact sorted_sorted y
    · exact sorted_of_mem_sortedMembers rest m later

end

mutual

/-- Sorting makes no number that was whole anything else. -/
theorem whole_sorted : (v : Value) → v.Whole → v.sorted.Whole
  | .null, _ | .bool _, _ | .text _, _ => trivial
  | .number _, whole => whole
  | .array xs, whole => whole_sortedItems xs whole
  | .object ms, whole => by
    rw [Value.sorted, Value.ofMembers]
    refine wholeMembers_iff.mpr fun m member => ?_
    exact wholeMembers_iff.mp (whole_sortedMembers ms whole) m (mem_of_mem_putAll member)

theorem whole_sortedItems : (xs : List Value) → wholeItems xs → wholeItems (Value.sortedItems xs)
  | [], _ => trivial
  | x :: xs, whole => ⟨whole_sorted x whole.1, whole_sortedItems xs whole.2⟩

theorem whole_sortedMembers : (ms : List (String × Value)) → wholeMembers ms →
    wholeMembers (Value.sortedMembers ms)
  | [], _ => trivial
  | (_, x) :: rest, whole => ⟨whole_sorted x whole.1, whole_sortedMembers rest whole.2⟩

end

/-! ## Compact texts -/

mutual

/-- A value can be read off its tree. -/
theorem Tree.ofValue_injective : (a : Value) → {b : Value} → Tree.ofValue a = Tree.ofValue b → a = b
  | .null, b, same | .bool _, b, same | .number _, b, same | .text _, b, same => by
    cases b <;> cases same
    rfl
  | .array xs, b, same => by
    cases b with
    | array ys => rw [ofValues_injective xs (Tree.array.inj same).1]
    | _ => cases same
  | .object ms, b, same => by
    cases b with
    | object ms' => rw [ofMembers_injective ms (Tree.object.inj same).1]
    | _ => cases same

theorem ofValues_injective : (xs : List Value) → {ys : List Value} →
    Tree.ofValues xs = Tree.ofValues ys → xs = ys
  | [], ys, same => by
    cases ys <;> cases same
    rfl
  | x :: xs, ys, same => by
    cases ys with
    | nil => cases same
    | cons y ys =>
      obtain ⟨first, later⟩ := List.cons.inj same
      rw [Tree.ofValue_injective x first, ofValues_injective xs later]

theorem ofMembers_injective : (ms : List (String × Value)) → {ms' : List (String × Value)} →
    Tree.ofMembers ms = Tree.ofMembers ms' → ms = ms'
  | [], ms', same => by
    cases ms' <;> cases same
    rfl
  | (name, x) :: ms, ms', same => by
    cases ms' with
    | nil => cases same
    | cons m ms' =>
      obtain ⟨first, later⟩ := List.cons.inj same
      obtain ⟨names, values⟩ := Prod.mk.inj first
      rw [Option.some.inj names, Tree.ofValue_injective x values, ofMembers_injective ms later]

end

/-- **The compact text tells which value it is**, since it can be read back. -/
theorem compact_injective {a b : Value} (whole : a.Whole) (whole' : b.Whole)
    (same : a.compact = b.compact) : a = b := by
  have read := ofText_compact whole
  rw [same, ofText_compact whole'] at read
  exact (Tree.ofValue_injective b (Document.mk.inj read).1).symm

end CompilerSession.Json
