import CompilerSession.Proofs.Json.Nesting
import CompilerSession.Proofs.Settings.Spelling
import CompilerSession.Server.Message

/-
The lines of clients, with their ids and parameters.

A line is an object or a list, with an id, a method and parameters, and of the parameters of a
cancellation one is again an id. The id of a line is read from its text. The parameters are read
from the text without looking into them, and the command is read once more from the value that this
made, where the room for containers does not count any more. On both ways an id comes out as the
value that was written, with its members in order, or the line is refused because something in it is
nested too deep; and nothing else in the line makes a difference to the id.
-/

set_option autoImplicit false

namespace CompilerSession

open Json (Document Foreign Name Scope Tree Value fieldOf? ok_eq_ok_iff reads_foreign_iff
  reads_nil_iff valueOf?)

/-! ## Lines -/

namespace Envelope

/-- **The line has this id, this method and these parameters**: as the members of an object, in any
order and with others between them, or as the items of a list. An object may have no id. -/
inductive Spelled (line : String) : Option Value → String → Value → Prop where
  | object {ms others : List (Name × Tree)} {id : Option Value} {method : String} {params : Value}
      (object : IsObject line ms)
      (members : ms.Perm (others ++ Tree.ofMembers (Value.member? "id" (·) id ++
        [("method", .text method), ("params", params)])))
      (foreign : ∀ m ∈ others, ∃ key, m.1 = some key ∧ key ∉ ["id", "method", "params"] ∧
        m.2.isSound = true) :
      Spelled line id method params
  | list {id params : Value} {method : String}
      (list : Document.ofText line.toList =
        ⟨Tree.ofValue (.array [id, .text method, params]), false⟩) :
      Spelled line (some id) method params

/-- Inside a line there is room for what is less deep than the limit. -/
theorem hasRoom_within {n : Nat} : (within 1).HasRoom n ↔ n < Json.depthLimit := by
  constructor
  · intro room
    exact Nat.lt_succ_of_le (room _ rfl)
  · rintro small left is
    obtain rfl := Option.some.inj is
    exact Nat.le_of_lt_succ small

/-- What an envelope knows of a line: each of the three fields has a place of its own. -/
theorem stores_id :
    Json.Stores shape.fields[0] Json.anyValue fun x d => { d with id := some x } :=
  fun _ _ _ => rfl

theorem stores_method :
    Json.Stores shape.fields[1] Json.text fun x d => { d with method := some x } :=
  fun _ _ _ => rfl

theorem stores_params :
    Json.Stores shape.fields[2] Json.anyValue fun x d => { d with params := some x } :=
  fun _ _ _ => rfl

/-- The fields of a line may come in any order. -/
theorem independent_fields (scope : Scope) : Json.Independent shape.fields scope :=
  Json.independent_of_stores stores_id stores_method stores_params (fun _ _ _ => rfl)
    (fun _ _ _ => rfl) (fun _ _ _ => rfl)

/-- A value inside a line is read if it is not too deep. -/
theorem anyValue_within_iff (v x : Value) : Json.anyValue (within 1) (Tree.ofValue v) = .ok x ↔
    v.depth < Json.depthLimit ∧ x = v.sorted := by
  rw [Json.anyValue_ofValue_iff, hasRoom_within]

theorem text_within_iff (s x : String) : Json.text (within 1) (Tree.ofValue (.text s)) = .ok x ↔
    True ∧ x = s :=
  ok_eq_ok_iff

/-- What is read of the members of a line. -/
theorem reads_line_iff {id : Option Value} {method : String} {params : Value} {d : Draft} :
    Json.Reads shape.fields (within 1) [] (Tree.ofMembers (Value.member? "id" (·) id ++
        [("method", .text method), ("params", params)])) shape.start d ↔
      ((id.getD .null).depth < Json.depthLimit ∧ params.depth < Json.depthLimit) ∧
        d = ⟨id.map Value.sorted, some method, some params.sorted⟩ := by
  have first : fieldOf? shape.fields "id" = some shape.fields[0] := rfl
  have second : fieldOf? shape.fields "method" = some shape.fields[1] := rfl
  have third : fieldOf? shape.fields "params" = some shape.fields[2] := rfl
  -- the id may be left out, and then it is null
  cases id with
  | none =>
    rw [Value.member?, List.nil_append, Tree.ofMembers, Tree.ofMembers, Tree.ofMembers,
      stores_method.reads_iff (text_within_iff method) second,
      stores_params.reads_iff (anyValue_within_iff params) third, reads_nil_iff]
    constructor
    · rintro ⟨-, -, -, room, rfl⟩
      exact ⟨⟨by decide, room⟩, rfl⟩
    · rintro ⟨⟨-, room⟩, rfl⟩
      exact ⟨by decide, trivial, by decide, room, rfl⟩
  | some id =>
    rw [Value.member?, List.singleton_append, Tree.ofMembers, Tree.ofMembers, Tree.ofMembers,
      Tree.ofMembers, stores_id.reads_iff (anyValue_within_iff id) first,
      stores_method.reads_iff (text_within_iff method) second,
      stores_params.reads_iff (anyValue_within_iff params) third, reads_nil_iff]
    constructor
    · rintro ⟨-, own, -, -, -, room, rfl⟩
      exact ⟨⟨own, room⟩, rfl⟩
    · rintro ⟨⟨own, room⟩, rfl⟩
      exact ⟨by decide, own, by decide, trivial, by decide, room, rfl⟩

/-- What is read of the items of a line that is a list. -/
theorem readItems_line_iff {id params : Value} {method : String} {d : Draft} :
    shape.readItems (within 1) true 0 shape.fields
        [Tree.ofValue id, Tree.ofValue (.text method), Tree.ofValue params] shape.start =
          .ok (d, 0) ↔
      (id.depth < Json.depthLimit ∧ params.depth < Json.depthLimit) ∧
        d = ⟨some id.sorted, some method, some params.sorted⟩ := by
  have fields : shape.fields = [shape.fields[0], shape.fields[1], shape.fields[2]] := rfl
  rw [fields, stores_id.readItems_iff (anyValue_within_iff id),
    stores_method.readItems_iff (text_within_iff method),
    stores_params.readItems_iff (anyValue_within_iff params)]
  constructor
  · rintro ⟨own, -, room, done⟩
    exact ⟨⟨own, room⟩, (Prod.mk.inj (Except.ok.inj done)).1.symm⟩
  · rintro ⟨⟨own, room⟩, rfl⟩
    exact ⟨own, trivial, room, rfl⟩

/-- What an envelope makes of its fields. -/
theorem finish_iff {id : Option Value} {method : String} {params : Value} {P : Prop}
    {e : Envelope} :
    (∃ d, (P ∧ d = ⟨id.map Value.sorted, some method, some params.sorted⟩) ∧
      shape.finish d = .ok e) ↔ P ∧ e = ⟨(id.getD .null).sorted, method, params.sorted⟩ := by
  have same : shape.finish ⟨id.map Value.sorted, some method, some params.sorted⟩ =
      .ok ⟨(id.getD .null).sorted, method, params.sorted⟩ := by
    cases id <;> rfl
  constructor
  · rintro ⟨_, ⟨holds, rfl⟩, finished⟩
    exact ⟨holds, Except.ok.inj (finished.symm.trans same)⟩
  · rintro ⟨holds, rfl⟩
    exact ⟨_, ⟨holds, rfl⟩, same⟩

/-- **What is read of a line**: if there is room, the id and the parameters with their members in
order. -/
theorem Spelled.parse_iff {line method : String} {id : Option Value} {params : Value}
    (spelled : Spelled line id method params) {e : Envelope} :
    parse line = .ok e ↔
      ((id.getD .null).depth < Json.depthLimit ∧ params.depth < Json.depthLimit) ∧
        e = ⟨(id.getD .null).sorted, method, params.sorted⟩ := by
  have enter : Scope.ofText.enter = .ok (within 1) := rfl
  have whole {t : Tree} (text : Document.ofText line.toList = ⟨t, false⟩) :
      parse line = shape.decode .ofText t := by
    rw [parse, Json.decodeText, text]
    exact bind_pure _
  cases spelled with
  | object object members foreign =>
    have others : Foreign shape.fields _ := fun m member => by
      obtain ⟨key, name, unknown, sound⟩ := foreign m member
      refine ⟨key, name, Json.fieldOf?_eq_none fun group names own => unknown ?_, sound⟩
      exact List.mem_flatten.mpr ⟨group, names, own⟩
    -- the members may as well stand in the order of the fields, behind what belongs to none
    have order (d : Draft) : Json.Reads shape.fields (within 1) [] _ shape.start d ↔ _ :=
      ⟨Json.Reads.perm (independent_fields _) members,
        Json.Reads.perm (independent_fields _) members.symm⟩
    rw [whole object, Json.Shape.decode_eq_ok_iff enter, and_iff_right rfl]
    simp only [order, reads_foreign_iff others, reads_line_iff]
    exact finish_iff
  | @list id _ _ list =>
    rw [whole list, Tree.ofValue, Json.Shape.decode_list_iff enter]
    simp only [Tree.ofValues, readItems_line_iff]
    exact @finish_iff (some id) ..

end Envelope

/-! ## Parameters of a cancellation -/

namespace Command

/-- **The parameters name an id to be cancelled**: under one of two names and not under the other,
or as the only item of a list. -/
inductive Designates : Value → Value → Prop where
  | member {ms : List (String × Value)} {key other : String} {id : Value}
      (names : [key, other].Perm ["id", "request_id"]) (given : valueOf? key ms = some id)
      (once : valueOf? other ms = none) : Designates (.object ms) id
  | item {id : Value} : Designates (.array [id]) id

/-- What parameters name is less deep than they are. -/
theorem Designates.depth_lt {params id : Value} (named : Designates params id) :
    id.depth < params.depth := by
  cases named with
  | member names given once =>
    have inside := Json.depthMembers_le_iff.mp (Nat.le_refl _) _ (Json.mem_of_valueOf? given)
    exact Nat.lt_succ_of_le inside
  | item => exact Nat.lt_succ_of_le (Nat.le_max_left _ _)

theorem stores_target : Json.Stores cancelShape.fields[0] Json.anyValue fun x _ => some x :=
  fun _ _ _ => rfl

/-- A value that was read once is read again. -/
theorem anyValue_again_iff (v x : Value) :
    Json.anyValue .ofValue (Tree.ofValue v.sorted) = .ok x ↔ True ∧ x = v.sorted := by
  rw [Json.anyValue_sorted rfl, ok_eq_ok_iff]

/-- Members with other names than those of the id belong to no field. -/
theorem foreign_of_names {key other : String} (names : [key, other].Perm ["id", "request_id"])
    {ms : List (String × Value)} (apart : ∀ m ∈ ms, m.1 ≠ key ∧ m.1 ≠ other) :
    Foreign cancelShape.fields (Tree.ofMembers ms) := by
  rw [Json.Tree.ofMembers_eq_map]
  refine List.forall_mem_map.mpr fun m member => ⟨m.1, rfl, ?_, Json.isSound_ofValue m.2⟩
  refine Json.fieldOf?_eq_none fun group listed own => ?_
  obtain rfl : group = ["id", "request_id"] := List.mem_singleton.mp listed
  have either := names.mem_iff.mpr own
  rw [List.mem_pair] at either
  exact either.elim (apart m member).1 (apart m member).2

/-- **The parameters of a cancellation are read** as the id that they name. -/
theorem decode_designated {params id : Value} (named : Designates params id) :
    Json.decodeValue cancelShape.decode params.sorted = .ok id.sorted := by
  have enter : Scope.ofValue.enter = .ok .ofValue := rfl
  cases named with
  | @member ms key other id names given once =>
    have ordered := Json.putAll_ordered (Value.sortedMembers ms)
    have found := Json.lookup?_sorted key ms
    have missing := Json.lookup?_sorted other ms
    rw [given, Option.map_some] at found
    rw [once, Option.map_none] at missing
    rw [Json.decodeValue, Value.sorted, Value.ofMembers, Tree.ofValue,
      Json.Shape.decode_eq_ok_iff enter]
    generalize Json.putAll (Value.sortedMembers ms) = sorted at ordered found missing ⊢
    -- in order, the id stands between two parts that belong to no field
    obtain ⟨before, after, rfl, others⟩ := ordered.split found
    have apart : ∀ m ∈ before ++ after, m.1 ≠ key ∧ m.1 ≠ other := by
      intro m member
      obtain ⟨inside, different⟩ := others m member
      refine ⟨different, ?_⟩
      rintro rfl
      rw [ordered.lookup?_eq_some_iff.mpr inside] at missing
      cases missing
    have foreign := foreign_of_names names apart
    rw [Json.Tree.ofMembers_append] at foreign
    obtain ⟨first, later⟩ := List.forall_mem_append.mp foreign
    have known : fieldOf? cancelShape.fields key = some cancelShape.fields[0] := by
      refine Json.fieldOf?_of_mem (by decide) List.mem_cons_self ?_
      exact names.subset List.mem_cons_self
    refine ⟨rfl, some id.sorted, ?_, rfl⟩
    rw [Json.Tree.ofMembers_append, Tree.ofMembers, reads_foreign_iff first,
      stores_target.reads_iff (anyValue_again_iff id) known, ← List.append_nil (Tree.ofMembers after),
      reads_foreign_iff later]
    exact ⟨nofun, trivial, .done⟩
  | item =>
    rw [Json.decodeValue, Value.sorted, Tree.ofValue, Json.Shape.decode_list_iff enter]
    exact ⟨_, (stores_target.readItems_iff (anyValue_again_iff id)).mpr ⟨trivial, rfl⟩, rfl⟩

/-- The parameters of a cancellation make up the command to cancel the id that they name. -/
theorem parse_designated {params id : Value} (named : Designates params id) :
    parse "cancel" params.sorted = .ok (.cancel id.sorted) := by
  -- neither an object nor a list is taken for missing parameters
  have given : parse "cancel" params.sorted =
      ((Json.decodeValue cancelShape.decode params.sorted).mapError fun fault =>
        "invalid params for cancel: " ++ fault.message).map cancel := by
    cases named <;> rfl
  rw [given, decode_designated named]
  rfl

end Command

end CompilerSession
