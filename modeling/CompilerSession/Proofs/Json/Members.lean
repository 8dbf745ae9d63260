import CompilerSession.Json.Decode
import Mathlib.Data.List.Basic
import Mathlib.Data.List.Flatten
import Mathlib.Data.List.Lattice
import Mathlib.Data.List.Nodup
import Mathlib.Data.List.Pairwise

/-
Records from objects whose members come in any order.

A record is read from the members of an object as they come, and each of its fields may go by
several names. `Reads` says this without the names: a member belongs to one field or to none, a
field is stored once, and what belongs to none is skipped. As long as storing one field does not
touch another (`Independent`), it does not matter in which order this is done (`Reads.perm`).

`Rephrased` is what may be done to the members of an object without saying anything else by it:
they may be put in another order, a field may be given under another of its names, and members may
be added that nobody asks for. None of it changes the record (`Reads.rephrased`). What may not be
done is to give a field twice, under whatever names (`Reads.not_givenTwice`).
-/

set_option autoImplicit false

namespace CompilerSession.Json

/-- A reader that goes on succeeds if both parts do. -/
theorem bind_eq_ok_iff {α β : Type} {x : Except Fault α} {f : α → Except Fault β} {b : β} :
    x >>= f = .ok b ↔ ∃ a, x = .ok a ∧ f a = .ok b := by
  cases x with
  | error fault => exact iff_of_false nofun nofun
  | ok a =>
    refine ⟨fun h => ⟨a, rfl, h⟩, ?_⟩
    rintro ⟨a', same, h⟩
    obtain rfl := Except.ok.inj same
    exact h

theorem ok_eq_ok_iff {α : Type} {a b : α} : (.ok a : Except Fault α) = .ok b ↔ True ∧ b = a := by
  rw [Except.ok.injEq, true_and, eq_comm]

/-- What is read and then changed succeeds if it is read. -/
theorem map_eq_ok_iff {α β : Type} {x : Except Fault α} {f : α → β} {b : β} :
    x.map f = .ok b ↔ ∃ a, x = .ok a ∧ f a = b := by
  cases x with
  | error fault => exact iff_of_false nofun nofun
  | ok a =>
    refine ⟨fun h => ⟨a, rfl, Except.ok.inj h⟩, ?_⟩
    rintro ⟨a', same, rfl⟩
    obtain rfl := Except.ok.inj same
    rfl

/-! ## Members that can be read -/

/-- The name of a member is a text, and its value has a property. -/
def Named (P : Tree → Prop) (m : Name × Tree) : Prop :=
  (∃ name, m.1 = some name) ∧ P m.2

/-- The tree is a value, with no more than so many containers open around and in it. -/
def Parseable (scope : Scope) (t : Tree) : Prop :=
  ∃ v, anyValue scope t = .ok v

theorem nameText_eq_ok_iff {name : Name} {key : String} :
    nameText name = .ok key ↔ name = some key := by
  cases name with
  | none => exact iff_of_false nofun nofun
  | some name => rw [nameText, Except.ok.injEq, Option.some.injEq]

/-- Members that nobody asks for can be read if all have names and values that can be read. -/
theorem anyMembers_ok_iff {scope : Scope} {ms : List (Name × Tree)} :
    (∃ xs, anyMembers scope ms = .ok xs) ↔ ∀ m ∈ ms, Named (Parseable scope) m := by
  induction ms with
  | nil => exact iff_of_true ⟨[], rfl⟩ nofun
  | cons m ms ih =>
    obtain ⟨name, t⟩ := m
    rw [List.forall_mem_cons, ← ih, anyMembers]
    simp only [bind_eq_ok_iff, nameText_eq_ok_iff]
    constructor
    · rintro ⟨_, key, rfl, v, value, xs, values, -⟩
      exact ⟨⟨⟨key, rfl⟩, v, value⟩, xs, values⟩
    · rintro ⟨⟨⟨key, named⟩, v, value⟩, xs, values⟩
      exact ⟨_, key, named, v, value, xs, values, rfl⟩

/-- An object can be read if its members can, one level further down. -/
theorem parseable_object_iff {scope inner : Scope} (enter : scope.enter = .ok inner)
    {ms : List (Name × Tree)} :
    Parseable scope (.object ms true) ↔ ∀ m ∈ ms, Named (Parseable inner) m := by
  rw [← anyMembers_ok_iff, Parseable]
  simp only [anyValue, enter, bind_eq_ok_iff]
  constructor
  · rintro ⟨_, _, same, xs, members, -⟩
    obtain rfl := Except.ok.inj same
    exact ⟨xs, members⟩
  · rintro ⟨xs, members⟩
    exact ⟨_, inner, rfl, xs, members, rfl⟩

theorem membersSound_iff {ms : List (Name × Tree)} :
    Tree.membersSound ms = true ↔ ∀ m ∈ ms, m.2.isSound = true := by
  induction ms with
  | nil => exact iff_of_true rfl nofun
  | cons m ms ih => rw [List.forall_mem_cons, ← ih, Tree.membersSound, Bool.and_eq_true]

mutual

/-- **What has a value has no fault in its text.** -/
theorem isSound_of_anyValue {scope : Scope} {v : Value} : (t : Tree) →
    anyValue scope t = .ok v → t.isSound = true
  | .null, _ | .bool _, _ | .number _, _ | .text _, _ => rfl
  | .tooLarge, h | .halfPair, h | .broken, h => by cases h
  | .array ts closed, h => by
    rw [anyValue] at h
    simp only [bind_eq_ok_iff] at h
    obtain ⟨inner, -, vs, values, h⟩ := h
    cases closed with
    | false => cases h
    | true => rw [Tree.isSound, areSound_of_anyValues ts values, Bool.and_true]
  | .object ms closed, h => by
    rw [anyValue] at h
    simp only [bind_eq_ok_iff] at h
    obtain ⟨inner, -, vs, values, h⟩ := h
    cases closed with
    | false => cases h
    | true => rw [Tree.isSound, membersSound_of_anyMembers ms values, Bool.and_true]

/-- What can be read is sound. -/
theorem areSound_of_anyValues {scope : Scope} {vs : List Value} : (ts : List Tree) →
    anyValues scope ts = .ok vs → Tree.areSound ts = true
  | [], _ => rfl
  | t :: ts, h => by
    rw [anyValues] at h
    simp only [bind_eq_ok_iff] at h
    obtain ⟨v, value, vs', values, -⟩ := h
    rw [Tree.areSound, isSound_of_anyValue t value, areSound_of_anyValues ts values, Bool.and_true]

theorem membersSound_of_anyMembers {scope : Scope} {vs : List (String × Value)} :
    (ms : List (Name × Tree)) → anyMembers scope ms = .ok vs → Tree.membersSound ms = true
  | [], _ => rfl
  | (name, t) :: ms, h => by
    rw [anyMembers] at h
    simp only [bind_eq_ok_iff] at h
    obtain ⟨key, -, v, value, vs', values, -⟩ := h
    rw [Tree.membersSound, isSound_of_anyValue t value, membersSound_of_anyMembers ms values,
      Bool.and_true]

end

/-! ## Reading the members of an object -/

/-- The names of the fields of a record. -/
def fieldNames {σ : Type} (fields : List (Member σ)) : List (List String) :=
  fields.map fun f => f.name :: f.aliases

/-- The field that a name belongs to. -/
def fieldOf? {σ : Type} (fields : List (Member σ)) (key : String) : Option (Member σ) :=
  fields.find? (·.answersTo key)

section Reads

variable {σ : Type} {fields : List (Member σ)} {scope : Scope}

/-- **How members make a record.** A field is stored when its member is met, and is then among the
fields that have been seen. -/
inductive Reads (fields : List (Member σ)) (scope : Scope) :
    List String → List (Name × Tree) → σ → σ → Prop where
  | done {seen : List String} {s : σ} : Reads fields scope seen [] s s
  | field {seen : List String} {key : String} {t : Tree} {rest : List (Name × Tree)}
      {f : Member σ} {s s' r : σ} : fieldOf? fields key = some f → f.name ∉ seen →
      f.store scope t s = .ok s' → Reads fields scope (f.name :: seen) rest s' r →
      Reads fields scope seen ((some key, t) :: rest) s r
  | other {seen : List String} {key : String} {t : Tree} {rest : List (Name × Tree)} {s r : σ} :
      fieldOf? fields key = none → t.isSound = true → Reads fields scope seen rest s r →
      Reads fields scope seen ((some key, t) :: rest) s r

/-- **The members are read** as `Reads` says, which keeps track of the names that were seen. -/
theorem readMembers_eq_ok_iff {seen : List String} {ms : List (Name × Tree)} {s r : σ} :
    Shape.readMembers fields scope seen ms s = .ok r ↔ Reads fields scope seen ms s r := by
  constructor
  -- from left to right by induction on the members, back by induction on how they are read
  · intro h
    induction ms generalizing seen s with
    | nil =>
      obtain rfl := Except.ok.inj h
      exact .done
    | cons m ms ih =>
      obtain ⟨name, t⟩ := m
      rw [Shape.readMembers, bind_eq_ok_iff] at h
      obtain ⟨key, named, h⟩ := h
      obtain rfl := nameText_eq_ok_iff.mp named
      split at h
      · rename_i f known
        split at h
        · cases h
        · rename_i unseen
          obtain ⟨s', stored, h⟩ := bind_eq_ok_iff.mp h
          exact .field known (by simpa using unseen) stored (ih h)
      · rename_i unknown
        rw [skip] at h
        obtain ⟨u, skipped, h⟩ := bind_eq_ok_iff.mp h
        split at skipped
        · rename_i sound
          exact .other unknown sound (ih h)
        · cases skipped
  · intro h
    induction h with
    | done => rfl
    | field known unseen stored _ ih =>
      rw [fieldOf?] at known
      rw [Shape.readMembers]
      refine bind_eq_ok_iff.mpr ⟨_, rfl, ?_⟩
      rw [known]
      dsimp only
      rw [if_neg (by simpa using unseen)]
      exact bind_eq_ok_iff.mpr ⟨_, stored, ih⟩
    | other unknown sound _ ih =>
      rw [fieldOf?] at unknown
      rw [Shape.readMembers]
      refine bind_eq_ok_iff.mpr ⟨_, rfl, ?_⟩
      rw [unknown]
      exact bind_eq_ok_iff.mpr ⟨(), by rw [skip, if_pos sound], ih⟩

theorem reads_nil_iff {seen : List String} {s r : σ} : Reads fields scope seen [] s r ↔ s = r := by
  constructor
  · rintro ⟨⟩
    rfl
  · rintro rfl
    exact .done

/-- A field is read if its name is new and its value can be stored. -/
theorem reads_field_iff {key : String} {f : Member σ} (known : fieldOf? fields key = some f)
    {seen : List String} {t : Tree} {rest : List (Name × Tree)} {s r : σ} :
    Reads fields scope seen ((some key, t) :: rest) s r ↔
      f.name ∉ seen ∧ ∃ s', f.store scope t s = .ok s' ∧
        Reads fields scope (f.name :: seen) rest s' r := by
  constructor
  · intro reads
    cases reads with
    | field known' unseen stored more =>
      obtain rfl := Option.some.inj (known.symm.trans known')
      exact ⟨unseen, _, stored, more⟩
    | other unknown => cases known.symm.trans unknown
  · rintro ⟨unseen, s', stored, more⟩
    exact .field known unseen stored more

/-- **The members belong to no field**, and there is no fault in their texts. -/
def Foreign (fields : List (Member σ)) (ms : List (Name × Tree)) : Prop :=
  ∀ m ∈ ms, ∃ key, m.1 = some key ∧ fieldOf? fields key = none ∧ m.2.isSound = true

/-- Members that belong to no field might as well not be there. -/
theorem reads_foreign_iff {others : List (Name × Tree)} (foreign : Foreign fields others)
    {seen : List String} {rest : List (Name × Tree)} {s r : σ} :
    Reads fields scope seen (others ++ rest) s r ↔ Reads fields scope seen rest s r := by
  induction others with
  | nil => exact Iff.rfl
  | cons m others ih =>
    obtain ⟨name, t⟩ := m
    obtain ⟨⟨key, rfl, unknown, sound⟩, later⟩ := List.forall_mem_cons.mp foreign
    rw [List.cons_append, ← ih later]
    constructor
    · intro reads
      cases reads with
      | field known => cases unknown.symm.trans known
      | other _ _ more => exact more
    · exact .other unknown sound

/-- **An object is decoded** if its members are read and what they come to is complete. -/
theorem Shape.decode_eq_ok_iff {α : Type} {shape : Shape σ α} {inner : Scope}
    (enter : scope.enter = .ok inner) {ms : List (Name × Tree)} {closed : Bool} {x : α} :
    shape.decode scope (.object ms closed) = .ok x ↔
      closed = true ∧
        ∃ s, Reads shape.fields inner [] ms shape.start s ∧ shape.finish s = .ok x := by
  have decoded : shape.decode scope (.object ms closed) = (do
      let inner ← scope.enter
      let s ← Shape.readMembers shape.fields inner [] ms shape.start
      if closed then shape.finish s else throw .malformed) := rfl
  rw [decoded, enter, bind_eq_ok_iff]
  simp only [bind_eq_ok_iff, readMembers_eq_ok_iff]
  constructor
  · rintro ⟨_, same, s, reads, done⟩
    obtain rfl := Except.ok.inj same
    cases closed with
    | false => cases done
    | true => exact ⟨rfl, s, reads, done⟩
  · rintro ⟨rfl, s, reads, done⟩
    exact ⟨inner, rfl, s, reads, done⟩

/-- **A record from a list**, of which no item is left over. -/
theorem Shape.decode_list_iff {α : Type} {shape : Shape σ α} {inner : Scope}
    (enter : scope.enter = .ok inner) {ts : List Tree} {x : α} :
    shape.decode scope (.array ts true) = .ok x ↔
      ∃ s, shape.readItems inner true 0 shape.fields ts shape.start = .ok (s, 0) ∧
        shape.finish s = .ok x := by
  constructor
  · intro decoded
    obtain ⟨inner', entered, decoded⟩ := bind_eq_ok_iff.mp decoded
    obtain rfl := Except.ok.inj (enter.symm.trans entered)
    obtain ⟨⟨s, left⟩, items, decoded⟩ := bind_eq_ok_iff.mp decoded
    obtain ⟨x', finished, decoded⟩ := bind_eq_ok_iff.mp decoded
    cases left with
    | zero =>
      obtain rfl : x' = x := Except.ok.inj decoded
      exact ⟨s, items, finished⟩
    | succ left => cases decoded
  · rintro ⟨s, items, finished⟩
    refine bind_eq_ok_iff.mpr ⟨inner, enter, bind_eq_ok_iff.mpr ⟨(s, 0), items, ?_⟩⟩
    exact bind_eq_ok_iff.mpr ⟨x, finished, rfl⟩

/-- **Two fields do not touch each other**: storing one and then the other makes the same record as
the other way round. -/
def Exchange (scope : Scope) (f g : Member σ) : Prop :=
  ∀ (t u : Tree) (s s₁ r : σ), f.store scope t s = .ok s₁ → g.store scope u s₁ = .ok r →
    ∃ s₂, g.store scope u s = .ok s₂ ∧ f.store scope t s₂ = .ok r

/-- **No field touches another.** -/
def Independent (fields : List (Member σ)) (scope : Scope) : Prop :=
  ∀ f ∈ fields, ∀ g ∈ fields, f.name ≠ g.name → Exchange scope f g

/-- The field of a name is one of the fields. -/
theorem mem_of_fieldOf? {key : String} {f : Member σ} (known : fieldOf? fields key = some f) :
    f ∈ fields :=
  List.mem_of_find?_eq_some known

/-- What can be read after some names can be read after fewer. -/
theorem Reads.seen_subset {seen seen' : List String} {ms : List (Name × Tree)} {s r : σ}
    (h : Reads fields scope seen ms s r) (fewer : seen' ⊆ seen) :
    Reads fields scope seen' ms s r := by
  induction h generalizing seen' with
  | done => exact .done
  | field known unseen stored _ ih =>
    exact .field known (fun seen => unseen (fewer seen)) stored (ih (List.cons_subset_cons _ fewer))
  | other unknown sound _ ih => exact .other unknown sound (ih fewer)

/-- Two members that follow each other may change places. -/
theorem Reads.swap (independent : Independent fields scope) {seen : List String}
    {m m' : Name × Tree} {ms : List (Name × Tree)} {s r : σ}
    (h : Reads fields scope seen (m :: m' :: ms) s r) :
    Reads fields scope seen (m' :: m :: ms) s r := by
  cases h with
  | field known unseen stored rest =>
    cases rest with
    | field known' unseen' stored' rest =>
      rw [List.mem_cons, not_or] at unseen'
      obtain ⟨s₂, first, second⟩ := independent _ (mem_of_fieldOf? known) _ (mem_of_fieldOf? known')
        (Ne.symm unseen'.1) _ _ _ _ _ stored stored'
      refine .field known' unseen'.2 first (.field known ?_ second (rest.seen_subset ?_))
      · rw [List.mem_cons, not_or]
        exact ⟨Ne.symm unseen'.1, unseen⟩
      · exact (List.Perm.swap _ _ _).subset
    | other unknown' sound' rest => exact .other unknown' sound' (.field known unseen stored rest)
  | other unknown sound rest =>
    cases rest with
    | field known' unseen' stored' rest =>
      exact .field known' unseen' stored' (.other unknown sound rest)
    | other unknown' sound' rest => exact .other unknown' sound' (.other unknown sound rest)

/-- **The order of the members does not matter.** -/
theorem Reads.perm (independent : Independent fields scope) {ms ms' : List (Name × Tree)}
    (perm : ms.Perm ms') {seen : List String} {s r : σ} (h : Reads fields scope seen ms s r) :
    Reads fields scope seen ms' s r := by
  induction perm generalizing seen s r with
  | nil => exact h
  | cons m _ ih =>
    cases h with
    | field known unseen stored rest => exact .field known unseen stored (ih rest)
    | other unknown sound rest => exact .other unknown sound (ih rest)
  | swap m m' ms => exact h.swap independent
  | trans _ _ ih ih' => exact ih' (ih h)

/-- What belongs to a field is met once: its field has not been seen before, and it is stored. -/
theorem Reads.met {seen : List String} {ms : List (Name × Tree)} {s r : σ}
    (h : Reads fields scope seen ms s r) {key : String} {t : Tree} (member : (some key, t) ∈ ms)
    {f : Member σ} (known : fieldOf? fields key = some f) :
    f.name ∉ seen ∧ ∃ before after, f.store scope t before = .ok after := by
  induction h with
  | done => cases member
  | field known' unseen stored _ ih =>
    rcases List.mem_cons.mp member with same | member
    · obtain ⟨name, rfl⟩ := Prod.mk.inj same
      obtain rfl := Option.some.inj name
      obtain rfl := Option.some.inj (known.symm.trans known')
      exact ⟨unseen, _, _, stored⟩
    · exact (ih member).imp_left fun later seen => later (List.mem_cons_of_mem _ seen)
  | other unknown _ _ ih =>
    rcases List.mem_cons.mp member with same | member
    · obtain ⟨name, -⟩ := Prod.mk.inj same
      obtain rfl := Option.some.inj name
      rw [known] at unknown
      cases unknown
    · exact ih member

end Reads

/-! ## What every field keeps -/

section Keeps

variable {σ α : Type} {P : σ → Prop}

/-- **What every field keeps is kept by all members.** -/
theorem Reads.keeps {fields : List (Member σ)} {scope : Scope} {seen : List String}
    {ms : List (Name × Tree)} {s r : σ}
    (keeps : ∀ f ∈ fields, ∀ t s s', f.store scope t s = .ok s' → P s → P s')
    (h : Reads fields scope seen ms s r) (start : P s) : P r := by
  induction h with
  | done => exact start
  | field known _ stored _ ih => exact ih (keeps _ (mem_of_fieldOf? known) _ _ _ stored start)
  | other _ _ _ ih => exact ih start

/-- What every field keeps is kept by fields that are given by their places. -/
theorem Shape.readItems_keeps {shape : Shape σ α} {scope : Scope} {closed : Bool} {index left : Nat}
    {fields : List (Member σ)} {ts : List Tree} {s r : σ}
    (keeps : ∀ f ∈ fields, ∀ t s s', f.store scope t s = .ok s' → P s → P s')
    (read : shape.readItems scope closed index fields ts s = .ok (r, left)) (start : P s) :
    P r := by
  induction fields generalizing index ts s with
  | nil =>
    obtain ⟨rfl, -⟩ := Prod.mk.inj (Except.ok.inj read)
    exact start
  | cons f fields ih =>
    obtain ⟨first, others⟩ := List.forall_mem_cons.mp keeps
    cases ts with
    | nil =>
      rw [Shape.readItems] at read
      split at read
      · cases read
      split at read
      · exact ih others read start
      · cases read
    | cons t ts =>
      obtain ⟨s', stored, read⟩ := bind_eq_ok_iff.mp read
      exact ih others read (first _ _ _ stored start)

/-- **What every field keeps holds of the record**, in whatever form it was written. -/
theorem Shape.decode_keeps {shape : Shape σ α} {scope : Scope} {t : Tree} {x : α}
    (keeps : ∀ f ∈ shape.fields, ∀ scope t s s', f.store scope t s = .ok s' → P s → P s')
    (start : P shape.start) (decoded : shape.decode scope t = .ok x) :
    ∃ s, P s ∧ shape.finish s = .ok x := by
  cases t with
  | array ts closed =>
    obtain ⟨inner, -, decoded⟩ := bind_eq_ok_iff.mp decoded
    obtain ⟨⟨s, left⟩, read, decoded⟩ := bind_eq_ok_iff.mp decoded
    obtain ⟨x', finished, decoded⟩ := bind_eq_ok_iff.mp decoded
    have kept := Shape.readItems_keeps (fun f member => keeps f member inner) read start
    refine ⟨s, kept, ?_⟩
    split at decoded
    · cases decoded
    split at decoded
    · obtain rfl := Except.ok.inj decoded
      exact finished
    · cases decoded
  | object ms closed =>
    obtain ⟨inner, enter, decoded'⟩ := bind_eq_ok_iff.mp decoded
    obtain ⟨-, s, reads, finished⟩ := (Shape.decode_eq_ok_iff enter).mp decoded
    exact ⟨s, reads.keeps (fun f member => keeps f member inner) start, finished⟩
  | _ => cases decoded

end Keeps

/-! ## Fields with a place of their own -/

section Places

variable {σ α β γ : Type} {f g h : Member σ} {scope : Scope}

/-- The field stores what it decodes by `put`. -/
def Stores (f : Member σ) (d : Decoder α) (put : α → σ → σ) : Prop :=
  ∀ scope t s, f.store scope t s = (do return put (← d scope t) s)

/-- A field stores what its decoder reads. -/
theorem Stores.eq_ok_iff {d : Decoder α} {put : α → σ → σ} (stores : Stores f d put) {t : Tree}
    {s r : σ} : f.store scope t s = .ok r ↔ ∃ a, d scope t = .ok a ∧ put a s = r := by
  rw [stores, bind_eq_ok_iff]
  exact exists_congr fun a => and_congr_right fun _ =>
    ⟨fun h => Except.ok.inj h, fun h => congrArg Except.ok h⟩

section Meaning

variable {d : Decoder α} {put : α → σ → σ} (stores : Stores f d put) {t : Tree} {P : Prop} {x : α}
  (means : ∀ a, d scope t = .ok a ↔ P ∧ a = x)

include stores means

/-- What has one meaning or none is stored with this meaning, if it has it. -/
theorem Stores.exists_iff {Q : σ → Prop} {s : σ} :
    (∃ s', f.store scope t s = .ok s' ∧ Q s') ↔ P ∧ Q (put x s) := by
  constructor
  · rintro ⟨s', stored, more⟩
    obtain ⟨a, read, rfl⟩ := stores.eq_ok_iff.mp stored
    obtain ⟨holds, rfl⟩ := (means a).mp read
    exact ⟨holds, more⟩
  · rintro ⟨holds, more⟩
    exact ⟨_, stores.eq_ok_iff.mpr ⟨x, (means x).mpr ⟨holds, rfl⟩, rfl⟩, more⟩

/-- A member that is stored is read first, and then the rest is. -/
theorem Stores.reads_iff {fields : List (Member σ)} {key : String}
    (known : fieldOf? fields key = some f) {seen : List String} {rest : List (Name × Tree)}
    {s r : σ} :
    Reads fields scope seen ((some key, t) :: rest) s r ↔
      f.name ∉ seen ∧ P ∧ Reads fields scope (f.name :: seen) rest (put x s) r := by
  rw [reads_field_iff known, stores.exists_iff means]

/-- An item that is stored is read first, and then the rest is. -/
theorem Stores.readItems_iff {shape : Shape σ γ} {closed : Bool} {index : Nat}
    {fields : List (Member σ)} {ts : List Tree} {s : σ} {r : σ × Nat} :
    shape.readItems scope closed index (f :: fields) (t :: ts) s = .ok r ↔
      P ∧ shape.readItems scope closed (index + 1) fields ts (put x s) = .ok r := by
  rw [Shape.readItems, bind_eq_ok_iff, stores.exists_iff means]

end Meaning

/-- Two fields may be read in either order, if they store in different places. -/
theorem Stores.exchange {d : Decoder α} {e : Decoder β} {p : α → σ → σ} {q : β → σ → σ}
    (first : Stores f d p) (second : Stores g e q)
    (apart : ∀ a b s, q b (p a s) = p a (q b s)) : Exchange scope f g := by
  intro t u s s₁ r stored stored'
  obtain ⟨a, read, rfl⟩ := first.eq_ok_iff.mp stored
  obtain ⟨b, read', rfl⟩ := second.eq_ok_iff.mp stored'
  exact ⟨q b s, second.eq_ok_iff.mpr ⟨b, read', rfl⟩,
    first.eq_ok_iff.mpr ⟨a, read, (apart a b s).symm⟩⟩

/-- **Three fields that are stored in places apart** do not touch each other. -/
theorem independent_of_stores {d : Decoder α} {e : Decoder β} {k : Decoder γ} {p : α → σ → σ}
    {q : β → σ → σ} {r : γ → σ → σ} (first : Stores f d p) (second : Stores g e q)
    (third : Stores h k r) (pq : ∀ a b s, q b (p a s) = p a (q b s))
    (pr : ∀ a c s, r c (p a s) = p a (r c s)) (qr : ∀ b c s, r c (q b s) = q b (r c s)) :
    Independent [f, g, h] scope := by
  intro x hx y hy other
  simp only [List.mem_cons, List.not_mem_nil, or_false] at hx hy
  rcases hx with rfl | rfl | rfl <;> rcases hy with rfl | rfl | rfl
  · exact absurd rfl other
  · exact first.exchange second pq
  · exact first.exchange third pr
  · exact second.exchange first fun b a s => (pq a b s).symm
  · exact absurd rfl other
  · exact second.exchange third qr
  · exact third.exchange first fun c a s => (pr a c s).symm
  · exact third.exchange second fun c b s => (qr b c s).symm
  · exact absurd rfl other

end Places

/-! ## Names of fields -/

/-- **Every name belongs to one field.** -/
theorem fieldOf?_of_mem {σ : Type} {fields : List (Member σ)}
    (distinct : (fieldNames fields).flatten.Nodup) {f : Member σ} (member : f ∈ fields)
    {key : String} (named : key ∈ f.name :: f.aliases) : fieldOf? fields key = some f := by
  have answers (g : Member σ) : g.answersTo key = true ↔ key ∈ g.name :: g.aliases := by
    simp [Member.answersTo]
  induction fields with
  | nil => cases member
  | cons g fields ih =>
    rw [fieldNames, List.map_cons, List.flatten_cons, List.nodup_append] at distinct
    obtain ⟨-, others, apart⟩ := distinct
    rw [fieldOf?]
    rcases List.mem_cons.mp member with rfl | member
    · rw [List.find?_cons, (answers f).mpr named]
    · have later : key ∈ (fieldNames fields).flatten :=
        List.mem_flatten.mpr ⟨_, List.mem_map_of_mem member, named⟩
      have notHere : g.answersTo key = false := by
        rw [Bool.eq_false_iff, ne_eq, answers]
        exact fun first => apart key first key later rfl
      rw [List.find?_cons, notHere]
      exact ih others member

/-- A name that no field has is foreign. -/
theorem fieldOf?_eq_none {σ : Type} {fields : List (Member σ)} {key : String}
    (unknown : ∀ group ∈ fieldNames fields, key ∉ group) : fieldOf? fields key = none := by
  refine List.find?_eq_none.mpr fun f member answers => ?_
  refine unknown _ (List.mem_map_of_mem member) ?_
  simpa [Member.answersTo] using answers

/-- Names of one field are names of the same field. -/
theorem fieldOf?_eq {σ : Type} {fields : List (Member σ)}
    (distinct : (fieldNames fields).flatten.Nodup) {group : List String}
    (names : group ∈ fieldNames fields) :
    ∃ f ∈ fields, ∀ key ∈ group, fieldOf? fields key = some f := by
  obtain ⟨f, member, rfl⟩ := List.mem_map.mp names
  exact ⟨f, member, fun key named => fieldOf?_of_mem distinct member named⟩

/-- It does not matter by which of its names a field is asked for, also among the names of
others. -/
theorem fieldOf?_same {σ : Type} {fields : List (Member σ)} {names : List (List String)}
    (distinct : names.flatten.Nodup) (listed : (fieldNames fields).Sublist names)
    {group : List String} (member : group ∈ names) {key key' : String} (first : key ∈ group)
    (second : key' ∈ group) : fieldOf? fields key = fieldOf? fields key' := by
  by_cases own : group ∈ fieldNames fields
  · obtain ⟨f, -, field⟩ := fieldOf?_eq (distinct.sublist listed.flatten) own
    rw [field key first, field key' second]
  · have foreign (x : String) (named : x ∈ group) : fieldOf? fields x = none := by
      refine fieldOf?_eq_none fun other names inside => own ?_
      have apart := (List.nodup_flatten.mp distinct).2
      have same : group = other := by
        by_contra different
        have : Std.Symm (List.Disjoint (α := String)) := ⟨fun _ _ h => List.Disjoint.symm h⟩
        exact apart.forall member (listed.subset names) different named inside
      exact same ▸ names
    rw [foreign key first, foreign key' second]

/-! ## Other ways to say the same -/

/-- **The members say the same**, for whoever knows fields by these names. `extra` is what may
stand in members that nobody asks for, and `inside` what may be done within a member. Since members
may be put in another order, what may be done to the first may be done to any. -/
inductive Rephrased (names : List (List String)) (extra : Tree → Prop)
    (inside : String → Tree → Tree → Prop) : List (Name × Tree) → List (Name × Tree) → Prop where
  | reordered {ms ms' : List (Name × Tree)} : ms.Perm ms' → Rephrased names extra inside ms ms'
  | renamed {group : List String} {key key' : String} {t : Tree} {ms : List (Name × Tree)} :
      group ∈ names → key ∈ group → key' ∈ group →
      Rephrased names extra inside ((some key, t) :: ms) ((some key', t) :: ms)
  | added {key : String} {t : Tree} {ms : List (Name × Tree)} :
      (∀ group ∈ names, key ∉ group) → extra t →
      Rephrased names extra inside ms ((some key, t) :: ms)
  | within {key : String} {t t' : Tree} {ms : List (Name × Tree)} : inside key t t' →
      Rephrased names extra inside ((some key, t) :: ms) ((some key, t') :: ms)
  | trans {ms ms' ms'' : List (Name × Tree)} : Rephrased names extra inside ms ms' →
      Rephrased names extra inside ms' ms'' → Rephrased names extra inside ms ms''

section Rephrased

variable {names : List (List String)} {extra : Tree → Prop} {inside : String → Tree → Tree → Prop}

/-- What holds of all members still does, if it holds of those that were added and is not lost
with a name or within a member. -/
theorem Rephrased.forall {P : Name × Tree → Prop} {ms ms' : List (Name × Tree)}
    (rephrased : Rephrased names extra inside ms ms')
    (renamed : ∀ key key' t, P (some key, t) → P (some key', t))
    (added : ∀ key t, extra t → P (some key, t))
    (kept : ∀ key t t', inside key t t' → P (some key, t) → P (some key, t'))
    (all : ∀ m ∈ ms, P m) : ∀ m ∈ ms', P m := by
  induction rephrased with
  | reordered perm => exact fun m member => all m (perm.mem_iff.mpr member)
  | renamed _ _ _ =>
    rw [List.forall_mem_cons] at all ⊢
    exact ⟨renamed _ _ _ all.1, all.2⟩
  | added _ fine =>
    rw [List.forall_mem_cons]
    exact ⟨added _ _ fine, all⟩
  | within change =>
    rw [List.forall_mem_cons] at all ⊢
    exact ⟨kept _ _ _ change all.1, all.2⟩
  | trans _ _ ih ih' => exact ih' (ih all)

/-- **Members that say the same make the same record.** -/
theorem Reads.rephrased {σ : Type} {fields : List (Member σ)} {scope : Scope}
    (independent : Independent fields scope) (distinct : names.flatten.Nodup)
    (listed : (fieldNames fields).Sublist names)
    (sound : ∀ t, extra t → t.isSound = true)
    (kept : ∀ key t t', inside key t t' → t.isSound = true → t'.isSound = true)
    (stored : ∀ key t t', inside key t t' → ∀ f, fieldOf? fields key = some f →
      ∀ s r, f.store scope t s = .ok r → f.store scope t' s = .ok r)
    {ms ms' : List (Name × Tree)} (rephrased : Rephrased names extra inside ms ms')
    {seen : List String} {s r : σ} (h : Reads fields scope seen ms s r) :
    Reads fields scope seen ms' s r := by
  -- on the way in which it is said differently; what is read stays the same at each step
  induction rephrased with
  | reordered perm => exact h.perm independent perm
  | renamed member first second =>
    have field := fieldOf?_same distinct listed member first second
    cases h with
    | field known unseen stored rest => exact .field (field ▸ known) unseen stored rest
    | other none sound rest => exact .other (field ▸ none) sound rest
  | added other fine =>
    have unknown := fieldOf?_eq_none fun group names => other group (listed.subset names)
    exact .other unknown (sound _ fine) h
  | within change =>
    cases h with
    | field known unseen done rest =>
      exact .field known unseen (stored _ _ _ change _ known _ _ done) rest
    | other none fine rest => exact .other none (kept _ _ _ change fine) rest
  | trans _ _ ih ih' => exact ih' (ih h)

end Rephrased

/-! ## Fields that are given twice -/

/-- **A field is given twice**, under one name or under two. -/
def GivenTwice (names : List (List String)) (ms : List (Name × Tree)) : Prop :=
  ∃ group ∈ names, ∃ key ∈ group, ∃ key' ∈ group, ∃ (t t' : Tree)
    (before between after : List (Name × Tree)),
    ms = before ++ (some key, t) :: (between ++ (some key', t') :: after)

/-- **What is read gives no field twice**, by whatever names. -/
theorem Reads.not_givenTwice {σ : Type} {fields : List (Member σ)} {scope : Scope}
    (distinct : (fieldNames fields).flatten.Nodup) {seen : List String} {ms : List (Name × Tree)}
    {s r : σ} (h : Reads fields scope seen ms s r) : ¬ GivenTwice (fieldNames fields) ms := by
  rintro ⟨group, names, key, first, key', second, t, t', before, between, after, rfl⟩
  obtain ⟨f, -, field⟩ := fieldOf?_eq distinct names
  induction before generalizing seen s with
  | nil =>
    cases h with
    | field known _ _ rest =>
      obtain rfl := Option.some.inj ((field key first).symm.trans known)
      exact (rest.met (List.mem_append_right _ List.mem_cons_self) (field key' second)).1
        List.mem_cons_self
    | other unknown _ _ =>
      rw [field key first] at unknown
      cases unknown
  | cons m before ih =>
    cases h with
    | field _ _ _ rest => exact ih rest
    | other _ _ rest => exact ih rest

end CompilerSession.Json
