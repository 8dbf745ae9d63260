import CompilerSession.Json.Fault

/-
Decoding: from a tree to a record.

A record may be written as an object or as an array of its fields in order. The
rules are the same for all records. A member whose name is not known is skipped.
A field may go by several names and be given once. Fields are decoded as they
come, so the first fault from the left is the one that is reported. What differs
is where the tree comes from, because that decides how deep containers may be
nested and what is said about an array with too many items; a `Scope` carries
both.
-/

set_option autoImplicit false

namespace CompilerSession.Json

/-- Where a tree comes from. -/
inductive Origin where
  /-- The text itself is being read. -/
  | text
  /-- The value was read before. -/
  | value
  /-- The tree is a member that was set aside while the members around it were read. -/
  | member
  deriving DecidableEq, Repr

/-- The circumstances of decoding. -/
structure Scope where
  origin : Origin
  /-- How many more containers may be open at the same time; no limit if absent. -/
  room : Option Nat
  deriving DecidableEq, Repr

/-- At most 127 containers may be open at the same time. -/
def depthLimit : Nat := 127

def Scope.ofText : Scope := ⟨.text, some depthLimit⟩

def Scope.ofValue : Scope := ⟨.value, none⟩

/-- Reading a member that was set aside; its nesting was checked then. -/
def Scope.ofMember : Scope := ⟨.member, none⟩

/-- Inside one more container. -/
def Scope.enter (s : Scope) : Except Fault Scope :=
  match s.room with
  | none => .ok s
  | some 0 => .error .malformed
  | some (n + 1) => .ok { s with room := some n }

/-- **A decoder.** -/
abbrev Decoder (α : Type) := Scope → Tree → Except Fault α

/-! ## Single values -/

def text : Decoder String := fun _ t =>
  match t with
  | .text s => .ok s
  | t => .error (t.mismatch "a string")

def natBelow (bound : Nat) (expected : String) : Decoder Nat := fun _ t =>
  match t with
  | .number (.integer n) =>
    if 0 ≤ n ∧ n < bound then .ok n.toNat
    else .error (.invalidValue (Number.integer n).described expected)
  | t => .error (t.mismatch expected)

def word32 : Decoder UInt32 := fun scope t =>
  (natBelow UInt32.size "u32" scope t).map UInt32.ofNat

def word64 : Decoder Nat :=
  natBelow UInt64.size "u64"

/-- Null stands for nothing. -/
def optional {α : Type} (d : Decoder α) : Decoder (Option α) := fun scope t =>
  match t with
  | .null => .ok none
  | t => (d scope t).map some

/-- Something has to be there. -/
def always {α : Type} (d : Decoder α) : Decoder (Option α) := fun scope t =>
  (d scope t).map some

def items {α : Type} (d : Decoder α) (scope : Scope) : List Tree → Except Fault (List α)
  | [] => .ok []
  | t :: rest => do
    let x ← d scope t
    let xs ← items d scope rest
    return x :: xs

def list {α : Type} (d : Decoder α) : Decoder (List α) := fun scope t =>
  match t with
  | .array ts closed => do
    let inner ← scope.enter
    let xs ← items d inner ts
    if closed then return xs else throw .malformed
  | t => .error (t.mismatch "a sequence")

def nameText : Name → Except Fault String
  | some s => .ok s
  | none => .error .malformed

/-- All members of an object, in the order of the text. -/
def entries {α : Type} (d : Decoder α) (scope : Scope) :
    List (Name × Tree) → Except Fault (List (String × α))
  | [] => .ok []
  | (name, t) :: rest => do
    let key ← nameText name
    let x ← d scope t
    let xs ← entries d scope rest
    return (key, x) :: xs

/-- A map from names; the last setting of a name counts. -/
def map {α : Type} (d : Decoder α) : Decoder (List (String × α)) := fun scope t =>
  match t with
  | .object ms closed => do
    let inner ← scope.enter
    let xs ← entries d inner ms
    if closed then return putAll xs else throw .malformed
  | t => .error (t.mismatch "a map")

mutual

/-- **Any value.** Nothing is expected of it, but its text has to have a value. -/
def anyValue (scope : Scope) : Tree → Except Fault Value
  | .null => .ok .null
  | .bool b => .ok (.bool b)
  | .number n => .ok (.number n)
  | .text s => .ok (.text s)
  | .array ts closed => do
    let inner ← scope.enter
    let xs ← anyValues inner ts
    if closed then return .array xs else throw .malformed
  | .object ms closed => do
    let inner ← scope.enter
    let xs ← anyMembers inner ms
    if closed then return Value.ofMembers xs else throw .malformed
  | .tooLarge | .halfPair | .broken => .error .malformed

def anyValues (scope : Scope) : List Tree → Except Fault (List Value)
  | [] => .ok []
  | t :: rest => do
    let x ← anyValue scope t
    let xs ← anyValues scope rest
    return x :: xs

def anyMembers (scope : Scope) : List (Name × Tree) → Except Fault (List (String × Value))
  | [] => .ok []
  | (name, t) :: rest => do
    let key ← nameText name
    let x ← anyValue scope t
    let xs ← anyMembers scope rest
    return (key, x) :: xs

end

def skip (t : Tree) : Except Fault Unit :=
  if t.isSound then .ok () else .error .malformed

/-! ## Choices by name -/

/-- **One of a fixed set of names.** A name is written as a text, or as an object that
has it as its only member, with null as the value. Anything else is not even an attempt
at a name. -/
def oneOf {α : Type} (names : List String) (find? : String → Option α) : Decoder α :=
  fun scope t =>
    let named (s : String) : Except Fault α :=
      match find? s with
      | some x => .ok x
      | none => .error (.unknownVariant s names)
    match t with
    | .text s => named s
    | .object ((name, value) :: rest) closed => do
      let _ ← scope.enter
      let x ← named (← nameText name)
      match value with
      | .null => if rest.isEmpty ∧ closed then return x else throw .malformed
      | other => throw (other.mismatch "unit")
    | _ => .error .malformed

/-! ## Records -/

/-- **A field of a record that is being put together** as a `σ`. -/
structure Member (σ : Type) where
  /-- The name that messages use. -/
  name : String
  /-- Further names under which it is accepted. -/
  aliases : List String
  /-- Decode the field and store it. -/
  store : Scope → Tree → σ → Except Fault σ
  /-- An array may end before this field. -/
  defaulted : Bool

/-- The field answers to a name. -/
def Member.answersTo {σ : Type} (f : Member σ) (key : String) : Bool :=
  key = f.name || f.aliases.contains key

/-- **How a record is read.** -/
structure Shape (σ α : Type) where
  /-- The record's name in messages. -/
  name : String
  fields : List (Member σ)
  /-- The record before any field is read. -/
  start : σ
  /-- The record when all fields are read; a required one may be missing. -/
  finish : σ → Except Fault α

namespace Shape

variable {σ α : Type}

/-- What messages call the record. -/
def title (shape : Shape σ α) : String :=
  "struct " ++ shape.name

/-- What messages call the record when its array is too short. -/
def titleWithCount (shape : Shape σ α) : String :=
  let n := shape.fields.length
  shape.title ++ " with " ++ n.repr ++ (if n = 1 then " element" else " elements")

/-- The fields from an array: `index` of them are read, `fields` are still to come. -/
def readItems (shape : Shape σ α) (scope : Scope) (closed : Bool) (index : Nat) :
    List (Member σ) → List Tree → σ → Except Fault (σ × Nat)
  | [], rest, s => .ok (s, rest.length)
  | f :: fs, [], s =>
    if closed = false then .error .malformed
    else if f.defaulted then readItems shape scope closed (index + 1) fs [] s
    else .error (.invalidLength index shape.titleWithCount)
  | f :: fs, t :: rest, s => do
    readItems shape scope closed (index + 1) fs rest (← f.store scope t s)

/-- The fields from members, in the order of the text; `seen` are the fields met. -/
def readMembers (fields : List (Member σ)) (scope : Scope) :
    List String → List (Name × Tree) → σ → Except Fault σ
  | _, [], s => .ok s
  | seen, (name, t) :: rest, s => do
    let key ← nameText name
    match fields.find? (·.answersTo key) with
    | some f =>
      if seen.contains f.name then throw (.duplicateField f.name)
      else readMembers fields scope (f.name :: seen) rest (← f.store scope t s)
    | none =>
      skip t
      readMembers fields scope seen rest s

/-- What is said about an array of `length` items that has more than the fields. -/
def surplus (shape : Shape σ α) (scope : Scope) (length : Nat) : Fault :=
  match scope.origin with
  | .text => .malformed
  | .value => .invalidLength length "fewer elements in array"
  | .member =>
    let n := shape.fields.length
    .invalidLength length (n.repr ++ (if n = 1 then " element" else " elements") ++ " in sequence")

/-- **Decoding a record.** -/
def decode (shape : Shape σ α) : Decoder α := fun scope t =>
  match t with
  | .array ts closed => do
    let inner ← scope.enter
    let (s, left) ← readItems shape inner closed 0 shape.fields ts shape.start
    let x ← shape.finish s
    if left ≠ 0 then throw (shape.surplus scope ts.length)
    else if closed then return x
    else throw .malformed
  | .object ms closed => do
    let inner ← scope.enter
    let s ← readMembers shape.fields inner [] ms shape.start
    if closed then shape.finish s else throw .malformed
  | t => .error (t.mismatch shape.title)

end Shape

/-- A required field, or the fault that it is missing. -/
def required {α : Type} (name : String) : Option α → Except Fault α
  | some x => .ok x
  | none => .error (.missingField name)

/-! ## Whole texts and values -/

/-- **Decode a text.** Nothing but blanks may follow. -/
def decodeText {α : Type} (d : Decoder α) (s : String) : Except Fault α := do
  let document := Document.ofText s.toList
  let x ← d .ofText document.tree
  if document.trailing then throw .malformed else return x

/-- **Decode a value** that was read before. -/
def decodeValue {α : Type} (d : Decoder α) (v : Value) : Except Fault α :=
  d .ofValue (Tree.ofValue v)

def parse (s : String) : Except Fault Value :=
  decodeText anyValue s

end CompilerSession.Json
