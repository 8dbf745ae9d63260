import CompilerSession.Json.Number

/-
JSON values.

Text that is read without any expectation becomes a `Value`. The members of an
object are kept in the order of their names and every name occurs once, so two
objects that list the same members in different orders are the same value; a
name that is given twice keeps its last value. Names are ordered by code point,
which is the order of their UTF-8 bytes.
-/

set_option autoImplicit false

namespace CompilerSession.Json

/-- **A JSON value.** -/
inductive Value where
  | null
  | bool (b : Bool)
  | number (n : Number)
  | text (s : String)
  | array (items : List Value)
  | object (members : List (String × Value))
  deriving Repr, Inhabited

/-! ## Maps in name order

Objects of free JSON and the environment of a process are both finite maps from
names, kept as lists in name order. -/

/-- Set a name in a list that is in name order. -/
def put {α : Type} (name : String) (x : α) : List (String × α) → List (String × α)
  | [] => [(name, x)]
  | (other, y) :: rest =>
    if name < other then (name, x) :: (other, y) :: rest
    else if name = other then (name, x) :: rest
    else (other, y) :: put name x rest

/-- The map of a list of settings, later ones winning. -/
def putAll {α : Type} (settings : List (String × α)) : List (String × α) :=
  settings.foldl (fun map m => put m.1 m.2 map) []

def lookup? {α : Type} (name : String) : List (String × α) → Option α
  | [] => none
  | (other, y) :: rest => if name = other then some y else lookup? name rest

namespace Value

/-- An object from members in any order. -/
def ofMembers (members : List (String × Value)) : Value :=
  .object (putAll members)

def nat (n : Nat) : Value :=
  .number (.integer n)

def int (n : Int) : Value :=
  .number (.integer n)

/-- A list of texts as a value. -/
def texts (xs : List String) : Value :=
  .array (xs.map .text)

/-- A map of texts as a value. -/
def ofMap (m : List (String × String)) : Value :=
  .object (m.map fun (k, v) => (k, .text v))

mutual

/-- **The same value with all members in the order of their names.** -/
def sorted : Value → Value
  | .array items => .array (sortedItems items)
  | .object members => ofMembers (sortedMembers members)
  | v => v

def sortedItems : List Value → List Value
  | [] => []
  | x :: rest => sorted x :: sortedItems rest

def sortedMembers : List (String × Value) → List (String × Value)
  | [] => []
  | (name, x) :: rest => (name, sorted x) :: sortedMembers rest

end

def ofOption {α : Type} (f : α → Value) : Option α → Value
  | some x => f x
  | none => .null

/-- A member that is left out when there is nothing to say. -/
def member? {α : Type} (name : String) (f : α → Value) : Option α → List (String × Value)
  | some x => [(name, f x)]
  | none => []

end Value

end CompilerSession.Json
