/-
The budget for automatic restarts.

A compiler that crashes right after every start must not be restarted for ever.
After a crash one restart is taken from a budget of three; a client that asks for a
start or a restart itself fills the budget again.
-/

set_option autoImplicit false

namespace CompilerSession

/-- **How many automatic restarts were used** since the budget was last filled. -/
structure Budget where
  used : Nat
  deriving DecidableEq, Repr, Inhabited

namespace Budget

/-- The number of restarts in a full budget. -/
def limit : Nat := 3

def full : Budget := ⟨0⟩

/-- **Take one restart**, if one is left. -/
def take? (b : Budget) : Option Budget :=
  if b.used < limit then some ⟨b.used + 1⟩ else none

end Budget

end CompilerSession
